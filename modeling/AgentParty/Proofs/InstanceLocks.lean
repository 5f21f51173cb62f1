import AgentParty.Cli.InstanceLock
import Mathlib.Tactic.SplitIfs

/-! One live call at a time owns the lock of a path, in every run in which no contender takes
a lock that is still being written for a stale one, and every file that a takeover unlinks is
the one that was judged. -/

namespace AgentParty
namespace InstanceLock

section Probe

variable {inspectProcess : Int → ProcessIdentity}

/-- Without a birth time the pid alone is looked at. -/
theorem sameLiveProcess_none {pid : Int} {startedAt : Option Int}
    (h : sameLiveProcess inspectProcess pid startedAt = true) :
    sameLiveProcess inspectProcess pid none = true := by
  simp only [sameLiveProcess, Bool.and_eq_true] at h ⊢
  exact ⟨h.1, trivial⟩

theorem holderProcessAlive_body (caller : Caller) :
    holderProcessAlive inspectProcess (some caller.body) =
      sameLiveProcess inspectProcess caller.process.pid (some caller.process.startedAt) := rfl

theorem holderAlive_reclaimBody (caller : Caller) :
    holderAlive inspectProcess (some caller.reclaimBody) =
      sameLiveProcess inspectProcess caller.process.pid none := by
  simp [holderAlive, holderProcessAlive, Caller.reclaimBody]

end Probe

/-- The call has the lock file as its own. -/
def Call.owns : Call → Bool
  | .filling | .refilling | .leaving .held | .holding | .releasing false | .dropping false => true
  | _ => false

/-- The call has its lock file, and its body in it. -/
def Call.hasWritten : Call → Bool
  | .leaving .held | .holding | .releasing false | .dropping false => true
  | _ => false

/-- The call has the reclaim file as its own. -/
def Call.isInside : Call → Bool
  | .fillingReclaim _ | .inside _ | .judgingInside _ _ | .unlinking _ _ | .recreating _
  | .refilling | .leaving _ => true
  | _ => false

/-- `staleGeneration`. -/
def Call.staleGeneration : Call → Option Generation
  | .creating stale | .reading stale | .judging _ stale | .judgingOrphan _ stale
  | .waiting _ _ stale | .judgingWait _ _ stale | .waited _ _ stale => stale
  | .reclaiming stale | .readingReclaim stale | .judgingReclaim stale _
  | .removingReclaim stale _ | .fillingReclaim stale | .inside stale | .judgingInside stale _
  | .unlinking stale _ | .recreating stale | .leaving (.retry stale) => some stale
  | _ => none

namespace Machine

variable (callers : Callers)

/-- A live process has created the lock file and has yet to write it. -/
def BeingWritten (s : Machine) : Prop :=
  ∃ file ∈ s.path, file.body = none ∧
    ∃ id ∈ file.creator, (callers.caller id).process ∈ s.live

instance (s : Machine) : Decidable (s.BeingWritten callers) :=
  inferInstanceAs (Decidable (∃ file ∈ s.path, file.body = none ∧
    ∃ id ∈ file.creator, (callers.caller id).process ∈ s.live))

/-- What a takeover relies on at its next step. A lock file that does not parse is not being
written by a live process; where there was no lock file there is still none to unlink; and
the reclaim file to unlink is of the call that was judged. -/
def Reliable (s : Machine) : Option Call → Prop
  | some (.inside stale) => ¬ (stale = .legacy none ∧ s.BeingWritten callers)
  | some (.unlinking _ none) => s.path = none
  | some (.removingReclaim _ seen) => ∀ file ∈ s.reclaimPath, file.creator = seen.creator
  | _ => True

instance (s : Machine) : (call : Option Call) → Decidable (s.Reliable callers call)
  | some (.inside _) => inferInstanceAs (Decidable (¬ (_ ∧ _)))
  | some (.unlinking _ none) => inferInstanceAs (Decidable (_ = _))
  | some (.removingReclaim _ seen) =>
    inferInstanceAs (Decidable (∀ file ∈ s.reclaimPath, file.creator = seen.creator))
  | none | some (.creating _) | some .filling | some (.reading _) | some (.judging _ _)
  | some (.judgingOrphan _ _) | some (.waiting _ _ _) | some (.judgingWait _ _ _)
  | some (.waited _ _ _) | some (.reclaiming _) | some (.readingReclaim _)
  | some (.judgingReclaim _ _) | some (.fillingReclaim _) | some (.judgingInside _ _)
  | some (.unlinking _ (some _)) | some (.recreating _) | some .refilling | some (.leaving _)
  | some (.denied _) | some .holding | some (.releasing _) | some (.dropping _)
  | some .released => inferInstanceAs (Decidable True)

def ReliableAt (s : Machine) : Event → Prop
  | .step id _ _ => s.Reliable callers (s.calls id)
  | _ => True

instance (s : Machine) : (e : Event) → Decidable (s.ReliableAt callers e)
  | .step id _ _ => inferInstanceAs (Decidable (s.Reliable callers (s.calls id)))
  | .start _ | .die _ | .acquireInstanceLock _ | .release _ => inferInstanceAs (Decidable True)

def Live (s : Machine) (id : ℕ) : Prop := (callers.caller id).process ∈ s.live

def Gone (s : Machine) (id : ℕ) : Prop := (callers.caller id).process ∈ s.gone

def Started (s : Machine) (id : ℕ) : Prop := s.Live callers id ∨ s.Gone callers id

/-- Nobody who lives has made the file. -/
def Abandoned (s : Machine) (file : LockFile) : Prop :=
  ∀ id, file.creator = some id → s.Gone callers id

/-- An old file has no call's id; a call's has its body, once written. -/
def LockMade (s : Machine) (file : LockFile) : Prop :=
  match file.creator with
  | none => ∀ id, file.body.bind (·.id) ≠ some (callers.caller id).lockId
  | some id => s.Started callers id ∧
      (file.body = none ∨ file.body = some (callers.caller id).body)

def ReclaimMade (s : Machine) (file : LockFile) : Prop :=
  ∀ id, file.creator = some id → s.Started callers id ∧
    (file.body = none ∨ file.body = some (callers.caller id).reclaimBody)

/-- A holder that has a call's id is that call. -/
def Genuine (s : Machine) (held : Option LockHolder) : Prop :=
  ∀ id, held.bind (·.id) = some (callers.caller id).lockId →
    s.Started callers id ∧ held = some (callers.caller id).body

/-- The call of a stale generation is gone. -/
def GoneBy (s : Machine) (stale : Generation) : Prop :=
  ∀ id, stale = .id (callers.caller id).lockId → s.Gone callers id

/-- What a live call knows from what it read. -/
def Saw (s : Machine) : Call → Prop
  | .judging held _ | .judgingOrphan held _ => s.Genuine callers held
  | .judgingReclaim _ seen => ∀ file, seen = some file → s.ReclaimMade callers file
  | .removingReclaim _ seen => s.Abandoned callers seen
  | .judgingInside stale seen => ∀ file, seen = some file → generationOf file.body = stale →
      s.path = some file ∧ s.Abandoned callers file
  | .unlinking _ seen => ∀ file, seen = some file →
      s.path = some file ∧ s.Abandoned callers file
  | .dropping true => False
  | _ => True

/-- How a live call stands to the two files. -/
structure Fits (s : Machine) (id : ℕ) (call : Call) : Prop where
  owner : call.owns = true → ∃ body, s.path = some ⟨some id, body⟩ ∧
    (call.hasWritten = true → body = some (callers.caller id).body)
  critical : call.isInside = true → ∃ body, s.reclaimPath = some ⟨some id, body⟩
  stale : ∀ g, call.staleGeneration = some g → s.GoneBy callers g
  saw : s.Saw callers call

structure Sound (s : Machine) : Prop where
  apart : ∀ p ∈ s.live, p ∉ s.gone
  started : ∀ id call, s.calls id = some call → s.Started callers id
  pathMade : ∀ file, s.path = some file → s.LockMade callers file
  reclaimMade : ∀ file, s.reclaimPath = some file → s.ReclaimMade callers file
  owned : ∀ id body, s.path = some ⟨some id, body⟩ → s.Live callers id →
    ∃ call, s.calls id = some call ∧ call.owns = true
  fits : ∀ id call, s.calls id = some call → s.Live callers id → s.Fits callers id call

/-- A change of the files by the call leaves the others as they were. -/
structure Keeps (s s' : Machine) (id : ℕ) : Prop where
  calls : s'.calls = s.calls
  live : s'.live = s.live
  gone : s'.gone = s.gone
  pathMade : ∀ file, s'.path = some file → s'.LockMade callers file
  reclaimMade : ∀ file, s'.reclaimPath = some file → s'.ReclaimMade callers file
  owned : ∀ id' body, id' ≠ id → s'.path = some ⟨some id', body⟩ →
    ∃ body', s.path = some ⟨some id', body'⟩
  fits : ∀ id' call, id' ≠ id → s.Live callers id' → s.Fits callers id' call →
    s'.Fits callers id' call

variable {callers} {s s' : Machine} {id : ℕ}

theorem Sound.moveTo {call' : Call} (h : Sound callers s) (hk : Keeps callers s s' id)
    (hstarted : s.Started callers id) (hfits : s'.Fits callers id call')
    (hown : ∀ body, s'.path = some ⟨some id, body⟩ → call'.owns = true) :
    Sound callers (s'.moveTo id call') where
  apart := by
    change ∀ p ∈ s'.live, p ∉ s'.gone
    rw [hk.live, hk.gone]
    exact h.apart
  started := fun id' call'' hcall'' => by
    have hst : s.Started callers id' := by
      by_cases hid : id' = id
      · exact hid ▸ hstarted
      · change Function.update s'.calls id (some call') id' = _ at hcall''
        rw [Function.update_of_ne hid, hk.calls] at hcall''
        exact h.started id' call'' hcall''
    change _ ∈ s'.live ∨ _ ∈ s'.gone
    rw [hk.live, hk.gone]
    exact hst
  pathMade := hk.pathMade
  reclaimMade := hk.reclaimMade
  owned := fun id' body hpath hlive => by
    change ∃ c, Function.update s'.calls id (some call') id' = some c ∧ _
    by_cases hid : id' = id
    · subst hid
      rw [Function.update_self]
      exact ⟨call', rfl, hown body hpath⟩
    · obtain ⟨body', hbody'⟩ := hk.owned id' body hid hpath
      change _ ∈ s'.live at hlive
      rw [hk.live] at hlive
      rw [Function.update_of_ne hid, hk.calls]
      exact h.owned id' body' hbody' hlive
  fits := fun id' call'' hcall'' hlive => by
    have hfit : s'.Fits callers id' call'' := by
      change Function.update s'.calls id (some call') id' = _ at hcall''
      by_cases hid : id' = id
      · subst hid
        rw [Function.update_self] at hcall''
        exact Option.some.inj hcall'' ▸ hfits
      · rw [Function.update_of_ne hid, hk.calls] at hcall''
        change _ ∈ s'.live at hlive
        rw [hk.live] at hlive
        exact hk.fits id' call'' hid hlive (h.fits id' call'' hcall'' hlive)
    exact ⟨hfit.owner, hfit.critical, hfit.stale, hfit.saw⟩

theorem Saw.keep {call : Call} {p r : Option LockFile} (h : s.Saw callers call)
    (hpath : call.isInside = true → ∀ file, s.path = some file → s.Abandoned callers file →
      p = some file) : Saw callers { s with path := p, reclaimPath := r } call := by
  cases call with
  | judgingInside stale seen =>
    intro file hseen hgeneration
    obtain ⟨hfile, habandoned⟩ := h file hseen hgeneration
    exact ⟨hpath rfl file hfile habandoned, habandoned⟩
  | unlinking stale seen =>
    intro file hseen
    obtain ⟨hfile, habandoned⟩ := h file hseen
    exact ⟨hpath rfl file hfile habandoned, habandoned⟩
  | judging | judgingOrphan | judgingReclaim | removingReclaim => exact h
  | dropping again => cases again <;> exact h
  | creating | filling | reading | waiting | judgingWait | waited | reclaiming | readingReclaim
  | fillingReclaim | inside | recreating | refilling | leaving | denied | holding | releasing
  | released => trivial

theorem Fits.keep {call : Call} {p r : Option LockFile} (h : s.Fits callers id call)
    (howner : ∀ body, s.path = some ⟨some id, body⟩ → p = some ⟨some id, body⟩)
    (hcritical : ∀ body, s.reclaimPath = some ⟨some id, body⟩ →
      ∃ body', r = some ⟨some id, body'⟩)
    (hpath : call.isInside = true → ∀ file, s.path = some file → s.Abandoned callers file →
      p = some file) : Fits callers { s with path := p, reclaimPath := r } id call where
  owner := fun ho => let ⟨body, hbody, hwritten⟩ := h.owner ho; ⟨body, howner body hbody, hwritten⟩
  critical := fun hc => let ⟨body, hbody⟩ := h.critical hc; hcritical body hbody
  stale := h.stale
  saw := h.saw.keep hpath

/-- A live call is not gone. -/
theorem Sound.not_gone (h : Sound callers s) (hlive : s.Live callers id) : ¬ s.Gone callers id :=
  h.apart _ hlive

theorem Sound.keeps_refl (h : Sound callers s) : Keeps callers s s id where
  calls := rfl
  live := rfl
  gone := rfl
  pathMade := h.pathMade
  reclaimMade := h.reclaimMade
  owned := fun _ body _ hbody => ⟨body, hbody⟩
  fits := fun _ _ _ _ hfits => hfits

theorem Sound.keeps_createPath (h : Sound callers s) (hlive : s.Live callers id)
    (hpath : s.path = none) : Keeps callers s (s.createPath id) id where
  calls := rfl
  live := rfl
  gone := rfl
  pathMade := fun file hfile => by
    obtain rfl := Option.some.inj hfile
    exact ⟨Or.inl hlive, Or.inl rfl⟩
  reclaimMade := h.reclaimMade
  owned := fun id' body hid hbody => by
    change some (LockFile.mk _ _) = _ at hbody
    simp at hbody
    exact absurd hbody.1.symm hid
  fits := fun id' call _ _ hfits => hfits.keep
    (fun body hbody => by rw [hpath] at hbody; cases hbody)
    (fun body hbody => ⟨body, hbody⟩)
    (fun _ file hfile => by rw [hpath] at hfile; cases hfile)

theorem fill_eq_some {file : Option LockFile} {body : LockHolder} {file' : LockFile}
    (h : fill file id body = some file') : ∃ before, file = some before ∧
      (before.creator = some id ∧ file' = ⟨some id, some body⟩ ∨
        before.creator ≠ some id ∧ file' = before) := by
  obtain ⟨before, rfl, hfile⟩ := Option.map_eq_some_iff.1 h
  refine ⟨before, rfl, ?_⟩
  split_ifs at hfile with hcreator
  · exact Or.inl ⟨hcreator, by rw [← hfile, hcreator]⟩
  · exact Or.inr ⟨hcreator, hfile.symm⟩

theorem fill_of_ne {file : LockFile} {body : LockHolder} (h : file.creator ≠ some id) :
    fill (some file) id body = some file := by
  simp [fill, h]

theorem Sound.keeps_writePath (h : Sound callers s) (hlive : s.Live callers id) :
    Keeps callers s (s.writePath id (callers.caller id).body) id where
  calls := rfl
  live := rfl
  gone := rfl
  pathMade := fun file hfile => by
    obtain ⟨before, hbefore, ⟨-, rfl⟩ | ⟨-, rfl⟩⟩ := fill_eq_some hfile
    · exact ⟨Or.inl hlive, Or.inr rfl⟩
    · exact h.pathMade _ hbefore
  reclaimMade := h.reclaimMade
  owned := fun id' body hid hbody => by
    obtain ⟨before, hbefore, ⟨-, heq⟩ | ⟨-, rfl⟩⟩ := fill_eq_some hbody
    · simp at heq
      exact absurd heq.1 hid
    · exact ⟨body, hbefore⟩
  fits := fun id' call hid _ hfits => hfits.keep
    (fun body hbody => by
      rw [hbody, fill_of_ne fun heq => hid (Option.some.inj heq)])
    (fun body hbody => ⟨body, hbody⟩)
    (fun _ file hfile habandoned => by
      rw [hfile, fill_of_ne fun heq => h.not_gone hlive (habandoned id heq)])

/-- The lock file is the call's own, or abandoned and the call inside. -/
theorem Sound.keeps_unlinkPath {call : Call} (h : Sound callers s) (hlive : s.Live callers id)
    (hcall : s.calls id = some call)
    (hmine : (∃ body, s.path = some ⟨some id, body⟩) ∨
      call.isInside = true ∧ ∀ file, s.path = some file → s.Abandoned callers file) :
    Keeps callers s s.unlinkPath id where
  calls := rfl
  live := rfl
  gone := rfl
  pathMade := fun file hfile => by cases hfile
  reclaimMade := h.reclaimMade
  owned := fun id' body _ hbody => by cases hbody
  fits := fun id' call' hid hlive' hfits => hfits.keep
    (fun body hbody => by
      rcases hmine with ⟨body', hmine⟩ | ⟨-, habandoned⟩
      · rw [hmine] at hbody
        simp at hbody
        exact absurd hbody.1.symm hid
      · exact absurd (habandoned _ hbody id' rfl) (h.not_gone hlive'))
    (fun body hbody => ⟨body, hbody⟩)
    (fun hinside' file hfile habandoned => by
      rcases hmine with ⟨body, hmine⟩ | ⟨hinside, -⟩
      · rw [hmine] at hfile
        obtain rfl := Option.some.inj hfile
        exact absurd (habandoned id rfl) (h.not_gone hlive)
      · obtain ⟨body, hbody⟩ := (h.fits id call hcall hlive).critical hinside
        obtain ⟨body', hbody'⟩ := hfits.critical hinside'
        rw [hbody] at hbody'
        simp at hbody'
        exact absurd hbody'.1.symm hid)

theorem Sound.keeps_createReclaim (h : Sound callers s) (hlive : s.Live callers id)
    (hreclaim : s.reclaimPath = none) : Keeps callers s (s.createReclaim id) id where
  calls := rfl
  live := rfl
  gone := rfl
  pathMade := h.pathMade
  reclaimMade := fun file hfile => by
    obtain rfl := Option.some.inj hfile
    intro id' heq
    obtain rfl := Option.some.inj heq
    exact ⟨Or.inl hlive, Or.inl rfl⟩
  owned := fun _ body _ hbody => ⟨body, hbody⟩
  fits := fun id' call _ _ hfits => hfits.keep
    (fun _ hbody => hbody)
    (fun body hbody => by rw [hreclaim] at hbody; cases hbody)
    (fun _ _ hfile _ => hfile)

theorem Sound.keeps_writeReclaim (h : Sound callers s) (hlive : s.Live callers id) :
    Keeps callers s (s.writeReclaim id (callers.caller id).reclaimBody) id where
  calls := rfl
  live := rfl
  gone := rfl
  pathMade := h.pathMade
  reclaimMade := fun file hfile => by
    obtain ⟨before, hbefore, ⟨-, rfl⟩ | ⟨-, rfl⟩⟩ := fill_eq_some hfile
    · intro id' heq
      obtain rfl := Option.some.inj heq
      exact ⟨Or.inl hlive, Or.inr rfl⟩
    · exact h.reclaimMade _ hbefore
  owned := fun _ body _ hbody => ⟨body, hbody⟩
  fits := fun id' call hid _ hfits => hfits.keep
    (fun _ hbody => hbody)
    (fun body hbody => ⟨body, by
      rw [hbody, fill_of_ne fun heq => hid (Option.some.inj heq)]⟩)
    (fun _ _ hfile _ => hfile)

/-- The reclaim file is the call's own or abandoned. -/
theorem Sound.keeps_unlinkReclaim (h : Sound callers s)
    (hmine : ∀ file, s.reclaimPath = some file →
      file.creator = some id ∨ s.Abandoned callers file) :
    Keeps callers s s.unlinkReclaim id where
  calls := rfl
  live := rfl
  gone := rfl
  pathMade := h.pathMade
  reclaimMade := fun file hfile => by cases hfile
  owned := fun _ body _ hbody => ⟨body, hbody⟩
  fits := fun id' call hid hlive' hfits => hfits.keep
    (fun _ hbody => hbody)
    (fun body hbody => by
      rcases hmine _ hbody with heq | habandoned
      · exact absurd (Option.some.inj heq) hid
      · exact absurd (habandoned id' rfl) (h.not_gone hlive'))
    (fun _ _ hfile _ => hfile)

/-- A lock file of a live call belongs to a call that owns it. -/
theorem Sound.not_mine {call : Call} (h : Sound callers s) (hlive : s.Live callers id)
    (hcall : s.calls id = some call) (howns : call.owns = false) (body : Option LockHolder) :
    s.path ≠ some ⟨some id, body⟩ := by
  intro hpath
  obtain ⟨call', hcall', howns'⟩ := h.owned id body hpath hlive
  rw [hcall] at hcall'
  obtain rfl := Option.some.inj hcall'
  rw [howns] at howns'
  cases howns'

/-- The call goes on without a file of its own. -/
theorem Sound.goesOn {call call' : Call} (h : Sound callers s) (hlive : s.Live callers id)
    (hcall : s.calls id = some call) (howns : call.owns = false) (howns' : call'.owns = false)
    (hinside' : call'.isInside = false)
    (hstale : ∀ g, call'.staleGeneration = some g → s.GoneBy callers g)
    (hsaw : s.Saw callers call') : Sound callers (s.moveTo id call') :=
  h.moveTo h.keeps_refl (Or.inl hlive)
    ⟨fun ho => absurd ho (by simp [howns']), fun hi => absurd hi (by simp [hinside']), hstale, hsaw⟩
    fun body hpath => absurd hpath (h.not_mine hlive hcall howns body)

/-- The call goes on inside the reclaim lock. -/
theorem Sound.goesOnInside {call call' : Call} (h : Sound callers s) (hlive : s.Live callers id)
    (hcall : s.calls id = some call) (howns : call.owns = false) (hinside : call.isInside = true)
    (howns' : call'.owns = false)
    (hstale : ∀ g, call'.staleGeneration = some g → s.GoneBy callers g)
    (hsaw : s.Saw callers call') : Sound callers (s.moveTo id call') :=
  h.moveTo h.keeps_refl (Or.inl hlive)
    ⟨fun ho => absurd ho (by simp [howns']), fun _ => (h.fits id call hcall hlive).critical hinside,
      hstale, hsaw⟩
    fun body hpath => absurd hpath (h.not_mine hlive hcall howns body)

theorem LockMade.genuine {file : LockFile} (h : s.LockMade callers file) :
    s.Genuine callers file.body := by
  intro id hid
  unfold LockMade at h
  cases hcreator : file.creator with
  | none =>
    rw [hcreator] at h
    exact absurd hid (h id)
  | some id' =>
    rw [hcreator] at h
    obtain ⟨hstarted, hbody | hbody⟩ := h
    · rw [hbody] at hid
      cases hid
    · rw [hbody] at hid
      obtain rfl := callers.distinct (Option.some.inj hid)
      exact ⟨hstarted, hbody⟩

/-- A lock file with a call's id is that call's. -/
theorem LockMade.creator {file : LockFile} (h : s.LockMade callers file)
    (hid : file.body.bind (·.id) = some (callers.caller id).lockId) : file.creator = some id := by
  unfold LockMade at h
  cases hcreator : file.creator with
  | none =>
    rw [hcreator] at h
    exact absurd hid (h id)
  | some id' =>
    rw [hcreator] at h
    obtain ⟨-, hbody | hbody⟩ := h
    · rw [hbody] at hid
      cases hid
    · rw [hbody] at hid
      rw [callers.distinct (Option.some.inj hid)]

theorem Sound.genuine (h : Sound callers s) : s.Genuine callers (readHolder s.path) := by
  cases hpath : s.path with
  | none =>
    intro id hid
    cases hid
  | some file => exact (h.pathMade file hpath).genuine

section Judged

variable {inspectProcess : Int → ProcessIdentity}

/-- Who is judged not to live is gone. -/
theorem Started.gone (h : s.Started callers id)
    (hprobe : ∀ p ∈ s.live, sameLiveProcess inspectProcess p.pid (some p.startedAt) = true)
    (hjudged : sameLiveProcess inspectProcess (callers.caller id).process.pid
      (some (callers.caller id).process.startedAt) = false) : s.Gone callers id := by
  refine h.resolve_left fun hlive => ?_
  rw [hprobe _ hlive] at hjudged
  cases hjudged

theorem Genuine.goneBy {held : Option LockHolder} (h : s.Genuine callers held)
    (hprobe : ∀ p ∈ s.live, sameLiveProcess inspectProcess p.pid (some p.startedAt) = true)
    (hjudged : holderProcessAlive inspectProcess held = false) :
    s.GoneBy callers (generationOf held) := by
  intro id hgeneration
  have hid : held.bind (·.id) = some (callers.caller id).lockId := by
    cases held with
    | none => cases hgeneration
    | some holder =>
      cases hholder : holder.id with
      | none => simp [generationOf, hholder] at hgeneration
      | some id' => simpa [generationOf, hholder] using hgeneration
  obtain ⟨hstarted, rfl⟩ := h id hid
  rw [holderProcessAlive_body] at hjudged
  exact hstarted.gone hprobe hjudged

theorem ReclaimMade.abandoned {file : LockFile} (h : s.ReclaimMade callers file)
    (hprobe : ∀ p ∈ s.live, sameLiveProcess inspectProcess p.pid (some p.startedAt) = true)
    (hpid : (pidOf file.body).isSome = true)
    (hjudged : holderAlive inspectProcess file.body = false) : s.Abandoned callers file := by
  intro id hcreator
  obtain ⟨hstarted, hbody | hbody⟩ := h id hcreator
  · rw [hbody] at hpid
    cases hpid
  · rw [hbody, holderAlive_reclaimBody] at hjudged
    have hdead : sameLiveProcess inspectProcess (callers.caller id).process.pid
        (some (callers.caller id).process.startedAt) = false := by
      by_contra halive
      rw [sameLiveProcess_none (by simpa using halive)] at hjudged
      cases hjudged
    exact hstarted.gone hprobe hdead

end Judged

/-- A lock file of the stale generation, read inside, is abandoned. -/
theorem Sound.abandoned {stale : Generation} {file : LockFile} (h : Sound callers s)
    (hpath : s.path = some file) (hstale : s.GoneBy callers stale)
    (hr : ¬ (stale = .legacy none ∧ s.BeingWritten callers))
    (hgeneration : generationOf file.body = stale) : s.Abandoned callers file := by
  intro id hcreator
  have hmade := h.pathMade file hpath
  unfold LockMade at hmade
  rw [hcreator] at hmade
  obtain ⟨hstarted, hbody | hbody⟩ := hmade
  · refine hstarted.resolve_left fun hlive => hr ⟨?_, file, hpath, hbody, id, hcreator, hlive⟩
    rw [← hgeneration, hbody]
    rfl
  · refine hstale id ?_
    rw [← hgeneration, hbody]
    rfl

/-- A file with the call's id at the path is the call's. -/
theorem Sound.path_of_id (h : Sound callers s)
    (hmine : (readHolder s.path).any (·.id = some (callers.caller id).lockId) = true) :
    ∃ body, s.path = some ⟨some id, body⟩ := by
  cases hpath : s.path with
  | none =>
    rw [hpath] at hmine
    cases hmine
  | some file =>
    have hid : file.body.bind (·.id) = some (callers.caller id).lockId := by
      rw [hpath] at hmine
      change file.body.any _ = true at hmine
      cases hbody : file.body with
      | none =>
        rw [hbody] at hmine
        cases hmine
      | some holder =>
        rw [hbody] at hmine
        simpa using hmine
    refine ⟨file.body, ?_⟩
    rw [← (h.pathMade file hpath).creator hid]

/-- The write of an owner is in its file. -/
theorem Fits.written {call : Call} (h : s.Fits callers id call) (howns : call.owns = true) :
    (s.writePath id (callers.caller id).body).path =
      some ⟨some id, some (callers.caller id).body⟩ := by
  obtain ⟨body, hbody, -⟩ := h.owner howns
  simp [writePath, fill, hbody]

theorem Fits.unlinking {stale : Generation} {seen : Option LockFile}
    (h : s.Fits callers id (.unlinking stale seen))
    (hr : s.Reliable callers (some (.unlinking stale seen))) (file : LockFile)
    (hfile : s.path = some file) : s.Abandoned callers file := by
  cases seen with
  | none =>
    rw [show s.path = none from hr] at hfile
    cases hfile
  | some seen =>
    obtain ⟨hpath, habandoned⟩ := h.saw seen rfl
    rw [hpath] at hfile
    exact Option.some.inj hfile ▸ habandoned

theorem Fits.removing {stale : Generation} {seen : LockFile}
    (h : s.Fits callers id (.removingReclaim stale seen))
    (hr : s.Reliable callers (some (.removingReclaim stale seen))) (file : LockFile)
    (hfile : s.reclaimPath = some file) : s.Abandoned callers file :=
  fun id' hcreator => h.saw id' ((hr file hfile).symm.trans hcreator)

/-- A step of a live call that finds what it relies on. -/
theorem Sound.advance {inspectProcess : Int → ProcessIdentity} {deadlinePassed : Bool} {call : Call}
    (h : Sound callers s) (hlive : s.Live callers id)
    (hprobe : ∀ p ∈ s.live, sameLiveProcess inspectProcess p.pid (some p.startedAt) = true)
    (hcall : s.calls id = some call) (hr : s.Reliable callers (some call)) :
    Sound callers (s.advance (callers.caller id) id inspectProcess deadlinePassed call) := by
  have hfit := h.fits id call hcall hlive
  have hstale := hfit.stale
  cases call with
  | creating stale =>
    simp only [Machine.advance]
    split_ifs with hpath
    · exact h.goesOn hlive hcall rfl rfl rfl hstale trivial
    · refine h.moveTo (h.keeps_createPath hlive (by simpa using hpath)) (Or.inl hlive) ?_ fun _ _ => rfl
      exact ⟨fun _ => ⟨none, rfl, nofun⟩, nofun, nofun, trivial⟩
  | filling =>
    exact h.moveTo (h.keeps_writePath hlive) (Or.inl hlive)
      ⟨fun _ => ⟨_, hfit.written rfl, fun _ => rfl⟩, nofun, nofun, trivial⟩ fun _ _ => rfl
  | reading stale => exact h.goesOn hlive hcall rfl rfl rfl hstale h.genuine
  | judging held stale =>
    simp only [Machine.advance]
    split_ifs
    · exact h.goesOn hlive hcall rfl rfl rfl nofun trivial
    · exact h.goesOn hlive hcall rfl rfl rfl hstale hfit.saw
  | judgingOrphan held stale =>
    simp only [Machine.advance]
    split_ifs with hprocess
    · exact h.goesOn hlive hcall rfl rfl rfl hstale trivial
    · exact h.goesOn hlive hcall rfl rfl rfl nofun trivial
    · refine h.goesOn hlive hcall rfl rfl rfl (fun g hg => ?_) trivial
      obtain rfl := Option.some.inj hg
      exact Genuine.goneBy hfit.saw hprobe (by simpa using hprocess)
  | waiting observed current stale =>
    simp only [Machine.advance]
    split_ifs <;> exact h.goesOn hlive hcall rfl rfl rfl hstale trivial
  | judgingWait observed current stale =>
    simp only [Machine.advance]
    split_ifs <;> exact h.goesOn hlive hcall rfl rfl rfl hstale trivial
  | waited observed current stale =>
    simp only [Machine.advance]
    split_ifs
    · exact h.goesOn hlive hcall rfl rfl rfl hstale trivial
    · exact h.goesOn hlive hcall rfl rfl rfl nofun trivial
    · exact h.goesOn hlive hcall rfl rfl rfl hstale trivial
  | reclaiming stale =>
    simp only [Machine.advance]
    split_ifs with hreclaim
    · exact h.goesOn hlive hcall rfl rfl rfl hstale trivial
    · refine h.moveTo (h.keeps_createReclaim hlive (by simpa using hreclaim)) (Or.inl hlive) ?_
        fun body hpath => absurd hpath (h.not_mine hlive hcall rfl body)
      exact ⟨nofun, fun _ => ⟨none, rfl⟩, hstale, trivial⟩
  | readingReclaim stale =>
    exact h.goesOn hlive hcall rfl rfl rfl hstale h.reclaimMade
  | judgingReclaim stale seen =>
    cases seen with
    | none => exact h.goesOn hlive hcall rfl rfl rfl hstale trivial
    | some seen =>
      simp only [Machine.advance]
      split_ifs with hjudged
      · rw [Bool.and_eq_true, Bool.not_eq_true'] at hjudged
        exact h.goesOn hlive hcall rfl rfl rfl hstale
          ((hfit.saw seen rfl).abandoned hprobe hjudged.1 hjudged.2)
      · exact h.goesOn hlive hcall rfl rfl rfl hstale trivial
  | removingReclaim stale seen =>
    exact h.moveTo
      (h.keeps_unlinkReclaim fun file hfile => Or.inr (hfit.removing hr file hfile)) (Or.inl hlive)
      ⟨nofun, nofun, hstale, trivial⟩
      fun body hpath => absurd hpath (h.not_mine hlive hcall rfl body)
  | fillingReclaim stale =>
    obtain ⟨body, hbody⟩ := hfit.critical rfl
    have hwritten : (s.writeReclaim id (callers.caller id).reclaimBody).reclaimPath =
        some ⟨some id, some (callers.caller id).reclaimBody⟩ := by
      simp [writeReclaim, fill, hbody]
    exact h.moveTo (h.keeps_writeReclaim hlive) (Or.inl hlive)
      ⟨nofun, fun _ => ⟨_, hwritten⟩, hstale, trivial⟩
      fun body hpath => absurd hpath (h.not_mine hlive hcall rfl body)
  | inside stale =>
    refine h.goesOnInside hlive hcall rfl rfl rfl hstale fun file hpath hgeneration => ?_
    exact ⟨hpath, h.abandoned hpath (hstale stale rfl) hr hgeneration⟩
  | judgingInside stale seen =>
    simp only [Machine.advance]
    split_ifs with halive hgeneration
    · exact h.goesOnInside hlive hcall rfl rfl rfl nofun trivial
    · exact h.goesOnInside hlive hcall rfl rfl rfl nofun trivial
    · refine h.goesOnInside hlive hcall rfl rfl rfl hstale fun file hseen => ?_
      subst hseen
      exact hfit.saw file rfl (by simpa [readHolder] using hgeneration)
  | unlinking stale seen =>
    have habandoned := hfit.unlinking hr
    exact h.moveTo (h.keeps_unlinkPath hlive hcall (Or.inr ⟨rfl, habandoned⟩)) (Or.inl hlive)
      ⟨nofun, fun _ => hfit.critical rfl, hstale, trivial⟩ nofun
  | recreating stale =>
    simp only [Machine.advance]
    split_ifs with hpath
    · exact h.goesOnInside hlive hcall rfl rfl rfl hstale trivial
    · refine h.moveTo (h.keeps_createPath hlive (by simpa using hpath)) (Or.inl hlive) ?_ fun _ _ => rfl
      exact ⟨fun _ => ⟨none, rfl, nofun⟩, fun _ => hfit.critical rfl, nofun, trivial⟩
  | refilling =>
    exact h.moveTo (h.keeps_writePath hlive) (Or.inl hlive)
      ⟨fun _ => ⟨_, hfit.written rfl, fun _ => rfl⟩, fun _ => hfit.critical rfl, nofun, trivial⟩
      fun _ _ => rfl
  | leaving outcome =>
    obtain ⟨body, hbody⟩ := hfit.critical rfl
    have hkeeps : Keeps callers s s.unlinkReclaim id := h.keeps_unlinkReclaim fun file hfile => by
      rw [hbody] at hfile
      exact Or.inl (Option.some.inj hfile ▸ rfl)
    cases outcome with
    | denied heldByPid =>
      exact h.moveTo hkeeps (Or.inl hlive) ⟨nofun, nofun, nofun, trivial⟩
        fun body hpath => absurd hpath (h.not_mine hlive hcall rfl body)
    | retry stale =>
      exact h.moveTo hkeeps (Or.inl hlive) ⟨nofun, nofun, hstale, trivial⟩
        fun body hpath => absurd hpath (h.not_mine hlive hcall rfl body)
    | held =>
      exact h.moveTo hkeeps (Or.inl hlive) ⟨fun _ => hfit.owner rfl, nofun, nofun, trivial⟩ fun _ _ => rfl
  | releasing again =>
    simp only [Machine.advance]
    split_ifs with hmine
    · cases again with
      | false =>
        exact h.moveTo h.keeps_refl (Or.inl hlive) ⟨fun _ => hfit.owner rfl, nofun, nofun, trivial⟩
          fun _ _ => rfl
      | true =>
        obtain ⟨body, hbody⟩ := h.path_of_id hmine
        exact absurd hbody (h.not_mine hlive hcall rfl body)
    · refine h.moveTo h.keeps_refl (Or.inl hlive) ⟨nofun, nofun, nofun, trivial⟩ fun body hpath => ?_
      cases again with
      | false =>
        obtain ⟨body', hbody, hwritten⟩ := hfit.owner rfl
        refine absurd ?_ hmine
        rw [hbody, hwritten rfl]
        exact decide_eq_true rfl
      | true => exact absurd hpath (h.not_mine hlive hcall rfl body)
  | dropping again =>
    cases again with
    | false =>
      obtain ⟨body, hbody, -⟩ := hfit.owner rfl
      exact h.moveTo (h.keeps_unlinkPath hlive hcall (Or.inl ⟨body, hbody⟩)) (Or.inl hlive)
        ⟨nofun, nofun, nofun, trivial⟩ nofun
    | true => exact hfit.saw.elim
  | denied | holding | released => exact h

/-- Processes come and go; the files and the calls stay. -/
theorem Sound.passes {live gone : List Process} (h : Sound callers s)
    (hapart : ∀ p ∈ live, p ∉ gone) (hgone : ∀ p ∈ s.gone, p ∈ gone)
    (hstarted : ∀ p, p ∈ s.live ∨ p ∈ s.gone → p ∈ live ∨ p ∈ gone)
    (hlive : ∀ p, p ∈ s.live ∨ p ∈ s.gone → p ∈ live → p ∈ s.live) :
    Sound callers { s with live, gone } where
  apart := hapart
  started := fun id call hcall => hstarted _ (h.started id call hcall)
  pathMade := fun file hfile => by
    have hmade := h.pathMade file hfile
    unfold LockMade at hmade ⊢
    cases hcreator : file.creator with
    | none =>
      rw [hcreator] at hmade
      exact hmade
    | some id =>
      rw [hcreator] at hmade
      exact ⟨hstarted _ hmade.1, hmade.2⟩
  reclaimMade := fun file hfile id hcreator =>
    ⟨hstarted _ (h.reclaimMade file hfile id hcreator).1,
      (h.reclaimMade file hfile id hcreator).2⟩
  owned := fun id body hpath hlive' =>
    h.owned id body hpath (hlive _ (h.pathMade _ hpath).1 hlive')
  fits := fun id call hcall hlive' => by
    have hfit := h.fits id call hcall (hlive _ (h.started id call hcall) hlive')
    refine ⟨hfit.owner, hfit.critical, fun g hg id' heq => hgone _ (hfit.stale g hg id' heq), ?_⟩
    have hsaw := hfit.saw
    cases call with
    | judging | judgingOrphan =>
      exact fun id hid => ⟨hstarted _ (hsaw id hid).1, (hsaw id hid).2⟩
    | judgingReclaim =>
      exact fun file hseen id hid =>
        ⟨hstarted _ (hsaw file hseen id hid).1, (hsaw file hseen id hid).2⟩
    | removingReclaim => exact fun id hid => hgone _ (hsaw id hid)
    | judgingInside =>
      exact fun file hseen hgeneration => ⟨(hsaw file hseen hgeneration).1, fun id hid =>
        hgone _ ((hsaw file hseen hgeneration).2 id hid)⟩
    | unlinking =>
      exact fun file hseen => ⟨(hsaw file hseen).1, fun id hid => hgone _ ((hsaw file hseen).2 id hid)⟩
    | dropping again => cases again <;> exact hsaw
    | creating | filling | reading | waiting | judgingWait | waited | reclaiming | readingReclaim
    | fillingReclaim | inside | recreating | refilling | leaving | denied | holding | releasing
    | released => trivial

theorem Sound.start {process : Process} (h : Sound callers s)
    (hnew : process ∉ s.live ∧ process ∉ s.gone) :
    Sound callers { s with live := process :: s.live } := by
  refine h.passes ?_ (fun _ hp => hp) (fun _ hp => hp.imp_left (List.mem_cons_of_mem _)) ?_
  · intro p hp
    rcases List.mem_cons.1 hp with rfl | hp
    · exact hnew.2
    · exact h.apart p hp
  · intro p hstarted hp
    rcases List.mem_cons.1 hp with rfl | hp
    · exact hstarted.resolve_right hnew.2
    · exact hp

theorem Sound.die {process : Process} (h : Sound callers s) :
    Sound callers
      { s with live := s.live.filter (· ≠ process), gone := process :: s.gone } := by
  refine h.passes ?_ (fun _ hp => List.mem_cons_of_mem _ hp) ?_
    fun p _ hp => (List.mem_filter.1 hp).1
  · intro p hp hgone
    obtain ⟨hp, hne⟩ := List.mem_filter.1 hp
    rcases List.mem_cons.1 hgone with rfl | hgone
    · simp at hne
    · exact h.apart p hp hgone
  · rintro p (hp | hp)
    · by_cases hne : p = process
      · exact Or.inr (hne ▸ List.mem_cons_self)
      · exact Or.inl (List.mem_filter.2 ⟨hp, by simpa using hne⟩)
    · exact Or.inr (List.mem_cons_of_mem _ hp)

theorem Sound.step {e : Event} (h : Sound callers s)
    (hs : EventSystem.Guarded (Step callers) (ReliableAt callers) s e s') : Sound callers s' := by
  obtain ⟨⟨hen, rfl⟩, hr⟩ := hs
  cases e with
  | start process => exact h.start hen
  | die process => exact h.die
  | acquireInstanceLock id =>
    refine h.moveTo h.keeps_refl (Or.inl hen.1) ⟨nofun, nofun, nofun, trivial⟩ fun body hpath => ?_
    obtain ⟨call, hcall, -⟩ := h.owned id body hpath hen.1
    rw [hen.2] at hcall
    cases hcall
  | release id =>
    obtain ⟨hlive, hcall | hcall⟩ := hen
    · rw [next, hcall]
      exact h.moveTo h.keeps_refl (Or.inl hlive)
        ⟨fun _ => (h.fits id _ hcall hlive).owner rfl, nofun, nofun, trivial⟩ fun _ _ => rfl
    · rw [next, hcall]
      exact h.goesOn hlive hcall rfl rfl rfl nofun trivial
  | step id inspectProcess deadlinePassed =>
    obtain ⟨hlive, hprobe⟩ := hen
    rw [ReliableAt] at hr
    rw [next]
    cases hcall : s.calls id with
    | none => exact h
    | some call => exact h.advance hlive hprobe hcall (hcall ▸ hr)

/-- The lock file goes in two places. -/
theorem advance_unlinks_path {caller : Caller} {inspectProcess : Int → ProcessIdentity}
    {deadlinePassed : Bool} {call : Call} (hpath : s.path ≠ none)
    (hnone : (s.advance caller id inspectProcess deadlinePassed call).path = none) :
    (∃ stale seen, call = .unlinking stale seen) ∨ ∃ again, call = .dropping again := by
  cases call with
  | unlinking stale seen => exact Or.inl ⟨stale, seen, rfl⟩
  | dropping again => exact Or.inr ⟨again, rfl⟩
  | filling | refilling => exact absurd (Option.map_eq_none_iff.1 hnone) hpath
  | judgingReclaim stale seen =>
    cases seen with
    | none => exact absurd hnone hpath
    | some seen =>
      simp only [Machine.advance] at hnone
      split_ifs at hnone <;> exact absurd hnone hpath
  | creating | judging | judgingOrphan | waiting | judgingWait | waited | reclaiming
  | judgingInside | recreating | releasing =>
    simp only [Machine.advance] at hnone
    split_ifs at hnone <;> first | exact absurd hnone hpath | cases hnone
  | reading | readingReclaim | removingReclaim | fillingReclaim | inside | leaving | denied
  | holding | released => exact absurd hnone hpath

/-- The reclaim file goes in two places. -/
theorem advance_unlinks_reclaim {caller : Caller} {inspectProcess : Int → ProcessIdentity}
    {deadlinePassed : Bool} {call : Call} (hreclaim : s.reclaimPath ≠ none)
    (hnone : (s.advance caller id inspectProcess deadlinePassed call).reclaimPath = none) :
    (∃ stale seen, call = .removingReclaim stale seen) ∨ ∃ outcome, call = .leaving outcome := by
  cases call with
  | removingReclaim stale seen => exact Or.inl ⟨stale, seen, rfl⟩
  | leaving outcome => exact Or.inr ⟨outcome, rfl⟩
  | fillingReclaim => exact absurd (Option.map_eq_none_iff.1 hnone) hreclaim
  | judgingReclaim stale seen =>
    cases seen with
    | none => exact absurd hnone hreclaim
    | some seen =>
      simp only [Machine.advance] at hnone
      split_ifs at hnone <;> exact absurd hnone hreclaim
  | creating | judging | judgingOrphan | waiting | judgingWait | waited | reclaiming
  | judgingInside | recreating | releasing =>
    simp only [Machine.advance] at hnone
    split_ifs at hnone <;> first | exact absurd hnone hreclaim | cases hnone
  | filling | refilling | reading | readingReclaim | unlinking | inside | dropping | denied
  | holding | released => exact absurd hnone hreclaim

/-- A live call that was answered `ok` and has not released the lock. -/
def Holds (callers : Callers) (s : Machine) (id : ℕ) : Prop :=
  s.Live callers id ∧ (s.calls id = some .holding ∨ s.calls id = some (.releasing false) ∨
    s.calls id = some (.dropping false))

theorem Sound.holds_unique {id' : ℕ} (h : Sound callers s) (hid : s.Holds callers id)
    (hid' : s.Holds callers id') : id = id' := by
  have hfile : ∀ id, s.Holds callers id → ∃ body, s.path = some ⟨some id, body⟩ := by
    rintro id ⟨hlive, hcall | hcall | hcall⟩
    all_goals
      obtain ⟨body, hbody, -⟩ := (h.fits id _ hcall hlive).owner rfl
      exact ⟨body, hbody⟩
  obtain ⟨body, hbody⟩ := hfile id hid
  obtain ⟨body', hbody'⟩ := hfile id' hid'
  rw [hbody] at hbody'
  simp at hbody'
  exact hbody'.1

/-- `release` finds the call's own file. -/
theorem Sound.drops_own {again : Bool} {file : LockFile} (h : Sound callers s)
    (hlive : s.Live callers id) (hcall : s.calls id = some (.dropping again))
    (hpath : s.path = some file) : file.creator = some id := by
  cases again with
  | false =>
    obtain ⟨body, hbody, -⟩ := (h.fits id _ hcall hlive).owner rfl
    rw [hpath] at hbody
    exact Option.some.inj hbody ▸ rfl
  | true => exact (h.fits id _ hcall hlive).saw.elim

/-- A step removes a file of its own call or one that is abandoned. -/
theorem Sound.removes {inspectProcess : Int → ProcessIdentity} {deadlinePassed : Bool}
    {file : LockFile} (h : Sound callers s)
    (hen : s.Enabled callers (.step id inspectProcess deadlinePassed))
    (hr : s.ReliableAt callers (.step id inspectProcess deadlinePassed))
    (hgone : s.path = some file ∧
        (s.next callers (.step id inspectProcess deadlinePassed)).path = none ∨
      s.reclaimPath = some file ∧
        (s.next callers (.step id inspectProcess deadlinePassed)).reclaimPath = none) :
    file.creator = some id ∨ s.Abandoned callers file := by
  simp only [next] at hgone
  rw [ReliableAt] at hr
  cases hcall : s.calls id with
  | none =>
    rw [hcall] at hgone
    rcases hgone with ⟨hfile, hnone⟩ | ⟨hfile, hnone⟩ <;>
    · rw [hfile] at hnone
      cases hnone
  | some call =>
    rw [hcall] at hgone hr
    have hfit := h.fits id call hcall hen.1
    rcases hgone with ⟨hfile, hnone⟩ | ⟨hfile, hnone⟩
    · rcases advance_unlinks_path (by simp [hfile]) hnone with ⟨stale, seen, rfl⟩ | ⟨again, rfl⟩
      · exact Or.inr (hfit.unlinking hr file hfile)
      · exact Or.inl (h.drops_own hen.1 hcall hfile)
    · rcases advance_unlinks_reclaim (by simp [hfile]) hnone with ⟨stale, seen, rfl⟩ | ⟨outcome, rfl⟩
      · exact Or.inr (hfit.removing hr file hfile)
      · obtain ⟨body, hbody⟩ := hfit.critical rfl
        rw [hfile] at hbody
        exact Or.inl (Option.some.inj hbody ▸ rfl)

/-- Files that no call of the run has made. -/
def Leftover (callers : Callers) (path reclaimPath : Option LockFile) : Prop :=
  (∀ file ∈ path, file.creator = none ∧
    ∀ id, file.body.bind (·.id) ≠ some (callers.caller id).lockId) ∧
  ∀ file ∈ reclaimPath, file.creator = none

theorem initial_sound {path reclaimPath : Option LockFile}
    (h : Leftover callers path reclaimPath) : Sound callers (initial path reclaimPath) where
  apart := fun p hp => by cases hp
  started := fun id call hcall => by cases hcall
  pathMade := fun file hfile => by
    obtain ⟨hcreator, hbody⟩ := h.1 file hfile
    unfold LockMade
    rw [hcreator]
    exact hbody
  reclaimMade := fun file hfile id hcreator => by
    rw [h.2 file hfile] at hcreator
    cases hcreator
  owned := fun id body _ hlive => by cases hlive
  fits := fun id call hcall => by cases hcall

/-- In a run in which every takeover finds what it relies on, one live call at a time holds
the lock, no step removes a file of another call that lives, and `release` removes the
caller's own. -/
theorem one_instance {path reclaimPath : Option LockFile} {evs : List Event}
    (hleft : Leftover callers path reclaimPath)
    (hrun : EventSystem.Run (EventSystem.Guarded (Step callers) (ReliableAt callers))
      (initial path reclaimPath) evs s) :
    (∀ id id', s.Holds callers id → s.Holds callers id' → id = id') ∧
    (∀ id inspectProcess deadlinePassed file,
      s.Enabled callers (.step id inspectProcess deadlinePassed) →
      s.ReliableAt callers (.step id inspectProcess deadlinePassed) →
      (s.path = some file ∧
          (s.next callers (.step id inspectProcess deadlinePassed)).path = none ∨
        s.reclaimPath = some file ∧
          (s.next callers (.step id inspectProcess deadlinePassed)).reclaimPath = none) →
      ∀ id', file.creator = some id' → s.Live callers id' → id' = id) ∧
    ∀ id again file, s.Live callers id → s.calls id = some (.dropping again) →
      s.path = some file → file.creator = some id := by
  have h : Sound callers s := hrun.invariant (I := Sound callers)
    (fun _ _ _ hi hs => hi.step hs) (initial_sound hleft)
  refine ⟨fun id id' => h.holds_unique, ?_, fun id again file => h.drops_own⟩
  intro id inspectProcess deadlinePassed file hen hr hgone id' hcreator hlive
  rcases h.removes hen hr hgone with hown | habandoned
  · rw [hown] at hcreator
    exact (Option.some.inj hcreator).symm
  · exact absurd (habandoned id' hcreator) (h.not_gone hlive)

/-- Process `10 + id` of the start of the clock, whose owner is process 5. -/
def watcher (id : ℕ) : Caller where
  process := ⟨10 + id, 0⟩
  parentOwner := some ⟨5, some 0⟩
  lockId := String.ofList (List.replicate id 'a')

def watchers : Callers where
  caller := watcher
  distinct := fun id id' h => by
    have hlist : List.replicate id 'a' = List.replicate id' 'a' := String.ofList_injective h
    simpa using congrArg List.length hlist

def ownerProcess : Process := ⟨5, 0⟩

/-- `ps` sees the processes of these pids, all of them as old as the clock. -/
def seeing (pids : List Int) (pid : Int) : ProcessIdentity := ⟨pids.contains pid, some 0⟩

def steps (id : ℕ) (pids : List Int) (n : ℕ) : List Event :=
  List.replicate n (.step id (seeing pids) false)

/-- A watcher takes the lock and dies; the next one is about to unlink its file. -/
def takeoverEvents : List Event :=
  [Event.start ownerProcess, .start (watcher 1).process, .start (watcher 2).process,
    .acquireInstanceLock 1] ++ steps 1 [5, 11, 12] 2 ++
  [Event.die (watcher 1).process, .acquireInstanceLock 2] ++ steps 2 [5, 12] 8

def takeover : Machine := takeoverEvents.foldl (next watchers) (initial none none)

theorem one_instance_takeover :
    takeover.path = some ⟨some 1, some (watcher 1).body⟩ ∧
      (takeover.next watchers (.step 2 (seeing [5, 12]) false)).path = none ∧
      ¬ takeover.Live watchers 1 := by
  have hready : EventSystem.AllReady (fun s e => s.Enabled watchers e ∧ s.ReliableAt watchers e)
      (next watchers) (initial none none) takeoverEvents := by decide
  have hrun : EventSystem.Run
      (EventSystem.Guarded (Step watchers) (ReliableAt watchers))
      (initial none none) takeoverEvents takeover :=
    EventSystem.run_of_ready (fun s e h => ⟨⟨h.1, rfl⟩, h.2⟩) hready
  have hfile : takeover.path = some ⟨some 1, some (watcher 1).body⟩ := by decide
  have hnone : (takeover.next watchers (.step 2 (seeing [5, 12]) false)).path = none := by decide
  have hleft : Leftover watchers none none := ⟨by simp, by simp⟩
  refine ⟨hfile, hnone, fun hlive => ?_⟩
  exact absurd ((one_instance hleft hrun).2.1 2 (seeing [5, 12]) false _ (by decide) (by decide)
    (Or.inl ⟨hfile, hnone⟩) 1 rfl hlive) (by decide)

/-- The owner that has started the call still lives. -/
def OwnerAlive (callers : Callers) (s : Machine) (id : ℕ) : Prop :=
  ∀ owner ∈ (callers.caller id).parentOwner,
    ∃ p ∈ s.live, p.pid = owner.pid ∧ ∀ startedAt ∈ owner.startedAt, p.startedAt = startedAt

instance (s : Machine) (id : ℕ) : Decidable (s.Live callers id) :=
  inferInstanceAs (Decidable (_ ∈ _))

instance (s : Machine) (id : ℕ) : Decidable (s.OwnerAlive callers id) :=
  inferInstanceAs (Decidable (∀ owner ∈ (callers.caller id).parentOwner, ∃ p ∈ s.live, _))

/-- The second watcher reads the lock file that the first has yet to write. -/
def halfWrittenEvents : List Event :=
  [Event.start ownerProcess, .start (watcher 1).process, .start (watcher 2).process,
    .acquireInstanceLock 1] ++ steps 1 [5, 11, 12] 1 ++
  [Event.acquireInstanceLock 2] ++ steps 2 [5, 11, 12] 9 ++ steps 1 [5, 11, 12] 1 ++
  steps 2 [5, 11, 12] 3

/-- A lock file that is being written is taken for a stale one. -/
theorem half_written_lock : ¬ ∀ callers evs s, Run callers (initial none none) evs s →
    ∀ id id', s.Holds callers id → s.OwnerAlive callers id → s.Holds callers id' →
      s.OwnerAlive callers id' → id = id' := by
  intro hall
  have hready : EventSystem.AllReady (Enabled watchers) (next watchers) (initial none none)
      halfWrittenEvents := by decide
  have hrun : Run watchers (initial none none) halfWrittenEvents
      (halfWrittenEvents.foldl (next watchers) (initial none none)) :=
    EventSystem.run_of_ready (fun s e h => ⟨h, rfl⟩) hready
  exact absurd (hall _ _ _ hrun 1 2 ⟨by decide, Or.inl (by decide)⟩ (by decide)
    ⟨by decide, Or.inl (by decide)⟩ (by decide)) (by decide)

end Machine
end InstanceLock
end AgentParty
