import AgentParty.Delivery.Presence

/-! A pause sticks while no row of a paused name is created outside `materializeConnectionPresence`
and none of its rows is the last to go: then all rows of the name carry the pause, and what is
read of any of them is right. -/

namespace AgentParty
namespace Pauses

open EventSystem

/-- The columns of the pause. -/
def Presence.pause (r : Presence) : Option Int × Option Int := (r.pausedAt, r.pausedResumeAt)

def columns (p : Option Pause) : Option Int × Option Int :=
  (p.map (·.pausedAt), p.bind (·.resumeAt))

/-- Every row of the name carries the pause, and a paused name has a row. -/
structure Agrees (t : PresenceTable) (name : String) (p : Option Pause) : Prop where
  rows : ∀ r ∈ t, r.name = name → r.pause = columns p
  present : p ≠ none → ∃ r ∈ t, r.name = name

section Rows

open PresenceTable

variable {t : PresenceTable} {name nm sessionId : String} {p : Option Pause} {ts now : Int}
  {row : Presence} {set : Presence → Presence}

theorem mem_ofName {r : Presence} : r ∈ t.ofName name ↔ r ∈ t ∧ r.name = name := by
  simp [ofName, Table.mem_def]

theorem isPresencePaused_eq (h : Agrees t name p) : t.isPresencePaused name = p.isSome := by
  unfold isPresencePaused
  cases hfirst : (t.ofName name).argmin (·.sessionId) with
  | none =>
    have hnil := List.argmin_eq_none.1 hfirst
    cases p with
    | none => rfl
    | some p =>
      obtain ⟨r, hr, hname⟩ := h.present (Option.some_ne_none p)
      have hmem : r ∈ t.ofName name := mem_ofName.2 ⟨hr, hname⟩
      rw [hnil] at hmem
      cases hmem
  | some r =>
    obtain ⟨hr, hname⟩ := mem_ofName.1 (List.argmin_mem hfirst)
    have hpaused : r.pausedAt = p.map (·.pausedAt) := congrArg Prod.fst (h.rows r hr hname)
    rw [Option.any_some, hpaused, Option.isSome_map]

theorem Agrees.of_not_paused (h : Agrees t name p) (hnot : t.isPresencePaused name = false) :
    p = none := by
  rw [isPresencePaused_eq h] at hnot
  exact Option.isSome_eq_false_iff.1 hnot |> Option.isNone_iff_eq_none.1

theorem mem_upsert (hset : ∀ r, (set r).key = r.key) {r : Presence} :
    r ∈ t.upsert row set ↔
      ((∃ old ∈ t, old.key = row.key ∧ r = set old) ∨ (t.get? row.key = none ∧ r = row)) ∨
        (r ∈ t ∧ r.key ≠ row.key) := by
  unfold upsert
  cases hold : t.get? row.key with
  | none =>
    have hnone : ¬ ∃ old ∈ t, old.key = row.key ∧ r = set old :=
      fun ⟨old, hmem, hkey, _⟩ => Table.get?_eq_none.1 hold old hmem hkey
    simp only [Table.mem_put, hnone, true_and, false_or]
  | some old =>
    obtain ⟨hmem, hkey⟩ := Table.get?_eq_some.1 hold
    rw [Table.mem_put]
    simp only [hset, hkey]
    refine or_congr_left ⟨fun h => Or.inl ⟨old, hmem, hkey, h⟩, ?_⟩
    rintro (⟨old', hmem', hkey', rfl⟩ | ⟨h, -⟩)
    · rw [Table.eq_of_key hmem hmem' (hkey.trans hkey'.symm)]
    · cases h

/-- The row that is there keeps the pause; a new one has to come with it. -/
theorem Agrees.upsert (h : Agrees t name p) (hkey : ∀ r, (set r).key = r.key)
    (hpause : ∀ r, (set r).pause = r.pause)
    (hnew : row.name = name → t.get? row.key = none → row.pause = columns p) :
    Agrees (t.upsert row set) name p := by
  have hname : ∀ r, (set r).name = r.name := fun r => congrArg Prod.fst (hkey r)
  constructor
  · intro r hr hrname
    rcases (mem_upsert hkey).1 hr with (⟨old, hold, -, rfl⟩ | ⟨hnone, rfl⟩) | ⟨hr, -⟩
    · rw [hpause]
      exact h.rows old hold ((hname old).symm.trans hrname)
    · exact hnew hrname hnone
    · exact h.rows r hr hrname
  · intro hp
    obtain ⟨r, hr, hrname⟩ := h.present hp
    by_cases hkeys : r.key = row.key
    · exact ⟨set r, (mem_upsert hkey).2 (Or.inl (Or.inl ⟨r, hr, hkeys, rfl⟩)), (hname r).trans hrname⟩
    · exact ⟨r, (mem_upsert hkey).2 (Or.inr ⟨hr, hkeys⟩), hrname⟩

/-- A session has its row, or the name is not paused. -/
def Settled (t : PresenceTable) (name sessionId : String) : Prop :=
  (t.get? (name, sessionId)).isSome ∨ t.isPresencePaused name = false

theorem Agrees.upsertUnpaused (h : Agrees t name p) (hkey : ∀ r, (set r).key = r.key)
    (hpause : ∀ r, (set r).pause = r.pause) (hsettled : nm = name → Settled t nm sessionId) :
    Agrees (t.upsert (unpausedRow nm sessionId ts) set) name p := by
  refine h.upsert hkey hpause fun hname hnone => ?_
  obtain rfl : nm = name := hname
  rcases hsettled rfl with hsome | hnot
  · rw [show t.get? (nm, sessionId) = none from hnone] at hsome
    cases hsome
  · rw [h.of_not_paused hnot]
    rfl

theorem Agrees.materialize (h : Agrees t name p) :
    Agrees (t.materializeConnectionPresence nm sessionId ts) name p := by
  refine h.upsert (fun _ => rfl) (fun _ => rfl) fun hname hnone => ?_
  obtain rfl : nm = name := hname
  cases hprevious : latest ((t.ofName nm).filter (·.sessionId ≠ sessionId)) with
  | some r =>
    obtain ⟨hmem, -⟩ := List.mem_filter.1 (List.argmax_mem hprevious)
    obtain ⟨hr, hrname⟩ := mem_ofName.1 hmem
    exact h.rows r hr hrname
  | none =>
    have hothers := List.argmax_eq_none.1 hprevious
    cases p with
    | none => rfl
    | some p =>
      -- The session has no row and no other session has one: then the name has none.
      obtain ⟨r, hr, hrname⟩ := h.present (Option.some_ne_none p)
      exfalso
      by_cases hsession : r.sessionId = sessionId
      · exact Table.get?_eq_none.1 hnone r hr (by rw [Presence.key, hrname, hsession]; rfl)
      · exact List.filter_eq_nil_iff.1 hothers r (mem_ofName.2 ⟨hr, hrname⟩) (by simpa using hsession)

theorem Agrees.delete {q : Presence → Bool} (h : Agrees t name p)
    (hleft : p ≠ none → ∃ r ∈ t, r.name = name ∧ q r = false) : Agrees (t.delete q) name p where
  rows r hr hname := h.rows r (Table.mem_delete.1 hr).1 hname
  present hp := by
    obtain ⟨r, hr, hname, hq⟩ := hleft hp
    exact ⟨r, Table.mem_delete.2 ⟨hr, hq⟩, hname⟩

/-- What `cleanupPresenceSession` must find of a paused name. -/
def Retains (t : PresenceTable) (hasOtherLiveSession : Bool) (name sessionId : String) : Prop :=
  if hasOtherLiveSession then ∃ r ∈ t, r.name = name ∧ r.sessionId ≠ sessionId
  else (t.get? (name, sessionId)).isSome

theorem Agrees.cleanup {hasOther : Bool} (h : Agrees t name p)
    (hretains : nm = name → t.isPresencePaused name = true → Retains t hasOther nm sessionId) :
    Agrees (t.cleanupPresenceSession hasOther nm sessionId ts) name p := by
  have hsome : nm = name → p ≠ none → Retains t hasOther nm sessionId := fun hname hp =>
    hretains hname ((isPresencePaused_eq h).trans (Option.isSome_iff_ne_none.2 hp))
  unfold cleanupPresenceSession
  by_cases hname : nm = name
  · subst hname
    cases hasOther with
    | true =>
      refine h.delete fun hp => ?_
      obtain ⟨r, hr, hrname, hsession⟩ := hsome rfl hp
      exact ⟨r, hr, hrname, by simp [hsession]⟩
    | false =>
      have hrow (hp : p ≠ none) : ∃ r ∈ t, r.name = nm ∧ r.sessionId = sessionId := by
        obtain ⟨r, hr⟩ := Option.isSome_iff_exists.1 (hsome rfl hp)
        obtain ⟨hmem, hkey⟩ := Table.get?_eq_some.1 hr
        exact ⟨r, hmem, congrArg Prod.fst hkey, congrArg Prod.snd hkey⟩
      have hkept : Agrees (t.delete fun r => r.name = nm && r.sessionId ≠ sessionId) nm p := by
        refine h.delete fun hp => ?_
        obtain ⟨r, hr, hrname, hsession⟩ := hrow hp
        exact ⟨r, hr, hrname, by simp [hsession]⟩
      refine hkept.upsert (fun _ => rfl) (fun _ => rfl) fun _ hnone => ?_
      cases p with
      | none => rfl
      | some p =>
        obtain ⟨r, hr, hrname, hsession⟩ := hrow (Option.some_ne_none p)
        refine absurd ?_ (Table.get?_eq_none.1 hnone r (Table.mem_delete.2 ⟨hr, by simp [hsession]⟩))
        rw [Presence.key, hrname, hsession]
        rfl
  · have hother (r : Presence) (hr : r.name = name) : r.name ≠ nm := by
      rw [hr]
      exact Ne.symm hname
    cases hasOther with
    | true =>
      refine h.delete fun hp => ?_
      obtain ⟨r, hr, hrname⟩ := h.present hp
      exact ⟨r, hr, hrname, by simp [hother r hrname]⟩
    | false =>
      have hkept : Agrees (t.delete fun r => r.name = nm && r.sessionId ≠ sessionId) name p := by
        refine h.delete fun hp => ?_
        obtain ⟨r, hr, hrname⟩ := h.present hp
        exact ⟨r, hr, hrname, by simp [hother r hrname]⟩
      exact hkept.upsert (fun _ => rfl) (fun _ => rfl) fun hrname _ => absurd hrname hname

theorem Agrees.insertUnpaused (h : Agrees t name p) (hempty : nm = name → t.ofName nm = []) :
    Agrees (t.insert (unpausedRow nm sessionId ts)) name p := by
  have hp : nm = name → p = none := by
    intro hname
    by_contra hp
    obtain ⟨r, hr, hrname⟩ := h.present hp
    have hmem : r ∈ t.ofName nm := mem_ofName.2 ⟨hr, hrname.trans hname.symm⟩
    rw [hempty hname] at hmem
    cases hmem
  constructor
  · intro r hr hrname
    rcases Table.mem_insert.1 hr with hr | ⟨rfl, -⟩
    · exact h.rows r hr hrname
    · rw [hp hrname]
      rfl
  · intro hsome
    obtain ⟨r, hr, hrname⟩ := h.present hsome
    exact ⟨r, Table.mem_insert.2 (Or.inl hr), hrname⟩

theorem Agrees.wakeBlock {clearing : Bool} (h : Agrees t name p) :
    Agrees (t.reportWakeBlock nm clearing now) name p := by
  unfold reportWakeBlock
  split_ifs with hempty
  · exact h.insertUnpaused fun _ => List.isEmpty_iff.1 (Bool.and_eq_true_iff.1 hempty).1
  · exact h

theorem mem_setPause {a b : Option Int} {r : Presence} :
    r ∈ t.update (·.name = nm) (setPause a b) (setPause_key _ _) ↔
      ∃ old ∈ t, r = if old.name = nm then setPause a b old else old := by
  simp [Table.mem_update]

theorem Agrees.setPause_other (h : Agrees t name p) (hname : nm ≠ name) (a b : Option Int) :
    Agrees (t.update (·.name = nm) (setPause a b) (setPause_key _ _)) name p := by
  constructor
  · intro r hr hrname
    obtain ⟨old, hold, rfl⟩ := mem_setPause.1 hr
    split_ifs at hrname ⊢ with holdname
    · exact absurd (holdname.symm.trans hrname) hname
    · exact h.rows old hold hrname
  · intro hp
    obtain ⟨r, hr, hrname⟩ := h.present hp
    refine ⟨r, mem_setPause.2 ⟨r, hr, ?_⟩, hrname⟩
    rw [if_neg (by rw [hrname]; exact Ne.symm hname)]

theorem agrees_setPause {q : Option Pause} (hq : q ≠ none → ∃ r ∈ t, r.name = name) :
    Agrees (t.update (·.name = name) (setPause (columns q).1 (columns q).2) (setPause_key _ _))
      name q := by
  constructor
  · intro r hr hrname
    obtain ⟨old, hold, rfl⟩ := mem_setPause.1 hr
    split_ifs at hrname ⊢ with holdname
    · rfl
    · exact absurd hrname holdname
  · intro hsome
    obtain ⟨r, hr, hrname⟩ := hq hsome
    exact ⟨_, mem_setPause.2 ⟨r, hr, rfl⟩, by rw [if_pos hrname]; exact hrname⟩

theorem agrees_resume : Agrees (t.resumePresence name) name none :=
  agrees_setPause fun h => absurd rfl h

theorem agrees_pause {resumeAt : Option Int} :
    Agrees (t.pausePresence name resumeAt now) name (some ⟨now, resumeAt⟩) := by
  unfold pausePresence
  refine agrees_setPause (q := some ⟨now, resumeAt⟩) fun _ => ?_
  by_cases hempty : t.ofName name = []
  · refine ⟨unpausedRow name LEGACY_SESSION_ID now, ?_, rfl⟩
    simp only [hempty, List.isEmpty_nil, Bool.not_true, Bool.false_eq_true, if_false]
    refine Table.mem_insert.2 (Or.inr ⟨rfl, fun r hr hkey => ?_⟩)
    have hmem : r ∈ t.ofName name := mem_ofName.2 ⟨hr, congrArg Prod.fst hkey⟩
    rw [hempty] at hmem
    cases hmem
  · obtain ⟨r, hr⟩ := List.exists_mem_of_ne_nil _ hempty
    obtain ⟨hmem, hrname⟩ := mem_ofName.1 hr
    refine ⟨r, ?_, hrname⟩
    rwa [if_pos (by simpa using hempty)]

theorem Agrees.pause_other {resumeAt : Option Int} (h : Agrees t name p) (hname : nm ≠ name) :
    Agrees (t.pausePresence nm resumeAt now) name p := by
  refine Agrees.setPause_other ?_ hname _ _
  split_ifs
  · exact h
  · exact h.insertUnpaused fun heq => absurd heq hname

theorem mem_dueNames : name ∈ t.dueNames now ↔
    ∃ r ∈ t, r.name = name ∧ r.pausedResumeAt.any (· ≤ now) = true := by
  simp only [dueNames, List.mem_dedup, List.mem_map, List.mem_filter, Table.mem_def]
  exact ⟨fun ⟨r, ⟨hr, hdue⟩, hname⟩ => ⟨r, hr, hname, hdue⟩,
    fun ⟨r, hr, hname, hdue⟩ => ⟨r, ⟨hr, hdue⟩, hname⟩⟩

/-- One turn of the loop over the due names after another. -/
theorem Agrees.resume_foldl (names : List String) (h : Agrees t name p) :
    Agrees (names.foldl resumePresence t) name (if name ∈ names then none else p) := by
  induction names generalizing t p with
  | nil => simpa using h
  | cons nm names ih =>
    rw [List.foldl_cons]
    by_cases hname : nm = name
    · subst hname
      simpa using ih agrees_resume
    · have hother : Agrees (t.resumePresence nm) name p := h.setPause_other hname _ _
      simpa [Ne.symm hname] using ih hother

theorem Agrees.alarm (h : Agrees t name p) :
    Agrees (t.resumeDuePauses now) name (p.filter fun p => !p.resumeAt.any (· ≤ now)) := by
  have hresumed := h.resume_foldl (t.dueNames now)
  have hdue : name ∈ t.dueNames now ↔ (p.bind (·.resumeAt)).any (· ≤ now) = true := by
    rw [mem_dueNames]
    constructor
    · rintro ⟨r, hr, hname, hdue⟩
      have hcolumn : r.pausedResumeAt = p.bind (·.resumeAt) := congrArg Prod.snd (h.rows r hr hname)
      rwa [hcolumn] at hdue
    · intro hdue
      obtain ⟨r, hr, hname⟩ := h.present (by rintro rfl; cases hdue)
      have hcolumn : r.pausedResumeAt = p.bind (·.resumeAt) := congrArg Prod.snd (h.rows r hr hname)
      exact ⟨r, hr, hname, by rwa [hcolumn]⟩
  suffices heq : (p.filter fun p => !p.resumeAt.any (· ≤ now)) =
      if name ∈ t.dueNames now then none else p by
    rw [heq]
    exact hresumed
  cases p with
  | none => rw [Option.filter_none, ite_self]
  | some p =>
    rw [Option.bind_some] at hdue
    rw [Option.filter_some]
    by_cases hp : p.resumeAt.any (· ≤ now) = true
    · rw [if_pos (hdue.2 hp), hp]
      rfl
    · rw [if_neg fun h => hp (hdue.1 h), Bool.eq_false_iff.2 hp]
      rfl

end Rows

namespace Room

open PresenceTable

variable {s : Room} {e : Event} {name : String}

/-- The condition on a step under which a pause of `name` sticks. -/
def Keeps (name : String) (s : Room) : Event → Prop
  | .hello socket clientVersion advertises _ => socket.name = name →
    (clientVersion || (advertises && socket.kind = .agent)) = true →
      Settled s.presence name socket.id
  | .status nm sessionId _ => nm = name →
    Settled s.presence name (sessionId.getD LEGACY_SESSION_ID)
  | .close socket now => socket.name = name → s.isPresencePaused name = true →
    s.freshlyRemoved name now = false ∧
      Retains s.presence (s.hasOtherLiveSession socket) name socket.id
  | .stale socket _ => socket.name = name → s.isPresencePaused name = true →
    Retains s.presence (s.hasOtherLiveSession socket) name socket.id
  | .pause nm _ _ => nm = name → nm ∉ s.dispatching ∧ ∀ x ∈ s.notifying, x.2 ≠ nm
  | .repost nm | .reclaim nm _ => nm = name → s.isPresencePaused name = false
  | _ => True

/-- A paused name agrees on its pause and has no wake behind a pause check. -/
structure Sticks (s : Room) (name : String) : Prop where
  agrees : Agrees s.presence name (s.inForce name)
  idle : s.inForce name ≠ none → name ∉ s.dispatching ∧ ∀ x ∈ s.notifying, x.2 ≠ name

theorem Sticks.initial (name : String) : Sticks Room.initial name where
  agrees := ⟨fun r hr => absurd hr (Table.not_mem_empty r), fun h => absurd rfl h⟩
  idle h := absurd rfl h

theorem Sticks.withPresence (h : s.Sticks name) {t : PresenceTable}
    (hagrees : Agrees t name (s.inForce name)) : (s.withPresence t).Sticks name :=
  ⟨hagrees, h.idle⟩

theorem Sticks.cleanup (h : s.Sticks name) {socket : Socket} {now : Int}
    (hretains : socket.name = name → s.isPresencePaused name = true →
      Retains s.presence (s.hasOtherLiveSession socket) name socket.id) :
    (s.cleanup socket now).Sticks name := by
  refine h.withPresence (h.agrees.cleanup fun hname => ?_)
  subst hname
  exact hretains rfl

theorem agrees_deleteName_other {t : PresenceTable} {p : Option Pause} {nm : String}
    (h : Agrees t name p) (hname : nm ≠ name) : Agrees (deleteName t nm) name p := by
  refine h.delete fun hp => ?_
  obtain ⟨r, hr, hrname⟩ := h.present hp
  refine ⟨r, hr, hrname, ?_⟩
  rw [decide_eq_false_iff_not, hrname]
  exact Ne.symm hname

theorem agrees_deleteName {t : PresenceTable} : Agrees (deleteName t name) name none where
  rows r hr hname := absurd hname (by simpa using (Table.mem_delete.1 hr).2)
  present h := absurd rfl h

theorem Sticks.welcome (h : s.Sticks name) (socket : Socket) (now : Int) :
    (s.welcome socket now).Sticks name := by
  unfold Room.welcome
  cases socket.kind with
  | human => exact ⟨h.agrees.materialize, h.idle⟩
  | agent => exact ⟨h.agrees, h.idle⟩

/-- The row of the session, once it is there, is there for the second write of a hello. -/
theorem settled_upsert {t : PresenceTable} {row : Presence} {set : Presence → Presence}
    (hkey : ∀ r, (set r).key = r.key) : Settled (t.upsert row set) row.name row.sessionId := by
  refine Or.inl (Option.isSome_iff_ne_none.2 fun hnone => ?_)
  cases hold : t.get? row.key with
  | none =>
    exact Table.get?_eq_none.1 hnone row ((mem_upsert hkey).2 (Or.inl (Or.inr ⟨hold, rfl⟩))) rfl
  | some old =>
    obtain ⟨hmem, holdkey⟩ := Table.get?_eq_some.1 hold
    exact Table.get?_eq_none.1 hnone (set old)
      ((mem_upsert hkey).2 (Or.inl (Or.inl ⟨old, hmem, holdkey, rfl⟩))) ((hkey old).trans holdkey)

theorem Sticks.hello (h : s.Sticks name) {socket : Socket} {clientVersion advertises : Bool}
    {now : Int} (hkeeps : s.Keeps name (.hello socket clientVersion advertises now)) :
    (s.hello socket clientVersion advertises now).Sticks name := by
  have hsettled : (clientVersion || (advertises && socket.kind = .agent)) = true →
      socket.name = name → Settled s.presence socket.name socket.id := by
    rintro hwrites rfl
    exact hkeeps rfl hwrites
  unfold Room.hello
  simp only
  split_ifs with hversion hadvertises hadvertises
  · have hrecorded : Agrees (s.presence.recordClientVersion socket.name socket.id now) name
        (s.inForce name) :=
      h.agrees.upsertUnpaused (fun _ => rfl) (fun _ => rfl) (hsettled (by simp [hversion]))
    exact ⟨hrecorded.upsertUnpaused (fun _ => rfl) (fun _ => rfl) fun _ =>
      settled_upsert fun _ => rfl, h.idle⟩
  · exact h.withPresence (h.agrees.upsertUnpaused (fun _ => rfl) (fun _ => rfl)
      (hsettled (by simp [hversion])))
  · exact h.withPresence (h.agrees.upsertUnpaused (fun _ => rfl) (fun _ => rfl)
      (hsettled (by simpa [hversion] using hadvertises)))
  · exact h

theorem Sticks.lift (h : s.Sticks name) {nm : String} {t : PresenceTable}
    (marks : List (String × Int)) (hown : nm = name → Agrees t name none)
    (hother : nm ≠ name → Agrees t name (s.inForce name)) :
    ({ s with presence := t, removedPresence := marks, inForce := s.lift nm } : Room).Sticks name := by
  by_cases hname : nm = name
  · subst hname
    have hlifted : s.lift nm nm = none := Function.update_self ..
    refine ⟨?_, fun hp => absurd hlifted hp⟩
    change Agrees t nm (s.lift nm nm)
    rw [hlifted]
    exact hown rfl
  · have hlifted : s.lift nm name = s.inForce name := Function.update_of_ne (Ne.symm hname) ..
    refine ⟨?_, fun hp => h.idle (hlifted ▸ hp)⟩
    change Agrees t name (s.lift nm name)
    rw [hlifted]
    exact hother hname

theorem Sticks.pause (h : s.Sticks name) {nm : String} {resumeAt : Option Int} {now : Int}
    (hkeeps : s.Keeps name (.pause nm resumeAt now)) :
    (s.next (.pause nm resumeAt now)).Sticks name := by
  by_cases hname : nm = name
  · subst hname
    have hforce : (s.next (.pause nm resumeAt now)).inForce nm = some ⟨now, resumeAt⟩ :=
      Function.update_self ..
    refine ⟨?_, fun _ => hkeeps rfl⟩
    rw [hforce]
    exact agrees_pause
  · have hforce : (s.next (.pause nm resumeAt now)).inForce name = s.inForce name :=
      Function.update_of_ne (Ne.symm hname) ..
    refine ⟨?_, ?_⟩ <;> rw [hforce]
    · exact h.agrees.pause_other hname
    · exact h.idle

/-- Wakes behind a pause check are dropped, or one comes for a name that is not paused. -/
theorem Sticks.withWakes (h : s.Sticks name) {dispatching : List String}
    {notifying : List (ℕ × String)}
    (hdispatching : ∀ nm ∈ dispatching, nm ∈ s.dispatching ∨ s.isPresencePaused nm = false)
    (hnotifying : ∀ x ∈ notifying, x ∈ s.notifying ∨ s.isPresencePaused x.2 = false) :
    ({ s with dispatching, notifying } : Room).Sticks name := by
  refine ⟨h.agrees, fun hp => ⟨fun hmem => ?_, fun x hx hname => ?_⟩⟩
  · rcases hdispatching name hmem with hbefore | hnot
    · exact (h.idle hp).1 hbefore
    · exact hp (h.agrees.of_not_paused hnot)
  · rcases hnotifying x hx with hbefore | hnot
    · exact (h.idle hp).2 x hbefore hname
    · rw [hname] at hnot
      exact hp (h.agrees.of_not_paused hnot)

theorem Sticks.next (h : s.Sticks name) (hkeeps : s.Keeps name e) : (s.next e).Sticks name := by
  cases e with
  | connect socket => exact ⟨h.agrees, h.idle⟩
  | welcome socket now => exact h.welcome socket now
  | hello socket clientVersion advertises now => exact h.hello hkeeps
  | status nm sessionId now =>
    refine h.withPresence (h.agrees.upsertUnpaused (fun _ => rfl) (fun _ => rfl) fun hname => ?_)
    subst hname
    exact hkeeps rfl
  | unlist socket => exact ⟨h.agrees, h.idle⟩
  | close socket now =>
    rw [Room.next]
    split_ifs with hfresh
    · refine h.withPresence ?_
      by_cases hname : socket.name = name
      · subst hname
        have hnot : s.isPresencePaused socket.name = false := by
          rw [Bool.eq_false_iff]
          intro hpaused
          rw [(hkeeps rfl hpaused).1] at hfresh
          cases hfresh
        rw [h.agrees.of_not_paused hnot]
        exact agrees_deleteName
      · exact agrees_deleteName_other h.agrees hname
    · exact h.cleanup fun hname hpaused => (hkeeps hname hpaused).2
  | stale socket now => exact h.cleanup hkeeps
  | wakeBlock nm clearing now => exact h.withPresence h.agrees.wakeBlock
  | pause nm resumeAt now => exact h.pause hkeeps
  | resume nm =>
    refine h.lift s.removedPresence (fun hname => ?_) fun hname => h.agrees.setPause_other hname _ _
    subst hname
    exact agrees_resume
  | alarm now =>
    refine ⟨h.agrees.alarm, fun hp => h.idle fun hnone => hp ?_⟩
    simp only [Room.next, hnone, Option.filter_none]
  | removed nm removedAt =>
    refine h.lift _ (fun hname => ?_) (agrees_deleteName_other h.agrees)
    subst hname
    exact agrees_deleteName
  | erased nm =>
    refine h.lift s.removedPresence (fun hname => ?_) (agrees_deleteName_other h.agrees)
    subst hname
    exact agrees_deleteName
  | dispatch nm =>
    rw [Room.next]
    split_ifs with hpaused
    · exact h
    · refine h.withWakes (fun nm' hmem => ?_) fun x hx => Or.inl hx
      rcases List.mem_append.1 hmem with hmem | hmem
      · exact Or.inl hmem
      · rw [List.mem_singleton.1 hmem]
        exact Or.inr (Bool.eq_false_iff.2 hpaused)
  | claim nm deliveryId goesOn =>
    rw [Room.next]
    split_ifs
    · exact h
    · exact h.withWakes (fun _ hmem => Or.inl (List.mem_of_mem_erase hmem)) fun x hx => Or.inl hx
  | dispatched nm =>
    exact h.withWakes (fun _ hmem => Or.inl (List.mem_of_mem_erase hmem)) fun x hx => Or.inl hx
  | notify seq nm =>
    rw [Room.next]
    split_ifs with hpaused
    · exact h
    · refine h.withWakes (fun _ hmem => Or.inl hmem) fun x hx => ?_
      rcases List.mem_append.1 hx with hx | hx
      · exact Or.inl hx
      · rw [List.mem_singleton.1 hx]
        exact Or.inr (Bool.eq_false_iff.2 hpaused)
  | post seq nm | dropped seq nm =>
    exact h.withWakes (fun _ hmem => Or.inl hmem) fun x hx => Or.inl (List.mem_of_mem_erase hx)
  | repost nm => exact h
  | reclaim nm deliveryId => exact h

/-- A wake that goes out goes to a name whose pause is not in force. -/
theorem Sticks.handsOut (h : s.Sticks name) (hready : s.Ready e) (hkeeps : s.Keeps name e)
    (hname : e.handsOut = some name) : s.inForce name = none := by
  by_contra hp
  cases e with
  | claim nm deliveryId goesOn =>
    obtain rfl : nm = name := Option.some.inj hname
    exact (h.idle hp).1 hready
  | post seq nm =>
    obtain rfl : nm = name := Option.some.inj hname
    exact (h.idle hp).2 _ hready rfl
  | repost nm =>
    obtain rfl : nm = name := Option.some.inj hname
    exact hp (h.agrees.of_not_paused (hkeeps rfl))
  | reclaim nm deliveryId =>
    obtain rfl : nm = name := Option.some.inj hname
    exact hp (h.agrees.of_not_paused (hkeeps rfl))
  | _ => cases hname

theorem step_eq_next (s : Room) (e : Event) (s' : Room) (h : Step s e s') : s' = s.next e := h.2

theorem run_sticks {name : String} {evs : List Event} {t : Room}
    (h : Run (Guarded Step (Keeps name)) initial evs t) :
    t.Sticks name ∧
      Throughout next (fun u e => e.handsOut = some name → u.inForce name = none) initial evs := by
  induction h with
  | nil => exact ⟨Sticks.initial name, Throughout.nil _ _⟩
  | @snoc evs u u' e hbefore hstep ih =>
    obtain ⟨hsticks, hwakes⟩ := ih
    obtain ⟨⟨hready, rfl⟩, hkeeps⟩ := hstep
    refine ⟨hsticks.next hkeeps, throughout_snoc.2 ⟨hwakes, ?_⟩⟩
    rw [← hbefore.of_guarded.eq_foldl step_eq_next]
    exact hsticks.handsOut hready hkeeps

/-- While the condition holds of every step, a name is read as paused as long as its pause is in
force, its rows agree, and nothing is handed out to it. -/
theorem pause_sticks (name : String) {evs : List Event} {t : Room}
    (h : Run (Guarded Step (Keeps name)) initial evs t) :
    (∀ p, t.inForce name = some p → t.isPresencePaused name = true) ∧
      (∀ r ∈ t.presence, ∀ r' ∈ t.presence, r.name = name → r'.name = name → r.pause = r'.pause) ∧
      Throughout next (fun u e => e.handsOut = some name → u.inForce name = none) initial evs := by
  obtain ⟨hsticks, hwakes⟩ := run_sticks h
  refine ⟨fun p hp => ?_, fun r hr r' hr' hname hname' => ?_, hwakes⟩
  · rw [isPresencePaused, isPresencePaused_eq hsticks.agrees, hp, Option.isSome_some]
  · rw [hsticks.agrees.rows r hr hname, hsticks.agrees.rows r' hr' hname']

instance (t : PresenceTable) (name sessionId : String) : Decidable (Settled t name sessionId) :=
  inferInstanceAs (Decidable (_ ∨ _))

instance (t : PresenceTable) (hasOther : Bool) (name sessionId : String) :
    Decidable (Retains t hasOther name sessionId) := by
  unfold Retains
  infer_instance

instance (name : String) (s : Room) : (e : Event) → Decidable (Keeps name s e)
  | .hello .. | .status .. | .close .. | .stale .. | .pause .. | .repost .. | .reclaim .. => by
    unfold Keeps
    infer_instance
  | .connect .. | .welcome .. | .unlist .. | .wakeBlock .. | .resume .. | .alarm .. | .removed ..
  | .erased .. | .dispatch .. | .claim .. | .dispatched .. | .notify .. | .post .. | .dropped .. =>
    inferInstanceAs (Decidable True)

def bot : Socket := ⟨"3f2a", "bot", .agent⟩

/-- The session says hello before the pause and keeps its row. -/
def pausedSession : List Event :=
  [.connect bot, .hello bot true true 0, .pause "bot" (some 100) 10, .dispatch "bot",
    .hello bot true true 20, .status "bot" (some "3f2a") 30, .unlist bot, .close bot 40, .notify 1 "bot"]

theorem pause_sticks_session : ∃ s, Run Step initial pausedSession s ∧
    (s.inForce "bot").isSome ∧ s.isPresencePaused "bot" = true ∧ s.dispatching = [] ∧
    s.notifying = [] := by
  have hready : AllReady (fun s e => s.Ready e ∧ Keeps "bot" s e) next initial pausedSession := by
    decide
  have hrun : Run (Guarded Step (Keeps "bot")) initial pausedSession
      (pausedSession.foldl next initial) :=
    run_of_ready (fun _ _ h => ⟨⟨h.1, rfl⟩, h.2⟩) hready
  have hforce : (pausedSession.foldl next initial).inForce "bot" = some ⟨10, some 100⟩ := rfl
  refine ⟨_, hrun.of_guarded, ?_, (pause_sticks "bot" hrun).1 _ hforce, by decide,
    by decide⟩
  rw [hforce, Option.isSome_some]

/-- The paused agent reconnects, and its hello creates a row without the pause. -/
def reconnect : List Event :=
  [.pause "bot" none 0, .connect bot, .hello bot true false 1, .unlist bot, .close bot 2,
    .dispatch "bot", .claim "bot" "d" false]

theorem reconnect_lifts_pause : ∃ s, Run Step initial reconnect s ∧
    (s.inForce "bot").isSome ∧ s.isPresencePaused "bot" = false ∧
    ¬ Throughout next (fun u e => e.handsOut = some "bot" → u.inForce "bot" = none) initial
      reconnect ∧
    ¬ ∀ r ∈ ((reconnect.take 3).foldl next initial).presence,
      ∀ r' ∈ ((reconnect.take 3).foldl next initial).presence,
        r.name = "bot" → r'.name = "bot" → r.pause = r'.pause := by
  have hready : AllReady Ready next initial reconnect := by decide
  refine ⟨_, run_of_ready (fun _ _ h => ⟨h, rfl⟩) hready, by decide, by decide,
    fun hwakes => ?_, by decide⟩
  have hnone := hwakes (reconnect.take 6) _ (List.prefix_refl _) rfl
  exact absurd (congrArg Option.isSome hnone) (by decide)

end Room

end Pauses
end AgentParty
