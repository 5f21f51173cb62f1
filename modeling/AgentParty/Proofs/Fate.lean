import AgentParty.Proofs.Books

/-! The fate of one input, read off what the lane has done: whether its last write was
refused, is unknown, or was accepted. The books know every fate. -/

namespace AgentParty
namespace Codex

/-- What is known of the writes of an id. -/
inductive Fate
  /-- No write of it was accepted, and nothing is owed. -/
  | free
  /-- Its write was refused and its rollback is still to come. -/
  | owing
  | unknown
  /-- It was accepted or abandoned. -/
  | settled
  deriving DecidableEq, Repr

/-- The lane prepares or makes a write of the id. -/
def Effect.writes (id : String) : Effect → Prop
  | .beforeWrite clientId _ => clientId = id
  | .write params _ => params.clientUserMessageId = id
  | _ => False

/-- A request goes to the transport. -/
def Effect.sent : Effect → Prop
  | .write _ _ | .mutation _ _ => True
  | _ => False

def Fate.answered : Except Thrown String → Fate
  | .ok _ => settled
  | .error e => if e.refuses then owing else unknown

/-- The rollback is done, or nobody waits for it. -/
def Fate.rolledBack : Fate → Fate
  | owing => free
  | f => f

def Fate.resolved : Resolution → Fate → Fate
  | .notAccepted, unknown => free
  | .notAccepted, f => f
  | .accepted, _ | .abandoned, _ => settled

def Effect.after (id : String) (f : Fate) : Effect → Fate
  | .rollback clientId completed => if clientId = id ∧ completed = true then f.rolledBack else f
  | .write params answer => if params.clientUserMessageId = id then .answered answer else f
  | .observed clientId => if clientId = id then .settled else f
  | .resolved clientId outcome => if clientId = id then f.resolved outcome else f
  | .cancelled clientId => if clientId = id then f.rolledBack else f
  | .beforeWrite _ _ | .mutation _ _ => f

def fate (id : String) (effects : List Effect) : Fate := effects.foldl (Effect.after id) .free

theorem fate_concat (id : String) (l : List Effect) (e : Effect) :
    fate id (l ++ [e]) = e.after id (fate id l) := by
  simp [fate]

/-- Every write of the id finds it free. -/
def Lawful (id : String) (effects : List Effect) : Prop :=
  ∀ l e, l ++ [e] <+: effects → e.writes id → fate id l = .free

section Fate

variable {id : String} {l m : List Effect} {e : Effect}

/-- Once settled, an id is not written and stays settled. -/
theorem Lawful.settled (hl : Lawful id (l ++ m)) (hf : fate id l = .settled) :
    fate id (l ++ m) = .settled ∧ ∀ e ∈ m, ¬ e.writes id := by
  induction m generalizing l with
  | nil => exact ⟨by simpa using hf, by simp⟩
  | cons e m ih =>
    have hnot : ¬ e.writes id := fun hw => by
      have := hl l e ⟨m, by simp⟩ hw
      rw [hf] at this
      cases this
    have hnext : fate id (l ++ [e]) = .settled := by
      rw [fate_concat, hf]
      cases e with
      | write params answer => exact if_neg hnot
      | resolved clientId outcome => cases outcome <;> simp [Effect.after, Fate.resolved]
      | _ => simp [Effect.after, Fate.rolledBack]
    rw [List.append_cons] at hl ⊢
    obtain ⟨hs, hno⟩ := ih hl hnext
    exact ⟨hs, by simpa using ⟨hnot, hno⟩⟩

theorem after_write_other {f : Fate} {params : TurnParams} {answer : Except Thrown String}
    (hne : params.clientUserMessageId ≠ id) : (Effect.write params answer).after id f = f :=
  if_neg hne

/-- What does not write the id leaves its fate, frees it or settles it. -/
theorem after_cases {f : Fate} (hnot : ¬ e.writes id) :
    e.after id f = f ∨ e.after id f = .free ∨ e.after id f = .settled := by
  cases e with
  | write params answer => exact Or.inl (after_write_other hnot)
  | beforeWrite clientId thrown => exact Or.inl rfl
  | mutation method answer => exact Or.inl rfl
  | rollback clientId completed =>
    rw [Effect.after]
    split_ifs <;> cases f <;> simp [Fate.rolledBack]
  | observed clientId =>
    rw [Effect.after]
    split_ifs <;> simp
  | resolved clientId outcome =>
    rw [Effect.after]
    split_ifs <;> cases outcome <;> cases f <;> simp [Fate.resolved]
  | cancelled clientId =>
    rw [Effect.after]
    split_ifs <;> cases f <;> simp [Fate.rolledBack]

/-- An id that is free again was freed. -/
theorem Lawful.freed {f : Fate} (hl : Lawful id (l ++ m)) (hf : fate id l = f) (hne : f ≠ .free)
    (hend : fate id (l ++ m) = .free) : ∃ e ∈ m, ¬ e.writes id ∧ e.after id f = .free := by
  induction m generalizing l with
  | nil =>
    rw [List.append_nil, hf] at hend
    exact absurd hend hne
  | cons e m ih =>
    have hnot : ¬ e.writes id := fun hw => hne (hf.symm.trans (hl l e ⟨m, by simp⟩ hw))
    have hnext := fate_concat id l e
    rw [hf] at hnext
    rw [List.append_cons] at hl hend
    rcases after_cases (f := f) hnot with ha | ha | ha
    · obtain ⟨e', he', h⟩ := ih hl (hnext.trans ha) hend
      exact ⟨e', List.mem_cons_of_mem _ he', h⟩
    · exact ⟨e, List.mem_cons_self, hnot, ha⟩
    · rw [(hl.settled (hnext.trans ha)).1] at hend
      cases hend

theorem frees_owing (hnot : ¬ e.writes id) (ha : e.after id .owing = .free) :
    e = .rollback id true ∨ e = .cancelled id := by
  cases e with
  | rollback clientId completed =>
    rw [Effect.after] at ha
    split_ifs at ha with h
    obtain ⟨rfl, rfl⟩ := h
    exact Or.inl rfl
  | cancelled clientId =>
    rw [Effect.after] at ha
    split_ifs at ha with h
    exact Or.inr (by rw [h])
  | write params answer =>
    rw [after_write_other hnot] at ha
    cases ha
  | observed clientId =>
    rw [Effect.after] at ha
    split_ifs at ha
  | resolved clientId outcome =>
    rw [Effect.after] at ha
    split_ifs at ha
    cases outcome <;> cases ha
  | beforeWrite clientId thrown => cases ha
  | mutation method answer => cases ha

theorem frees_unknown (hnot : ¬ e.writes id) (ha : e.after id .unknown = .free) :
    e = .resolved id .notAccepted := by
  cases e with
  | resolved clientId outcome =>
    rw [Effect.after] at ha
    split_ifs at ha with h
    cases outcome with
    | notAccepted => rw [h]
    | accepted => cases ha
    | abandoned => cases ha
  | rollback clientId completed =>
    rw [Effect.after] at ha
    split_ifs at ha
    cases ha
  | cancelled clientId =>
    rw [Effect.after] at ha
    split_ifs at ha
    cases ha
  | write params answer =>
    rw [after_write_other hnot] at ha
    cases ha
  | observed clientId =>
    rw [Effect.after] at ha
    split_ifs at ha
  | beforeWrite clientId thrown => cases ha
  | mutation method answer => cases ha

end Fate

/-- The answered write that the lane has in hand. -/
def Hand.settling : Hand → Option String
  | .empty | .held _ => none
  | .refused id | .accepted id | .unknown id => some id

/-- The books know the fate of an id. -/
def Fate.Known (id : String) (h : Hand) (a : Arbiter) : Fate → Prop
  | .free => True
  | .owing => a.owes id ∨ h = .refused id
  | .unknown => a.journal id = some .uncertain ∨ h = .unknown id
  | .settled => a.activeTurnJournalOverflowed = true ∨ (a.journal id).any (·.terminal) = true ∨
      h = .accepted id

section Known

variable {id : String} {h h' : Hand} {a a' : Arbiter} {f : Fate}

/-- A fate that an unmoved entry of the journal knows, in another hand. -/
theorem Fate.Known.frame (hf : f.Known id h a) (hj : a'.journal id = a.journal id)
    (ho : a.owes id → a'.owes id)
    (hover : a.activeTurnJournalOverflowed = true → a'.activeTurnJournalOverflowed = true)
    (hh : h = h' ∨ h.settling ≠ some id) : f.Known id h' a' := by
  have hhand : ∀ g : Hand, g.settling = some id → h = g → h' = g := by
    rintro g hg rfl
    rcases hh with rfl | hh
    · rfl
    · exact absurd hg hh
  cases f with
  | free => trivial
  | owing => exact hf.imp ho (hhand _ rfl)
  | unknown => exact hf.imp (hj.trans ·) (hhand _ rfl)
  | settled => exact hf.imp hover (Or.imp (hj ▸ ·) (hhand _ rfl))

/-- The fates of an id that the journal does not know, or knows as queued. -/
theorem Fate.Known.fresh (hf : f.Known id h a) (hj : a.journal id ≠ some .uncertain)
    (ht : (a.journal id).any (·.terminal) = false) (hh : h.settling ≠ some id) :
    f = .free ∨ (f = .owing ∧ a.owes id) ∨
      (f = .settled ∧ a.activeTurnJournalOverflowed = true) := by
  cases f with
  | free => exact Or.inl rfl
  | owing =>
    rcases hf with ho | rfl
    · exact Or.inr (Or.inl ⟨rfl, ho⟩)
    · exact absurd rfl hh
  | unknown =>
    rcases hf with hu | rfl
    · exact absurd hu hj
    · exact absurd rfl hh
  | settled =>
    rcases hf with ho | ht' | rfl
    · exact Or.inr (Or.inr ⟨rfl, ho⟩)
    · rw [ht] at ht'
      cases ht'
    · exact absurd rfl hh

/-- The entry of such an id may be anything afterwards. -/
theorem Fate.Known.renote (hf : f.Known id h a) (hj : a.journal id ≠ some .uncertain)
    (ht : (a.journal id).any (·.terminal) = false) (hh : h.settling ≠ some id)
    (ho : a.owes id → a'.owes id)
    (hover : a.activeTurnJournalOverflowed = true → a'.activeTurnJournalOverflowed = true) :
    f.Known id h' a' := by
  rcases hf.fresh hj ht hh with rfl | ⟨rfl, howes⟩ | ⟨rfl, hov⟩
  · trivial
  · exact Or.inl (ho howes)
  · exact Or.inl (hover hov)

/-- The rollback that was owed is done, or is owed no more. -/
theorem Fate.Known.rolledBack (hf : f.Known id h a) (hj : a'.journal id = a.journal id)
    (hover : a.activeTurnJournalOverflowed = true → a'.activeTurnJournalOverflowed = true)
    (hh : h = h' ∨ (h ≠ .unknown id ∧ h ≠ .accepted id)) : f.rolledBack.Known id h' a' := by
  cases f with
  | free => trivial
  | owing => trivial
  | unknown =>
    refine hf.imp (hj.trans ·) fun hu => ?_
    rcases hh with rfl | hh
    · exact hu
    · exact absurd hu hh.1
  | settled =>
    refine hf.imp hover (Or.imp (hj ▸ ·) fun ha => ?_)
    rcases hh with rfl | hh
    · exact ha
    · exact absurd ha hh.2

end Known

namespace Lane
open Arbiter

def effects (s : Lane) : List Effect := s.trace.map (·.2)

/-- What a request of the trace finds. -/
def Calm (p : Arbiter × Effect) : Prop :=
  p.2.sent → p.1.activeTurnJournalOverflowed = false ∧ ∀ id, p.1.journal id ≠ some .uncertain

/-- The books agree, and the ids that never left the journal are written by the rules. -/
structure Kept (h : Hand) (s : Lane) : Prop where
  books : Books h s.arbiter
  calm : ∀ p ∈ s.trace, Calm p
  lawful : ∀ id ∉ s.arbiter.evicted, Lawful id s.effects
  known : ∀ id ∉ s.arbiter.evicted, (fate id s.effects).Known id h s.arbiter

variable {h h' : Hand} {s s' : Lane} {fresh evidence : List String}

/-- A move that does nothing to the outside. -/
theorem Kept.quiet (hk : Kept h s) (hm : Move fresh evidence h s h' s') (ht : s'.trace = s.trace)
    (hev : ∀ id ∈ s.arbiter.evicted, id ∈ s'.arbiter.evicted)
    (hf : ∀ id ∉ s'.arbiter.evicted, ∀ f : Fate, f.Known id h s.arbiter →
      f.Known id h' s'.arbiter) : Kept h' s' := by
  have he : s'.effects = s.effects := by rw [effects, ht, effects]
  refine ⟨hm.books hk.books, ht ▸ hk.calm, fun id hid => ?_, fun id hid => ?_⟩
  · rw [he]
    exact hk.lawful id fun h => hid (hev id h)
  · rw [he]
    exact hf id hid _ (hk.known id fun h => hid (hev id h))

/-- A move that does one thing. -/
theorem Kept.emits {a : Arbiter} {e : Effect} (hk : Kept h s) (hm : Move fresh evidence h s h' s')
    (ht : s'.trace = s.trace ++ [(a, e)]) (hev : ∀ id ∈ s.arbiter.evicted, id ∈ s'.arbiter.evicted)
    (hcalm : Calm (a, e))
    (hw : ∀ id ∉ s'.arbiter.evicted, e.writes id → fate id s.effects = .free)
    (hf : ∀ id ∉ s'.arbiter.evicted, ∀ f : Fate, f.Known id h s.arbiter →
      (e.after id f).Known id h' s'.arbiter) : Kept h' s' := by
  have he : s'.effects = s.effects ++ [e] := by simp [effects, ht]
  refine ⟨hm.books hk.books, fun p hp => ?_, fun id hid => ?_, fun id hid => ?_⟩
  · rw [ht, List.mem_append, List.mem_singleton] at hp
    rcases hp with hp | rfl
    · exact hk.calm p hp
    · exact hcalm
  · rw [he]
    intro l e' hl hwrites
    rcases List.prefix_concat_iff.1 hl with heq | hl
    · obtain ⟨rfl, hlast⟩ := List.append_inj' heq rfl
      obtain rfl := List.singleton_inj.1 hlast
      exact hw id hid hwrites
    · exact hk.lawful id (fun h => hid (hev id h)) l e' hl hwrites
  · rw [he, fate_concat]
    exact hf id hid _ (hk.known id fun h => hid (hev id h))

/-- An entry that a move notes for `clientId`: the other ids' fates stay known. -/
theorem known_of_others {clientId id : String} {a a' : Arbiter} {f : Fate}
    (hothers : ∀ id, id ≠ clientId → a'.journal id = a.journal id ∨ Left a a' id)
    (hev : id ∉ a'.evicted) (hne : id ≠ clientId) (ho : a.owes id → a'.owes id)
    (hover : a.activeTurnJournalOverflowed = true → a'.activeTurnJournalOverflowed = true)
    (hh : h = h' ∨ h.settling ≠ some id) (hf : f.Known id h a) : f.Known id h' a' := by
  rcases hothers id hne with hj | hl
  · exact hf.frame hj ho hover hh
  · exact absurd hl.2.2 hev

/-- A hand that holds nothing or an input that may be written. -/
theorem known_of_noted {clientId id : String} {a a' : Arbiter} {f : Fate}
    (hothers : ∀ id, id ≠ clientId → a'.journal id = a.journal id ∨ Left a a' id)
    (hev : id ∉ a'.evicted) (ho : a.owes id → a'.owes id)
    (hover : a.activeTurnJournalOverflowed = true → a'.activeTurnJournalOverflowed = true)
    (hj : a.journal clientId = none ∨ a.journal clientId = some .queued)
    (hh : h.settling = none) (hf : f.Known id h a) : f.Known id h' a' := by
  by_cases hne : id = clientId
  · subst hne
    refine hf.renote ?_ ?_ (by simp [hh]) ho hover
    · rcases hj with hj | hj <;> simp [hj]
    · rcases hj with hj | hj <;> simp [hj, JournalState.terminal]
  · exact known_of_others hothers hev hne ho hover (Or.inr (by simp [hh])) hf

end Lane
end Codex
end AgentParty
