import AgentParty.Proofs.Journal
import Mathlib.Logic.Relation

/-! The moves of the lane between two writes. An input is in the queue, in hand, or
settled; every operation is a sequence of these moves. -/

namespace AgentParty
namespace Codex

/-- What the lane has in hand: an input that may be written, or one whose write was
answered. -/
inductive Hand
  | empty
  | held (clientId : String)
  | refused (clientId : String)
  | accepted (clientId : String)
  | unknown (clientId : String)

namespace Hand

def answered (clientId : String) : Except Thrown String → Hand
  | .ok _ => accepted clientId
  | .error e => if e.refuses then refused clientId else unknown clientId

def clientId : Hand → Option String
  | empty => none
  | held id | refused id | accepted id | unknown id => some id

theorem answered_clientId (id : String) (answer : Except Thrown String) :
    (answered id answer).clientId = some id := by
  unfold answered
  split
  · rfl
  · split_ifs <;> rfl

/-- In these hands nothing is uncertain. -/
def calm : Hand → Bool
  | held _ | refused _ => true
  | empty | accepted _ | unknown _ => false

end Hand

namespace Arbiter

def queuedIds (a : Arbiter) : List String := a.queue.map (·.input.clientUserMessageId)

def owes (a : Arbiter) (clientId : String) : Prop :=
  ∃ i ∈ a.rollbackDebts, i.clientUserMessageId = clientId

/-- No outcome is uncertain and the journal of the active turn is exact. -/
def Clear (a : Arbiter) : Prop := a.hasUncertainOutcome = false

theorem clear_iff {a : Arbiter} : a.Clear ↔
    (∀ i, i ∉ a.uncertainInputs) ∧ a.activeTurnJournalOverflowed = false := by
  rw [Clear, hasUncertainOutcome, decide_eq_false_iff_not, not_lt, Nat.le_zero, uncertainCount,
    Nat.add_eq_zero_iff, List.length_eq_zero_iff, List.eq_nil_iff_forall_not_mem]
  simp [Table.mem_def]

theorem clear_of_not {a : Arbiter} (h : ¬ a.hasUncertainOutcome = true) : a.Clear := by
  unfold Clear
  simpa using h

theorem canAccept_frame (a : Arbiter) (clientId turnId : String) :
    (a.canAcceptIntoActiveTurn clientId turnId).1.queue = a.queue ∧
      (a.Clear → (a.canAcceptIntoActiveTurn clientId turnId).1.Clear) := by
  unfold canAcceptIntoActiveTurn
  split_ifs
  · exact ⟨rfl, id⟩
  · obtain ⟨-, h2, h3, h4⟩ := setActiveTurn_frame a (some turnId)
    refine ⟨h2, fun hc => ?_⟩
    rw [clear_iff] at *
    rw [h3, h4]
    exact hc

theorem get?_debt {a : Arbiter} {clientId : String} :
    a.rollbackDebts.get? clientId = none ↔ ¬ a.owes clientId := by
  rw [Table.get?_eq_none]
  constructor
  · rintro h ⟨i, hi, hk⟩
    exact h i hi hk
  · intro h i hi hk
    exact h ⟨i, hi, hk⟩

/-- The journal learns the fate of an id, which is no longer uncertain; or it does not,
and overflows. -/
structure Closes (clientId : String) (state : Option JournalState) (a a' : Arbiter) : Prop where
  options : a'.options = a.options
  queue : a'.queue = a.queue
  debts : a'.rollbackDebts = a.rollbackDebts
  uncertain : ∀ i, i ∈ a'.uncertainInputs ↔ i ∈ a.uncertainInputs ∧ i.clientUserMessageId ≠ clientId
  evicted : ∀ id ∈ a.evicted, id ∈ a'.evicted
  tidy : a.Tidy → a'.Tidy
  ordered : a.Tidy → a.Ordered → a'.Ordered
  journal : (a'.activeTurnJournalOverflowed = a.activeTurnJournalOverflowed ∧
      (a'.journal clientId = state ∨
        (state.any (·.terminal) = true ∧ a'.journal clientId = none ∧ clientId ∈ a'.evicted)) ∧
      ∀ id, id ≠ clientId → a'.journal id = a.journal id ∨ Left a a' id) ∨
    (a'.activeTurnJournalOverflowed = true ∧ ∀ id, a'.journal id = a.journal id)

theorem Closes.owes {a a' : Arbiter} {clientId id : String} {state : Option JournalState}
    (h : Closes clientId state a a') (ho : a.owes id) : a'.owes id := by
  rw [Arbiter.owes, h.debts]
  exact ho

def withoutUncertain (a : Arbiter) (clientId : String) : Arbiter :=
  { a with uncertainInputs := a.uncertainInputs.delete fun i => i.clientUserMessageId = clientId }

theorem mem_withoutUncertain {a : Arbiter} {clientId : String} {i : BridgeInput} :
    i ∈ (a.withoutUncertain clientId).uncertainInputs ↔
      i ∈ a.uncertainInputs ∧ i.clientUserMessageId ≠ clientId := by
  simp [withoutUncertain, Table.mem_delete]

theorem Noted.closes {a a' : Arbiter} {clientId : String} {state : Option JournalState}
    (h : Noted clientId state a a') : Closes clientId state a (a'.withoutUncertain clientId) where
  options := h.options
  queue := h.queue
  debts := h.debts
  uncertain := fun i => by rw [mem_withoutUncertain, h.uncertain]
  evicted := h.evicted
  tidy := fun ha => ⟨(h.tidy ha).pinned, (h.tidy ha).apart⟩
  ordered := fun ha ho => ⟨(h.ordered ha ho).nodup, (h.ordered ha ho).listed⟩
  journal := Or.inl ⟨h.overflow, h.entry, h.others⟩

theorem Noted.closes_after {a a' : Arbiter} {clientId : String} {state : Option JournalState}
    (h : Noted clientId state (a.withoutUncertain clientId) a') : Closes clientId state a a' where
  options := h.options
  queue := h.queue
  debts := h.debts
  uncertain := fun i => by rw [h.uncertain, mem_withoutUncertain]
  evicted := h.evicted
  tidy := fun ha => h.tidy ⟨ha.pinned, ha.apart⟩
  ordered := fun ha ho => h.ordered ⟨ha.pinned, ha.apart⟩ ⟨ho.nodup, ho.listed⟩
  journal := Or.inl ⟨h.overflow, h.entry, h.others⟩

theorem setAccepted_closes (a : Arbiter) (clientId : String) (turnId : Option String) :
    Closes clientId (some .accepted) a
      ((a.setAcceptedJournalState clientId turnId).withoutUncertain clientId) := by
  rcases setAcceptedJournalState_noted a clientId turnId with h | h
  · exact h.closes
  · rw [h]
    exact ⟨rfl, rfl, rfl, fun i => mem_withoutUncertain (a := a), fun _ h => h,
      fun ha => ⟨ha.pinned, ha.apart⟩, fun _ ho => ⟨ho.nodup, ho.listed⟩, Or.inr ⟨rfl, fun _ => rfl⟩⟩

theorem setAccepted_closes_after (a : Arbiter) (clientId : String) (turnId : Option String) :
    Closes clientId (some .accepted) a
      ((a.withoutUncertain clientId).setAcceptedJournalState clientId turnId) := by
  rcases setAcceptedJournalState_noted (a.withoutUncertain clientId) clientId turnId with h | h
  · exact h.closes_after
  · rw [h]
    exact ⟨rfl, rfl, rfl, fun i => mem_withoutUncertain, fun _ h => h,
      fun ha => ⟨ha.pinned, ha.apart⟩, fun _ ho => ⟨ho.nodup, ho.listed⟩, Or.inr ⟨rfl, fun _ => rfl⟩⟩

end Arbiter

namespace Lane

/-- The lane differs in its phase, its shell, its timer or the active turn only. -/
structure SameBooks (s s' : Lane) : Prop where
  trace : s'.trace = s.trace
  options : s'.arbiter.options = s.arbiter.options
  queue : s'.arbiter.queue = s.arbiter.queue
  journal : s'.arbiter.journal = s.arbiter.journal
  order : s'.arbiter.terminalJournalOrder = s.arbiter.terminalJournalOrder
  active : s'.arbiter.activeTurnAcceptedClientIds = s.arbiter.activeTurnAcceptedClientIds
  overflow : s'.arbiter.activeTurnJournalOverflowed = s.arbiter.activeTurnJournalOverflowed
  uncertain : s'.arbiter.uncertainInputs = s.arbiter.uncertainInputs
  debts : s'.arbiter.rollbackDebts = s.arbiter.rollbackDebts
  evicted : s'.arbiter.evicted = s.arbiter.evicted

theorem SameBooks.refl (s : Lane) : SameBooks s s :=
  ⟨rfl, rfl, rfl, rfl, rfl, rfl, rfl, rfl, rfl, rfl⟩

theorem SameBooks.trans {s s' s'' : Lane} (h : SameBooks s s') (h' : SameBooks s' s'') :
    SameBooks s s'' :=
  ⟨h'.trace.trans h.trace, h'.options.trans h.options, h'.queue.trans h.queue,
    h'.journal.trans h.journal, h'.order.trans h.order, h'.active.trans h.active,
    h'.overflow.trans h.overflow, h'.uncertain.trans h.uncertain, h'.debts.trans h.debts,
    h'.evicted.trans h.evicted⟩

theorem SameBooks.clear {s s' : Lane} (h : SameBooks s s') (hc : s.arbiter.Clear) :
    s'.arbiter.Clear := by
  rw [Arbiter.clear_iff] at *
  rw [h.uncertain, h.overflow]
  exact hc

/-- A queued input leaves the queue, its journal entry and its debt with it. -/
def dropQueued (s : Lane) (clientId : String) (index : ℕ) : Lane :=
  (s.emit (.cancelled clientId)).modify fun a =>
    let a := { a with queue := a.queue.eraseIdx index }.deleteJournalState clientId
    { a with rollbackDebts := a.rollbackDebts.delete fun i => i.clientUserMessageId = clientId }

def withArbiter (s : Lane) (a : Arbiter) : Lane := { s with arbiter := a }

/-- One move. The inputs of `fresh` are taken in. The backend has shown, or a resolution has named,
the ids of `evidence`. -/
inductive Move (fresh evidence : List String) : Hand → Lane → Hand → Lane → Prop
  | plain {h s s'} : SameBooks s s' → Move fresh evidence h s h s'
  | activeTurn (h s turnId) : Move fresh evidence h s h (s.modify (·.setActiveTurn turnId))
  | mutation {s} (method answer) : s.arbiter.Clear →
      Move fresh evidence .empty s .empty (s.emit (.mutation method answer))
  | enqueue {h s} {input : BridgeInput} (reason) :
      s.arbiter.journal input.clientUserMessageId = none →
      s.arbiter.queue.length < s.arbiter.options.maxQueue →
      (h = .empty ∨ h = .held input.clientUserMessageId) →
      Move fresh evidence h s .empty (s.enqueue input reason).1
  | take {s entry rest} : s.arbiter.queue = entry :: rest → s.arbiter.Clear →
      Move fresh evidence .empty s (.held entry.input.clientUserMessageId) (s.takeQueued entry rest)
  | pick {s clientId} : s.arbiter.journal clientId = none → s.arbiter.queue = [] →
      s.arbiter.Clear → Move fresh evidence .empty s (.held clientId) s
  | settle (h s clientId answers) : Move fresh evidence h s h (s.settleRollbackDebt clientId answers).1
  | beforeWrite {s clientId} (thrown) : ¬ s.arbiter.owes clientId →
      Move fresh evidence (.held clientId) s (.held clientId) (s.emit (.beforeWrite clientId thrown))
  | write {s} {params : TurnParams} (answer) : ¬ s.arbiter.owes params.clientUserMessageId →
      Move fresh evidence (.held params.clientUserMessageId) s
        (.answered params.clientUserMessageId answer) (s.emit (.write params answer))
  | rollBack {h s} {input : BridgeInput} (answers) :
      (h = .held input.clientUserMessageId ∨ h = .refused input.clientUserMessageId) →
      Move fresh evidence h s (.held input.clientUserMessageId) (s.rollBack input answers)
  | accept {s clientId a} : Arbiter.Closes clientId (some .accepted) s.arbiter a →
      Move fresh evidence (.accepted clientId) s .empty (s.withArbiter a)
  | lose {s} (input : BridgeInput) :
      Move fresh evidence (.unknown input.clientUserMessageId) s .empty (s.uncertain input).1
  | restore {s} (entry : QueuedInput) :
      Move fresh evidence (.held entry.input.clientUserMessageId) s .empty (s.modify fun a =>
        { a with queue := entry :: a.queue }.setJournalState entry.input.clientUserMessageId
          .queued)
  | drop {s clientId} : clientId ∈ fresh → ¬ s.arbiter.owes clientId →
      Move fresh evidence (.held clientId) s .empty s
  | cancel {s clientId index} :
      (s.arbiter.queue.findIdx? fun entry => entry.input.clientUserMessageId = clientId) =
        some index → Move fresh evidence .empty s .empty (s.dropQueued clientId index)
  | reconcile (s activeClientIds) {clientIds} : (∀ id ∈ clientIds, id ∈ evidence) →
      Move fresh evidence .empty s .empty (s.reconcileAcceptedClientIds clientIds activeClientIds)
  | resolve {s clientId state a} (outcome) : clientId ∈ evidence →
      (outcome = .notAccepted → clientId ∈ fresh) →
      s.arbiter.journal clientId = some .uncertain →
      (outcome = .notAccepted → state = none) →
      (outcome ≠ .notAccepted → state.any (·.terminal) = true) →
      Arbiter.Closes clientId state s.arbiter a →
      Move fresh evidence .empty s .empty ((s.emit (.resolved clientId outcome)).withArbiter a)

/-- A sequence of moves. -/
def Moves (fresh evidence : List String) (h : Hand) (s : Lane) (h' : Hand) (s' : Lane) : Prop :=
  Relation.ReflTransGen (fun p q : Hand × Lane => Move fresh evidence p.1 p.2 q.1 q.2) (h, s) (h', s')

variable {fresh evidence : List String}

theorem Moves.refl (h : Hand) (s : Lane) : Moves fresh evidence h s h s := Relation.ReflTransGen.refl

theorem Moves.trans {h h' h'' : Hand} {s s' s'' : Lane} (h1 : Moves fresh evidence h s h' s')
    (h2 : Moves fresh evidence h' s' h'' s'') : Moves fresh evidence h s h'' s'' :=
  Relation.ReflTransGen.trans h1 h2

theorem Move.single {h h' : Hand} {s s' : Lane} (h1 : Move fresh evidence h s h' s') :
    Moves fresh evidence h s h' s' :=
  Relation.ReflTransGen.single h1

theorem Moves.tail {h h' h'' : Hand} {s s' s'' : Lane} (h1 : Moves fresh evidence h s h' s')
    (h2 : Move fresh evidence h' s' h'' s'') : Moves fresh evidence h s h'' s'' := Relation.ReflTransGen.tail h1 h2

theorem SameBooks.moves {h : Hand} {s s' : Lane} (hs : SameBooks s s') : Moves fresh evidence h s h s' :=
  (Move.plain hs).single

/-- What every move keeps, a sequence of moves keeps. -/
theorem Moves.invariant {I : Hand → Lane → Prop}
    (hI : ∀ h s h' s', I h s → Move fresh evidence h s h' s' → I h' s') {h h' : Hand} {s s' : Lane}
    (hm : Moves fresh evidence h s h' s') (hi : I h s) : I h' s' := by
  suffices hp : ∀ p q : Hand × Lane,
      Relation.ReflTransGen (fun p q : Hand × Lane => Move fresh evidence p.1 p.2 q.1 q.2) p q →
        I p.1 p.2 → I q.1 q.2 from hp _ _ hm hi
  intro p q hpq hi
  induction hpq with
  | refl => exact hi
  | tail _ hmove ih => exact hI _ _ _ _ ih hmove

end Lane
end Codex
end AgentParty
