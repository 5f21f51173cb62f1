import AgentParty.Delivery.Terminal
import Mathlib.Data.List.Sort

/-! `failDeliveryTree`: a worklist over `parent_delivery_id` that fails a source
and every continuation below it, invalidates the parked questions and scrubs the
lineage, shared by retraction and retention. -/

namespace AgentParty

namespace Ledger

structure DeliveryFailure where
  error : String
  terminalReason : DeliveryTerminalReason
  deriving DecidableEq, Repr

/-- `ORDER BY created_at, id`. -/
def byCreation (a b : Delivery) : Prop :=
  a.createdAt < b.createdAt ∨ (a.createdAt = b.createdAt ∧ a.id ≤ b.id)

instance : DecidableRel byCreation := fun a b =>
  inferInstanceAs (Decidable (a.createdAt < b.createdAt ∨ (a.createdAt = b.createdAt ∧ a.id ≤ b.id)))

def children (l : Ledger) (id : String) : List String :=
  ((l.deliveries.rows.filter fun r => r.parentDeliveryId = some id).insertionSort byCreation).map
    (·.id)

/-- The scrub of one parked question; each takes a fresh `rev_seq`. -/
def invalidatedQuestion (revSeq : ℕ) (m : Message) : Message :=
  { m with
    decisionRequest := none, decisionState := none, decisionResponse := none,
    revSeq := some revSeq }

@[simp] theorem invalidatedQuestion_seq (revSeq : ℕ) (m : Message) :
    (invalidatedQuestion revSeq m).seq = m.seq := rfl

def invalidateQuestion (l : Ledger) (questionSeq : ℕ) : Ledger :=
  { l with
    revSeq := l.revSeq + 1
    messages := l.messages.update
      (fun m => m.seq = questionSeq && m.decisionState = some .pending)
      (invalidatedQuestion (l.revSeq + 1)) (invalidatedQuestion_seq _) }

def pendingQuestions (l : Ledger) (id : String) : List ℕ :=
  (l.messages.rows.filter fun m => m.pendingFor id).map (·.seq)

def invalidateQuestions (l : Ledger) (id : String) : Ledger :=
  (l.pendingQuestions id).foldl invalidateQuestion l

/-- Source invalidation outranks the recovery policy of a failed row. -/
def reclassifiedRow (failure : DeliveryFailure) (now : Int) (r : Delivery) : Delivery :=
  { r with
    lastError := some failure.error, terminalReason := some failure.terminalReason,
    updatedAt := now }

@[simp] theorem reclassifiedRow_id (failure : DeliveryFailure) (now : Int) (r : Delivery) :
    (reclassifiedRow failure now r).id = r.id := rfl

def scrubbedRow (r : Delivery) : Delivery :=
  { r with
    workId := none, continuationRef := none, parentDeliveryId := none, leaseConnectionId := none,
    lastLeaseConnectionId := none, leaseAdapter := none, leaseUntil := none }

@[simp] theorem scrubbedRow_id (r : Delivery) : (scrubbedRow r).id = r.id := rfl

/-- The body of the loop for a row that is there. -/
def failOne (l : Ledger) (row : Delivery) (now : Int) (failure : DeliveryFailure) : Ledger :=
  let l := l.invalidateQuestions row.id
  let l :=
    if row.unfinished then
      (l.transitionDirectedDeliveryTerminal row.id .failed now
        { error := some failure.error, terminalReason := some failure.terminalReason,
          expectedStates := [row.state] }).1
    else if row.state = .failed then
      l.updateDelivery row.id (fun r => r.state = .failed) (reclassifiedRow failure now)
        (reclassifiedRow_id _ _)
    else l
  l.updateDelivery row.id (fun _ => true) scrubbedRow scrubbedRow_id

/-- The variables of the worklist loop. -/
structure TreeSweep where
  ledger : Ledger
  pending : List String
  visited : List String
  invalidatedDecisionSeqs : List ℕ

def sweepStep (now : Int) (failure : DeliveryFailure) (s : TreeSweep) :
    TreeSweep ⊕ (Ledger × List ℕ) :=
  match s.pending with
  | [] => .inr (s.ledger, s.invalidatedDecisionSeqs)
  | id :: pending =>
    if s.visited.contains id then .inl { s with pending := pending }
    else
      match s.ledger.directedDeliveryRow id with
      | none => .inl { s with pending := pending, visited := id :: s.visited }
      | some row =>
        .inl
          { ledger := s.ledger.failOne row now failure
            pending := pending ++ s.ledger.children id
            visited := id :: s.visited
            invalidatedDecisionSeqs := s.invalidatedDecisionSeqs ++ s.ledger.pendingQuestions id }

def sweepFuel (l : Ledger) (initial : List String) : ℕ :=
  (initial.length + l.deliveries.rows.length) * (l.deliveries.rows.length + 1) + initial.length + 1

/-- The loop of the source with a bound on its passes. -/
def failDeliveryTreeWithin (fuel : ℕ) (l : Ledger) (initial : List String) (now : Int)
    (failure : DeliveryFailure) : Option (Ledger × List ℕ) :=
  WhileLoop.run (sweepStep now failure) fuel ⟨l, initial, [], []⟩

def failDeliveryTree (l : Ledger) (initial : List String) (now : Int) (failure : DeliveryFailure) :
    Ledger × List ℕ :=
  (l.failDeliveryTreeWithin (l.sweepFuel initial) initial now failure).getD (l, [])

def failRetractedDeliveryTree (l : Ledger) (initial : List String) (now : Int) :
    Ledger × List ℕ :=
  l.failDeliveryTree initial now ⟨"source retracted, no retry", .sourceRetracted⟩

end Ledger

end AgentParty
