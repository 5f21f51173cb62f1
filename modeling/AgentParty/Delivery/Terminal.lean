import AgentParty.Delivery.Data
import AgentParty.Lib.Loop

/-! The terminal gate of the ledger: `transitionDirectedDeliveryTerminal`, the
settlement of waiting ancestors it triggers for an owner answer, and
`completeDirectedDelivery`. Broadcasts and the dispatch that follows a commit
leave the tables alone; a dispatch may start at any time anyway. -/

namespace AgentParty

namespace Ledger

/-- The stored `decision_response_json` of an answer's message. -/
def storedResponse (l : Ledger) (messageSeq : ℕ) : Option DecisionResponse :=
  (l.messages.get? messageSeq).bind (·.decisionResponse)

/-- The parent snapshot of the row; a legacy row falls back to the stored response. -/
def answerParentId (answer : Delivery) (response : Option DecisionResponse) : Option String :=
  match answer.parentDeliveryId.filter fun p => p ≠ "" with
  | some p => some p
  | none => response.bind fun r => r.lineage.map (·.deliveryId)

def responseMatchesAnswer (response : Option DecisionResponse) (parentDeliveryId : String)
    (answer : Delivery) : Bool :=
  match response with
  | none => true
  | some r =>
    match r.lineage with
    | none => false
    | some lineage =>
      lineage.deliveryId = parentDeliveryId && lineage.workId = text answer.workId &&
        lineage.continuationRef = text answer.continuationRef

def sourceMatchesAnswer (response : Option DecisionResponse) (source answer : Delivery) : Bool :=
  source.targetName = answer.targetName && text source.targetOwner = text answer.targetOwner &&
    (match response.bind (·.lineage) with
      | none => true
      | some lineage => source.messageSeq = lineage.originSeq) &&
    text source.continuationRef = text answer.continuationRef &&
    text source.workId = text answer.workId

/-- One hop of the settlement: the row that `answer` resumes, with every lineage check. -/
def settlementSource (l : Ledger) (answer : Delivery) : Option Delivery :=
  let response := l.storedResponse answer.messageSeq
  match answerParentId answer response with
  | none => none
  | some parentDeliveryId =>
    if parentDeliveryId = answer.id then none
    else if responseMatchesAnswer response parentDeliveryId answer then
      (l.directedDeliveryRow parentDeliveryId).filter fun source =>
        sourceMatchesAnswer response source answer
    else none

/-- The settlement UPDATE; an ancestor keeps its last holder but loses its lease. -/
def settledRow (terminalState : TerminalState) (replySeq : Option ℕ) (error : Option String)
    (now : Int) (r : Delivery) : Delivery :=
  match terminalState with
  | .replied =>
    { r with
      state := .replied, leaseConnectionId := none, leaseAdapter := none, leaseUntil := none,
      replySeq := replySeq <|> r.replySeq, lastError := none, terminalReason := none,
      updatedAt := now }
  | .failed =>
    { r with
      state := .failed, leaseConnectionId := none, leaseAdapter := none, leaseUntil := none,
      lastError := some (sliceReason
        ("owner answer failed: " ++ error.getD "runner reported failure")),
      terminalReason := some .ownerAnswerFailed, updatedAt := now }

@[simp] theorem settledRow_id (st : TerminalState) (replySeq : Option ℕ) (error : Option String)
    (now : Int) (r : Delivery) : (settledRow st replySeq error now r).id = r.id := by
  cases st <;> rfl

/-- The variables of the settlement loop. -/
structure Settlement where
  ledger : Ledger
  answer : Delivery
  visited : List String

def settleAncestor (terminalState : TerminalState) (replySeq : Option ℕ) (error : Option String)
    (now : Int) (s : Settlement) : Settlement ⊕ Ledger :=
  if s.answer.cause ≠ .ownerAnswer then .inr s.ledger
  else if s.visited.contains s.answer.id then .inr s.ledger
  else
    match s.ledger.settlementSource s.answer with
    | none => .inr s.ledger
    | some source =>
      if source.state = terminalState.toState then
        .inl ⟨s.ledger, source, s.answer.id :: s.visited⟩
      else if source.state = .waitingOwner then
        .inl ⟨s.ledger.updateDelivery source.id (fun r => r.state = .waitingOwner)
            (settledRow terminalState replySeq error now) (settledRow_id _ _ _ _),
          settledRow terminalState replySeq error now source, s.answer.id :: s.visited⟩
      else .inr s.ledger

def settlementFuel (l : Ledger) : ℕ := l.deliveries.rows.length + 2

def settleWaitingOwnerAncestors (l : Ledger) (completedAnswer : Delivery)
    (terminalState : TerminalState) (replySeq : Option ℕ) (error : Option String) (now : Int) :
    Ledger :=
  (WhileLoop.run (settleAncestor terminalState replySeq error now) l.settlementFuel
    ⟨l, completedAnswer, []⟩).getD l

/-- The lineage hook of the terminal gate. -/
def settleAnswer (l : Ledger) (row : Delivery) (terminalState : TerminalState)
    (replySeq : Option ℕ) (error : Option String) (now : Int) : Ledger :=
  if row.cause = .ownerAnswer then
    l.settleWaitingOwnerAncestors row terminalState replySeq error now
  else l

/-- The options of the terminal gate; `dispatchNext` only schedules a dispatch. -/
structure TerminalOptions where
  replySeq : Option ℕ := none
  error : Option String := none
  terminalReason : Option DeliveryTerminalReason := none
  expectedStates : List DeliveryState
  expectedLeaseAdapter : Option LeaseAdapter := none
  expectedLeaseConnectionId : Option String := none
  explicitAckPrincipal : Option String := none
  acknowledgedBy : Option String := none

/-- The principal, adapter and connection gates of the options. -/
def TerminalOptions.admits (o : TerminalOptions) (before : Delivery) : Bool :=
  (match o.explicitAckPrincipal with
    | none => true
    | some p => before.principal = some p) &&
  (match o.expectedLeaseAdapter with
    | none => true
    | some a => before.leaseAdapter = some a) &&
  (match o.expectedLeaseConnectionId with
    | none => true
    | some c => text before.leaseConnectionId = c)

def TerminalOptions.storedError (o : TerminalOptions) : TerminalState → Option String
  | .replied => none
  | .failed => some (sliceReason (o.error.getD "delivery failed"))

def TerminalOptions.storedReason (o : TerminalOptions) :
    TerminalState → Option DeliveryTerminalReason
  | .replied => o.terminalReason
  | .failed => some (o.terminalReason.getD .deliveryFailed)

/-- The UPDATE of the terminal gate. -/
def terminalRow (terminalState : TerminalState) (now : Int) (o : TerminalOptions) (r : Delivery) :
    Delivery :=
  { r with
    state := terminalState.toState
    lastLeaseConnectionId := r.leaseConnectionId <|> r.lastLeaseConnectionId
    lastLeaseAdapter := r.leaseAdapter <|> r.lastLeaseAdapter
    leaseConnectionId := none
    leaseAdapter := none
    leaseUntil := none
    replySeq := o.replySeq <|> r.replySeq
    lastError := o.storedError terminalState
    terminalReason := o.storedReason terminalState
    acknowledgedBy := o.acknowledgedBy <|> r.acknowledgedBy
    acknowledgedAt := (o.acknowledgedBy.map fun _ => now) <|> r.acknowledgedAt
    updatedAt := now }

@[simp] theorem terminalRow_id (st : TerminalState) (now : Int) (o : TerminalOptions)
    (r : Delivery) : (terminalRow st now o r).id = r.id := rfl

/-- The gate. A row of cause `owner_answer` and its ancestors change in one
transaction, so one call is one step of the ledger. -/
def transitionDirectedDeliveryTerminal (l : Ledger) (deliveryId : String)
    (terminalState : TerminalState) (now : Int) (o : TerminalOptions) :
    Ledger × Option Delivery :=
  match l.directedDeliveryRow deliveryId with
  | none => (l, none)
  | some before =>
    if before.state = .failed && terminalState = .replied && !before.isFailedDeliveryRevivable then
      (l, none)
    else if before.state = terminalState.toState then
      (l.settleAnswer before terminalState (o.replySeq <|> before.replySeq)
          (o.error <|> before.lastError) now,
        some before)
    else if !o.expectedStates.contains before.state then (l, none)
    else if !o.admits before then (l, none)
    else
      let updated := l.updateDelivery deliveryId (fun r => r.state = before.state && o.admits r)
        (terminalRow terminalState now o) (terminalRow_id _ _ _)
      match updated.directedDeliveryRow deliveryId with
      | none => (updated, none)
      | some terminal =>
        (updated.settleAnswer terminal terminalState o.replySeq (o.storedError terminalState) now,
          some terminal)

/-- Settle the work that a linked reply answers. -/
def completeDirectedDelivery (l : Ledger) (identity : Identity) (messageSeq replySeq : ℕ)
    (now : Int) : Ledger :=
  match l.deliveries.rows.find? fun r =>
      r.messageSeq = messageSeq && r.targetName = identity.name with
  | none => l
  | some row =>
    if !identity.identityMatchesDeliveryTarget row then l
    else if row.state ≠ .queued && row.state ≠ .claimed && row.state ≠ .running &&
        row.state ≠ .failed then l
    else if row.state = .failed && !row.isFailedDeliveryRevivable then l
    else (l.transitionDirectedDeliveryTerminal row.id .replied now
      { replySeq := some replySeq, expectedStates := [row.state] }).1

end Ledger

end AgentParty
