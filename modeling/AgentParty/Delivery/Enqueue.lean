import AgentParty.Delivery.Terminal

/-! The transactions that create work and park it: `ensureDirectedDeliveries`, the
part of `handleSend` that stores a message and parks the work behind a pending
question, and the response that turns a parked question into a new work item.
Values of `crypto.randomUUID()` come in with the event. -/

namespace AgentParty

def RETAIN_N : ℕ := 10000

/-- One classified target of a message, with the three values the room mints for
it. `selfMention` is `isSelfMention` of the sender and this target. -/
structure DeliveryTarget where
  name : String
  owner : Option String
  selfMention : Bool
  id : Uuid
  workId : Uuid
  continuationRef : Uuid

namespace Ledger

def directedDeliveryCause (l : Ledger) (msg : Message) (targetName : String) :
    DirectedDeliveryCause :=
  if msg.decisionResponse.isSome then .ownerAnswer
  else
    match msg.replyTo.bind l.messages.get? with
    | none => .mention
    | some original => if original.senderName = targetName then .reply else .mention

/-- The row that `INSERT OR IGNORE` stores. An owner's decision keeps the work and
continuation of the question it answers. -/
def newDelivery (l : Ledger) (msg : Message) (causeOverride : Option DirectedDeliveryCause)
    (now : Int) (t : DeliveryTarget) : Delivery where
  id := t.id.val
  id_ne := t.id.val_ne
  messageSeq := msg.seq
  messageSeq_pos := msg.seq_pos
  targetName := t.name
  targetOwner := t.owner
  cause := causeOverride.getD (l.directedDeliveryCause msg t.name)
  state := .queued
  attempt := 0
  leaseEpoch := 0
  leaseToken := none
  previousLeaseEpoch := none
  previousLeaseAttempt := none
  previousLeaseToken := none
  leaseConnectionId := none
  lastLeaseConnectionId := none
  leaseAdapter := none
  lastLeaseAdapter := none
  leaseUntil := none
  workId := some (((msg.decisionResponse.bind (·.lineage)).map (·.workId)).getD t.workId.val)
  continuationRef :=
    some (((msg.decisionResponse.bind (·.lineage)).map (·.continuationRef)).getD
      t.continuationRef.val)
  parentDeliveryId := (msg.decisionResponse.bind (·.lineage)).map (·.deliveryId)
  replySeq := none
  lastError := none
  terminalReason := none
  acknowledgedBy := none
  acknowledgedAt := none
  createdAt := now
  updatedAt := now

def ensureOne (msg : Message) (causeOverride : Option DirectedDeliveryCause) (now : Int)
    (l : Ledger) (t : DeliveryTarget) : Ledger :=
  if l.deliveries.rows.any fun r => r.messageSeq = msg.seq && r.targetName = t.name then l
  else { l with deliveries := l.deliveries.insert (l.newDelivery msg causeOverride now t) }

/-- The table part of `ensureDirectedDeliveries`; the mark it leaves on a message
that a reply corrects touches no column kept here. -/
def ensureDirectedDeliveries (l : Ledger) (msg : Message) (targets : List DeliveryTarget)
    (causeOverride : Option DirectedDeliveryCause) (now : Int) : Ledger :=
  if msg.kind ≠ .message then l
  else (targets.filter fun t => !t.selfMention).foldl (ensureOne msg causeOverride now) l

/-- What `activeDecisionDelivery` finds. -/
inductive ActiveDecision
  | absent
  | ambiguous
  | active (lineage : DecisionLineage)

/-- A stored id that is neither empty nor longer than the limit stays. -/
def keepOrMint (stored : Option String) (limit : ℕ) (minted : Uuid) : {s : String // s ≠ ""} :=
  if h : text stored ≠ "" ∧ jsLength (text stored) ≤ limit then ⟨text stored, h.1⟩
  else ⟨minted.val, minted.val_ne⟩

def mintedRow (workId continuationRef : String) (r : Delivery) : Delivery :=
  { r with workId := some workId, continuationRef := some continuationRef }

@[simp] theorem mintedRow_id (workId continuationRef : String) (r : Delivery) :
    (mintedRow workId continuationRef r).id = r.id := rfl

/-- The one active work item of a sender, with usable lineage values. -/
def activeDecisionDelivery (l : Ledger) (identity : Identity) (workId continuationRef : Uuid) :
    Ledger × ActiveDecision :=
  match l.deliveries.rows.filter fun r => identity.boundTo r && r.active with
  | [] => (l, .absent)
  | [row] =>
    let work := keepOrMint row.workId DELIVERY_WORK_ID_LIMIT workId
    let continuation := keepOrMint row.continuationRef DELIVERY_CONTINUATION_REF_LIMIT continuationRef
    let l :=
      if work.val ≠ text row.workId || continuation.val ≠ text row.continuationRef then
        l.updateDelivery row.id (fun _ => true) (mintedRow work.val continuation.val)
          (mintedRow_id _ _)
      else l
    (l, .active ⟨row.id, row.messageSeq, work.val, continuation.val, row.id_ne,
      row.messageSeq_pos, work.property, continuation.property⟩)
  | _ => (l, .ambiguous)

/-- The server-side part of a `decision_request` in a send. -/
structure Question where
  expectedResponderOwner : Option String
  unattended : Bool
  expectedLineage : Option (String × String × String)
  workId : Uuid
  continuationRef : Uuid

/-- A send whose routing and guards have passed: what the atomic section stores. -/
structure SendCommit where
  identity : Identity
  seq : ℕ
  seq_pos : 0 < seq
  kind : MessageKind
  replyTo : Option ℕ
  statusSummarySeq : Option ℕ
  alsoResolves : List ℕ
  reviewPending : Bool
  question : Option Question
  targets : List DeliveryTarget
  now : Int

def ActiveDecision.lineage? : ActiveDecision → Option DecisionLineage
  | .active lineage => some lineage
  | _ => none

/-- `expectedDecisionLineage` of the options against the active work. -/
def expectedLineageHolds (q : Question) (active : ActiveDecision) : Bool :=
  match q.expectedLineage with
  | none => true
  | some (deliveryId, workId, continuationRef) =>
    active.lineage?.any fun lineage =>
      lineage.deliveryId = deliveryId && lineage.workId = workId &&
        lineage.continuationRef = continuationRef

def requestColumn (q : Question) (lineage : Option DecisionLineage) : DecisionRequestColumn where
  deliveryId := lineage.map (·.deliveryId)
  parsed := some ⟨q.expectedResponderOwner, lineage⟩
  agree := by simp

/-- The message row of a send. A question bound to work replies to that work's origin. -/
def sentMessage (c : SendCommit) (lineage : Option DecisionLineage) : Message where
  seq := c.seq
  seq_pos := c.seq_pos
  senderName := c.identity.name
  senderKind := c.identity.kind
  senderOwner := c.identity.owner
  kind := c.kind
  replyTo := match lineage with
    | some bound => some bound.originSeq
    | none => c.replyTo
  statusSummarySeq := c.statusSummarySeq
  decisionState := c.question.map fun q => if q.unattended then .autoResolved else .pending
  decisionRequest := c.question.map fun q => requestColumn q lineage
  decisionResponse := none
  reviewPending := c.reviewPending
  retractedAt := none
  revSeq := none

def parkedRow (now : Int) (r : Delivery) : Delivery :=
  { r with
    state := .waitingOwner, lastLeaseConnectionId := r.leaseConnectionId,
    leaseConnectionId := none, leaseAdapter := none, leaseUntil := none, terminalReason := none,
    updatedAt := now }

@[simp] theorem parkedRow_id (now : Int) (r : Delivery) : (parkedRow now r).id = r.id := rfl

/-- `waiting_owner`: the question is stored before the lease is released. -/
def parkDelivery (l : Ledger) (identity : Identity) (lineage : DecisionLineage) (now : Int) :
    Ledger :=
  l.updateDelivery lineage.deliveryId (fun r => identity.boundTo r && r.active) (parkedRow now)
    (parkedRow_id now)

/-- The deliveries a stored message settles: `linkWakeResume`. -/
def linkedSeqs (msg : Message) (alsoResolves : List ℕ) : List ℕ :=
  (if (msg.decisionRequest.bind (·.deliveryId)).isNone then msg.replyTo.toList else []) ++
    alsoResolves ++ msg.statusSummarySeq.toList

def linkWakeResume (l : Ledger) (identity : Identity) (msg : Message) (alsoResolves : List ℕ)
    (now : Int) : Ledger :=
  (linkedSeqs msg alsoResolves).foldl
    (fun l seq => l.completeDirectedDelivery identity seq msg.seq now) l

/-- A message old enough to go, and free of a pending review or decision. -/
def prunable (l : Ledger) (seq : ℕ) (m : Message) : Bool :=
  m.seq + RETAIN_N ≤ seq && !m.reviewPending && m.decisionState ≠ some .pending &&
    !l.deliveries.rows.any fun r => r.messageSeq = m.seq && r.unfinished

/-- `ON DELETE CASCADE` of the lease history. -/
def deleteDeliveries (l : Ledger) (p : Delivery → Bool) : Ledger :=
  let deliveries := l.deliveries.delete p
  { l with
    deliveries := deliveries
    leaseHistory := l.leaseHistory.filter fun h => (deliveries.get? h.deliveryId).isSome }

/-- Every hundredth message prunes by count, terminal rows after their retention. -/
def pruneByCount (l : Ledger) (seq : ℕ) (now : Int) : Ledger :=
  if seq % 100 ≠ 0 then l
  else
    let pruned := l.deleteDeliveries fun r =>
      r.updatedAt ≤ now - DIRECTED_DELIVERY_TERMINAL_RETENTION_MS &&
        (l.messages.get? r.messageSeq).any (l.prunable seq)
    { pruned with
      messages := pruned.messages.delete fun m =>
        pruned.prunable seq m && !pruned.deliveries.rows.any fun r => r.messageSeq = m.seq }

/-- The work a question of an agent is bound to. -/
def questionDelivery (l : Ledger) (c : SendCommit) : Ledger × ActiveDecision :=
  match c.question with
  | none => (l, .absent)
  | some q =>
    if c.identity.kind = SenderKind.agent then
      l.activeDecisionDelivery c.identity q.workId q.continuationRef
    else (l, .absent)

def questionRefused (c : SendCommit) (active : ActiveDecision) : Bool :=
  match active, c.question with
  | .ambiguous, _ => true
  | _, none => false
  | _, some q => !expectedLineageHolds q active

/-- The rows a send writes: message, work items, parked work, linked completions. -/
def storeSend (l : Ledger) (c : SendCommit) (lineage : Option DecisionLineage) : Ledger :=
  let msg := sentMessage c lineage
  let l := { l with messages := l.messages.insert msg }
  let l := l.ensureDirectedDeliveries msg c.targets none c.now
  let l := match lineage with
    | some bound =>
      if msg.decisionState = some DecisionState.pending then l.parkDelivery c.identity bound c.now
      else l
    | none => l
  let l := l.linkWakeResume c.identity msg c.alsoResolves c.now
  l.pruneByCount c.seq c.now

/-- The synchronous end of `handleSend`, from the lookup of the active work to the
commit. The look-up repeated inside the transaction finds the same row. -/
def commitSend (l : Ledger) (c : SendCommit) : Ledger :=
  let (l, active) := l.questionDelivery c
  if questionRefused c active then l else l.storeSend c active.lineage?

/-- `exactDecisionSource`. -/
def exactDecisionSource (l : Ledger) (question : Message) (request : DecisionRequest) :
    Option Delivery :=
  match request.lineage with
  | none => none
  | some lineage =>
    (l.directedDeliveryRow lineage.deliveryId).filter fun source =>
      (match l.messages.get? lineage.originSeq with
        | none => false
        | some origin => origin.retractedAt.isNone) &&
      source.targetName = question.senderName && source.principal.isSome &&
      (match question.senderOwner.filter fun o => o ≠ "" with
        | none => true
        | some owner => source.principal = some owner) &&
      source.messageSeq = lineage.originSeq && question.replyTo = some lineage.originSeq &&
      text source.workId = lineage.workId && text source.continuationRef = lineage.continuationRef

/-- A decision response whose option has been checked. `owner` is the principal a
question without bound work finds in the token directory. -/
structure DecisionAnswer where
  responder : Identity
  questionSeq : ℕ
  seq : ℕ
  seq_pos : 0 < seq
  directoryOwner : Option String
  id : Uuid
  workId : Uuid
  continuationRef : Uuid
  now : Int

def resolvedQuestion (revSeq : ℕ) (m : Message) : Message :=
  { m with decisionState := some .resolved, revSeq := some revSeq }

@[simp] theorem resolvedQuestion_seq (revSeq : ℕ) (m : Message) :
    (resolvedQuestion revSeq m).seq = m.seq := rfl

/-- The principal of the answer's work item: the parked work's own, or for a
question without lineage the sender's, provided no work hangs on its origin. -/
def answerPrincipal (l : Ledger) (question : Message) (request : DecisionRequest)
    (directoryOwner : Option String) : Option String :=
  match request.lineage with
  | some _ =>
    match l.exactDecisionSource question request with
    | none => none
    | some source => if source.state = .waitingOwner then source.targetOwner else none
  | none =>
    if question.replyTo.any fun seq => l.deliveries.rows.any fun r =>
        r.messageSeq = seq && r.targetName = question.senderName then none
    else
      match question.senderOwner.filter fun o => o ≠ "" with
      | some owner => some owner
      | none => directoryOwner

def answerMessage (a : DecisionAnswer) (request : DecisionRequest) : Message where
  seq := a.seq
  seq_pos := a.seq_pos
  senderName := a.responder.name
  senderKind := a.responder.kind
  senderOwner := a.responder.owner
  kind := .message
  replyTo := some a.questionSeq
  statusSummarySeq := none
  decisionState := none
  decisionRequest := none
  decisionResponse := some ⟨a.questionSeq, request.lineage⟩
  reviewPending := false
  retractedAt := none
  revSeq := none

/-- The transaction of a response: compare-and-set, reply, linked completion, work. -/
def commitAnswer (l : Ledger) (a : DecisionAnswer) (request : DecisionRequest)
    (targets : List DeliveryTarget) : Ledger :=
  let l := { l with
    revSeq := l.revSeq + 1
    messages := (l.messages.update
      (fun m => m.seq = a.questionSeq && m.decisionState = some DecisionState.pending)
      (resolvedQuestion (l.revSeq + 1)) (resolvedQuestion_seq _)).insert
        (answerMessage a request) }
  let l := l.linkWakeResume a.responder (answerMessage a request) [] a.now
  l.ensureDirectedDeliveries (answerMessage a request) targets none a.now

/-- The messages of an answer: the question is resolved, the reply stored. -/
def answeredMessages (l : Ledger) (a : DecisionAnswer) (request : DecisionRequest) : Messages :=
  (l.messages.update
    (fun m => m.seq = a.questionSeq && m.decisionState = some DecisionState.pending)
    (resolvedQuestion (l.revSeq + 1)) (resolvedQuestion_seq _)).insert (answerMessage a request)

def respondDecision (l : Ledger) (a : DecisionAnswer) : Ledger :=
  match l.messages.get? a.questionSeq with
  | none => l
  | some question =>
    match question.decisionRequest.bind (·.parsed) with
    | none => l
    | some request =>
      if question.kind ≠ .message || question.retractedAt.isSome ||
          a.responder.name = question.senderName ||
          request.expectedResponderOwner.any (fun o =>
            a.responder.kind ≠ .human || a.responder.owner ≠ some o) ||
          question.decisionState ≠ some .pending then l
      else if question.senderKind ≠ .agent then l.commitAnswer a request []
      else
        match l.answerPrincipal question request a.directoryOwner with
        | none => l
        | some principal =>
          l.commitAnswer a request
            [⟨question.senderName, some principal, false, a.id, a.workId, a.continuationRef⟩]

end Ledger

end AgentParty
