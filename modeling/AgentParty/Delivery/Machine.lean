import AgentParty.Delivery.Dispatch
import AgentParty.Delivery.Sockets
import AgentParty.Delivery.Tree
import AgentParty.Delivery.Update
import AgentParty.Delivery.Webhook
import AgentParty.Lib.Run

/-! The room as a machine: everything that reads or writes the delivery ledger,
one event for each stretch of code between two waits. A dispatch tail may start
at any time; tails of one target run one after another, so a target has at most
one tail in flight. -/

namespace AgentParty

structure Room where
  ledger : Ledger
  sockets : Sockets
  hooks : WebhookState
  /-- Names with a participant-removal mark. -/
  removed : List String
  paused : List String
  /-- The dispatch tails in flight. -/
  tails : List (DispatchTask × DispatchStage)
  /-- Every value `crypto.randomUUID()` has returned. -/
  minted : List String

inductive Event
  | send (c : Ledger.SendCommit)
  /-- A stored message gets its deliveries: a reviewer's reply, or the targets an edit adds. -/
  | stage (seq : ℕ) (edited : Bool) (targets : List DeliveryTarget) (now : Int)
  /-- A message of the room itself or of a reviewer; a reviewer's reply settles its own debt. -/
  | note (m : Message) (author : Identity) (now : Int)
  | respond (a : Ledger.DecisionAnswer)
  | dispatchStart (targetName : String) (excludeId : Option String)
  | dispatchTop (targetName : String) (now : Int)
  | dispatchRemoval (targetName : String) (isRemoved : Bool) (now : Int)
  | dispatchPrincipal (targetName : String) (isCurrent : Bool) (token : Uuid) (now : Int)
  | recover (identity : ConnState) (connectionId : String) (f : DeliveryRecoverFrame)
      (lingering : List String) (now : Int)
  | update (identity : ConnState) (connectionId : String) (u : DeliveryUpdateFrame) (now : Int)
  | heartbeat (identity : Identity) (connectionId : String) (currentTask : Option ℕ) (now : Int)
  | acknowledge (identity : Identity) (deliveryId : String) (now : Int)
  /-- The ledger part of `onClose` and of `scanPresence`. -/
  | socketLost (connectionId : String) (now : Int)
  | leaseExpired (lingering : List String) (now : Int)
  | staleQueued (now : Int)
  | retract (seq : ℕ) (now : Int)
  /-- Sources that outlived the message retention or the delivery age limit. -/
  | sourcesExpired (roots : List String) (failure : Ledger.DeliveryFailure) (now : Int)
  | deleteMessages (seqs : List ℕ)
  | pruneDeliveries (now : Int)
  | eraseIdentity (name : String)
  /-- Review, supersede, receipt and edit columns; the kept columns are `f`'s concern. -/
  | reviewed (seq : ℕ) (reviewPending : Bool)
  | removeParticipant (name : String) (now : Int)
  | restoreParticipant (name : String)
  | removeStalePrincipal (name principal : String) (now : Int)
  | pause (name : String)
  | resume (name : String)
  | registerWebhook (hook : AgentWebhook)
  | deleteWebhook (hook : AgentWebhook) (now : Int)
  | handoffRemoval (item : WebhookItem) (isRemoved : Bool) (now : Int)
  | handoffPrincipal (item : WebhookItem) (isCurrent : Bool) (now : Int)
  | dispatchPosted (item : WebhookItem) (ok : Bool) (now : Int)
  | retryStarts (item : WebhookItem) (now : Int)
  | retryPosted (item : WebhookItem) (ok : Bool) (now : Int)
  | redeliveryStarts (item : WebhookItem) (now : Int)
  | redeliveryPosted (item : WebhookItem) (ok : Bool) (now : Int)
  /-- Payload copies of retracted or deleted messages go without an outcome. -/
  | scrubWebhookItems (seq : ℕ)
  | socket (e : SocketEvent)

namespace Ledger

/-- Plain `INSERT INTO messages`. -/
def storeMessage (l : Ledger) (m : Message) : Ledger := { l with messages := l.messages.insert m }

def retractedMessage (now : Int) (revSeq : ℕ) (m : Message) : Message :=
  { m with
    decisionRequest := none, decisionState := none, decisionResponse := none,
    reviewPending := false, retractedAt := some now,
    revSeq := some revSeq }

@[simp] theorem retractedMessage_seq (now : Int) (revSeq : ℕ) (m : Message) :
    (retractedMessage now revSeq m).seq = m.seq := rfl

/-- The deliveries of the message, and the work its pending question parked. -/
def retractionRoots (l : Ledger) (question : Message) : List String :=
  ((l.deliveries.rows.filter fun r => r.messageSeq = question.seq).insertionSort byCreation).map
      (·.id) ++
    match question.decisionRequest.bind (·.parsed) with
    | none => []
    | some request =>
      match l.exactDecisionSource question request with
      | none => []
      | some source => if source.state = .waitingOwner then [source.id] else []

def retractMessage (l : Ledger) (seq : ℕ) (now : Int) : Ledger :=
  match l.messages.get? seq with
  | none => l
  | some question =>
    let l := { l with
      revSeq := l.revSeq + 1
      messages := l.messages.update (fun m => m.seq = seq) (retractedMessage now (l.revSeq + 1))
        (retractedMessage_seq _ _) }
    (l.failRetractedDeliveryTree (l.retractionRoots question) now).1

/-- `targetHasLiveDeliveryAdapter`. -/
def targetHasLiveDeliveryAdapter (cs : Connections) (webhooks : List AgentWebhook)
    (targetName : String) (principal : Option String) : Bool :=
  match principal with
  | none => false
  | some p =>
    let same (c : Connection) : Bool := c.state.identityDeliveryPrincipal = p
    (Connections.serveLeaseCandidates cs targetName none none).any (fun c =>
        c.state.serveLeaseHeld = some true && same c) ||
      (Connections.watchLeaseCandidates cs targetName none).any same ||
      (Connections.claimedServeConnections cs targetName none none).any (fun c =>
        !c.state.directedDeliveryV1 && c.state.serveLeaseHeld = some true && same c) ||
      webhooks.any fun h => h.name = targetName && h.targetOwner = some p

/-- `failStaleQueuedDeliveries`: queued too long, and nobody could take it. -/
def staleQueuedRoots (l : Ledger) (cs : Connections) (webhooks : List AgentWebhook)
    (paused : List String) (now : Int) : List String :=
  (l.deliveries.rows.filter fun r =>
    r.state = .queued && r.createdAt ≤ now - DIRECTED_DELIVERY_QUEUED_TIMEOUT_MS &&
      !paused.contains r.targetName &&
      !targetHasLiveDeliveryAdapter cs webhooks r.targetName r.principal).map (·.id)

def failStaleQueuedDeliveries (l : Ledger) (cs : Connections) (webhooks : List AgentWebhook)
    (paused : List String) (now : Int) : Ledger :=
  (l.failDeliveryTree (l.staleQueuedRoots cs webhooks paused now) now
    ⟨"no live wake channel for target after queued timeout; @ undelivered", .undeliveredTimeout⟩).1

/-- The deletion of expired messages with everything that hangs on them. -/
def deleteMessages (l : Ledger) (seqs : List ℕ) : Ledger :=
  let l := l.deleteDeliveries fun r => seqs.contains r.messageSeq
  { l with messages := l.messages.delete fun m => seqs.contains m.seq }

/-- `pruneDirectedDeliveryRetention`: only terminal leaves without a pending question. -/
def pruneDirectedDeliveries (l : Ledger) (now : Int) : Ledger :=
  l.deleteDeliveries fun r =>
    r.terminal && r.updatedAt ≤ now - DIRECTED_DELIVERY_TERMINAL_RETENTION_MS &&
      !l.deliveries.rows.any (fun child => child.parentDeliveryId = some r.id) &&
      !l.messages.rows.any fun m => m.pendingFor r.id

def erasedMessage (revSeq : ℕ) (m : Message) : Message :=
  { m with
    senderOwner := none, statusSummarySeq := none, decisionRequest := none, decisionState := none,
    decisionResponse := none, reviewPending := false, revSeq := some revSeq }

@[simp] theorem erasedMessage_seq (revSeq : ℕ) (m : Message) :
    (erasedMessage revSeq m).seq = m.seq := rfl

def eraseIdentityData (l : Ledger) (name : String) : Ledger :=
  let l := { l with
    revSeq := l.revSeq + 1
    messages := l.messages.update (fun m => m.senderName = name) (erasedMessage (l.revSeq + 1))
      (erasedMessage_seq _) }
  l.deleteDeliveries fun r => r.targetName = name

def withReviewPending (b : Bool) (m : Message) : Message := { m with reviewPending := b }

@[simp] theorem withReviewPending_seq (b : Bool) (m : Message) :
    (withReviewPending b m).seq = m.seq := rfl

end Ledger

namespace Room

/-- The values of `crypto.randomUUID()` an event consumes. -/
def mints : Event → List String
  | .send c =>
    (c.question.toList.flatMap fun q => [q.workId.val, q.continuationRef.val]) ++
      c.targets.flatMap fun t => [t.id.val, t.workId.val, t.continuationRef.val]
  | .stage _ _ targets _ => targets.flatMap fun t => [t.id.val, t.workId.val, t.continuationRef.val]
  | .respond a => [a.id.val, a.workId.val, a.continuationRef.val]
  | .dispatchPrincipal _ _ token _ => [token.val]
  | _ => []

def tailOf (r : Room) (targetName : String) : Option (DispatchTask × DispatchStage) :=
  r.tails.find? fun t => t.1.targetName = targetName

/-- A tail goes on to its next stage or ends. -/
def withTail (r : Room) (task : DispatchTask) (next : DispatchNext) : Room :=
  let others := r.tails.filter fun t => t.1.targetName ≠ task.targetName
  match next with
  | .finished => { r with tails := others }
  | .awaiting stage => { r with tails := (task, stage) :: others }

def withHandoff (r : Room) : Option Handoff → Room
  | none => r
  | some (.connection id frame) =>
    { r with sockets := { r.sockets with sent := r.sockets.sent ++ [(id, frame)] } }
  | some (.webhook hook claimed) =>
    { r with hooks := { r.hooks with
      handoffs := r.hooks.handoffs ++
        [(.removal, ⟨hook, payloadOf claimed, claimed.attempt⟩)] } }

def removeParticipantDeliveryAdapters (r : Room) (name : String) (now : Int) : Room :=
  { r with
    ledger := r.ledger.removeParticipantDeliveries name now
    removed := name :: r.removed
    hooks := { r.hooks with
      webhooks := r.hooks.webhooks.filter fun h => h.name ≠ name
      queue := r.hooks.queue.filter fun i => i.binding.name ≠ name
      deadLetters := r.hooks.deadLetters.filter fun i => i.binding.name ≠ name } }

def removeStaleDeliveryPrincipal (r : Room) (name principal : String) (now : Int) : Room :=
  { r with
    ledger := r.ledger.removeStaleDeliveries name principal now
    hooks := { r.hooks with
      webhooks := r.hooks.webhooks.filter fun h =>
        !(h.name = name && h.targetOwner = some principal)
      queue := r.hooks.queue.filter fun i =>
        !(i.binding.name = name && i.binding.targetOwner = some principal) } }

/-- One stretch of the tail of `targetName`. -/
def dispatchStep (r : Room) (targetName : String)
    (f : DispatchTask → DispatchStage → Room) : Room :=
  match r.tailOf targetName with
  | none => r
  | some (task, stage) => f task stage

/-- The ledger and the webhook tables after a webhook step. -/
def withHooks (r : Room) (result : Ledger × WebhookState) : Room :=
  { r with ledger := result.1, hooks := result.2 }

def withHandoffs (r : Room) (handoffs : List (HandoffCheck × WebhookItem)) : Room :=
  { r with hooks := { r.hooks with handoffs := handoffs } }

/-- `dispatchDirectedWebhook` past its first wait. -/
def applyHandoffRemoval (r : Room) (item : WebhookItem) (isRemoved : Bool) (now : Int) : Room :=
  let handoffs := r.hooks.handoffs.erase (.removal, item)
  if isRemoved then
    (r.withHandoffs handoffs).removeParticipantDeliveryAdapters item.binding.name now
  else r.withHandoffs ((.principal, item) :: handoffs)

/-- Past its second wait. -/
def applyHandoffPrincipal (r : Room) (item : WebhookItem) (isCurrent : Bool) (now : Int) : Room :=
  let r := r.withHandoffs (r.hooks.handoffs.erase (.principal, item))
  match item.binding.targetOwner with
  | none => r
  | some principal =>
    if !isCurrent then r.removeStaleDeliveryPrincipal item.binding.name principal now
    else { r with hooks := r.hooks.startDispatchPost r.ledger item }

def applyDispatchPrincipal (r : Room) (isCurrent : Bool) (token : Uuid) (now : Int)
    (task : DispatchTask) : DispatchStage → Room
  | .principalCheck queued =>
    match queued.principal with
    | none => r
    | some principal =>
      if !isCurrent then
        (r.removeStaleDeliveryPrincipal task.targetName principal now).withTail task (.awaiting .top)
      else
        let (ledger, next, handoff) :=
          r.ledger.dispatchDecide r.sockets.connections task queued principal token now
        (({ r with ledger := ledger }).withTail task next).withHandoff handoff
  | _ => r

/-- What the room does at an event. -/
def apply (r : Room) : Event → Room
  | .send c => { r with ledger := r.ledger.commitSend c }
  | .stage seq edited targets now =>
    match r.ledger.messages.get? seq with
    | none => r
    | some msg =>
      let cause := if edited then some DirectedDeliveryCause.mentionEdit else none
      { r with ledger := r.ledger.ensureDirectedDeliveries msg targets cause now }
  | .note m author now =>
    { r with ledger := (r.ledger.storeMessage m).linkWakeResume author m [] now }
  | .respond a => { r with ledger := r.ledger.respondDecision a }
  | .dispatchStart targetName excludeId =>
    if r.removed.contains targetName || r.paused.contains targetName then r
    else
      { r with tails :=
          (Connections.startDispatch r.sockets.connections r.hooks.webhooks targetName excludeId,
            .top) :: r.tails }
  | .dispatchTop targetName now =>
    r.dispatchStep targetName fun task stage =>
      match stage with
      | .top =>
        let (ledger, next) := r.ledger.dispatchTop task now
        ({ r with ledger := ledger }).withTail task next
      | _ => r
  | .dispatchRemoval targetName isRemoved now =>
    r.dispatchStep targetName fun task stage =>
      match stage with
      | .removalCheck queued =>
        if isRemoved then
          (r.removeParticipantDeliveryAdapters targetName now).withTail task .finished
        else r.withTail task (.awaiting (.principalCheck queued))
      | _ => r
  | .dispatchPrincipal targetName isCurrent token now =>
    r.dispatchStep targetName (r.applyDispatchPrincipal isCurrent token now)
  | .recover identity connectionId f lingering now =>
    let out := r.ledger.recoverDirectedDelivery r.sockets.connections lingering identity
      connectionId f now
    { r with
      ledger := out.ledger
      sockets := { r.sockets with
        connections := out.connections, sent := r.sockets.sent ++ out.sent } }
  | .update identity connectionId u now =>
    let result := r.ledger.applyDirectedDeliveryUpdate r.sockets.connections identity connectionId
      u now
    { r with ledger := result.1 }
  | .heartbeat identity connectionId currentTask now =>
    let ledger := r.ledger.applyDirectedDeliveryHeartbeat identity connectionId currentTask now
    { r with ledger := ledger }
  | .acknowledge identity deliveryId now =>
    { r with ledger := r.ledger.acknowledgeDelivery identity deliveryId now }
  | .socketLost connectionId now =>
    { r with ledger := r.ledger.requeueDirectedDeliveriesForConnection connectionId now }
  | .leaseExpired lingering now =>
    let (connections, sent) :=
      Connections.closeExpiredHolders r.sockets.connections lingering (r.ledger.expiredRows now)
    { r with
      ledger := r.ledger.requeueExpired now
      sockets := { r.sockets with connections := connections, sent := r.sockets.sent ++ sent } }
  | .staleQueued now =>
    let ledger := r.ledger.failStaleQueuedDeliveries r.sockets.connections r.hooks.webhooks r.paused
      now
    { r with ledger := ledger }
  | .retract seq now => { r with ledger := r.ledger.retractMessage seq now }
  | .sourcesExpired roots failure now =>
    { r with ledger := (r.ledger.failDeliveryTree roots now failure).1 }
  | .deleteMessages seqs => { r with ledger := r.ledger.deleteMessages seqs }
  | .pruneDeliveries now => { r with ledger := r.ledger.pruneDirectedDeliveries now }
  | .eraseIdentity name => { r with ledger := r.ledger.eraseIdentityData name }
  | .reviewed seq reviewPending =>
    { r with ledger := { r.ledger with
        revSeq := r.ledger.revSeq + 1
        messages := r.ledger.messages.update (fun m => m.seq = seq)
          (Ledger.withReviewPending reviewPending) (Ledger.withReviewPending_seq _) } }
  | .removeParticipant name now => r.removeParticipantDeliveryAdapters name now
  | .restoreParticipant name => { r with removed := r.removed.filter fun n => n ≠ name }
  | .removeStalePrincipal name principal now => r.removeStaleDeliveryPrincipal name principal now
  | .pause name => { r with paused := name :: r.paused }
  | .resume name => { r with paused := r.paused.filter fun n => n ≠ name }
  | .registerWebhook hook =>
    { r with hooks := { r.hooks with webhooks := hook :: r.hooks.webhooks } }
  | .deleteWebhook hook now => r.withHooks (r.hooks.deleteWebhook r.ledger hook now)
  | .handoffRemoval item isRemoved now => r.applyHandoffRemoval item isRemoved now
  | .handoffPrincipal item isCurrent now => r.applyHandoffPrincipal item isCurrent now
  | .dispatchPosted item ok now => r.withHooks (r.hooks.finishDispatchPost r.ledger item ok now)
  | .retryStarts item now => r.withHooks (r.hooks.startRetry r.ledger item now)
  | .retryPosted item ok now => r.withHooks (r.hooks.finishRetryPost r.ledger item ok now)
  | .redeliveryStarts item now => r.withHooks (r.hooks.startRedelivery r.ledger item now)
  | .redeliveryPosted item ok now => r.withHooks (r.hooks.finishRedelivery r.ledger item ok now)
  | .scrubWebhookItems seq =>
    { r with hooks := { r.hooks.scrubArtifacts seq with
      posts := r.hooks.posts.filter fun p => p.2.payload.messageSeq ≠ seq } }
  | .socket e => { r with sockets := r.sockets.apply e }

/-- What an event needs besides its own checks: fresh numbers and values, a tail or
a webhook item that is there, a socket that is gone, reasons the source really gives. -/
def Enabled (r : Room) : Event → Prop
  | .send c => ∀ m ∈ r.ledger.messages, m.seq < c.seq
  | .stage seq edited _ _ =>
    ∃ m ∈ r.ledger.messages, m.seq = seq ∧ (edited = true ∨ m.decisionResponse = none)
  | .note m _ _ => (∀ m' ∈ r.ledger.messages, m'.seq < m.seq) ∧ m.decisionState = none ∧
      m.decisionRequest.isNone = true ∧ m.decisionResponse = none
  | .respond a => ∀ m ∈ r.ledger.messages, m.seq < a.seq
  | .dispatchStart targetName _ => (r.tailOf targetName).isNone = true
  | .sourcesExpired roots failure _ =>
    (∀ id ∈ roots, ∃ d ∈ r.ledger.deliveries, d.id = id ∧ d.unfinished = true) ∧
      (failure.terminalReason = .sourceRetentionExpired ∨ failure.terminalReason = .deliveryExpired)
  | .socketLost connectionId _ =>
    ∃ c ∈ r.sockets.connections, c.id = connectionId ∧ c.closed = true
  | .handoffRemoval item _ _ => (.removal, item) ∈ r.hooks.handoffs
  | .handoffPrincipal item _ _ => (.principal, item) ∈ r.hooks.handoffs
  | .dispatchPosted item _ _ => (.dispatch, item) ∈ r.hooks.posts
  | .retryStarts item _ => item ∈ r.hooks.queue
  | .retryPosted item _ _ => (.retry, item) ∈ r.hooks.posts
  | .redeliveryStarts item _ => item ∈ r.hooks.deadLetters
  | .redeliveryPosted item _ _ => (.redeliver, item) ∈ r.hooks.posts
  | .socket (.connected id _ _) => r.sockets.connections.get? id = none
  | _ => True

instance decidableEnabled (r : Room) : (e : Event) → Decidable (r.Enabled e)
  | .send c => inferInstanceAs (Decidable (∀ m ∈ r.ledger.messages, m.seq < c.seq))
  | .stage seq edited _ _ => inferInstanceAs (Decidable (∃ m ∈ r.ledger.messages,
      m.seq = seq ∧ (edited = true ∨ m.decisionResponse = none)))
  | .note m _ _ => inferInstanceAs (Decidable ((∀ m' ∈ r.ledger.messages, m'.seq < m.seq) ∧
      m.decisionState = none ∧ m.decisionRequest.isNone = true ∧ m.decisionResponse = none))
  | .respond a => inferInstanceAs (Decidable (∀ m ∈ r.ledger.messages, m.seq < a.seq))
  | .dispatchStart targetName _ =>
    inferInstanceAs (Decidable ((r.tailOf targetName).isNone = true))
  | .sourcesExpired roots failure _ => inferInstanceAs (Decidable
      ((∀ id ∈ roots, ∃ d ∈ r.ledger.deliveries, d.id = id ∧ d.unfinished = true) ∧
        (failure.terminalReason = .sourceRetentionExpired ∨
          failure.terminalReason = .deliveryExpired)))
  | .socketLost connectionId _ => inferInstanceAs (Decidable (∃ c ∈ r.sockets.connections,
      c.id = connectionId ∧ c.closed = true))
  | .handoffRemoval item _ _ => inferInstanceAs (Decidable ((.removal, item) ∈ r.hooks.handoffs))
  | .handoffPrincipal item _ _ =>
    inferInstanceAs (Decidable ((.principal, item) ∈ r.hooks.handoffs))
  | .dispatchPosted item _ _ => inferInstanceAs (Decidable ((.dispatch, item) ∈ r.hooks.posts))
  | .retryStarts item _ => inferInstanceAs (Decidable (item ∈ r.hooks.queue))
  | .retryPosted item _ _ => inferInstanceAs (Decidable ((.retry, item) ∈ r.hooks.posts))
  | .redeliveryStarts item _ => inferInstanceAs (Decidable (item ∈ r.hooks.deadLetters))
  | .redeliveryPosted item _ _ => inferInstanceAs (Decidable ((.redeliver, item) ∈ r.hooks.posts))
  | .socket (.connected id _ _) =>
    inferInstanceAs (Decidable (r.sockets.connections.get? id = none))
  | .socket (.frameBegins _) | .socket (.frameTouched _) | .socket (.frameEnds _)
  | .socket (.hello _ _ _ _) | .socket (.claimServe _ _) | .socket (.registerWatch _)
  | .socket (.ocsRoster _ _ _ _) | .socket (.serverCloses _ _ _) | .socket (.unlisted _)
  | .socket (.closeBegins _) | .socket (.closeHandled _ _) | .socket (.presenceStale _ _)
  | .dispatchTop _ _ | .dispatchRemoval _ _ _ | .dispatchPrincipal _ _ _ _ | .recover _ _ _ _ _
  | .update _ _ _ _ | .heartbeat _ _ _ _ | .acknowledge _ _ _
  | .leaseExpired _ _ | .staleQueued _ | .retract _ _ | .deleteMessages _ | .pruneDeliveries _
  | .eraseIdentity _ | .reviewed _ _ | .removeParticipant _ _ | .restoreParticipant _
  | .removeStalePrincipal _ _ _ | .pause _ | .resume _ | .registerWebhook _ | .deleteWebhook _ _
  | .scrubWebhookItems _ => inferInstanceAs (Decidable True)

/-- A step takes fresh random values and has the event's own premises. -/
def Ready (r : Room) (e : Event) : Prop :=
  (mints e).Nodup ∧ (∀ u ∈ mints e, u ∉ r.minted) ∧ r.Enabled e

instance (r : Room) (e : Event) : Decidable (r.Ready e) :=
  inferInstanceAs (Decidable (_ ∧ _ ∧ _))

def next (r : Room) (e : Event) : Room := { r.apply e with minted := r.minted ++ mints e }

def Step (r : Room) (e : Event) (r' : Room) : Prop := r.Ready e ∧ r' = r.next e

abbrev Run := EventSystem.Run Step

/-- The room after a list of events. -/
def exec (r : Room) (evs : List Event) : Room := evs.foldl next r

/-- Every event of the list is ready when its turn comes. -/
def AllReady : Room → List Event → Prop
  | _, [] => True
  | r, e :: evs => r.Ready e ∧ AllReady (r.next e) evs

instance decidableAllReady : (r : Room) → (evs : List Event) → Decidable (AllReady r evs)
  | _, [] => inferInstanceAs (Decidable True)
  | r, e :: evs =>
    have := decidableAllReady (r.next e) evs
    inferInstanceAs (Decidable (r.Ready e ∧ AllReady (r.next e) evs))

theorem run_exec {r : Room} {evs : List Event} (h : AllReady r evs) : Run r evs (r.exec evs) := by
  induction evs generalizing r with
  | nil => exact EventSystem.Run.nil
  | cons e evs ih => exact (EventSystem.Run.single ⟨h.1, rfl⟩).append (ih h.2)

/-- A new channel. -/
def initial : Room where
  ledger := ⟨Table.empty, [], Table.empty, 0⟩
  sockets := ⟨Table.empty, 0, []⟩
  hooks := ⟨[], [], [], [], []⟩
  removed := []
  paused := []
  tails := []
  minted := []

/-- The states of a channel over its life. -/
def Reachable (r : Room) : Prop := ∃ evs, Run initial evs r

end Room

end AgentParty
