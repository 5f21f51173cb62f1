import AgentParty.Delivery.Terminal

/-! Agent webhooks as delivery adapters: the POST a claim starts, its retry queue,
its dead letters and their redelivery. A POST is in flight between two steps; its
result is applied without a look at what happened meanwhile except where the
source takes one. -/

namespace AgentParty

def WEBHOOK_MAX_RETRIES : ℕ := 3
def MAX_WEBHOOK_QUEUE_ROWS : ℕ := 200
def MAX_WEBHOOK_DEAD_LETTERS : ℕ := 200
def WEBHOOK_RETRY_DELAYS_MS : List Int := [60000, 4 * 60000, 16 * 60000]

/-- The fields of a stored payload that bind it to its work. -/
structure WebhookPayload where
  deliveryId : String
  messageSeq : ℕ
  targetName : String
  workId : String
  continuationRef : String
  deriving DecidableEq, Repr

inductive PostOrigin
  | dispatch
  | retry
  | redeliver
  deriving DecidableEq, Repr

/-- A payload bound to an immutable registration, with its attempt count: a POST
in flight, a row of `webhook_queue`, or a row of `webhook_dead_letters`. -/
structure WebhookItem where
  binding : AgentWebhook
  payload : WebhookPayload
  attempts : ℕ
  deriving DecidableEq, Repr

/-- What a claim waits for before its POST. -/
inductive HandoffCheck
  | removal
  | principal
  deriving DecidableEq, Repr

structure WebhookState where
  webhooks : List AgentWebhook
  handoffs : List (HandoffCheck × WebhookItem)
  posts : List (PostOrigin × WebhookItem)
  queue : List WebhookItem
  deadLetters : List WebhookItem

def payloadOf (r : Delivery) : WebhookPayload :=
  ⟨r.id, r.messageSeq, r.targetName, text r.workId, text r.continuationRef⟩

namespace Ledger

def isMessageRetracted (l : Ledger) (seq : ℕ) : Bool :=
  (l.messages.get? seq).any fun m => m.retractedAt.isSome

/-- `directedWebhookPayloadMatchesBinding` for an agent binding. -/
def payloadMatchesBinding (payload : WebhookPayload) (binding : AgentWebhook) (r : Delivery) :
    Bool :=
  payload = payloadOf r && binding.name = r.targetName && binding.targetOwner.any fun o =>
    o = text r.targetOwner

def directedWebhookStillClaimed (l : Ledger) (item : WebhookItem) : Bool :=
  (l.directedDeliveryRow item.payload.deliveryId).any fun r =>
    payloadMatchesBinding item.payload item.binding r && r.state = .claimed &&
      r.leaseAdapter = some .webhook &&
      r.leaseConnectionId = some (webhookHolderId item.binding.registrationId)

def acceptedRow (leaseUntil now : Int) (r : Delivery) : Delivery :=
  { r with
    state := .running, leaseUntil := some leaseUntil, lastError := none, terminalReason := none,
    updatedAt := now }

@[simp] theorem acceptedRow_id (leaseUntil now : Int) (r : Delivery) :
    (acceptedRow leaseUntil now r).id = r.id := rfl

/-- A row this registration holds in state `claimed`. -/
def claimedBy (binding : AgentWebhook) (r : Delivery) : Bool :=
  r.state = .claimed && r.leaseAdapter = some .webhook &&
    r.leaseConnectionId = some (webhookHolderId binding.registrationId) &&
    binding.targetOwner.isSome && r.targetOwner = binding.targetOwner

def acceptDirectedWebhookDelivery (l : Ledger) (item : WebhookItem) (leaseUntil now : Int) :
    Ledger × Bool :=
  match l.directedDeliveryRow item.payload.deliveryId with
  | none => (l, false)
  | some before =>
    if !payloadMatchesBinding item.payload item.binding before then (l, false)
    else
      let l := l.updateDelivery item.payload.deliveryId (claimedBy item.binding)
        (acceptedRow leaseUntil now) (acceptedRow_id _ _)
      (l, (l.directedDeliveryRow item.payload.deliveryId).any (·.state = .running))

def reclaimedRow (holder : String) (leaseUntil now : Int) (r : Delivery) : Delivery :=
  { r with
    state := .claimed, attempt := r.attempt + 1, leaseConnectionId := some holder,
    lastLeaseConnectionId := some holder, leaseAdapter := some .webhook,
    leaseUntil := some leaseUntil, lastError := none, terminalReason := none, updatedAt := now }

@[simp] theorem reclaimedRow_id (holder : String) (leaseUntil now : Int) (r : Delivery) :
    (reclaimedRow holder leaseUntil now r).id = r.id := rfl

/-- The claim an explicit redelivery takes on a dead-lettered row. -/
def reclaimDirectedWebhookDeadLetter (l : Ledger) (item : WebhookItem) (now : Int) :
    Ledger × Bool :=
  match l.directedDeliveryRow item.payload.deliveryId with
  | none => (l, false)
  | some row =>
    if !payloadMatchesBinding item.payload item.binding row || row.state ≠ .failed ||
        row.terminalReason ≠ some .webhookDeliveryFailed then (l, false)
    else
      let holder := webhookHolderId item.binding.registrationId
      let l := l.updateDelivery item.payload.deliveryId
        (fun r => r.state = .failed && r.terminalReason = some .webhookDeliveryFailed &&
          r.targetName = item.binding.name && item.binding.targetOwner.isSome &&
          r.targetOwner = item.binding.targetOwner)
        (reclaimedRow holder (now + DIRECTED_WEBHOOK_LEASE_MS) now) (reclaimedRow_id _ _ _)
      (l, (l.directedDeliveryRow item.payload.deliveryId).any fun r =>
        r.state = .claimed && r.leaseConnectionId = some holder)

def renewedRow (leaseUntil now : Int) (r : Delivery) : Delivery :=
  { r with
    leaseUntil := some (max (r.leaseUntil.getD 0) leaseUntil), updatedAt := max r.updatedAt now }

@[simp] theorem renewedRow_id (leaseUntil now : Int) (r : Delivery) :
    (renewedRow leaseUntil now r).id = r.id := rfl

def renewDirectedWebhookLease (l : Ledger) (item : WebhookItem) (leaseUntil now : Int) : Ledger :=
  l.updateDelivery item.payload.deliveryId (claimedBy item.binding) (renewedRow leaseUntil now)
    (renewedRow_id _ _)

def failDirectedWebhookDelivery (l : Ledger) (item : WebhookItem) (error : String) (now : Int) :
    Ledger :=
  match l.directedDeliveryRow item.payload.deliveryId with
  | none => l
  | some row =>
    let holder := webhookHolderId item.binding.registrationId
    if !payloadMatchesBinding item.payload item.binding row ||
        row.leaseConnectionId ≠ some holder then l
    else
      (l.transitionDirectedDeliveryTerminal item.payload.deliveryId .failed now
        { error := some error, terminalReason := some .webhookDeliveryFailed,
          expectedStates := [.claimed, .running], expectedLeaseAdapter := some .webhook,
          expectedLeaseConnectionId := some holder }).1

/-- A retry whose payload no longer fits its work. -/
def failMismatchedRetry (l : Ledger) (item : WebhookItem) (now : Int) : Ledger :=
  match l.directedDeliveryRow item.payload.deliveryId with
  | none => l
  | some row =>
    let holder := webhookHolderId item.binding.registrationId
    if row.targetName = item.binding.name && some (text row.targetOwner) = item.binding.targetOwner &&
        text row.leaseConnectionId = holder then
      (l.transitionDirectedDeliveryTerminal row.id .failed now
        { error := some "agent webhook payload no longer matches its creation-time principal/work",
          terminalReason := some .webhookDeliveryFailed, expectedStates := [.claimed],
          expectedLeaseAdapter := some .webhook, expectedLeaseConnectionId := some holder }).1
    else l

/-- The rows a deleted registration still holds. -/
def failRemovedWebhook (l : Ledger) (registrationId : String) (rows : List Delivery) (now : Int) :
    Ledger :=
  rows.foldl (fun l r => (l.transitionDirectedDeliveryTerminal r.id .failed now
    { error := some
        (if r.state = .running then
          "agent webhook removed after accepted handoff; outcome unknown, not auto-retried"
        else "agent webhook removed during handoff; outcome unknown, not auto-retried"),
      terminalReason := some .unknownOutcome, expectedStates := [r.state],
      expectedLeaseAdapter := some .webhook,
      expectedLeaseConnectionId := some (webhookHolderId registrationId) }).1) l

end Ledger

namespace WebhookState

/-- `retryDelay`. -/
def retryDelay (attempts : ℕ) : Int :=
  WEBHOOK_RETRY_DELAYS_MS.getD (min (max attempts 1) WEBHOOK_RETRY_DELAYS_MS.length - 1) 0

/-- `recordDeadLetter` keeps the newest rows. -/
def recordDeadLetter (deadLetters : List WebhookItem) (item : WebhookItem) : List WebhookItem :=
  let all := deadLetters ++ [item]
  all.drop (all.length - MAX_WEBHOOK_DEAD_LETTERS)

/-- A redelivery that did not get through counts an attempt. -/
def countAttempt (deadLetters : List WebhookItem) (item : WebhookItem) : List WebhookItem :=
  deadLetters.map fun i => if i = item then { i with attempts := i.attempts + 1 } else i

/-- The deletions of `scrubRetractedWebhookArtifacts`. -/
def scrubArtifacts (w : WebhookState) (seq : ℕ) : WebhookState :=
  { w with
    queue := w.queue.filter fun i => i.payload.messageSeq ≠ seq
    deadLetters := w.deadLetters.filter fun i => i.payload.messageSeq ≠ seq }

/-- The POST of a claim, behind both checks. -/
def startDispatchPost (l : Ledger) (w : WebhookState) (item : WebhookItem) : WebhookState :=
  if l.isMessageRetracted item.payload.messageSeq then w.scrubArtifacts item.payload.messageSeq
  else { w with posts := w.posts ++ [(.dispatch, item)] }

/-- The POST of a claim, once it has an answer. -/
def finishDispatchPost (l : Ledger) (w : WebhookState) (item : WebhookItem) (ok : Bool)
    (now : Int) : Ledger × WebhookState :=
  let w := { w with posts := w.posts.erase (.dispatch, item) }
  if !l.directedWebhookStillClaimed item then (l, w)
  else if ok then ((l.acceptDirectedWebhookDelivery item (now + DIRECTED_WEBHOOK_LEASE_MS) now).1, w)
  else if !w.webhooks.contains item.binding then
    (l.failDirectedWebhookDelivery item
      "agent webhook registration changed before retry could be persisted" now, w)
  else if MAX_WEBHOOK_QUEUE_ROWS ≤ w.queue.length then
    (l.failDirectedWebhookDelivery item
      "agent webhook retry queue is full; delivery moved to dead-letters" now,
      { w with deadLetters := recordDeadLetter w.deadLetters item })
  else
    (l.renewDirectedWebhookLease item (now + retryDelay 1 + DIRECTED_WEBHOOK_LEASE_MS) now,
      { w with queue := w.queue ++ [{ item with attempts := 1 }] })

/-- `retryWebhooks` up to its POST: the last look at the row before the network. -/
def startRetry (l : Ledger) (w : WebhookState) (item : WebhookItem) (now : Int) :
    Ledger × WebhookState :=
  let attempt := { item with attempts := item.attempts + 1 }
  if !w.webhooks.contains item.binding then
    (l.failDirectedWebhookDelivery item
      "webhook registration changed; refusing cross-registration retry" now,
      { w with queue := w.queue.erase item, deadLetters := recordDeadLetter w.deadLetters attempt })
  else if !(l.directedDeliveryRow item.payload.deliveryId).any
      (Ledger.payloadMatchesBinding item.payload item.binding) then
    (l.failMismatchedRetry item now,
      { w with queue := w.queue.erase item, deadLetters := recordDeadLetter w.deadLetters attempt })
  else if !l.directedWebhookStillClaimed item then (l, { w with queue := w.queue.erase item })
  else (l, { w with posts := w.posts ++ [(.retry, item)] })

/-- The rest of `retryWebhooks`: it does not look at the row again. -/
def finishRetryPost (l : Ledger) (w : WebhookState) (item : WebhookItem) (ok : Bool) (now : Int) :
    Ledger × WebhookState :=
  let w := { w with posts := w.posts.erase (.retry, item) }
  let attempt := { item with attempts := item.attempts + 1 }
  if ok then
    ((l.acceptDirectedWebhookDelivery item (now + DIRECTED_WEBHOOK_LEASE_MS) now).1,
      { w with queue := w.queue.erase item })
  else if WEBHOOK_MAX_RETRIES < attempt.attempts then
    (l.failDirectedWebhookDelivery item "agent webhook exhausted retries" now,
      { w with queue := w.queue.erase item, deadLetters := recordDeadLetter w.deadLetters attempt })
  else
    (l.renewDirectedWebhookLease item
      (now + retryDelay attempt.attempts + DIRECTED_WEBHOOK_LEASE_MS) now,
      { w with queue := w.queue.erase item ++ [attempt] })

/-- `redeliverDeadLetters` up to its POST. -/
def startRedelivery (l : Ledger) (w : WebhookState) (item : WebhookItem) (now : Int) :
    Ledger × WebhookState :=
  if !w.webhooks.contains item.binding then
    (l, { w with deadLetters := countAttempt w.deadLetters item })
  else
    match l.reclaimDirectedWebhookDeadLetter item now with
    | (l, true) => (l, { w with posts := w.posts ++ [(.redeliver, item)] })
    | (l, false) => (l, { w with deadLetters := countAttempt w.deadLetters item })

def finishRedelivery (l : Ledger) (w : WebhookState) (item : WebhookItem) (ok : Bool) (now : Int) :
    Ledger × WebhookState :=
  let w := { w with posts := w.posts.erase (.redeliver, item) }
  if ok then
    let (l, accepted) :=
      l.acceptDirectedWebhookDelivery item (now + DIRECTED_WEBHOOK_LEASE_MS) now
    if accepted || (l.directedDeliveryRow item.payload.deliveryId).any (·.state = .replied) then
      (l, { w with deadLetters := w.deadLetters.erase item })
    else (l, { w with deadLetters := countAttempt w.deadLetters item })
  else
    (l.failDirectedWebhookDelivery item "agent webhook redelivery failed" now,
      { w with deadLetters := countAttempt w.deadLetters item })

/-- `DELETE /internal/webhooks`. -/
def deleteWebhook (l : Ledger) (w : WebhookState) (hook : AgentWebhook) (now : Int) :
    Ledger × WebhookState :=
  let holder := webhookHolderId hook.registrationId
  let active := l.deliveries.rows.filter fun r =>
    r.leaseAdapter = some .webhook && r.leaseConnectionId = some holder && r.active
  let queued := w.queue.filter fun i => i.binding.name = hook.name
  let l := queued.foldl (fun l i => l.failDirectedWebhookDelivery i
    "webhook registration removed; queued delivery was not reassigned" now) l
  (l.failRemovedWebhook hook.registrationId active now,
    { w with
      webhooks := w.webhooks.filter fun h => h.name ≠ hook.name
      queue := w.queue.filter fun i => i.binding.name ≠ hook.name
      deadLetters := queued.foldl recordDeadLetter w.deadLetters })

end WebhookState

end AgentParty
