import AgentParty.Delivery.Enqueue
import AgentParty.Delivery.Recover

/-! `dispatchNextDirectedDeliveryAuthorized`: the dispatch tail of one target. It
reads its candidates once, then works on one queued row at a time and waits for
the token directory twice before it decides; each stretch between two waits is
one step. The candidates are kept by id, their state is read when it is used. -/

namespace AgentParty

structure DispatchTask where
  targetName : String
  excludeConnectionId : Option String
  serve : List String
  legacyServe : List String
  watch : List String
  webhooks : List AgentWebhook
  deriving DecidableEq, Repr

/-- Where a dispatch tail stands: at the head of its loop, or waiting for the
removal or the principal check of the row it selected. -/
inductive DispatchStage
  | top
  | removalCheck (queued : Delivery)
  | principalCheck (queued : Delivery)

/-- How one stretch of the tail ends. -/
inductive DispatchNext
  | finished
  | awaiting (stage : DispatchStage)

/-- What a claim hands out, and to whom. -/
inductive Handoff
  | connection (id : String) (frame : ServerFrame)
  | webhook (hook : AgentWebhook) (claimed : Delivery)

namespace Connections

/-- The lists read when the tail starts. -/
def startDispatch (cs : Connections) (webhooks : List AgentWebhook) (targetName : String)
    (excludeId : Option String) : DispatchTask where
  targetName := targetName
  excludeConnectionId := excludeId
  serve := ((serveLeaseCandidates cs targetName excludeId none).filter fun c =>
    c.state.serveLeaseHeld = some true).map (·.id)
  legacyServe := ((claimedServeConnections cs targetName excludeId none).filter fun c =>
    !c.state.directedDeliveryV1 && c.state.serveLeaseHeld = some true).map (·.id)
  watch := (watchLeaseCandidates cs targetName excludeId).map (·.id)
  webhooks := webhooks.filter fun h => h.name = targetName

def ofIds (cs : Connections) (ids : List String) (principal : String) : List Connection :=
  (ids.filterMap cs.get?).filter fun c => c.state.identityDeliveryPrincipal = principal

/-- A socket of the principal that has not said hello yet. -/
def helloPending (cs : Connections) (task : DispatchTask) (principal : String) : Bool :=
  (getConnections cs).any fun c =>
    !excluded task.excludeConnectionId c && c.state.helloPending && !c.state.helloExpired &&
      c.state.kind = .agent && c.state.name = task.targetName &&
      c.state.identityDeliveryPrincipal = principal

end Connections

namespace DispatchTask

def noAdapters (task : DispatchTask) : Bool :=
  task.serve.isEmpty && task.legacyServe.isEmpty && task.watch.isEmpty && task.webhooks.isEmpty

end DispatchTask

namespace Ledger

/-- `ORDER BY message_seq, created_at LIMIT 1`. -/
def earlier (a b : Delivery) : Bool :=
  a.messageSeq < b.messageSeq || (a.messageSeq = b.messageSeq && a.createdAt ≤ b.createdAt)

def firstByMessage (rows : List Delivery) : Option Delivery :=
  rows.foldl (fun best r =>
    match best with
    | none => some r
    | some b => if earlier b r then some b else some r) none

def nextQueued (l : Ledger) (targetName : String) : Option Delivery :=
  firstByMessage (l.deliveries.rows.filter fun r => r.targetName = targetName && r.state = .queued)

def activeFor (l : Ledger) (targetName principal : String) : Bool :=
  l.deliveries.rows.any fun r =>
    r.targetName = targetName && r.targetOwner = some principal && r.active

/-- The claim of a queued row; the running claim of a legacy runner differs in
state and adapter only. -/
def claimedRow (state : DeliveryState) (adapter : LeaseAdapter) (token : Option String)
    (holderId : String) (leaseUntil now : Int) (r : Delivery) : Delivery :=
  { r with
    state := state
    attempt := r.attempt + 1
    previousLeaseEpoch := if r.leaseToken.isNone then r.previousLeaseEpoch else some r.leaseEpoch
    previousLeaseAttempt := if r.leaseToken.isNone then r.previousLeaseAttempt else some r.attempt
    previousLeaseToken := r.leaseToken <|> r.previousLeaseToken
    leaseEpoch := r.leaseEpoch + 1
    leaseToken := token
    leaseConnectionId := some holderId
    lastLeaseConnectionId := some holderId
    leaseAdapter := some adapter
    leaseUntil := some leaseUntil
    lastError := none
    terminalReason := none
    updatedAt := now }

@[simp] theorem claimedRow_id (state : DeliveryState) (adapter : LeaseAdapter)
    (token : Option String) (holderId : String) (leaseUntil now : Int) (r : Delivery) :
    (claimedRow state adapter token holderId leaseUntil now r).id = r.id := rfl

/-- The token a queued row still carries becomes history before the next claim. -/
def recordQueuedLease (l : Ledger) (queued : Delivery) : Ledger :=
  if text queued.leaseToken ≠ "" then
    l.recordLease ⟨queued.id, queued.attempt, queued.leaseEpoch, text queued.leaseToken⟩
  else l

def removeParticipantRows (l : Ledger) (p : Delivery → Bool) (error : String) (now : Int) :
    Ledger :=
  (l.deliveries.rows.filter fun r => p r && r.unfinished).foldl
    (fun l r => (l.transitionDirectedDeliveryTerminal r.id .failed now
      { error := some error, expectedStates := [r.state] }).1) l

/-- The deliveries of `removeParticipantDeliveryAdapters`. -/
def removeParticipantDeliveries (l : Ledger) (name : String) (now : Int) : Ledger :=
  l.removeParticipantRows (fun r => r.targetName = name) "participant removed from channel" now

/-- The deliveries of `removeStaleDeliveryPrincipal`. -/
def removeStaleDeliveries (l : Ledger) (name principal : String) (now : Int) : Ledger :=
  l.removeParticipantRows (fun r => r.targetName = name && r.targetOwner = some principal)
    "target principal changed before delivery; refusing same-name reassignment" now

/-- The head of the loop, up to the first wait. -/
def dispatchTop (l : Ledger) (task : DispatchTask) (now : Int) : Ledger × DispatchNext :=
  match l.nextQueued task.targetName with
  | none => (l, .finished)
  | some queued =>
    match queued.principal with
    | none =>
      ((l.transitionDirectedDeliveryTerminal queued.id .failed now
        { error :=
            some "delivery has no creation-time target principal; refusing unsafe name-based dispatch",
          expectedStates := [.queued] }).1,
        .awaiting .top)
    | some _ =>
      if task.noAdapters then (l, .finished) else (l, .awaiting (.removalCheck queued))

/-- The adapters that match the principal of the row. -/
structure Matching where
  serve : List Connection
  watch : List Connection
  samePrincipalLegacy : List Connection
  legacy : List Connection
  webhooks : List AgentWebhook

/-- An edit-created delivery has no raw frame for a legacy runner; any other needs
one newer than the runner's hello cursor. -/
def matching (cs : Connections) (task : DispatchTask) (queued : Delivery) (principal : String) :
    Matching :=
  let samePrincipalLegacy := Connections.ofIds cs task.legacyServe principal
  { serve := Connections.ofIds cs task.serve principal
    watch := Connections.ofIds cs task.watch principal
    samePrincipalLegacy := samePrincipalLegacy
    legacy :=
      if queued.cause = .mentionEdit then []
      else samePrincipalLegacy.filter fun c =>
        c.state.helloSince.any fun since => since < queued.messageSeq
    webhooks := task.webhooks.filter fun h => h.targetOwner = some principal }

/-- The first matching adapter: serve, then watch, then webhook. -/
def Matching.adapter (m : Matching) : Option (LeaseAdapter × (Connection ⊕ AgentWebhook)) :=
  match m.serve, m.watch, m.webhooks with
  | c :: _, _, _ => some (.serve, .inl c)
  | [], c :: _, _ => some (.watch, .inl c)
  | [], [], h :: _ => some (.webhook, .inr h)
  | [], [], [] => none

/-- The claim for a legacy runner: the raw frame it received counts as started. -/
def claimLegacy (l : Ledger) (queued : Delivery) (principal : String) (holder : Connection)
    (now : Int) : Ledger :=
  l.updateDelivery queued.id (fun r => r.targetOwner = some principal && r.state = .queued)
    (claimedRow .running .legacyServe none holder.id (now + DIRECTED_DELIVERY_LEASE_MS) now)
    (claimedRow_id _ _ _ _ _ _)

def holderOf : Connection ⊕ AgentWebhook → String
  | .inl c => c.id
  | .inr h => webhookHolderId h.registrationId

def leaseMs : LeaseAdapter → Int
  | .webhook => DIRECTED_WEBHOOK_LEASE_MS
  | _ => DIRECTED_DELIVERY_LEASE_MS

/-- A recovery-capable connection gets a token, nobody else does. -/
def claimToken (token : Uuid) : Connection ⊕ AgentWebhook → Option String
  | .inl c => if c.state.deliveryRecoveryV1 then some token.val else none
  | .inr _ => none

/-- The claim of the durable frame, and its handoff when the message is still there. -/
def claimFor (l : Ledger) (queued : Delivery) (principal : String) (adapter : LeaseAdapter)
    (holder : Connection ⊕ AgentWebhook) (token : Uuid) (now : Int) :
    Ledger × DispatchNext × Option Handoff :=
  let l := l.updateDelivery queued.id
    (fun r => r.targetOwner = some principal && r.state = .queued)
    (claimedRow .claimed adapter (claimToken token holder) (holderOf holder)
      (now + leaseMs adapter) now) (claimedRow_id _ _ _ _ _ _)
  match l.directedDeliveryRow queued.id with
  | none => (l, .finished, none)
  | some claimed =>
    if claimed.state ≠ .claimed then (l, .finished, none)
    else
      match l.messages.get? claimed.messageSeq with
      | none =>
        ((l.transitionDirectedDeliveryTerminal claimed.id .failed now
          { error := some "source message is no longer retained", expectedStates := [.claimed],
            expectedLeaseConnectionId := some (holderOf holder) }).1,
          .awaiting .top, none)
      | some _ =>
        (l, .finished, some (match holder with
          | .inl c => .connection c.id
              (.delivery claimed.id claimed.attempt claimed.leaseEpoch (claimToken token holder))
          | .inr h => .webhook h claimed))

/-- The decision after both checks passed. A row that has left `queued` since it
was selected is not claimed: the UPDATE writes nothing. -/
def dispatchDecide (l : Ledger) (cs : Connections) (task : DispatchTask) (queued : Delivery)
    (principal : String) (token : Uuid) (now : Int) : Ledger × DispatchNext × Option Handoff :=
  let m := matching cs task queued principal
  if Connections.helloPending cs task principal then (l, .finished, none)
  else if m.adapter.isNone && m.legacy.isEmpty then
    if !m.samePrincipalLegacy.isEmpty then (l, .finished, none)
    else if task.noAdapters then (l, .finished, none)
    else
      ((l.transitionDirectedDeliveryTerminal queued.id .failed now
        { error :=
            some "target principal changed before delivery; refusing same-name reassignment",
          expectedStates := [.queued] }).1,
        .awaiting .top, none)
  else if l.activeFor task.targetName principal then (l, .finished, none)
  else
    let l := l.recordQueuedLease queued
    match m.adapter with
    | some (adapter, holder) =>
      match l.directedDeliveryRow queued.id with
      | none => (l, .finished, none)
      | some current =>
        if current.targetOwner = some principal && current.state = .queued then
          l.claimFor queued principal adapter holder token now
        else (l, .finished, none)
    | none =>
      match m.legacy with
      | [] => (l, .finished, none)
      | holder :: _ => (l.claimLegacy queued principal holder now, .finished, none)

end Ledger

end AgentParty
