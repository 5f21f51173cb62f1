import AgentParty.Delivery.Lease
import AgentParty.Delivery.Terminal

/-! What a runner reports about its delivery (`applyDirectedDeliveryUpdate`,
`applyDirectedDeliveryHeartbeat`, the explicit acknowledgement) and what the room
does when it stops reporting (`requeueDirectedDeliveriesForConnection`,
`requeueExpiredDirectedDeliveries`). -/

namespace AgentParty

/-- The states a client may declare. -/
inductive DeclaredState
  | running
  | waitingOwner
  | replied
  | failed
  deriving DecidableEq, Repr

/-- A frame that `parseDeliveryUpdateFrame` accepts; `request_id` is echoed only. -/
structure DeliveryUpdateFrame where
  deliveryId : String
  state : DeclaredState
  attempt : Option ℕ
  leaseEpoch : Option ℕ
  leaseToken : Option String
  workId : Option String
  continuationRef : Option String
  replySeq : Option ℕ
  error : Option String
  deriving DecidableEq, Repr

namespace DeliveryUpdateFrame

/-- An absent optional field agrees with everything. -/
def agrees {α : Type} [DecidableEq α] (declared : Option α) (stored : α) : Bool :=
  match declared with
  | none => true
  | some x => x = stored

/-- The optional fields of the frame against the row. -/
def matchesRow (u : DeliveryUpdateFrame) (row : Delivery) : Bool :=
  agrees u.workId (text row.workId) && agrees u.continuationRef (text row.continuationRef) &&
    agrees u.attempt row.attempt && agrees u.leaseEpoch row.leaseEpoch &&
    agrees u.leaseToken (text row.leaseToken)

/-- `reply_seq` names a message of the sender; a success must answer the row's message. -/
def replyLinked (u : DeliveryUpdateFrame) (l : Ledger) (identity : Identity) (row : Delivery) :
    Bool :=
  match u.replySeq with
  | none => true
  | some seq =>
    match l.messages.get? seq with
    | none => false
    | some reply =>
      reply.senderName = identity.name &&
        (u.state ≠ .replied || reply.replyTo = some row.messageSeq ||
          reply.statusSummarySeq = some row.messageSeq)

end DeliveryUpdateFrame

namespace Ledger

def runningRow (leaseUntil now : Int) (r : Delivery) : Delivery :=
  { r with
    state := .running, leaseUntil := some leaseUntil, lastError := none, terminalReason := none,
    updatedAt := now }

@[simp] theorem runningRow_id (leaseUntil now : Int) (r : Delivery) :
    (runningRow leaseUntil now r).id = r.id := rfl

/-- A serve connection must still be the elected holder. -/
def electedHolder (cs : Connections) (identity : ConnState) (connectionId : String) : Bool :=
  !identity.serveCandidate ||
    (Connections.serveLeaseCandidates cs identity.name none
      (some identity.toIdentity.identityDeliveryPrincipal)).head?.any (·.id = connectionId)

/-- The part of `applyDirectedDeliveryUpdate` behind the ownership checks. -/
def applyOwnedUpdate (l : Ledger) (identity : ConnState) (connectionId : String)
    (u : DeliveryUpdateFrame) (row : Delivery) (now : Int) : Ledger × Bool :=
  if row.state ≠ .claimed && row.state ≠ .running && !(row.state = .failed && u.state = .replied) then
    (l, false)
  else if u.state = .replied && u.replySeq.isNone then
    if row.state ≠ .claimed && row.state ≠ .running then (l, false)
    else
      let (l, failed) := l.transitionDirectedDeliveryTerminal u.deliveryId .failed now
        { error := some "runner reported success without a linked channel reply",
          expectedStates := [row.state], expectedLeaseConnectionId := some connectionId }
      (l, failed.any (·.state = .failed))
  else if !u.replyLinked l identity.toIdentity row then (l, false)
  else
    match u.state with
    | .running =>
      let l := l.updateDelivery u.deliveryId
        (fun r => identity.toIdentity.boundTo r &&
          r.leaseConnectionId = some connectionId && r.active)
        (runningRow (now + DIRECTED_DELIVERY_LEASE_MS) now) (runningRow_id _ _)
      (l, (l.directedDeliveryRow u.deliveryId).any (·.state = .running))
    | .replied =>
      let (l, terminal) := l.transitionDirectedDeliveryTerminal u.deliveryId .replied now
        { replySeq := u.replySeq, error := u.error, expectedStates := [row.state],
          expectedLeaseConnectionId := if row.state = .failed then none else some connectionId }
      (l, terminal.any (·.state = .replied))
    | .failed =>
      let (l, terminal) := l.transitionDirectedDeliveryTerminal u.deliveryId .failed now
        { replySeq := u.replySeq, error := u.error, expectedStates := [row.state],
          expectedLeaseConnectionId := if row.state = .failed then none else some connectionId }
      (l, terminal.any (·.state = .failed))
    | .waitingOwner => (l, false)

/-- The terminal and parked states answer idempotent receipts; everything else
needs the exact lease, and a serve connection the election besides. -/
def applyDirectedDeliveryUpdate (l : Ledger) (cs : Connections) (identity : ConnState)
    (connectionId : String) (u : DeliveryUpdateFrame) (now : Int) : Ledger × Bool :=
  match l.directedDeliveryRow u.deliveryId with
  | none => (l, false)
  | some row =>
    if !identity.toIdentity.identityMatchesDeliveryTarget row then (l, false)
    else if !u.matchesRow row then (l, false)
    else
      let ownsCurrentLease : Bool := text row.leaseConnectionId = connectionId
      let ownsFormerLease : Bool := text row.lastLeaseConnectionId = connectionId
      if row.state = .waitingOwner then (l, u.state = .waitingOwner || u.state = .replied)
      else if row.state = .replied then (l, u.state = .replied)
      else if row.state = .failed && u.state = .failed then (l, true)
      else if row.state = .failed && !(ownsCurrentLease || ownsFormerLease) then (l, false)
      else if row.state = .failed && u.state ≠ .replied then (l, false)
      else if row.state = .failed && !row.isFailedDeliveryRevivable then (l, false)
      else if row.state ≠ .failed && !ownsCurrentLease then (l, false)
      else if !electedHolder cs identity connectionId then (l, false)
      else l.applyOwnedUpdate identity connectionId u row now

def heartbeatRow (leaseUntil now : Int) (r : Delivery) : Delivery :=
  { r with leaseUntil := some leaseUntil, updatedAt := now }

@[simp] theorem heartbeatRow_id (leaseUntil now : Int) (r : Delivery) :
    (heartbeatRow leaseUntil now r).id = r.id := rfl

/-- `currentTask` is the message seq of the heartbeat's task. -/
def applyDirectedDeliveryHeartbeat (l : Ledger) (identity : Identity) (connectionId : String)
    (currentTask : Option ℕ) (now : Int) : Ledger :=
  match currentTask with
  | none => l
  | some seq =>
    match l.deliveries.rows.find? fun r =>
        identity.boundTo r && r.messageSeq = seq &&
          r.leaseConnectionId = some connectionId && r.state = .running with
    | none => l
    | some row =>
      l.updateDelivery row.id
        (fun r => r.leaseConnectionId = some connectionId && r.state = .running)
        (heartbeatRow (now + DIRECTED_DELIVERY_LEASE_MS) now) (heartbeatRow_id _ _)

/-- The explicit "read, no reply" of the delivery's own target. -/
def acknowledgeDelivery (l : Ledger) (identity : Identity) (deliveryId : String) (now : Int) :
    Ledger :=
  match l.directedDeliveryRow deliveryId with
  | none => l
  | some row =>
    if !identity.identityMatchesDeliveryTarget row then l
    else if row.state ≠ .queued && row.state ≠ .claimed && row.state ≠ .running then l
    else (l.transitionDirectedDeliveryTerminal row.id .replied now
      { terminalReason := some .acknowledgedNoReply, expectedStates := [row.state],
        explicitAckPrincipal := some identity.identityDeliveryPrincipal,
        acknowledgedBy := some identity.name }).1

def requeuedRow (now : Int) (r : Delivery) : Delivery :=
  { r with
    state := .queued, leaseConnectionId := none, leaseAdapter := none, leaseUntil := none,
    lastError := none, terminalReason := none, updatedAt := now }

@[simp] theorem requeuedRow_id (now : Int) (r : Delivery) : (requeuedRow now r).id = r.id := rfl

/-- The rows a closing socket leaves behind. -/
def heldBy (connectionId : String) (r : Delivery) : Bool :=
  r.leaseConnectionId = some connectionId &&
    ((r.state = .claimed && (r.leaseAdapter = none || r.leaseAdapter = some .serve ||
        r.leaseAdapter = some .watch)) ||
      (r.state = .running && r.leaseAdapter = some .legacyServe))

/-- One turn of the close loop. A claim with a reconnect token stays reserved. -/
def requeueOne (connectionId : String) (now : Int) (l : Ledger) (row : Delivery) : Ledger :=
  if row.state = .claimed && text row.leaseToken ≠ "" then l
  else if row.state = .running && row.leaseAdapter = some .legacyServe then
    (l.transitionDirectedDeliveryTerminal row.id .failed now
      { error := some "legacy runner disconnected after raw handoff; outcome unknown, not auto-retried",
        terminalReason := some .unknownOutcome, expectedStates := [.running],
        expectedLeaseAdapter := some .legacyServe,
        expectedLeaseConnectionId := some connectionId }).1
  else
    l.updateDelivery row.id
      (fun r => r.leaseConnectionId = some connectionId && r.state = .claimed)
      (requeuedRow now) (requeuedRow_id now)

def requeueDirectedDeliveriesForConnection (l : Ledger) (connectionId : String) (now : Int) :
    Ledger :=
  (l.deliveries.rows.filter (heldBy connectionId)).foldl (requeueOne connectionId now) l

/-- One turn of the lease-expiry loop: a claim that never started goes back, a
started run fails with an unknown outcome. -/
def expireOne (now : Int) (l : Ledger) (row : Delivery) : Ledger :=
  if row.state = .claimed then
    l.updateDelivery row.id (fun r => r.state = .claimed && r.leaseExpired now)
      (requeuedRow now) (requeuedRow_id now)
  else
    (l.transitionDirectedDeliveryTerminal row.id .failed now
      { error := some "runner ownership lost after task start; outcome unknown, not auto-retried",
        terminalReason := some .unknownOutcome, expectedStates := [.running] }).1

def expiredRows (l : Ledger) (now : Int) : List Delivery :=
  l.deliveries.rows.filter fun r => r.active && r.leaseExpired now

/-- The table part of `requeueExpiredDirectedDeliveries`. -/
def requeueExpired (l : Ledger) (now : Int) : Ledger :=
  (l.expiredRows now).foldl (expireOne now) l

end Ledger

namespace Connections

/-- `expiredConnections`: the last expired holder of each target name. -/
def expiredConnections (rows : List Delivery) : List (String × String) :=
  rows.foldl (fun acc r =>
    match r.leaseConnectionId with
    | none => acc
    | some c => acc.filter (fun e => e.1 ≠ r.targetName) ++ [(r.targetName, c)]) []

/-- One target of the expiry loop: close the silent holder, elect without it. -/
def expireTarget (lingering : List String) (expired : List (String × String))
    (acc : Connections × Outbox) (targetName : String) : Connections × Outbox :=
  let connectionId := (expired.find? fun e => e.1 = targetName).map (·.2)
  let cs := match connectionId with
    | none => acc.1
    | some id => if (getConnections acc.1).any (·.id = id) then close acc.1 lingering id else acc.1
  let (cs, sent) := reconcileServeLease cs targetName connectionId
  (cs, acc.2 ++ sent)

/-- The connection part of `requeueExpiredDirectedDeliveries`. -/
def closeExpiredHolders (cs : Connections) (lingering : List String) (rows : List Delivery) :
    Connections × Outbox :=
  (rows.map (·.targetName)).eraseDups.foldl
    (expireTarget lingering (expiredConnections rows)) (cs, [])

end Connections

end AgentParty
