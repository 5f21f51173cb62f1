import AgentParty.Delivery.Enqueue
import AgentParty.Delivery.Lease

/-! `recoverDirectedDelivery`: a client that lost its socket presents the token
of its assignment and a fresh one. Every branch of the source is a branch here;
a refusal is an answer `none`, which the caller reports as `bad_request`. -/

namespace AgentParty

/-- A frame that `parseDeliveryRecoverFrame` accepts; `request_id` is echoed only. -/
structure DeliveryRecoverFrame where
  deliveryId : String
  attempt : ℕ
  leaseEpoch : ℕ
  leaseToken : String
  nextLeaseToken : String
  replaySafe : Bool
  deliveryId_ne : deliveryId ≠ ""
  attempt_pos : 0 < attempt
  leaseEpoch_pos : 0 < leaseEpoch
  leaseToken_ne : leaseToken ≠ ""
  nextLeaseToken_ne : nextLeaseToken ≠ ""
  tokens_ne : leaseToken ≠ nextLeaseToken

inductive RecoveryResult
  | recovered
  | supersededSafe
  | terminal
  | terminalUnknown
  deriving DecidableEq, Repr

/-- What one recovery leaves behind and answers. -/
structure RecoveryOutcome where
  ledger : Ledger
  connections : Connections
  sent : Outbox
  answer : Option (RecoveryResult × Delivery)

namespace DeliveryRecoverFrame

/-- `lease_token IN (?, ?)`. -/
def presents (f : DeliveryRecoverFrame) (token : String) : Bool :=
  token = f.leaseToken || token = f.nextLeaseToken

def matchesCurrent (f : DeliveryRecoverFrame) (row : Delivery) : Bool :=
  row.attempt = f.attempt && row.leaseEpoch = f.leaseEpoch && f.presents (text row.leaseToken)

def matchesHistory (f : DeliveryRecoverFrame) (l : Ledger) : Bool :=
  l.leaseHistory.any fun h =>
    h.deliveryId = f.deliveryId && h.attempt = f.attempt && h.leaseEpoch = f.leaseEpoch &&
      f.presents h.leaseToken

end DeliveryRecoverFrame

namespace Delivery

/-- `lease_adapter ?? last_lease_adapter`. -/
def recoveryAdapter (r : Delivery) : Option LeaseAdapter := r.leaseAdapter <|> r.lastLeaseAdapter

/-- `lease_connection_id ?? last_lease_connection_id ?? ""`. -/
def previousConnectionId (r : Delivery) : String :=
  text (r.leaseConnectionId <|> r.lastLeaseConnectionId)

/-- `Number(lease_until ?? 0) <= now`. -/
def recoveryExpired (r : Delivery) (now : Int) : Bool := r.leaseUntil.getD 0 ≤ now

/-- Settled for good: no recovery changes the row any more. -/
def recoverySettled (r : Delivery) : Bool :=
  r.state = .replied || r.state = .waitingOwner ||
    (r.state = .failed && r.terminalReason ≠ some .unknownOutcome)

end Delivery

/-- Only a connection registered for the row's adapter may take it over. -/
def adapterRegistered (adapter : Option LeaseAdapter) (identity : ConnState) : Bool :=
  match adapter with
  | some .watch => identity.watchCandidate
  | some .serve => identity.serveCandidate
  | _ => false

namespace Ledger

/-- `INSERT OR IGNORE INTO directed_delivery_lease_history`. -/
def recordLease (l : Ledger) (h : LeaseHistory) : Ledger :=
  if l.leaseHistory.contains h then l else { l with leaseHistory := l.leaseHistory ++ [h] }

def deferredRow (now : Int) (r : Delivery) : Delivery :=
  { r with
    state := .queued, leaseConnectionId := none, leaseAdapter := none, leaseUntil := none,
    lastError := none, terminalReason := none, updatedAt := now }

@[simp] theorem deferredRow_id (now : Int) (r : Delivery) : (deferredRow now r).id = r.id := rfl

def revivedRow (connectionId : String) (adapter : Option LeaseAdapter) (token : String)
    (now : Int) (r : Delivery) : Delivery :=
  { r with
    state := .claimed
    lastLeaseConnectionId := r.leaseConnectionId <|> r.lastLeaseConnectionId
    lastLeaseAdapter := r.leaseAdapter <|> r.lastLeaseAdapter
    leaseConnectionId := some connectionId
    leaseAdapter := adapter
    leaseToken := some token
    leaseUntil := some (now + DIRECTED_DELIVERY_LEASE_MS)
    lastError := none
    terminalReason := none
    updatedAt := now }

@[simp] theorem revivedRow_id (connectionId : String) (adapter : Option LeaseAdapter)
    (token : String) (now : Int) (r : Delivery) :
    (revivedRow connectionId adapter token now r).id = r.id := rfl

def rotatedRow (connectionId token : String) (now : Int) (r : Delivery) : Delivery :=
  { r with
    lastLeaseConnectionId := r.leaseConnectionId
    leaseConnectionId := some connectionId
    leaseToken := some token
    leaseUntil := some (now + DIRECTED_DELIVERY_LEASE_MS)
    updatedAt := now }

@[simp] theorem rotatedRow_id (connectionId token : String) (now : Int) (r : Delivery) :
    (rotatedRow connectionId token now r).id = r.id := rfl

/-- `attempt = ? AND lease_epoch = ? AND lease_token IN (?, ?)`; NULL is in no list. -/
def assignmentOf (f : DeliveryRecoverFrame) (r : Delivery) : Bool :=
  r.attempt = f.attempt && r.leaseEpoch = f.leaseEpoch && r.leaseToken.any f.presents

/-- The other active row of the principal that a revival must not overtake. -/
def successor (l : Ledger) (identity : Identity) (deliveryId : String) : Option Delivery :=
  l.deliveries.rows.find? fun r => identity.boundTo r && r.id ≠ deliveryId && r.active

variable (l : Ledger) (cs : Connections) (lingering : List String) (identity : ConnState)
  (connectionId : String) (f : DeliveryRecoverFrame) (now : Int)

/-- `state = 'failed'` behind a successor: back to the queue. -/
def deferReplay : RecoveryOutcome :=
  let l := l.updateDelivery f.deliveryId
    (fun r => r.state = .failed && r.terminalReason = some .unknownOutcome && assignmentOf f r)
    (deferredRow now) (deferredRow_id now)
  match l.directedDeliveryRow f.deliveryId with
  | none => ⟨l, cs, [], none⟩
  | some deferred =>
    if deferred.state ≠ .queued then ⟨l, cs, [], none⟩
    else ⟨l, cs, [], some (.supersededSafe, deferred)⟩

/-- The replay-safe claim of a row whose outcome was unknown. -/
def reviveReplay (row : Delivery) : RecoveryOutcome :=
  let l := l.updateDelivery f.deliveryId
    (fun r => identity.toIdentity.boundTo r && assignmentOf f r &&
      ((r.state = .running && r.leaseExpired now) ||
        (r.state = .failed && r.terminalReason = some .unknownOutcome)))
    (revivedRow connectionId row.recoveryAdapter f.nextLeaseToken now) (revivedRow_id _ _ _ _)
  match l.directedDeliveryRow f.deliveryId with
  | none => ⟨l, cs, [], none⟩
  | some revived =>
    if revived.state ≠ .claimed || text revived.leaseConnectionId ≠ connectionId ||
        text revived.leaseToken ≠ f.nextLeaseToken then ⟨l, cs, [], none⟩
    else
      let (cs, sent, found) := Connections.fenceRecoveredDeliveryConnection cs lingering identity
        connectionId row.recoveryAdapter row.previousConnectionId
      ⟨l, cs, sent, if found then some (.recovered, revived) else none⟩

/-- The recovery of an expired running row is its expiry gate. -/
def expireRunning (row : Delivery) : RecoveryOutcome :=
  let l := (l.transitionDirectedDeliveryTerminal f.deliveryId .failed now
    { error := some "runner ownership lost after task start; outcome unknown, not auto-retried",
      terminalReason := some .unknownOutcome, expectedStates := [.running] }).1
  match l.directedDeliveryRow f.deliveryId with
  | none => ⟨l, cs, [], none⟩
  | some failed =>
    if failed.state ≠ .failed then ⟨l, cs, [], none⟩
    else
      let (cs, sent, found) := Connections.fenceRecoveredDeliveryConnection cs lingering identity
        connectionId row.recoveryAdapter row.previousConnectionId
      ⟨l, cs, sent, if found then some (.terminalUnknown, failed) else none⟩

/-- The rotation of a live assignment to the next token and this connection. -/
def rotateLease (row : Delivery) : RecoveryOutcome :=
  let l := l.updateDelivery f.deliveryId
    (fun r => identity.toIdentity.boundTo r && (r.state = .claimed || r.state = .running) &&
      assignmentOf f r && r.leaseUntil.any fun u => now < u)
    (rotatedRow connectionId f.nextLeaseToken now) (rotatedRow_id _ _ _)
  match l.directedDeliveryRow f.deliveryId with
  | none => ⟨l, cs, [], none⟩
  | some recovered =>
    if text recovered.leaseConnectionId ≠ connectionId ||
        text recovered.leaseToken ≠ f.nextLeaseToken || recovered.leaseEpoch ≠ f.leaseEpoch ||
        recovered.attempt ≠ f.attempt || !recovered.active then ⟨l, cs, [], none⟩
    else
      let (cs, sent, found) := Connections.fenceRecoveredDeliveryConnection cs lingering identity
        connectionId row.recoveryAdapter row.previousConnectionId
      ⟨l, cs, sent, if found then some (.recovered, recovered) else none⟩

def replaySafeUnknown (row : Delivery) : Bool :=
  f.replaySafe && f.matchesCurrent row &&
    ((row.state = .running && row.recoveryExpired now) ||
      (row.state = .failed && row.terminalReason = some .unknownOutcome))

/-- Every matching current token becomes durable history before the row changes. -/
def recordCurrentLease (row : Delivery) : Ledger :=
  if f.matchesCurrent row && text row.leaseToken ≠ "" then
    l.recordLease ⟨f.deliveryId, f.attempt, f.leaseEpoch, text row.leaseToken⟩
  else l

/-- The branches behind the authorisation checks and the settled states. -/
def recoverUnsettled (row : Delivery) : RecoveryOutcome :=
  let l := recordCurrentLease l f row
  if replaySafeUnknown f now row then
    if !adapterRegistered row.recoveryAdapter identity then ⟨l, cs, [], none⟩
    else if row.state = .failed && (l.successor identity.toIdentity f.deliveryId).isSome then
      deferReplay l cs f now
    else reviveReplay l cs lingering identity connectionId f now row
  else if !f.matchesCurrent row || row.state = .queued ||
      (row.state = .claimed && row.recoveryExpired now) then
    ⟨l, cs, [], some (.supersededSafe, row)⟩
  else if row.state = .running && row.recoveryExpired now then
    if !adapterRegistered row.recoveryAdapter identity then ⟨l, cs, [], none⟩
    else expireRunning l cs lingering identity connectionId f now row
  else if row.state = .failed then
    ⟨l, cs, [], some
      (if row.terminalReason = some .unknownOutcome then .terminalUnknown else .terminal, row)⟩
  else if row.state = .replied || row.state = .waitingOwner then
    ⟨l, cs, [], some (.terminal, row)⟩
  else if !adapterRegistered row.recoveryAdapter identity then ⟨l, cs, [], none⟩
  else rotateLease l cs lingering identity connectionId f now row

def recoverDirectedDelivery : RecoveryOutcome :=
  match l.directedDeliveryRow f.deliveryId with
  | none => ⟨l, cs, [], none⟩
  | some row =>
    if identity.kind ≠ .agent || !identity.deliveryRecoveryV1 ||
        !identity.toIdentity.identityMatchesDeliveryTarget row then ⟨l, cs, [], none⟩
    else if !f.matchesCurrent row && !f.matchesHistory l then ⟨l, cs, [], none⟩
    else if row.recoverySettled then ⟨l, cs, [], some (.terminal, row)⟩
    else recoverUnsettled l cs lingering identity connectionId f now row

end Ledger

end AgentParty
