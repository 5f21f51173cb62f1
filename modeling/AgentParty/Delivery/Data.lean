import AgentParty.Lib.Table
import Mathlib.Algebra.Order.Ring.Nat

/-! The data of the directed-delivery ledger: one row per `@agent` work item
(`directed_deliveries`), the lease tokens it has outlived
(`directed_delivery_lease_history`), the message columns the ledger reads, and
the connection state (`ConnState`) that elects a runner. -/

namespace AgentParty

inductive SenderKind
  | human
  | agent
  deriving DecidableEq, Repr

inductive MessageKind
  | message
  | status
  deriving DecidableEq, Repr

/-- `DirectedDeliveryCause` as stored; `retry` exists only in projections. -/
inductive DirectedDeliveryCause
  | mention
  | mentionEdit
  | reply
  | ownerAnswer
  deriving DecidableEq, Repr

inductive DeliveryState
  | queued
  | claimed
  | running
  | waitingOwner
  | replied
  | failed
  deriving DecidableEq, Repr

/-- The two states of `transitionDirectedDeliveryTerminal`. -/
inductive TerminalState
  | replied
  | failed
  deriving DecidableEq, Repr

def TerminalState.toState : TerminalState → DeliveryState
  | .replied => .replied
  | .failed => .failed

/-- `lease_adapter`. -/
inductive LeaseAdapter
  | serve
  | watch
  | webhook
  | legacyServe
  deriving DecidableEq, Repr

inductive DeliveryTerminalReason
  | deliveryFailed
  | webhookDeliveryFailed
  | unknownOutcome
  | ownerAnswerFailed
  | sourceRetracted
  | sourceRetentionExpired
  | deliveryExpired
  | undeliveredTimeout
  | orphanedWaitingOwner
  | acknowledgedNoReply
  deriving DecidableEq, Repr

def REVIVABLE_DELIVERY_FAILURES : List DeliveryTerminalReason := [.unknownOutcome]

def DIRECTED_DELIVERY_LEASE_MS : Int := 90000
def DIRECTED_WEBHOOK_LEASE_MS : Int := 10 * 60000
def DIRECTED_DELIVERY_QUEUED_TIMEOUT_MS : Int := 10 * 60000
def DIRECTED_DELIVERY_TERMINAL_RETENTION_MS : Int := 7 * 24 * 60 * 60 * 1000
def DECISION_REASON_LIMIT : ℕ := 2000
def DELIVERY_WORK_ID_LIMIT : ℕ := 128
def DELIVERY_CONTINUATION_REF_LIMIT : ℕ := 512

/-- UTF-16 code units of a character. -/
def utf16Units (c : Char) : ℕ := if c.val ≤ 0xFFFF then 1 else 2

/-- `String.prototype.length`. -/
def jsLength (s : String) : ℕ := (s.toList.map utf16Units).sum

/-- `slice(0, n)`; half of a surrogate pair is stored as U+FFFD. -/
def sliceUnits : ℕ → List Char → List Char
  | 0, _ => []
  | _, [] => []
  | n + 1, c :: cs =>
    if utf16Units c = 1 then c :: sliceUnits n cs
    else match n with
      | 0 => ['\uFFFD']
      | n + 1 => c :: sliceUnits n cs

def sliceReason (s : String) : String :=
  String.ofList (sliceUnits DECISION_REASON_LIMIT s.toList)

/-- `String(x ?? "")`. -/
def text (x : Option String) : String := x.getD ""

/-- A value of `crypto.randomUUID()`. -/
structure Uuid where
  val : String
  length_eq : jsLength val = 36
  deriving DecidableEq

theorem Uuid.val_ne (u : Uuid) : u.val ≠ "" := by
  intro h
  have := u.length_eq
  rw [h] at this
  exact absurd this (by decide)

/-- A row of `directed_deliveries`. The primary key comes from
`crypto.randomUUID()`, the message seq from the channel counter. -/
structure Delivery where
  id : String
  id_ne : id ≠ ""
  messageSeq : ℕ
  messageSeq_pos : 0 < messageSeq
  targetName : String
  targetOwner : Option String
  cause : DirectedDeliveryCause
  state : DeliveryState
  attempt : ℕ
  leaseEpoch : ℕ
  leaseToken : Option String
  previousLeaseEpoch : Option ℕ
  previousLeaseAttempt : Option ℕ
  previousLeaseToken : Option String
  leaseConnectionId : Option String
  lastLeaseConnectionId : Option String
  leaseAdapter : Option LeaseAdapter
  lastLeaseAdapter : Option LeaseAdapter
  leaseUntil : Option Int
  workId : Option String
  continuationRef : Option String
  parentDeliveryId : Option String
  replySeq : Option ℕ
  lastError : Option String
  terminalReason : Option DeliveryTerminalReason
  acknowledgedBy : Option String
  acknowledgedAt : Option Int
  createdAt : Int
  updatedAt : Int
  deriving DecidableEq

namespace Delivery

/-- Rows that serialise further dispatch: `state IN ('claimed', 'running')`. -/
def active (r : Delivery) : Bool := r.state = .claimed || r.state = .running

/-- `state IN ('queued', 'claimed', 'running', 'waiting_owner')`. -/
def unfinished (r : Delivery) : Bool :=
  r.state = .queued || r.state = .claimed || r.state = .running || r.state = .waitingOwner

/-- `state IN ('replied', 'failed')`. -/
def terminal (r : Delivery) : Bool := r.state = .replied || r.state = .failed

/-- The work queue a row belongs to. -/
def target (r : Delivery) : String × Option String := (r.targetName, r.targetOwner)

/-- `lease_until <= now`, false for NULL. -/
def leaseExpired (r : Delivery) (now : Int) : Bool := r.leaseUntil.any fun u => u ≤ now

/-- The creation-time principal: a non-empty `target_owner`. -/
def principal (r : Delivery) : Option String := r.targetOwner.filter fun o => o ≠ ""

/-- `isFailedDeliveryRevivable`. -/
def isFailedDeliveryRevivable (r : Delivery) : Bool :=
  r.state = .failed &&
    match r.terminalReason with
    | none => true
    | some reason => REVIVABLE_DELIVERY_FAILURES.contains reason

end Delivery

/-- A row of `directed_delivery_lease_history`; `superseded_at` is written and
never read. -/
structure LeaseHistory where
  deliveryId : String
  attempt : ℕ
  leaseEpoch : ℕ
  leaseToken : String
  deriving DecidableEq, Repr

/-- A `DecisionDeliveryLineage` that `parseStoredDecisionLineage` accepted. -/
structure DecisionLineage where
  deliveryId : String
  originSeq : ℕ
  workId : String
  continuationRef : String
  deliveryId_ne : deliveryId ≠ ""
  originSeq_pos : 0 < originSeq
  workId_ne : workId ≠ ""
  continuationRef_ne : continuationRef ≠ ""
  deriving DecidableEq

/-- `parseStoredDecisionRequest`. Lineage is all or nothing. -/
structure DecisionRequest where
  expectedResponderOwner : Option String
  lineage : Option DecisionLineage
  deriving DecidableEq

/-- A valid-JSON `decision_request_json`: what `json_extract(…, '$.delivery_id')`
reads from it and what `parseStoredDecisionRequest` makes of it. -/
structure DecisionRequestColumn where
  deliveryId : Option String
  parsed : Option DecisionRequest
  agree : ∀ r ∈ parsed, deliveryId = r.lineage.map (·.deliveryId)

/-- `parseStoredDecisionResponse`. -/
structure DecisionResponse where
  requestSeq : ℕ
  lineage : Option DecisionLineage
  deriving DecidableEq

inductive DecisionState
  | pending
  | resolved
  | autoResolved
  deriving DecidableEq, Repr

/-- The columns of `messages` that the ledger reads or writes. -/
structure Message where
  seq : ℕ
  seq_pos : 0 < seq
  senderName : String
  senderKind : SenderKind
  senderOwner : Option String
  kind : MessageKind
  replyTo : Option ℕ
  statusSummarySeq : Option ℕ
  decisionState : Option DecisionState
  decisionRequest : Option DecisionRequestColumn
  decisionResponse : Option DecisionResponse
  reviewPending : Bool
  retractedAt : Option Int
  revSeq : Option ℕ

/-- `decision_state = 'pending'` with a request bound to delivery `id`. -/
def Message.pendingFor (m : Message) (id : String) : Bool :=
  m.decisionState = some .pending &&
    match m.decisionRequest with
    | none => false
    | some q => q.deliveryId = some id

structure Identity where
  name : String
  kind : SenderKind
  owner : Option String
  tokenHash : String
  deriving DecidableEq, Repr

/-- A non-empty account owner, else the token hash. -/
def Identity.identityDeliveryPrincipal (i : Identity) : String :=
  match i.owner.filter fun o => o ≠ "" with
  | some o => o
  | none => "token-sha256:" ++ i.tokenHash

def Identity.identityMatchesDeliveryTarget (i : Identity) (r : Delivery) : Bool :=
  match r.principal with
  | none => false
  | some p => i.name = r.targetName && i.identityDeliveryPrincipal = p

/-- `target_name = ? AND target_owner = ?` with the identity's own values. -/
def Identity.boundTo (i : Identity) (r : Delivery) : Bool :=
  r.targetName = i.name && r.targetOwner = some i.identityDeliveryPrincipal

/-- `ConnState`, the fields that decide delivery. `serveLeaseHeld` starts
undefined, which differs from both flags. -/
structure ConnState extends Identity where
  serveCandidate : Bool
  serveClaimSeq : Option ℕ
  serveLeaseHeld : Option Bool
  watchCandidate : Bool
  watchClaimSeq : Option ℕ
  directedDeliveryV1 : Bool
  deliveryRecoveryV1 : Bool
  helloPending : Bool
  helloExpired : Bool
  helloDeadlineAt : Option Int
  helloSince : Option ℕ
  ocsReportedAt : Option Int := none
  upgradeRequired : Bool := false
  authorizationRevoked : Bool := false
  closing : Bool := false
  deriving DecidableEq, Repr

/-- A socket. `listed` says whether `getConnections()` still yields it, `closed`
that the server has closed it or handled its close; `handler` is the state that the message handler in
flight has read (messages of one socket are handled one after another). -/
structure Connection where
  id : String
  state : ConnState
  listed : Bool
  closed : Bool
  handler : Option ConnState
  deriving DecidableEq, Repr

/-- The frames the ledger accounts for. -/
inductive ServerFrame
  | serveLease (name : String) (held : Bool)
  | delivery (deliveryId : String) (attempt leaseEpoch : ℕ) (leaseToken : Option String)
  deriving DecidableEq, Repr

/-- A `webhooks` row in agent mode with filter `mentions` or `all`. -/
structure AgentWebhook where
  name : String
  registrationId : String
  targetOwner : Option String
  deriving DecidableEq, Repr

def webhookHolderId (registrationId : String) : String := "webhook:" ++ registrationId

abbrev Deliveries := Table Delivery Delivery.id
abbrev Messages := Table Message Message.seq
abbrev Connections := Table Connection Connection.id

/-- `directed_deliveries` with the tables its transactions read and write, and
the `rev_seq` counter of `meta`. -/
structure Ledger where
  deliveries : Deliveries
  leaseHistory : List LeaseHistory
  messages : Messages
  revSeq : ℕ

namespace Ledger

/-- `directedDeliveryRow`. -/
def directedDeliveryRow (l : Ledger) (id : String) : Option Delivery := l.deliveries.get? id

/-- `UPDATE directed_deliveries SET … WHERE id = ? AND …`. -/
def updateDelivery (l : Ledger) (id : String) (guard : Delivery → Bool) (f : Delivery → Delivery)
    (hf : ∀ r, (f r).id = r.id) : Ledger :=
  { l with deliveries := l.deliveries.update (fun r => r.id = id && guard r) f hf }

end Ledger

end AgentParty
