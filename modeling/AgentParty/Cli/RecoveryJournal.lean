import AgentParty.Delivery.Recover

/-! `DeliveryRecoveryJournal`, `delivery-recovery-journal.ts`: the write-ahead journal of a
bridge, one entry for each delivery it owes the room. Every operation persists the whole
prospective snapshot before it publishes it in memory. -/

namespace AgentParty
namespace RecoveryJournal

/-- `DirectedDelivery["cause"]` as the room projects it. -/
inductive ProjectedCause
  | stored (cause : DirectedDeliveryCause)
  | retry
  deriving DecidableEq, Repr

/-- The fields of a `DirectedDelivery` that the journal reads. -/
structure DirectedDelivery where
  id : String
  messageSeq : ℕ
  targetName : String
  cause : ProjectedCause
  state : DeliveryState
  attempt : ℕ
  leaseEpoch : Option ℕ
  leaseToken : Option String
  leaseUntil : Option Int
  workId : Option String
  continuationRef : Option String
  replySeq : Option ℕ
  createdAt : Int
  deriving DecidableEq

/-- A message frame: its number and the rest of its JSON text. -/
structure MsgFrame where
  seq : ℕ
  content : String
  deriving DecidableEq

inductive DeliveryRecoveryPhase
  | claimed
  | runningAuthorized
  | harnessIssued
  | harnessAccepted
  | replyPosted
  | waitingOwner
  | failedPending
  deriving DecidableEq, Repr

structure DeliveryRecoveryEntry where
  delivery : DirectedDelivery
  message : MsgFrame
  phase : DeliveryRecoveryPhase
  nextLeaseToken : Option String
  replyBody : Option String
  replySeq : Option ℕ
  claimReceipt : Option String
  terminalError : Option String
  threadId : Option String
  turnId : Option String
  updatedAt : Int
  deriving DecidableEq

abbrev Entries := Table DeliveryRecoveryEntry (·.delivery.id)

def MAX_RECOVERY_ENTRIES : ℕ := 64

/-- What `parseEntry` asks of an entry beyond its types. -/
def parseEntry (e : DeliveryRecoveryEntry) : Bool :=
  decide (0 < e.delivery.attempt) && decide (0 < e.delivery.leaseEpoch.getD 0) &&
    e.delivery.leaseToken.any (· ≠ "") && decide (0 < e.message.seq) &&
    decide (e.delivery.messageSeq = e.message.seq) && e.replySeq.all (0 < ·) &&
    e.claimReceipt.all (· ≠ "")

/-- The constructor on a file that is there: it throws on any entry it cannot read. -/
def load (file : Entries) : Option Entries :=
  if file.rows.length ≤ MAX_RECOVERY_ENTRIES && file.rows.all parseEntry then some file else none

/-- How the durable commit of a snapshot ends. An `unsynced` one throws after the new file
is in place. -/
inductive Commit
  | durable
  | refused
  | unsynced
  deriving DecidableEq, Repr

/-- The memory of a journal and its file. -/
structure Journal where
  entriesById : Entries
  file : Entries

/-- `persistSnapshot`, and the publication behind it. The flag says whether it threw. -/
def persistSnapshot (j : Journal) (entries : Entries) : Commit → Journal × Bool
  | .durable => (⟨entries, entries⟩, false)
  | .refused => (j, true)
  | .unsynced => (⟨j.entriesById, entries⟩, true)

/-- The answer of an operation that persists; `none` if it threw. -/
def persistEntry (j : Journal) (entry : DeliveryRecoveryEntry) (c : Commit) :
    Journal × Option DeliveryRecoveryEntry :=
  let (j, threw) := persistSnapshot j (j.entriesById.put entry) c
  (j, if threw then none else some entry)

def claimedEntry (delivery : DirectedDelivery) (message : MsgFrame) (now : Int) :
    DeliveryRecoveryEntry where
  delivery := delivery
  message := message
  phase := .claimed
  nextLeaseToken := none
  replyBody := none
  replySeq := none
  claimReceipt := none
  terminalError := none
  threadId := none
  turnId := none
  updatedAt := now

def validClaim (delivery : DirectedDelivery) (message : MsgFrame) : Bool :=
  decide (delivery.state = .claimed) && decide (delivery.messageSeq = message.seq) &&
    delivery.leaseEpoch.any (0 < ·) && delivery.leaseToken.any (· ≠ "")

def sameLogicalDelivery (current : DeliveryRecoveryEntry) (delivery : DirectedDelivery)
    (message : MsgFrame) : Bool :=
  decide (current.delivery.messageSeq = delivery.messageSeq) &&
    decide (current.delivery.targetName = delivery.targetName) &&
    decide (current.delivery.cause = delivery.cause) &&
    decide (current.delivery.workId = delivery.workId) &&
    decide (current.delivery.continuationRef = delivery.continuationRef) &&
    decide (current.delivery.createdAt = delivery.createdAt) &&
    decide (current.message = message)

def sameAssignment (current : DeliveryRecoveryEntry) (delivery : DirectedDelivery) : Bool :=
  decide (current.delivery.attempt = delivery.attempt) &&
    decide (current.delivery.leaseEpoch = delivery.leaseEpoch)

/-- A new assignment takes the place of one whose work had not been authorised. -/
def replaceable (current : DeliveryRecoveryEntry) (delivery : DirectedDelivery) : Bool :=
  decide (current.phase = .claimed) && decide (current.delivery.attempt < delivery.attempt) &&
    decide (current.delivery.leaseEpoch.getD 0 < delivery.leaseEpoch.getD 0)

variable (j : Journal)

def recordClaim (delivery : DirectedDelivery) (message : MsgFrame) (now : Int) (c : Commit) :
    Journal × Option DeliveryRecoveryEntry :=
  if !validClaim delivery message then (j, none)
  else
    match j.entriesById.get? delivery.id with
    | some current =>
      if !sameLogicalDelivery current delivery message then (j, none)
      else if !sameAssignment current delivery then
        if replaceable current delivery then persistEntry j (claimedEntry delivery message now) c
        else (j, none)
      else if current.delivery.leaseToken ≠ delivery.leaseToken then (j, none)
      else (j, some current)
    | none =>
      if MAX_RECOVERY_ENTRIES ≤ j.entriesById.rows.length then (j, none)
      else persistEntry j (claimedEntry delivery message now) c

/-- The patches of `update`. No caller changes the assignment, its token or the next one. -/
structure Patch where
  apply : DeliveryRecoveryEntry → DeliveryRecoveryEntry
  id_eq : ∀ e, (apply e).delivery.id = e.delivery.id
  attempt_eq : ∀ e, (apply e).delivery.attempt = e.delivery.attempt
  leaseEpoch_eq : ∀ e, (apply e).delivery.leaseEpoch = e.delivery.leaseEpoch
  leaseToken_eq : ∀ e, (apply e).delivery.leaseToken = e.delivery.leaseToken
  nextLeaseToken_eq : ∀ e, (apply e).nextLeaseToken = e.nextLeaseToken
  message_eq : ∀ e, (apply e).message = e.message

def update (deliveryId : String) (patch : Patch) (now : Int) (c : Commit) :
    Journal × Option DeliveryRecoveryEntry :=
  match j.entriesById.get? deliveryId with
  | none => (j, none)
  | some current => persistEntry j { patch.apply current with updatedAt := now } c

/-- The journal snapshot a recovery decision was made from. -/
structure Expected where
  phase : DeliveryRecoveryPhase
  updatedAt : Int
  attempt : ℕ
  leaseEpoch : ℕ
  leaseToken : String
  deriving DecidableEq

structure PrepareOptions where
  replaySafe : Bool := false
  expected : Option Expected := none
  deriving DecidableEq

/-- The frame as it is sent; the room parses it. -/
structure RecoverRequest where
  deliveryId : String
  requestId : String
  attempt : ℕ
  leaseEpoch : ℕ
  leaseToken : String
  nextLeaseToken : String
  replaySafe : Bool
  deriving DecidableEq

def asExpected (current : DeliveryRecoveryEntry) (leaseEpoch : ℕ) (leaseToken : String)
    (expected : Expected) : Bool :=
  decide (current.phase = expected.phase) && decide (current.updatedAt = expected.updatedAt) &&
    decide (current.delivery.attempt = expected.attempt) &&
    decide (leaseEpoch = expected.leaseEpoch) && decide (leaseToken = expected.leaseToken)

def requestFor (current : DeliveryRecoveryEntry) (leaseEpoch : ℕ) (leaseToken : String)
    (nextLeaseToken : String) (replaySafe : Bool) (requestId : String) : RecoverRequest where
  deliveryId := current.delivery.id
  requestId := requestId
  attempt := current.delivery.attempt
  leaseEpoch := leaseEpoch
  leaseToken := leaseToken
  nextLeaseToken := nextLeaseToken
  replaySafe := replaySafe

/-- `minted` is the value of `randomUUID()`, which is not needed for an entry that has a
next token. -/
def prepareRecovery (deliveryId : String) (options : PrepareOptions) (minted requestId : String)
    (now : Int) (c : Commit) : Journal × Option RecoverRequest :=
  match j.entriesById.get? deliveryId with
  | none => (j, none)
  | some current =>
    match current.delivery.leaseEpoch, current.delivery.leaseToken with
    | some leaseEpoch, some leaseToken =>
      if !options.expected.all (asExpected current leaseEpoch leaseToken) then (j, none)
      else if options.replaySafe && options.expected.isNone then (j, none)
      else
        match current.nextLeaseToken with
        | some nextLeaseToken =>
          (j, some (requestFor current leaseEpoch leaseToken nextLeaseToken options.replaySafe
            requestId))
        | none =>
          let (j, stored) :=
            persistEntry j { current with nextLeaseToken := some minted, updatedAt := now } c
          (j, stored.map fun _ =>
            requestFor current leaseEpoch leaseToken minted options.replaySafe requestId)
    | _, _ => (j, none)

/-- A `delivery_recovery` frame; the token and the lease end come with `recovered` only. -/
structure RecoveryResultFrame where
  deliveryId : String
  requestId : String
  result : RecoveryResult
  state : DeliveryState
  attempt : ℕ
  leaseEpoch : ℕ
  leaseToken : Option String
  leaseUntil : Option Int
  deriving DecidableEq

def acknowledges (frame : RecoveryResultFrame) (current : DeliveryRecoveryEntry) : Bool :=
  decide (frame.result = .recovered) && frame.leaseToken.isSome && frame.leaseUntil.isSome &&
    decide (current.delivery.attempt = frame.attempt) &&
    decide (current.delivery.leaseEpoch = some frame.leaseEpoch) &&
    decide (current.nextLeaseToken = frame.leaseToken)

def acceptedEntry (frame : RecoveryResultFrame) (now : Int) (current : DeliveryRecoveryEntry) :
    DeliveryRecoveryEntry :=
  { current with
    delivery := { current.delivery with
      state := frame.state, leaseToken := frame.leaseToken, leaseUntil := frame.leaseUntil }
    nextLeaseToken := none
    updatedAt := now }

def acceptRecovery (frame : RecoveryResultFrame) (now : Int) (c : Commit) :
    Journal × Option DeliveryRecoveryEntry :=
  match j.entriesById.get? frame.deliveryId with
  | none => (j, none)
  | some current =>
    if !acknowledges frame current then (j, none)
    else persistEntry j (acceptedEntry frame now current) c

def removeMany (deliveryIds : List String) (c : Commit) : Journal :=
  if !deliveryIds.any fun id => (j.entriesById.get? id).isSome then j
  else (persistSnapshot j (j.entriesById.delete fun e => deliveryIds.contains e.delivery.id) c).1

end RecoveryJournal
end AgentParty
