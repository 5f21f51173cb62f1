import AgentParty.Delivery.Dispatch
import AgentParty.Delivery.Sockets
import AgentParty.Delivery.Update
import AgentParty.Delivery.Webhook
import AgentParty.Lib.Run
import Mathlib.Data.List.Perm.Subperm

/-! The authority gates. Before it hands work out, each of the five delivery loops asks the
directory whether the participant was removed and whether the principal is still current;
either read may fail. The alarm and the close of a socket reconcile with the directory first,
and that may fail too. What the room does to its tables between these stretches (answers to
POSTs, new rows, registrations, frames, sockets that come and go) is left open; so is a frame
or a request that is refused because its own reconciliation failed. -/

namespace AgentParty
namespace Authority

inductive PrincipalType
  | name
  | account
  deriving DecidableEq

/-- A row of `channel_participant_removals`, of this channel. -/
structure Removal where
  principalType : PrincipalType
  principal : String
  deriving DecidableEq

structure Token where
  name : String
  owner : Option String
  hash : String
  isAgent : Bool
  revoked : Bool
  childExpiresAt : Option Int
  /-- The channel scope is empty or this channel. -/
  inScope : Bool
  deriving DecidableEq

/-- What the gates read in D1; profiles and bindings pair a handle or a name with an account. -/
structure Directory where
  removals : List Removal
  tokens : List Token
  profiles : List (String × String)
  bindings : List (String × String)

namespace Directory

def sameHandle (a b : String) : Bool := a.toList.map Char.toLower = b.toList.map Char.toLower

/-- The query of `isParticipantRemoved`. -/
def removes (db : Directory) (name : String) (owner : Option String) : Bool :=
  db.removals.any fun r =>
    match r.principalType with
    | .name => r.principal = name
    | .account =>
      owner = some r.principal ||
        db.tokens.any (fun t => t.name = name && t.owner = some r.principal) ||
        db.profiles.any (fun p => sameHandle p.1 name && p.2 = r.principal) ||
        db.bindings.any (fun b => b.1 = name && b.2 = r.principal)

def Token.live (t : Token) (now : Int) : Bool :=
  t.isAgent && !t.revoked && t.childExpiresAt.all (now < ·) && t.inScope

/-- The query of `isCurrentAgentDeliveryPrincipal`. -/
def currentPrincipal (db : Directory) (name : String) (now : Int) : Option String :=
  (db.tokens.find? fun t => t.name = name && Token.live t now).map fun t =>
    t.owner.getD ("token-sha256:" ++ t.hash)

end Directory

section Reads

variable (db : Directory) (fails : Bool)

/-- A read that fails counts as a removal. -/
def isParticipantRemoved (name : String) (owner : Option String) : Bool :=
  fails || db.removes name owner

/-- A read that fails counts as a change. -/
def isCurrentAgentDeliveryPrincipal (name principal : String) (now : Int) : Bool :=
  !fails && db.currentPrincipal name now = some principal

end Reads

inductive HookMode
  | notify
  | agent
  deriving DecidableEq

/-- A `webhooks` row, and a `WebhookBinding`. -/
structure Hook where
  name : String
  registrationId : String
  mode : HookMode
  targetOwner : Option String
  deriving DecidableEq

/-- A row of `webhook_queue` or of `webhook_dead_letters`. -/
structure Stored where
  id : ℕ
  webhookName : String
  registrationId : Option String
  webhookMode : Option HookMode
  targetOwner : Option String
  messageSeq : ℕ
  /-- The directed delivery in the payload. -/
  directed : Option WebhookPayload
  attempts : ℕ
  deriving DecidableEq

/-- `storedWebhookBinding`. -/
def Stored.binding (row : Stored) : Option Hook :=
  match row.registrationId.filter (· ≠ ""), row.webhookMode, row.targetOwner.filter (· ≠ "") with
  | some id, some .agent, some owner => some ⟨row.webhookName, id, .agent, some owner⟩
  | some id, some .notify, none => some ⟨row.webhookName, id, .notify, none⟩
  | _, _, _ => none

/-- Where a retry or a redelivery takes its row from. -/
inductive Shelf
  | queue
  | letters
  deriving DecidableEq

/-- What a loop has in hand. -/
inductive Work
  /-- `dispatchNextDirectedDeliveryAuthorized` with the row it selected and its principal. -/
  | dispatch (task : DispatchTask) (queued : Delivery) (principal : String)
  /-- `dispatchDirectedWebhook`. -/
  | direct (hook : Hook) (deliveryId : String)
  /-- `dispatchWebhooks`. -/
  | notify (hook : Hook) (seq : ℕ)
  /-- `retryWebhooks` and `redeliverDeadLetters`. -/
  | again (shelf : Shelf) (row : Stored)
  deriving DecidableEq

def Work.name : Work → String
  | .dispatch task _ _ => task.targetName
  | .direct hook _ | .notify hook _ => hook.name
  | .again _ row => row.webhookName

/-- The owner the gates ask about. -/
def Work.owner : Work → Option String
  | .dispatch _ _ principal => some principal
  | .direct hook _ | .notify hook _ => hook.targetOwner
  | .again _ row => row.binding.bind (·.targetOwner)

inductive Stage
  | removal
  | principal
  deriving DecidableEq

structure Tables where
  hooks : List Hook
  queue : List Stored
  letters : List Stored
  ledger : Ledger
  connections : Connections
  /-- Names with a participant-removal mark. -/
  removed : List String
  paused : List String
  /-- The work that was handed out: claims with their frame or POST, and POSTs started. -/
  sent : List Work

/-- What the answers of `reconcileRemovedConnections` come to: the sockets it closes, the names
it removes with the time of their removal, the principals that have lost their last token. -/
structure Verdict where
  revoked : List String
  lingering : List String
  affected : List (String × Int)
  stale : List (String × String)

/-- Nobody was removed and no principal has changed. -/
def Verdict.clear : Verdict := ⟨[], [], [], []⟩

namespace Tables

open Connections

def removeParticipantDeliveryAdapters (t : Tables) (name : String) (now : Int) : Tables :=
  { t with
    removed := name :: t.removed
    hooks := t.hooks.filter (·.name ≠ name)
    queue := t.queue.filter (·.webhookName ≠ name)
    letters := t.letters.filter (·.webhookName ≠ name)
    ledger := t.ledger.removeParticipantDeliveries name now }

def removeStaleDeliveryPrincipal (t : Tables) (name principal : String) (now : Int) : Tables :=
  { t with
    hooks := t.hooks.filter fun h =>
      !(h.name = name && h.mode = .agent && h.targetOwner = some principal)
    queue := t.queue.filter fun q => !(q.webhookName = name && q.targetOwner = some principal)
    ledger := t.ledger.removeStaleDeliveries name principal now }

/-- `closeRevokedConnection` on a socket whose authorization is revoked. -/
def revoke (lingering : List String) (cs : Connections) (id : String) : Connections :=
  close (setState cs id (closedFor .removed)) lingering id

/-- `reconcileRemovedConnections` with its answers. -/
def reconcile (t : Tables) (v : Verdict) (now : Int) : Tables :=
  let t := { t with connections := v.revoked.foldl (revoke v.lingering) t.connections }
  let t := v.affected.foldl (fun t a => t.removeParticipantDeliveryAdapters a.1 a.2) t
  v.stale.foldl (fun t p => t.removeStaleDeliveryPrincipal p.1 p.2 now) t

/-- `agentWebhookCandidates` of every name. -/
def agentWebhooks (t : Tables) : List AgentWebhook :=
  t.hooks.filterMap fun h =>
    if h.mode = .agent then some ⟨h.name, h.registrationId, h.targetOwner⟩ else none

/-- The lists a dispatch tail reads when it starts. -/
def startDispatch (t : Tables) (targetName : String) (excludeId : Option String) : DispatchTask :=
  Connections.startDispatch t.connections t.agentWebhooks targetName excludeId

/-- What a dispatch tail does behind both checks. -/
def decideOn (t : Tables) (task : DispatchTask) (queued : Delivery) (principal : String)
    (token : Uuid) (now : Int) : Tables :=
  let out := t.ledger.dispatchDecide t.connections task queued principal token now
  { t with
    ledger := out.1
    sent := if out.2.2.isSome then t.sent ++ [Work.dispatch task queued principal] else t.sent }

def post (t : Tables) (w : Work) : Tables := { t with sent := t.sent ++ [w] }

/-- Every check is passed: a queued row is decided on, a payload is posted. -/
def handOut (t : Tables) (w : Work) (token : Uuid) (now : Int) : Tables :=
  match w with
  | .dispatch task queued principal => t.decideOn task queued principal token now
  | _ => t.post w

/-- The rows that `requeueDirectedDeliveriesForConnection` gives back or fails. -/
def leftBehind (t : Tables) (id : String) : List Delivery :=
  t.ledger.deliveries.rows.filter fun r =>
    Ledger.heldBy id r && !(r.state = .claimed && text r.leaseToken ≠ "")

/-- The holders that `reconcileServeLease` chooses when `id` goes. -/
def successors (t : Tables) (name id : String) : List String :=
  holderIds (claimedServeConnections t.connections name (some id) none)

/-- The names `onClose` dispatches for, in the order it calls them. -/
def scheduled (t : Tables) (c : Connection) : List String :=
  let affected := ((t.leftBehind c.id).map (·.targetName)).eraseDups
  if c.state.serveCandidate then
    (if (t.successors c.state.name c.id).isEmpty then [] else [c.state.name]) ++
      affected.filter (· ≠ c.state.name)
  else if c.state.kind = .agent then (affected ++ [c.state.name]).eraseDups
  else []

/-- `onClose` behind its reconciliation, up to the dispatches. -/
def part (t : Tables) (c : Connection) (now : Int) : Tables :=
  { t with
    ledger := t.ledger.requeueDirectedDeliveriesForConnection c.id now
    connections :=
      if c.state.serveCandidate then
        (reconcileServeLease t.connections c.state.name (some c.id)).1
      else t.connections }

/-- A queued row that may not be posted becomes a dead letter; a dead letter stays one. -/
def refuse (t : Tables) (shelf : Shelf) (row : Stored) : Tables :=
  match shelf with
  | .letters =>
    { t with letters := t.letters.map fun q =>
        if q.id = row.id then { q with attempts := row.attempts + 1 } else q }
  | .queue =>
    let letters := t.letters ++ [{ row with attempts := row.attempts + 1 }]
    { t with
      queue := t.queue.filter (·.id ≠ row.id)
      letters := letters.drop (letters.length - MAX_WEBHOOK_DEAD_LETTERS) }

/-- The claimed row of a queued agent payload fails with it. -/
def failItem (t : Tables) (shelf : Shelf) (row : Stored) (fail : Ledger → WebhookItem → Ledger) :
    Tables :=
  match shelf, row.binding, row.directed with
  | .queue, some ⟨name, id, .agent, owner⟩, some payload =>
    { t with ledger := fail t.ledger ⟨⟨name, id, owner⟩, payload, row.attempts⟩ }
  | _, _, _ => t

/-- A queued row whose work has moved on is dropped. -/
def giveUp (t : Tables) (shelf : Shelf) (row : Stored) : Tables :=
  match shelf with
  | .letters => t.refuse .letters row
  | .queue => { t with queue := t.queue.filter (·.id ≠ row.id) }

end Tables

structure Room where
  db : Directory
  clock : Int
  tables : Tables
  works : List (Work × Stage)

/-- What the checks between the directory and the POST say of a stored payload. -/
inductive Fit
  | fits
  | mismatched
  /-- The work has moved on, or it cannot be reclaimed. -/
  | lost
  deriving DecidableEq

inductive Event
  /-- D1 changes, or time goes by. -/
  | directory (db : Directory) (clock : Int)
  /-- Whatever else happens to the tables. -/
  | other (f : Tables → Tables)
  /-- A dispatch tail starts. -/
  | dispatch (targetName : String) (excludeId : Option String)
  /-- A tail goes round its loop again, with the lists it read when it started. -/
  | loop (task : DispatchTask)
  /-- A claim or a message starts a POST. -/
  | start (w : Work)
  /-- The alarm reconciles before it starts `retryWebhooks`, and a request before it starts
  `redeliverDeadLetters`. -/
  | batch (shelf : Shelf) (fails : Bool) (rows : List Stored) (v : Verdict)
  /-- `onClose` has its reconciliation. The dispatches it schedules start when their turn comes. -/
  | close (connectionId : String) (fails : Bool) (v : Verdict)
  /-- `isParticipantRemoved` answers. -/
  | removalRead (w : Work) (fails : Bool) (fit : Fit)
  /-- `isCurrentAgentDeliveryPrincipal` answers; a claim may draw a token. -/
  | principalRead (w : Work) (fails : Bool) (fit : Fit) (token : Uuid)

namespace Room

def without (s : Room) (w : Work) (stage : Stage) : Room :=
  { s with works := s.works.erase (w, stage) }

def wait (s : Room) (w : Work) (stage : Stage) : Room := { s with works := s.works ++ [(w, stage)] }

def withTables (s : Room) (t : Tables) : Room := { s with tables := t }

/-- The last checks before the POST. -/
def post (s : Room) (w : Work) (fit : Fit) : Room :=
  match w, fit with
  | .again shelf row, .mismatched =>
    let t := s.tables.failItem shelf row fun l item => l.failMismatchedRetry item s.clock
    s.withTables (t.refuse shelf row)
  | .again shelf row, .lost => s.withTables (s.tables.giveUp shelf row)
  | _, _ => s.withTables (s.tables.post w)

/-- The stretch behind a passed removal check. -/
def afterRemoval (s : Room) (w : Work) (fit : Fit) : Room :=
  match w with
  | .dispatch _ _ _ => s.wait w .principal
  | .direct hook _ => if hook.targetOwner.isNone then s else s.wait w .principal
  | .notify _ _ => s.post w fit
  | .again shelf row =>
    match row.binding with
    | none => s.withTables (s.tables.refuse shelf row)
    | some binding =>
      if !s.tables.hooks.contains binding then
        let t := s.tables.failItem shelf row fun l item =>
          l.failDirectedWebhookDelivery item
            "webhook registration changed; refusing cross-registration retry" s.clock
        s.withTables (t.refuse shelf row)
      else if binding.mode = .agent then s.wait w .principal
      else s.post w fit

def removalRead (s : Room) (w : Work) (fails : Bool) (fit : Fit) : Room :=
  let s := s.without w .removal
  if isParticipantRemoved s.db fails w.name w.owner then
    s.withTables (s.tables.removeParticipantDeliveryAdapters w.name s.clock)
  else s.afterRemoval w fit

/-- The stretch behind a passed principal check. -/
def afterPrincipal (s : Room) (w : Work) (fit : Fit) (token : Uuid) : Room :=
  match w with
  | .dispatch task queued principal =>
    s.withTables (s.tables.decideOn task queued principal token s.clock)
  | _ => s.post w fit

def principalRead (s : Room) (w : Work) (fails : Bool) (fit : Fit) (token : Uuid) : Room :=
  let s := s.without w .principal
  match w.owner with
  | none => s
  | some principal =>
    if isCurrentAgentDeliveryPrincipal s.db fails w.name principal s.clock then
      s.afterPrincipal w fit token
    else s.withTables (s.tables.removeStaleDeliveryPrincipal w.name principal s.clock)

/-- One round of the loop of a tail, up to its first wait. -/
def top (s : Room) (task : DispatchTask) : Room :=
  let out := s.tables.ledger.dispatchTop task s.clock
  let s := s.withTables { s.tables with ledger := out.1 }
  match out.2 with
  | .awaiting (.removalCheck queued) =>
    match queued.principal with
    | none => s
    | some principal => s.wait (.dispatch task queued principal) .removal
  | _ => s

/-- `dispatchNextDirectedDeliveryAuthorized`. -/
def dispatch (s : Room) (targetName : String) (excludeId : Option String) : Room :=
  if s.tables.removed.contains targetName || s.tables.paused.contains targetName then s
  else s.top (s.tables.startDispatch targetName excludeId)

def batch (s : Room) (shelf : Shelf) (fails : Bool) (rows : List Stored) (v : Verdict) : Room :=
  if fails then s
  else
    { s.withTables (s.tables.reconcile v s.clock) with
      works := s.works ++ rows.map fun row => (.again shelf row, .removal) }

/-- `onClose` from its reconciliation to the dispatches. -/
def close (s : Room) (connectionId : String) (fails : Bool) (v : Verdict) : Room :=
  if fails then s
  else
    let t := s.tables.reconcile v s.clock
    match t.connections.get? connectionId with
    | none => s.withTables t
    | some c =>
      s.withTables (if c.state.authorizationRevoked then t else t.part c s.clock)

def next (s : Room) : Event → Room
  | .directory db clock => { s with db := db, clock := clock }
  | .other f => s.withTables (f s.tables)
  | .dispatch targetName excludeId => s.dispatch targetName excludeId
  | .loop task => s.top task
  | .start w => s.wait w .removal
  | .batch shelf fails rows v => s.batch shelf fails rows v
  | .close connectionId fails v => s.close connectionId fails v
  | .removalRead w fails fit => s.removalRead w fails fit
  | .principalRead w fails fit token => s.principalRead w fails fit token

def Shelf.rows (t : Tables) : Shelf → List Stored
  | .queue => t.queue
  | .letters => t.letters

/-- A loop takes up rows that are there, and goes on with the work it has in hand. -/
def Ready (s : Room) : Event → Prop
  | .start (.direct hook _) => hook ∈ s.tables.hooks ∧ hook.mode = .agent
  | .start (.notify hook _) => hook ∈ s.tables.hooks ∧ hook.mode = .notify
  | .start _ => False
  | .batch shelf _ rows _ => ∀ row ∈ rows, row ∈ Shelf.rows s.tables shelf
  | .close connectionId _ _ => (s.tables.connections.get? connectionId).isSome = true
  | .removalRead w _ _ => (w, .removal) ∈ s.works
  | .principalRead w _ _ _ => (w, .principal) ∈ s.works
  | _ => True

def Step (s : Room) (e : Event) (s' : Room) : Prop := s.Ready e ∧ s' = s.next e

end Room

end Authority
end AgentParty
