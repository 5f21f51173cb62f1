import AgentParty.Delivery.Data
import AgentParty.Lib.Run
import Mathlib.Data.Int.Order.Basic
import Mathlib.Data.List.Dedup
import Mathlib.Data.List.MinMax
import Mathlib.Data.String.Basic

/-! The pause of an agent. `presence` has a row for each session of a name, and the pause is a
pair of its columns: connections, hellos, statuses and closes insert and delete such rows while
the dispatchers read one of them. -/

namespace AgentParty
namespace Pauses

def LEGACY_SESSION_ID : String := "__legacy__"
def PRESENCE_TIMEOUT_MS : Int := 60000

/-- A row of `presence`: its key, what `materializeConnectionPresence` orders by, the pause. -/
structure Presence where
  name : String
  sessionId : String
  updatedAt : Int
  pausedAt : Option Int
  pausedResumeAt : Option Int
  deriving DecidableEq, Repr

/-- `PRIMARY KEY (name, session_id)`. -/
def Presence.key (r : Presence) : String × String := (r.name, r.sessionId)

abbrev PresenceTable := Table Presence Presence.key

namespace PresenceTable

variable (t : PresenceTable)

def ofName (name : String) : List Presence := t.rows.filter (·.name = name)

/-- `INSERT … ON CONFLICT(name, session_id) DO UPDATE SET`. -/
def upsert (row : Presence) (set : Presence → Presence) : PresenceTable :=
  t.put (match t.get? row.key with
    | some old => set old
    | none => row)

/-- `SELECT paused_at … WHERE name = ?`: the first row in the order of the primary key. -/
def isPresencePaused (name : String) : Bool :=
  ((t.ofName name).argmin (·.sessionId)).any (·.pausedAt.isSome)

/-- `ORDER BY updated_at DESC LIMIT 1`. -/
def latest (rows : List Presence) : Option Presence :=
  @List.argmax _ _ Int.instLinearOrder.toPreorder Int.instLinearOrder.toDecidableLT
    (fun r : Presence => r.updatedAt) rows

/-- A row that no column of the pause is written into. -/
def unpausedRow (name sessionId : String) (ts : Int) : Presence := ⟨name, sessionId, ts, none, none⟩

def materializeConnectionPresence (name sessionId : String) (ts : Int) : PresenceTable :=
  let previous := latest ((t.ofName name).filter (·.sessionId ≠ sessionId))
  t.upsert
    { unpausedRow name sessionId ts with
      pausedAt := previous.bind (·.pausedAt), pausedResumeAt := previous.bind (·.pausedResumeAt) }
    id

def recordClientVersion (name sessionId : String) (ts : Int) : PresenceTable :=
  t.upsert (unpausedRow name sessionId ts) id

/-- `advertiseWatchWakePresence`, `advertiseDaemonWakePresence`. -/
def advertiseWakePresence (name sessionId : String) (ts : Int) : PresenceTable :=
  t.upsert (unpausedRow name sessionId ts) fun r => { r with updatedAt := ts }

/-- The `status` branch of `handleSend`; a REST send has no session. -/
def sendStatus (name : String) (sessionId : Option String) (ts : Int) : PresenceTable :=
  t.upsert (unpausedRow name (sessionId.getD LEGACY_SESSION_ID) ts) fun r =>
    { r with updatedAt := ts }

def markOffline (name sessionId : String) (ts : Int) : PresenceTable :=
  t.upsert (unpausedRow name sessionId ts) fun r => { r with updatedAt := ts }

def deleteName (name : String) : PresenceTable := t.delete (·.name = name)

def cleanupPresenceSession (hasOtherLiveSession : Bool) (name sessionId : String) (ts : Int) :
    PresenceTable :=
  if hasOtherLiveSession then t.delete fun r => r.name = name && r.sessionId = sessionId
  else
    let t := t.delete fun r => r.name = name && r.sessionId ≠ sessionId
    PresenceTable.markOffline t name sessionId ts

def setPause (pausedAt resumeAt : Option Int) (r : Presence) : Presence :=
  { r with pausedAt := pausedAt, pausedResumeAt := resumeAt }

@[simp] theorem setPause_key (pausedAt resumeAt : Option Int) (r : Presence) :
    (setPause pausedAt resumeAt r).key = r.key := rfl

def pausePresence (name : String) (resumeAt : Option Int) (now : Int) : PresenceTable :=
  let hasRow := !(t.ofName name).isEmpty
  let t := if hasRow then t else t.insert (unpausedRow name LEGACY_SESSION_ID now)
  t.update (·.name = name) (setPause (some now) resumeAt) (setPause_key _ _)

def resumePresence (name : String) : PresenceTable :=
  t.update (·.name = name) (setPause none none) (setPause_key _ _)

def dueNames (now : Int) : List String :=
  ((t.rows.filter fun r => r.pausedResumeAt.any (· ≤ now)).map (·.name)).dedup

def resumeDuePauses (now : Int) : PresenceTable := (t.dueNames now).foldl resumePresence t

/-- The insert of the wake-block route, for a name without rows. -/
def reportWakeBlock (name : String) (clearing : Bool) (now : Int) : PresenceTable :=
  if (t.ofName name).isEmpty && !clearing then
    t.insert (unpausedRow name LEGACY_SESSION_ID now)
  else t

end PresenceTable

structure Socket where
  id : String
  name : String
  kind : SenderKind
  deriving DecidableEq

structure Pause where
  pausedAt : Int
  resumeAt : Option Int

structure Room where
  presence : PresenceTable
  /-- `getConnections()`. -/
  connections : List Socket
  /-- `removedPresenceKey` marks. -/
  removedPresence : List (String × Int)
  /-- Dispatches of a name behind their pause check. -/
  dispatching : List String
  /-- Messages and notify hooks between the pause check and the POST. -/
  notifying : List (ℕ × String)
  /-- The last pause of a name that was neither lifted nor became due. -/
  inForce : String → Option Pause

inductive Event
  | connect (socket : Socket)
  /-- The checks of `onConnect` are passed. -/
  | welcome (socket : Socket) (now : Int)
  | hello (socket : Socket) (clientVersion advertises : Bool) (now : Int)
  | status (name : String) (sessionId : Option String) (now : Int)
  | unlist (socket : Socket)
  /-- The end of `onClose`. -/
  | close (socket : Socket) (now : Int)
  /-- A stale connection's turn in `scanPresence` and in `reconcileRemovedConnections`. -/
  | stale (socket : Socket) (now : Int)
  | wakeBlock (name : String) (clearing : Bool) (now : Int)
  | pause (name : String) (resumeAt : Option Int) (now : Int)
  | resume (name : String)
  /-- `resumeDuePauses`. -/
  | alarm (now : Int)
  | removed (name : String) (removedAt : Int)
  /-- `eraseIdentityData`. -/
  | erased (name : String)
  | dispatch (name : String)
  /-- The claim of a dispatch; it goes on when the message is gone. -/
  | claim (name deliveryId : String) (goesOn : Bool)
  | dispatched (name : String)
  | notify (seq : ℕ) (name : String)
  | post (seq : ℕ) (name : String)
  | dropped (seq : ℕ) (name : String)
  /-- `retryWebhooks` and `redeliverDeadLetters` post a stored notify payload. -/
  | repost (name : String)
  /-- `reclaimDirectedWebhookDeadLetter`. -/
  | reclaim (name deliveryId : String)

/-- The name the event claims a delivery or fires a notify webhook for. -/
def Event.handsOut : Event → Option String
  | .claim name _ _ | .post _ name | .repost name | .reclaim name _ => some name
  | _ => none

namespace Room

def initial : Room := ⟨Table.empty, [], [], [], [], fun _ => none⟩

def isPresencePaused (s : Room) (name : String) : Bool :=
  PresenceTable.isPresencePaused s.presence name

def withPresence (s : Room) (t : PresenceTable) : Room := { s with presence := t }

def hasOtherLiveSession (s : Room) (socket : Socket) : Bool :=
  s.connections.any fun c => c.id ≠ socket.id && c.name = socket.name

def cleanup (s : Room) (socket : Socket) (now : Int) : Room :=
  s.withPresence (PresenceTable.cleanupPresenceSession s.presence (s.hasOtherLiveSession socket)
    socket.name socket.id now)

/-- The tombstone of a removal that a close still falls under. -/
def freshlyRemoved (s : Room) (name : String) (now : Int) : Bool :=
  (s.removedPresence.lookup name).any fun removedAt => now - removedAt < PRESENCE_TIMEOUT_MS

def lift (s : Room) (name : String) : String → Option Pause := Function.update s.inForce name none

def unmark (s : Room) (name : String) : List (String × Int) :=
  s.removedPresence.filter (·.1 ≠ name)

def welcome (s : Room) (socket : Socket) (now : Int) : Room :=
  let s := { s with removedPresence := s.unmark socket.name }
  match socket.kind with
  | .human => s.withPresence
      (PresenceTable.materializeConnectionPresence s.presence socket.name socket.id now)
  | .agent => s

def hello (s : Room) (socket : Socket) (clientVersion advertises : Bool) (now : Int) : Room :=
  let s := if clientVersion then
      s.withPresence (PresenceTable.recordClientVersion s.presence socket.name socket.id now)
    else s
  if advertises && socket.kind = .agent then
    s.withPresence (PresenceTable.advertiseWakePresence s.presence socket.name socket.id now)
  else s

def next (s : Room) : Event → Room
  | .connect socket => { s with connections := s.connections ++ [socket] }
  | .welcome socket now => s.welcome socket now
  | .hello socket clientVersion advertises now => s.hello socket clientVersion advertises now
  | .status name sessionId now =>
    s.withPresence (PresenceTable.sendStatus s.presence name sessionId now)
  | .unlist socket => { s with connections := s.connections.filter (·.id ≠ socket.id) }
  | .close socket now =>
    if s.freshlyRemoved socket.name now then
      s.withPresence (PresenceTable.deleteName s.presence socket.name)
    else s.cleanup socket now
  | .stale socket now => s.cleanup socket now
  | .wakeBlock name clearing now =>
    s.withPresence (PresenceTable.reportWakeBlock s.presence name clearing now)
  | .pause name resumeAt now =>
    { s with
      presence := PresenceTable.pausePresence s.presence name resumeAt now
      inForce := Function.update s.inForce name (some ⟨now, resumeAt⟩) }
  | .resume name =>
    { s with presence := PresenceTable.resumePresence s.presence name, inForce := s.lift name }
  | .alarm now =>
    { s with
      presence := PresenceTable.resumeDuePauses s.presence now
      inForce := fun name => (s.inForce name).filter fun p => !p.resumeAt.any (· ≤ now) }
  | .removed name removedAt =>
    { s with
      presence := PresenceTable.deleteName s.presence name
      removedPresence := (name, removedAt) :: s.unmark name
      inForce := s.lift name }
  | .erased name =>
    { s with presence := PresenceTable.deleteName s.presence name, inForce := s.lift name }
  | .dispatch name =>
    if s.isPresencePaused name then s else { s with dispatching := s.dispatching ++ [name] }
  | .claim name _ goesOn =>
    if goesOn then s else { s with dispatching := s.dispatching.erase name }
  | .dispatched name => { s with dispatching := s.dispatching.erase name }
  | .notify seq name =>
    if s.isPresencePaused name then s else { s with notifying := s.notifying ++ [(seq, name)] }
  | .post seq name | .dropped seq name => { s with notifying := s.notifying.erase (seq, name) }
  | .repost _ | .reclaim _ _ => s

/-- A claim belongs to a dispatch, a POST to a hook that is still waiting for it. -/
def Ready (s : Room) : Event → Prop
  | .claim name _ _ | .dispatched name => name ∈ s.dispatching
  | .post seq name | .dropped seq name => (seq, name) ∈ s.notifying
  | _ => True

instance (s : Room) (e : Event) : Decidable (s.Ready e) := by
  cases e <;> unfold Ready <;> infer_instance

def Step (s : Room) (e : Event) (s' : Room) : Prop := s.Ready e ∧ s' = s.next e

end Room

end Pauses
end AgentParty
