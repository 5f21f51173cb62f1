import AgentParty.Delivery.Data

/-! `channelReducer`, `state.ts`: the frames of a channel become the state of its page. The
state here has the messages, the deliveries, the live sessions and the rosters of local
sessions, with what decides on them. -/

namespace AgentParty
namespace Web

/-- `content` is what else the frame shows; `completionReview` is its JSON text. -/
structure MsgFrame where
  seq : ℕ
  content : String
  edited : Bool
  retracted : Bool
  editedAt : Option Int
  retractedAt : Option Int
  supersedes : Option ℕ
  supersededBy : Option ℕ
  completionReview : Option String
  revSeq : Option ℕ
  deriving DecidableEq

/-- The explicit allow-list of `toPublicDirectedDelivery`. -/
structure PublicDirectedDelivery where
  id : String
  messageSeq : ℕ
  targetName : String
  state : DeliveryState
  replySeq : Option ℕ
  createdAt : Int
  updatedAt : Int
  deriving DecidableEq

inductive SessionOutputKind
  | text
  | tool
  | stdout
  | stderr
  | system
  deriving DecidableEq, Repr

structure SessionOutputLine where
  kind : SessionOutputKind
  text : String
  ts : Int
  deriving DecidableEq, Repr

inductive SessionOutputState
  | running
  | done
  | blocked
  | failed
  | disconnected
  deriving DecidableEq, Repr

structure SessionOutputFrame where
  name : String
  sessionId : String
  taskSeq : Option ℕ
  state : SessionOutputState
  lines : List SessionOutputLine
  ts : Int
  replay : Bool
  deriving DecidableEq

structure LiveSession where
  name : String
  sessionId : String
  taskSeq : Option ℕ
  state : SessionOutputState
  lines : List SessionOutputLine
  updatedAt : Int
  deriving DecidableEq

def LIVE_SESSION_CLIENT_MAX_LINES : ℕ := 1000

def OCS_HARNESSES : List String := ["claude", "codex", "pi"]
def OCS_HOST_KINDS : List String := ["terminal", "desktop", "process", "unknown"]

/-- As it comes over the socket, which is not checked there. -/
structure OcsSessionView where
  addr : String
  harness : String
  sameProject : Bool
  hostKind : String
  self : Bool
  partyName : Option String
  cwd : Option String
  label : Option String
  status : Option String
  deriving DecidableEq

structure OcsRosterFrame where
  name : String
  sessions : List OcsSessionView
  ts : Int
  expiresAt : Int
  full : Bool
  deriving DecidableEq

def isSessionView (value : OcsSessionView) : Bool :=
  0 < value.addr.length && OCS_HARNESSES.contains value.harness &&
    OCS_HOST_KINDS.contains value.hostKind

def isOcsRosterFrame (value : OcsRosterFrame) : Bool :=
  0 < value.name.length && value.sessions.all isSessionView

abbrev DirectedDeliveries := Table PublicDirectedDelivery (·.id)

abbrev LiveSessions := Table LiveSession (·.name)

abbrev OcsRosters := Table OcsRosterFrame (·.name)

structure RemovedParticipant where
  name : String
  removedAt : Int
  deriving DecidableEq

abbrev RemovedParticipants := Table RemovedParticipant (·.name)

/-- Of `participants` and `presence` only the names are kept. -/
structure ChannelState where
  participants : List String
  presence : List String
  removedParticipants : RemovedParticipants
  messages : List MsgFrame
  directedDeliveries : DirectedDeliveries
  liveSessions : LiveSessions
  ocsRosters : OcsRosters

def initialChannelState : ChannelState :=
  ⟨[], [], Table.empty, [], Table.empty, Table.empty, Table.empty⟩

inductive ServerFrame
  | welcome (participants presence : List String)
  | participants (participants : List String)
  | participantRemoved (name : String) (removedAt : Int)
  | presence (name : String)
  /-- A `msg` or a `status` frame. -/
  | msg (frame : MsgFrame)
  | messageUpdate (message : MsgFrame)
  | delivery (delivery : PublicDirectedDelivery) (message : MsgFrame)
  | deliveryState (delivery : PublicDirectedDelivery)
  | ocsRoster (frame : OcsRosterFrame)
  | sessionOutput (frame : SessionOutputFrame)
  /-- These change other parts of the page. -/
  | readCursor | sent | error | pong
  deriving DecidableEq

inductive ChannelAction
  | frame (frame : ServerFrame)
  | participantRestored (name : String)
  | trim (keep : ℕ)
  /-- These change other parts of the page. -/
  | status | fatal | guardReset | sendFailed
  deriving DecidableEq

def isRevisionSnapshot (msg : MsgFrame) : Bool :=
  msg.edited || msg.retracted || msg.editedAt.isSome || msg.retractedAt.isSome ||
    msg.supersedes.isSome || msg.supersededBy.isSome || msg.completionReview.isSome

/-- The loop of `insertMessage`: it looks for the place from the end, `i` messages are left. -/
def insertBelow (messages : List MsgFrame) (msg : MsgFrame) : ℕ → List MsgFrame
  | 0 => msg :: messages
  | i + 1 =>
    match messages[i]? with
    | none => messages
    | some prev =>
      if prev.seq = msg.seq then
        if isRevisionSnapshot msg || isRevisionSnapshot prev then messages.set i msg else messages
      else if prev.seq < msg.seq then messages.insertIdx (i + 1) msg
      else insertBelow messages msg i

def insertMessage (messages : List MsgFrame) (msg : MsgFrame) : List MsgFrame :=
  insertBelow messages msg messages.length

def replaceMessage (messages : List MsgFrame) (msg : MsgFrame) : List MsgFrame :=
  if messages.any fun prev => prev.seq = msg.seq then
    messages.map fun prev => if prev.seq = msg.seq then msg else prev
  else insertMessage messages msg

/-- `none` if nothing is new. -/
def upsertDirectedDelivery (deliveries : DirectedDeliveries) (delivery : PublicDirectedDelivery) :
    Option DirectedDeliveries :=
  match deliveries.get? delivery.id with
  | some previous =>
    if delivery.updatedAt < previous.updatedAt || previous = delivery then none
    else some (deliveries.put delivery)
  | none => some (deliveries.put delivery)

def retainDeliveriesForMessages (deliveries : DirectedDeliveries) (messages : List MsgFrame) :
    DirectedDeliveries :=
  deliveries.delete fun delivery => !messages.any fun message => message.seq = delivery.messageSeq

/-- `messages.slice(-keep)`; the index `-0` is `0`. -/
def lastMessages (messages : List MsgFrame) (keep : ℕ) : List MsgFrame :=
  if keep = 0 then messages else messages.drop (messages.length - keep)

/-- The lines that a session frame leaves of a session; `none` if it changes nothing. -/
def sessionLines (prev : Option LiveSession) (frame : SessionOutputFrame) :
    Option (List SessionOutputLine) :=
  match prev with
  | none => some frame.lines
  | some prev =>
    if frame.replay then
      if prev.sessionId = frame.sessionId && decide (frame.ts < prev.updatedAt) then none
      else some frame.lines
    else if prev.sessionId ≠ frame.sessionId then some frame.lines
    else some (prev.lines ++ frame.lines)

/-- `lines.slice(-LIVE_SESSION_CLIENT_MAX_LINES)` where there are more. -/
def cappedLines (lines : List SessionOutputLine) : List SessionOutputLine :=
  lines.drop (lines.length - LIVE_SESSION_CLIENT_MAX_LINES)

def liveSession (frame : SessionOutputFrame) (lines : List SessionOutputLine) : LiveSession where
  name := frame.name
  sessionId := frame.sessionId
  taskSeq := frame.taskSeq
  state := frame.state
  lines := lines
  updatedAt := frame.ts

def applySessionOutput (state : ChannelState) (frame : SessionOutputFrame) : ChannelState :=
  if (state.removedParticipants.get? frame.name).isSome then state
  else
    match sessionLines (state.liveSessions.get? frame.name) frame with
    | none => state
    | some lines =>
      { state with liveSessions := state.liveSessions.put (liveSession frame (cappedLines lines)) }

/-- No sessions: the roster of the name is cleared. -/
def applyOcsRoster (state : ChannelState) (frame : OcsRosterFrame) : ChannelState :=
  if !isOcsRosterFrame frame then state
  else if frame.sessions.length = 0 || (state.removedParticipants.get? frame.name).isSome then
    if (state.ocsRosters.get? frame.name).isNone then state
    else { state with ocsRosters := state.ocsRosters.delete fun roster => roster.name = frame.name }
  else { state with ocsRosters := state.ocsRosters.put frame }

/-- The message of a delivery frame is not a revision: it fills a gap inside the window. -/
def withDeliveryMessage (messages : List MsgFrame) (message : MsgFrame) : List MsgFrame :=
  if messages.any fun m => m.seq = message.seq then messages
  else if messages.head?.any fun floor => message.seq < floor.seq then messages
  else insertMessage messages message

def participantRemoved (state : ChannelState) (name : String) (removedAt : Int) : ChannelState :=
  let previous := state.removedParticipants.get? name
  let removedAt := max ((previous.map (·.removedAt)).getD 0) removedAt
  let participants := state.participants.filter fun participant => participant ≠ name
  let tombstoneChanged := previous.map (·.removedAt) ≠ some removedAt
  if participants.length = state.participants.length && !state.presence.contains name &&
      !tombstoneChanged then state
  else
    { state with
      participants := participants
      presence := state.presence.filter fun entry => entry ≠ name
      liveSessions := state.liveSessions.delete fun session => session.name = name
      ocsRosters := state.ocsRosters.delete fun roster => roster.name = name
      removedParticipants := state.removedParticipants.put ⟨name, removedAt⟩ }

def welcomed (state : ChannelState) (participants presence : List String) : ChannelState :=
  let removedParticipants := state.removedParticipants.delete fun removed =>
    participants.contains removed.name
  let removed (name : String) : Bool := (removedParticipants.get? name).isSome
  { state with
    liveSessions := state.liveSessions.delete fun session =>
      !(participants ++ presence).contains session.name || removed session.name
    ocsRosters := Table.empty
    participants := participants.filter fun name => !removed name
    presence := presence.filter fun name => !removed name
    removedParticipants := removedParticipants }

def applyFrame (state : ChannelState) : ServerFrame → ChannelState
  | .welcome participants presence => welcomed state participants presence
  | .participants participants =>
    { state with
      participants := participants
      removedParticipants := state.removedParticipants.delete fun removed =>
        participants.contains removed.name }
  | .participantRemoved name removedAt => participantRemoved state name removedAt
  | .presence name =>
    if (state.removedParticipants.get? name).isSome then state
    else { state with presence := name :: state.presence.filter fun entry => entry ≠ name }
  | .msg frame => { state with messages := insertMessage state.messages frame }
  | .messageUpdate message => { state with messages := replaceMessage state.messages message }
  | .delivery delivery message =>
    { state with
      directedDeliveries :=
        (upsertDirectedDelivery state.directedDeliveries delivery).getD state.directedDeliveries
      messages := withDeliveryMessage state.messages message }
  | .deliveryState delivery =>
    { state with
      directedDeliveries :=
        (upsertDirectedDelivery state.directedDeliveries delivery).getD state.directedDeliveries }
  | .ocsRoster frame => applyOcsRoster state frame
  | .sessionOutput frame => applySessionOutput state frame
  | .readCursor | .sent | .error | .pong => state

def channelReducer (state : ChannelState) : ChannelAction → ChannelState
  | .frame frame => applyFrame state frame
  | .participantRestored name =>
    { state with
      removedParticipants := state.removedParticipants.delete fun removed => removed.name = name }
  | .trim keep =>
    let messages := if state.messages.length ≤ keep then state.messages
      else lastMessages state.messages keep
    { state with
      messages := messages
      directedDeliveries := retainDeliveriesForMessages state.directedDeliveries messages }
  | .status | .fatal | .guardReset | .sendFailed => state

end Web
end AgentParty
