import AgentParty.Lib.Framing
import AgentParty.Shared.Json
import Mathlib.Algebra.GroupWithZero.Nat

/-! The follower client of ChatGPT Desktop, `codex-desktop-ipc.ts`: frames with a length prefix,
requests that wait for a response, and the conversation states that the App broadcasts as snapshots
and patches. -/

namespace AgentParty
namespace DesktopIpc

open Mentions (Text)

def MAX_IPC_FRAME_BYTES : ℕ := 64 * 1024 * 1024

def INITIALIZING_CLIENT_ID : String := "initializing-client"

section Frames

abbrev Bytes := List UInt8

/-- `writeUInt32LE`. -/
def writeUInt32LE (n : ℕ) : Bytes :=
  [UInt8.ofNat n, UInt8.ofNat (n / 2 ^ 8), UInt8.ofNat (n / 2 ^ 16), UInt8.ofNat (n / 2 ^ 24)]

/-- `readUInt32LE`. -/
def readUInt32LE (b₀ b₁ b₂ b₃ : UInt8) : ℕ :=
  b₀.toNat + 2 ^ 8 * b₁.toNat + 2 ^ 16 * b₂.toNat + 2 ^ 24 * b₃.toNat

def frame (payload : Bytes) : Bytes := writeUInt32LE payload.length ++ payload

def encodeFrame (payload : Bytes) : Option Bytes :=
  if payload.length = 0 ∨ MAX_IPC_FRAME_BYTES < payload.length then none
  else some (frame payload)

/-- What `handleData` finds at the front of `incoming`. -/
def scan : Bytes → Framing.Scan UInt8 Bytes
  | b₀ :: b₁ :: b₂ :: b₃ :: rest =>
    let length := readUInt32LE b₀ b₁ b₂ b₃
    if length = 0 ∨ MAX_IPC_FRAME_BYTES < length then .bad
    else if rest.length < length then .more
    else .frame (rest.take length) (rest.drop length)
  | _ => .more

theorem scan_shorter (buf payload rest : Bytes) (h : scan buf = .frame payload rest) :
    rest.length < buf.length := by
  match buf, h with
  | b₀ :: b₁ :: b₂ :: b₃ :: tail, h =>
    simp only [scan] at h
    split at h
    · simp at h
    · split at h
      · simp at h
      · obtain ⟨-, rfl⟩ := Framing.Scan.frame.inj h
        simp only [List.length_drop, List.length_cons]
        omega

theorem scan_stable (buf tail : Bytes) (h : scan buf ≠ .more) :
    scan (buf ++ tail) = (scan buf).behind tail := by
  match buf, h with
  | b₀ :: b₁ :: b₂ :: b₃ :: rest, h =>
    simp only [scan, List.cons_append] at h ⊢
    split
    · rfl
    · rename_i hlength
      rw [if_neg hlength] at h
      by_cases hmore : rest.length < readUInt32LE b₀ b₁ b₂ b₃
      · exact absurd (if_pos hmore) h
      · have hall : ¬ (rest ++ tail).length < readUInt32LE b₀ b₁ b₂ b₃ := by
          rw [List.length_append]
          omega
        rw [if_neg hmore, if_neg hall, Framing.Scan.behind,
          List.take_append_of_le_length (by omega), List.drop_append_of_le_length (by omega)]

def frames : Framing.Splitter UInt8 Bytes where
  scan := scan
  empty := rfl
  shorter := scan_shorter
  stable := scan_stable

end Frames

section Patches

/-- A segment of a patch path. -/
inductive Segment
  | key (name : Text)
  | index (n : ℕ)

def FORBIDDEN_PATCH_SEGMENTS : List Text :=
  [lit "__proto__", lit "constructor", lit "prototype"]

def MAX_SAFE_INTEGER : ℕ := 2 ^ 53 - 1

def readSegment : Json → Option Segment
  | .str name => if name ∈ FORBIDDEN_PATCH_SEGMENTS then none else some (.key name)
  | .num value =>
    if value.den = 1 ∧ 0 ≤ value.num ∧ value.num ≤ MAX_SAFE_INTEGER then
      some (.index value.num.toNat)
    else none
  | _ => none

/-- `String(segment)`. -/
def Segment.name : Segment → Text
  | .key name => name
  | .index n => lit (toString n)

/-- The element an array has under a segment. -/
def Segment.position? (items : List Json) (segment : Segment) : Option ℕ :=
  (List.range items.length).find? fun n => segment.name = (Segment.index n).name

/-- `target[segment]` of an object or an array. -/
def child (target : Json) (segment : Segment) : Json :=
  match target with
  | .obj fields => (Json.getField segment.name fields).getD .undefined
  | .arr items => ((segment.position? items).bind fun n => items[n]?).getD .undefined
  | _ => .undefined

/-- The target after its child was changed in place. -/
def setChild (target : Json) (segment : Segment) (value : Json) : Json :=
  match target with
  | .obj fields => .obj (Json.setField segment.name value fields)
  | .arr items =>
    match segment.position? items with
    | some n => .arr (items.set n value)
    | none => target
  | _ => target

inductive Op
  | add
  | remove
  | replace

def readOp (raw : Json) : Option Op :=
  if raw.isText "add" then some .add
  else if raw.isText "remove" then some .remove
  else if raw.isText "replace" then some .replace
  else none

/-- The operation on the container that the path leads to. -/
def applyOp (op : Option Op) (value : Json) (key : Segment) (target : Json) : Option Json :=
  match target, key with
  | .arr items, .index n =>
    match op with
    | some .add => some (.arr (items.take n ++ value :: items.drop n))
    | some .remove => some (.arr (items.eraseIdx n))
    | some .replace =>
      some (.arr (items.take n ++ List.replicate (n - items.length) .undefined ++
        value :: items.drop (n + 1)))
    | none => none
  | .obj fields, key =>
    match op with
    | some .remove => some (.obj (fields.filter fun field => field.1 ≠ key.name))
    | some _ => some (.obj (Json.setField key.name value fields))
    | none => none
  | _, _ => none

/-- Down the path to the container of its last segment. -/
def applyAt (op : Option Op) (value : Json) : List Segment → Json → Option Json
  | [], _ => none
  | [key], target => applyOp op value key target
  | segment :: path, target =>
    match target with
    | .obj _ | .arr _ =>
      (applyAt op value path (child target segment)).map (setChild target segment)
    | _ => none

/-- `applyPatch`, which throws where this is `none` and then has changed nothing. -/
def applyPatch (root raw : Json) : Option Json :=
  match (raw.get "op").str?, (raw.get "path").arr? with
  | some _, some segments => do
    let path ← segments.mapM readSegment
    applyAt (readOp (raw.get "op")) (raw.get "value") path root
  | _, _ => none

/-- The patches in order, in place: the state they leave, and whether none threw. -/
def applyPatches (state : Json) : List Json → Json × Bool
  | [] => (state, true)
  | patch :: patches =>
    match applyPatch state patch with
    | some state' => applyPatches state' patches
    | none => (state, false)

end Patches

section Requests

inductive Method
  | initializeClient
  | threadOwnerDiscovery
  | threadFollowerStartTurn
  deriving DecidableEq

def Method.name : Method → String
  | .initializeClient => "initialize"
  | .threadOwnerDiscovery => "thread-owner-discovery"
  | .threadFollowerStartTurn => "thread-follower-start-turn"

def Method.version : Method → ℚ
  | .initializeClient => 0
  | .threadOwnerDiscovery => 1
  | .threadFollowerStartTurn => 2

/-- A call of `request`, under the id it draws. -/
structure Request where
  requestId : Text
  method : Method
  params : Json
  targetClientId : Option Text
  timeoutMs : ℚ

/-- The error a request is rejected with: `CodexDesktopIpcUnavailableError`,
`CodexDesktopIpcUnknownOutcomeError`, or what the stream threw. -/
inductive Failure
  | unavailable
  | unknownOutcome
  | thrown
  deriving DecidableEq

inductive Settlement
  | resolved (response : Json)
  | rejected (error : Failure)

structure PendingRequest where
  requestId : Text
  method : Method
  written : Bool

structure ConversationState where
  revision : ℚ
  state : Json

/-- What `socket.write` does: it takes the frame, throws, or closes the client before it returns. -/
inductive Write
  | taken
  | throws
  | closes
  deriving DecidableEq

/-- A message of the client. -/
inductive Outgoing
  | request (clientId : Text) (r : Request)
  | following (clientId threadId hostId : Text)

def Outgoing.message : Outgoing → Json
  | .request clientId r =>
    .obj ([(lit "type", .str (lit "request")), (lit "requestId", .str r.requestId),
      (lit "sourceClientId", .str clientId), (lit "version", .num r.method.version),
      (lit "method", .str (lit r.method.name)), (lit "params", r.params)] ++
      (r.targetClientId.map fun id => (lit "targetClientId", .str id)).toList ++
      [(lit "timeoutMs", .num r.timeoutMs)])
  | .following clientId threadId hostId =>
    .obj [(lit "type", .str (lit "broadcast")),
      (lit "method", .str (lit "thread-stream-following-changed")),
      (lit "sourceClientId", .str clientId), (lit "version", .num 1),
      (lit "params", .obj [(lit "conversationId", .str threadId), (lit "hostId", .str hostId),
        (lit "following", .bool true)])]

/-- The client: `settled` is what the promises of the requests were told, oldest first, and `wire`
the messages whose frames were handed to the stream. -/
structure Session where
  connected : Bool
  clientId : Text
  pending : List PendingRequest
  states : Text → Option ConversationState
  closed : Bool
  settled : List (Text × Settlement)
  wire : List Outgoing
  closed_idle : closed = true → pending = []

def Session.new : Session where
  connected := false
  clientId := lit INITIALIZING_CLIENT_ID
  pending := []
  states := fun _ => none
  closed := false
  settled := []
  wire := []
  closed_idle := fun _ => rfl

/-- The code around the client: how messages are written and read, and what becomes of a write. -/
structure Around where
  stringify : Json → Bytes
  parse : Bytes → Option Json
  write : ℕ → Write

namespace Session

/-- A promise keeps the first thing it is told. -/
def settle (s : Session) (requestId : Text) (settlement : Settlement) : Session :=
  if requestId ∈ s.settled.map Prod.fst then s
  else { s with settled := s.settled ++ [(requestId, settlement)] }

/-- `pending.delete`. -/
def forget (s : Session) (requestId : Text) : Session where
  __ := s
  pending := s.pending.filter fun p => p.requestId ≠ requestId
  closed_idle h := by rw [s.closed_idle h]; rfl

/-- The error of a pending request: whether its frame may have reached the router decides. -/
def closeFailure (p : PendingRequest) : Failure :=
  if p.method = .threadFollowerStartTurn ∧ p.written then .unknownOutcome else .unavailable

def shut (s : Session) : Session where
  __ := s
  pending := []
  closed := true
  closed_idle _ := rfl

def handleClose (s : Session) : Session :=
  s.pending.foldl (fun s p => s.settle p.requestId (.rejected (closeFailure p))) s.shut

def disconnect (s : Session) : Session := { s with connected := false }

def close (s : Session) : Session := if s.closed then s else s.disconnect.handleClose

/-- A stream that fails inside `write` calls `handleClose` before it returns. -/
def afterWrite (s : Session) : Write → Session
  | .closes => s.handleClose
  | _ => s

/-- `encodeFrame` and `socket.write`; `none` where the message makes no frame. -/
def hand (a : Around) (s : Session) (out : Outgoing) : Option (Session × Write) :=
  (encodeFrame (a.stringify out.message)).map fun _ =>
    let result := a.write s.wire.length
    (({ s with wire := s.wire ++ [out] } : Session).afterWrite result, result)

/-- The request waits, marked as written. -/
def await (s : Session) (r : Request) (hopen : s.closed ≠ true) : Session where
  __ := s
  pending := s.pending ++ [⟨r.requestId, r.method, true⟩]
  closed_idle h := absurd h hopen

def request (a : Around) (s : Session) (r : Request) : Session :=
  if h : s.connected = true ∧ s.closed ≠ true then
    match (s.await r h.2).hand a (.request s.clientId r) with
    | none => s.settle r.requestId (.rejected .unavailable)
    | some (s', .throws) =>
      (s'.forget r.requestId).settle r.requestId
        (.rejected (if r.method = .threadFollowerStartTurn then .unknownOutcome else .thrown))
    | some (s', _) => s'
  else s.settle r.requestId (.rejected .unavailable)

/-- The timer of a request, which is cleared when the request is settled. -/
def timeout (s : Session) (requestId : Text) : Session :=
  match s.pending.find? fun p => p.requestId = requestId with
  | none => s
  | some p =>
    (s.forget requestId).settle requestId
      (.rejected (if p.method = .threadFollowerStartTurn then .unknownOutcome else .unavailable))

/-- `broadcast` of `thread-stream-following-changed`; nothing looks at what it throws. -/
def follow (a : Around) (s : Session) (threadId hostId : Text) : Session :=
  if s.connected = true ∧ s.closed ≠ true then
    ((s.hand a (.following s.clientId threadId hostId)).map Prod.fst).getD s
  else s

def setState (s : Session) (threadId : Text) (state : ConversationState) : Session :=
  { s with states := fun id => if id = threadId then some state else s.states id }

/-- The patches of a change: those that do not fit the revision at hand, or throw, make the client
ask for a snapshot, and the ones before the throw have changed the state. -/
def patched (a : Around) (s : Session) (threadId : Text) (baseRevision revision : ℚ)
    (patches : List Json) : Session :=
  match s.states threadId with
  | none => s.follow a threadId (lit "local")
  | some current =>
    if current.revision ≠ baseRevision then s.follow a threadId (lit "local")
    else
      match applyPatches current.state patches with
      | (state, true) => s.setState threadId ⟨revision, state⟩
      | (state, false) =>
        (s.setState threadId ⟨current.revision, state⟩).follow a threadId (lit "local")

def stateChanged (a : Around) (s : Session) (threadId : Text) (change : Json) : Session :=
  let type := change.get "type"
  let state := change.get "conversationState"
  match (change.get "revision").num? with
  | none => s
  | some revision =>
    if type.isText "snapshot" ∧ state.isObject then s.setState threadId ⟨revision, state⟩
    else if type.isText "patches" then
      match (change.get "baseRevision").num?, (change.get "patches").arr? with
      | some baseRevision, some patches => s.patched a threadId baseRevision revision patches
      | _, _ => s
    else s

def response (s : Session) (requestId : Text) (value : Json) : Session :=
  if requestId ∈ s.pending.map PendingRequest.requestId then
    (s.forget requestId).settle requestId (.resolved value)
  else s

def handleMessage (a : Around) (s : Session) (value : Json) : Session :=
  let type := value.get "type"
  let change := (value.get "params").get "change"
  match type.isText "response", (value.get "requestId").str? with
  | true, some requestId => s.response requestId value
  | _, _ =>
    match ((value.get "params").get "conversationId").str? with
    | none => s
    | some threadId =>
      if type.isText "broadcast" ∧ (value.get "method").isText "thread-stream-state-changed" ∧
          change.isObject then s.stateChanged a threadId change
      else s

/-- One turn of the loop of `handleData` over a frame. -/
def handleFrame (a : Around) (s : Session) (payload : Bytes) : Session × Bool :=
  match a.parse payload with
  | some message => (s.handleMessage a message, true)
  | none => (s.handleClose.disconnect, false)

/-- A new client after `connect`, up to its request of `initialize`. -/
def connect (a : Around) (r : Request) : Session :=
  ({ Session.new with connected := true } : Session).request a r

/-- `connect` where the response to its request goes on. -/
def initialized (s : Session) (requestId : Text) : Session :=
  match s.settled.find? fun entry => entry.1 = requestId with
  | some (_, .resolved response) =>
    match (response.get "resultType").isText "success",
        ((response.get "result").get "clientId").str? with
    | true, some id => { s with clientId := id }
    | _, _ => s
  | _ => s

/-- What happens around a client besides the data that arrives. -/
inductive Event
  | initialized (requestId : Text)
  | request (r : Request)
  | timeout (requestId : Text)
  | follow (threadId hostId : Text)
  | streamClosed
  | close

/-- The ids that an event draws. -/
def Event.asks : Event → List Text
  | .request r => [r.requestId]
  | _ => []

def next (a : Around) (s : Session) : Event → Session
  | .initialized requestId => s.initialized requestId
  | .request r => s.request a r
  | .timeout requestId => s.timeout requestId
  | .follow threadId hostId => s.follow a threadId hostId
  | .streamClosed => s.handleClose
  | .close => s.close

end Session

end Requests

section Data

/-- The loop of `handleData` leaves where `JSON.parse` throws or a length is invalid; a closed client
takes no data. What it still shows is all but its states and its stream. -/
def consumer (a : Around) : Framing.Consumer Bytes Session Session where
  step := Session.handleFrame a
  bad s := s.handleClose.disconnect
  stopped s := s.closed
  obs s := { s with connected := false, states := fun _ => none }

/-- The client with its `incoming` bytes. -/
abbrev Client := Framing.Reader UInt8 Session

/-- A client from its `connect` on. -/
def run (a : Around) (r : Request) (evs : List (Session.Event ⊕ Bytes)) : Client :=
  evs.foldl (Framing.chunkStep frames (consumer a) (Session.next a)) ⟨Session.connect a r, []⟩

/-- The ids that a client has drawn, the latest first. -/
def asked (r : Request) (evs : List (Session.Event ⊕ Bytes)) : List Text :=
  ((evs.filterMap Sum.getLeft?).reverse.flatMap Session.Event.asks) ++ [r.requestId]

end Data

section Delegation

def AMPERSAND : ℕ := 38
def LESS : ℕ := 60
def GREATER : ℕ := 62

/-- `replaceAll` of one code unit. -/
def replaceAll (unit : ℕ) (by_ : String) (text : Text) : Text :=
  text.flatMap fun u => if u = unit then lit by_ else [u]

def escapeXml (value : Text) : Text :=
  replaceAll GREATER "&gt;" (replaceAll LESS "&lt;" (replaceAll AMPERSAND "&amp;" value))

def codexDelegationEnvelope (sourceThreadId prompt : Text) : Text :=
  [Mentions.NEWLINE].intercalate
    [lit "<codex_delegation>",
      lit "  <source_thread_id>" ++ escapeXml sourceThreadId ++ lit "</source_thread_id>",
      lit "  <input>" ++ escapeXml prompt ++ lit "</input>",
      lit "</codex_delegation>"]

structure CodexDesktopTurn where
  turnId : Text
  status : Text
  items : List Json
  params : Json

/-- `Object.values`. -/
def values : Json → List Json
  | .obj fields => fields.map Prod.snd
  | _ => []

def readTurn (value : Json) : Option CodexDesktopTurn :=
  match (value.get "turnId").str?, (value.get "status").str? with
  | some turnId, some status =>
    if (value.get "params").isObject then
      some ⟨turnId, status, ((value.get "items").arr?.getD []).filter Json.isObject,
        value.get "params"⟩
    else none
  | _, _ => none

def canonicalTurns (state : Json) : List CodexDesktopTurn :=
  let turnHistory := state.get "turnHistory"
  if (turnHistory.get "kind").isText "canonical" then
    (values ((turnHistory.get "history").get "entitiesByKey")).filterMap readTurn
  else []

/-- The arguments of `findDelegation`. -/
structure Delegation where
  targetThreadId : Text
  sourceThreadId : Text
  prompt : Text
  clientUserMessageId : Text
  turnId : Option Text

def Delegation.matches (input : Delegation) (turn : CodexDesktopTurn) : Bool :=
  let toolOutput := turn.params.get "toolOutput"
  (input.turnId.all fun id => turn.turnId = id) &&
    (turn.params.get "clientUserMessageId").str? = some input.clientUserMessageId &&
    toolOutput.isObject && (toolOutput.get "name").isText "send_message_to_thread" &&
    (toolOutput.get "namespace").isText "codex_app" &&
    (toolOutput.get "output").str? =
      some (codexDelegationEnvelope input.sourceThreadId input.prompt)

def Session.findDelegation (s : Session) (input : Delegation) : Option CodexDesktopTurn :=
  match s.states input.targetThreadId with
  | none => none
  | some current => (canonicalTurns current.state).find? input.matches

end Delegation

end DesktopIpc
end AgentParty
