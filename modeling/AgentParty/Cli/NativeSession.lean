import AgentParty.Cli.DesktopIpc

/-! The native Codex session, `codex-native-session.ts`: inputs become turns of a ChatGPT Desktop task
through one follower client each, one input after the other. -/

namespace AgentParty
namespace DesktopIpc

open Mentions (Text)

/-- How `startDelegatedTurn` fails: with `CodexDesktopIpcUnavailableError`,
`CodexDesktopIpcUnknownOutcomeError`, `CodexDesktopIpcRequestError`, or another error. -/
inductive StartError
  | unavailable
  | unknownOutcome
  | request
  | other
  deriving DecidableEq

/-- What `request` gives back once its promise is settled. -/
def answer : Settlement → Except StartError Json
  | .resolved response =>
    if (response.get "resultType").isText "success" then .ok response else .error .request
  | .rejected .unavailable => .error .unavailable
  | .rejected .unknownOutcome => .error .unknownOutcome
  | .rejected .thrown => .error .other

/-- The id of the turn that the owner has accepted. -/
def acceptedTurn (response : Json) : Except StartError Text :=
  match ((((response.get "result").get "result").get "turn").get "id").str? with
  | some id => .ok id
  | none => .error .unknownOutcome

def Session.settlement? (s : Session) (requestId : Text) : Option Settlement :=
  (s.settled.find? fun entry => entry.1 = requestId).map Prod.snd

def handedOver (wire : List Outgoing) (start : Request) : Bool :=
  wire.any fun out =>
    match out with
    | .request _ r => r.requestId = start.requestId && r.method = start.method
    | .following _ _ _ => false

/-- A client of `submitExclusive` from its `connect` to the end of `startDelegatedTurn`. Whatever goes
wrong before, the start of the turn is not asked for; where it is, its promise is awaited. -/
structure Attempt where
  around : Around
  connectRequest : Request
  evs : List (Session.Event ⊕ Bytes)
  start : Request
  fresh : (asked connectRequest evs).Nodup
  isStart : start.method = .threadFollowerStartTurn
  awaited : start.requestId ∈ asked connectRequest evs →
    start.requestId ∈ (run around connectRequest evs).state.settled.map Prod.fst

namespace Attempt

def client (attempt : Attempt) : Session :=
  (run attempt.around attempt.connectRequest attempt.evs).state

/-- The result of `startDelegatedTurn`. -/
def outcome (attempt : Attempt) : Except StartError Text :=
  match attempt.client.settlement? attempt.start.requestId with
  -- an earlier step has thrown, and the start was not asked for
  | none => .error .other
  | some settlement => answer settlement >>= acceptedTurn

/-- The frame that starts the turn was handed to the stream. -/
def handed (attempt : Attempt) : Bool := handedOver attempt.client.wire attempt.start

/-- The owner has answered that it does not start the turn. -/
def Refused (attempt : Attempt) : Prop :=
  ∃ response, (attempt.start.requestId, Settlement.resolved response) ∈ attempt.client.settled ∧
    (response.get "requestId").str? = some attempt.start.requestId ∧
    (response.get "resultType").isText "success" = false

end Attempt

/-- `CodexNativeSessionController`, with the attempts it has made, oldest first. -/
structure Controller where
  turnsByClientId : Text → Option Text
  uncertainClientIds : List Text
  closed : Bool
  attempts : List (Text × Attempt)

namespace Controller

def new : Controller := ⟨fun _ => none, [], false, []⟩

def setTurn (s : Controller) (clientId turnId : Text) : Controller :=
  { s with turnsByClientId := fun id => if id = clientId then some turnId else s.turnsByClientId id }

/-- `submitExclusive`; the attempt is the one it makes if it makes one. -/
def submitExclusive (s : Controller) (clientId : Text) (attempt : Attempt) : Controller :=
  if s.closed then s
  else if (s.turnsByClientId clientId).isSome then s
  else if clientId ∈ s.uncertainClientIds then s
  else
    let s := { s with attempts := s.attempts ++ [(clientId, attempt)] }
    match attempt.outcome with
    | .ok turnId => s.setTurn clientId turnId
    | .error .unknownOutcome => { s with uncertainClientIds := clientId :: s.uncertainClientIds }
    | .error _ => s

/-- `followCompletion` where it finds the turn of an uncertain input. -/
def followed (s : Controller) (clientId turnId : Text) : Controller :=
  ({ s with uncertainClientIds := s.uncertainClientIds.filter fun id => id ≠ clientId }
    : Controller).setTurn clientId turnId

def complete (s : Controller) (clientId turnId : Text) : Controller :=
  if s.closed then s else s.setTurn clientId turnId

def close (s : Controller) : Controller := { s with closed := true, uncertainClientIds := [] }

inductive Event
  | submit (clientId : Text) (attempt : Attempt)
  | followed (clientId turnId : Text)
  | complete (clientId turnId : Text)
  | close

def next (s : Controller) : Event → Controller
  | .submit clientId attempt => s.submitExclusive clientId attempt
  | .followed clientId turnId => s.followed clientId turnId
  | .complete clientId turnId => s.complete clientId turnId
  | .close => s.close

end Controller

end DesktopIpc
end AgentParty
