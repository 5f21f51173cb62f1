import AgentParty.Lib.Table
import Mathlib.Logic.Function.Basic

/-! The data of `CodexTurnArbiter`, the single writer of a Codex app-server thread:
phases, the shell lifecycle, the inputs and their journal, and what a resumed thread
shows. -/

namespace AgentParty
namespace Codex

/-- The turn kinds an error or a history can name as not steerable. -/
inductive Special
  | review
  | compact
  deriving DecidableEq, Repr

/-- `CodexUnsteerableState`. -/
inductive Unsteerable
  | review
  | compact
  | shell
  | unknown
  deriving DecidableEq, Repr

def Special.toUnsteerable : Special → Unsteerable
  | .review => .review
  | .compact => .compact

/-- `CodexArbiterPhase`. -/
inductive Phase
  | idle
  | normal (turnId : String)
  | unsteerable (state : Unsteerable) (turnId : Option String)
  deriving DecidableEq, Repr

namespace Phase

/-- `phase.type === "idle" ? null : phase.turnId`. -/
def turnId : Phase → Option String
  | idle => none
  | normal turnId => some turnId
  | unsteerable _ turnId => turnId

def unknown : Phase := .unsteerable .unknown none

def special (kind : Special) (turnId : Option String) : Phase :=
  .unsteerable kind.toUnsteerable turnId

def isShell : Phase → Bool
  | .unsteerable .shell _ => true
  | _ => false

end Phase

/-- `CodexShellBasePhase`. -/
inductive ShellBasePhase
  | idle
  | normal (turnId : String)
  | special (kind : Special) (turnId : Option String)
  deriving DecidableEq, Repr

def ShellBasePhase.turnId : ShellBasePhase → Option String
  | idle => none
  | normal turnId => some turnId
  | special _ turnId => turnId

inductive RequestOutcome
  | pending
  | accepted
  | uncertain
  deriving DecidableEq, Repr

/-- `CodexShellLifecycle`. -/
structure ShellLifecycle where
  basePhase : ShellBasePhase
  baseTurnId : Option String
  baseCompleted : Bool
  baselineItemId : Option String
  requestOutcome : RequestOutcome
  standaloneTurnId : Option String
  standaloneCompleted : Bool
  itemId : Option String
  itemTurnId : Option String
  itemCompleted : Bool
  itemAborted : Bool
  deriving DecidableEq, Repr

/-- `CodexBridgeInput`. Its callbacks are answered by `WriteAnswers`. -/
structure BridgeInput where
  text : String
  clientUserMessageId : String
  metadata : Option (List (String × String))
  deriving DecidableEq, Repr

/-- What `String.prototype.trim` removes. -/
def isJsSpace (c : Char) : Bool :=
  c ∈ ['\t', '\n', '\x0b', '\x0c', '\r', ' ', '\u00a0', '\u1680', '\u2028', '\u2029', '\u202f',
    '\u205f', '\u3000', '\ufeff'] || ('\u2000' ≤ c && c ≤ '\u200a')

def jsTrim (s : String) : String :=
  String.ofList (((s.toList.dropWhile isJsSpace).reverse.dropWhile isJsSpace).reverse)

/-- `compactInput`; `none` is its error "Codex bridge input must not be empty". -/
def BridgeInput.compactInput (input : BridgeInput) : Option BridgeInput :=
  if jsTrim input.text = "" then none else some { input with text := jsTrim input.text }

/-- The params of `turn/start` and, with an expected turn, of `turn/steer`. -/
structure TurnParams where
  threadId : String
  clientUserMessageId : String
  text : String
  metadata : Option (List (String × String))
  expectedTurnId : Option String
  deriving DecidableEq, Repr

/-- `reason` of a dispatch. -/
inductive DispatchReason
  | unsteerable (state : Unsteerable)
  | steerRejected
  | startRejected
  | unknownOutcome
  deriving DecidableEq, Repr

inductive DispatchKind
  | started
  | steered
  | queued
  | uncertain
  | duplicate
  deriving DecidableEq, Repr

/-- `CodexDispatch`. -/
structure Dispatch where
  kind : DispatchKind
  turnId : Option String := none
  queuePosition : Option ℕ := none
  reason : Option DispatchReason := none
  deriving DecidableEq, Repr

structure QueuedInput where
  id : ℕ
  input : BridgeInput
  reason : DispatchReason
  deriving DecidableEq, Repr

inductive JournalState
  | queued
  | accepted
  | abandoned
  | uncertain
  deriving DecidableEq, Repr

def JournalState.terminal : JournalState → Bool
  | .accepted | .abandoned => true
  | .queued | .uncertain => false

/-- `CodexInteractiveMutation` with the params it is judged by. -/
inductive InteractiveMutation
  | turnStart
  | turnSteer (expectedTurnId : Option String)
  | turnInterrupt
  | reviewStart (detached : Bool)
  | threadCompactStart
  | threadShellCommand
  deriving DecidableEq, Repr

inductive BlockedReason
  | phaseNotIdle
  | uncertainOutcome
  deriving DecidableEq, Repr

/-- What a call can throw, as far as the arbiter tells errors apart. -/
inductive Thrown
  /-- `CodexRetryableBeforeWriteError`. -/
  | retryable
  /-- `codexBridgeRequestWritten` is false. -/
  | notWritten
  /-- A JSON-RPC error with its numeric code, perhaps naming the running turn kind. -/
  | rejected (turnKind : Option Special)
  /-- `CodexInteractiveMutationBlockedError`. -/
  | blocked (method : InteractiveMutation) (reason : BlockedReason) (phase : Phase)
      (uncertainCount : ℕ)
  /-- `CodexBridgeQueueFullError`. -/
  | queueFull (limit : ℕ)
  /-- `CodexBridgeJournalOverflowError`. -/
  | journalOverflow (limit : ℕ)
  | emptyInput
  | other
  deriving DecidableEq, Repr

namespace Thrown

def nonSteerableTurnKind : Thrown → Option Special
  | .rejected turnKind => turnKind
  | _ => none

/-- A blocked mutation carries the code -32000. -/
def isDefinitiveRpcRejection : Thrown → Bool
  | .rejected _ | .blocked _ _ _ _ => true
  | _ => false

def isProvenNotWritten : Thrown → Bool
  | .notWritten => true
  | _ => false

/-- Evidence that nothing was accepted. -/
def refuses (e : Thrown) : Bool := e.isDefinitiveRpcRejection || e.isProvenNotWritten

end Thrown

/-- What the world outside answers while one input is written: the rollback owed from
an earlier write, the callbacks of the input, the transport, the queue listener. -/
structure WriteAnswers where
  rollbackDebt : Bool
  beforeWrite : Option Thrown
  checkWriteAuthorized : Option Thrown
  transport : Except Thrown String
  onWriteRejected : Bool
  onQueuedDispatch : Option Thrown

/-- The answers to an operation, which writes each input at most once. -/
abbrev Answers := String → WriteAnswers

inductive ThreadStatus
  | idle
  | active
  | notLoaded
  | systemError
  deriving DecidableEq, Repr

inductive TurnStatus
  | completed
  | interrupted
  | failed
  | inProgress
  deriving DecidableEq, Repr

inductive ItemType
  | userMessage
  | commandExecution
  | enteredReviewMode
  | exitedReviewMode
  | contextCompaction
  | other
  deriving DecidableEq, Repr

inductive ItemStatus
  | inProgress
  | completed
  | failed
  | declined
  | other
  deriving DecidableEq, Repr

def ItemStatus.done : ItemStatus → Bool
  | .completed | .failed | .declined => true
  | .inProgress | .other => false

/-- An item of a turn; `userShell` says that its source is the user's shell. -/
structure ThreadItem where
  type : ItemType
  id : Option String := none
  clientId : Option String := none
  userShell : Bool := false
  status : ItemStatus := .other
  deriving DecidableEq, Repr

structure ThreadTurn where
  id : String
  status : TurnStatus
  items : List ThreadItem
  deriving DecidableEq, Repr

/-- The thread of a `thread/resume` response. -/
structure Thread where
  status : ThreadStatus
  turns : List ThreadTurn
  deriving DecidableEq, Repr

/-- The ids of the user messages of a turn. -/
def ThreadTurn.clientIds (turn : ThreadTurn) : List String :=
  turn.items.filterMap fun item => if item.type = .userMessage then item.clientId else none

inductive Resolution
  | accepted
  | notAccepted
  | abandoned
  deriving DecidableEq, Repr

end Codex
end AgentParty
