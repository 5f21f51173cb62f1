import AgentParty.Codex.Data
import AgentParty.Lib.Loop

/-! `CodexTurnArbiter`: the bounded journal, and the one lane in which inputs are
queued, started and steered. Everything done to the outside is recorded with the
state it was done in; `evicted` records the ids that left the bounded journal. -/

namespace AgentParty
namespace Codex

/-- `CodexTurnArbiterOptions` behind the checks of the constructor. -/
structure ArbiterOptions where
  threadId : String
  maxQueue : ℕ
  maxQueue_pos : 0 < maxQueue
  maxTerminalJournalEntries : ℕ
  maxTerminalJournalEntries_pos : 0 < maxTerminalJournalEntries
  maxActiveTurnJournalEntries : ℕ
  maxActiveTurnJournalEntries_pos : 0 < maxActiveTurnJournalEntries

abbrev Inputs := Table BridgeInput BridgeInput.clientUserMessageId

structure Arbiter where
  options : ArbiterOptions
  phase : Phase
  queue : List QueuedInput
  nextQueueId : ℕ
  journal : String → Option JournalState
  terminalJournalOrder : List String
  activeTurnId : Option String
  activeTurnAcceptedClientIds : List String
  activeTurnJournalOverflowed : Bool
  uncertainInputs : Inputs
  rollbackDebts : Inputs
  lastObservedUserShellItemId : Option String
  shellLifecycle : Option ShellLifecycle
  flushRetryArmed : Bool
  flushRetryAttempt : ℕ
  evicted : List String

namespace Arbiter

/-- The constructor. -/
def new (options : ArbiterOptions) : Arbiter where
  options := options
  phase := .unknown
  queue := []
  nextQueueId := 1
  journal := fun _ => none
  terminalJournalOrder := []
  activeTurnId := none
  activeTurnAcceptedClientIds := []
  activeTurnJournalOverflowed := false
  uncertainInputs := Table.empty
  rollbackDebts := Table.empty
  lastObservedUserShellItemId := none
  shellLifecycle := none
  flushRetryArmed := false
  flushRetryAttempt := 0
  evicted := []

def uncertainCount (a : Arbiter) : ℕ :=
  a.uncertainInputs.rows.length + if a.activeTurnJournalOverflowed then 1 else 0

def hasUncertainOutcome (a : Arbiter) : Bool := 0 < a.uncertainCount

/-- The oldest terminal entry leaves the journal. -/
def evict (a : Arbiter) (oldest : String) : Arbiter :=
  if (a.journal oldest).any (·.terminal) then
    { a with journal := Function.update a.journal oldest none, evicted := oldest :: a.evicted }
  else a

/-- The eviction loop over the terminal entries, oldest first. -/
def evictOldest (a : Arbiter) : List String → Arbiter
  | [] => { a with terminalJournalOrder := [] }
  | oldest :: rest =>
    if a.options.maxTerminalJournalEntries < rest.length + 1 then
      evictOldest (a.evict oldest) rest
    else { a with terminalJournalOrder := oldest :: rest }

def setJournalState (a : Arbiter) (clientId : String) (state : JournalState) : Arbiter :=
  let order := a.terminalJournalOrder.filter (· ≠ clientId)
  let a := { a with
    activeTurnAcceptedClientIds := a.activeTurnAcceptedClientIds.filter (· ≠ clientId)
    terminalJournalOrder := order
    journal := Function.update a.journal clientId (some state) }
  if state.terminal then a.evictOldest (order ++ [clientId]) else a

def deleteJournalState (a : Arbiter) (clientId : String) : Arbiter :=
  { a with
    activeTurnAcceptedClientIds := a.activeTurnAcceptedClientIds.filter (· ≠ clientId)
    terminalJournalOrder := a.terminalJournalOrder.filter (· ≠ clientId)
    journal := Function.update a.journal clientId none }

def setAcceptedJournalState (a : Arbiter) (clientId : String) (turnId : Option String) : Arbiter :=
  if turnId.isSome && turnId = a.activeTurnId then
    if !a.activeTurnAcceptedClientIds.contains clientId &&
        a.options.maxActiveTurnJournalEntries ≤ a.activeTurnAcceptedClientIds.length then
      -- a still active id never goes into the evictable cache
      { a with activeTurnJournalOverflowed := true }
    else
      { a with
        terminalJournalOrder := a.terminalJournalOrder.filter (· ≠ clientId)
        journal := Function.update a.journal clientId (some .accepted)
        activeTurnAcceptedClientIds :=
          if a.activeTurnAcceptedClientIds.contains clientId then a.activeTurnAcceptedClientIds
          else a.activeTurnAcceptedClientIds ++ [clientId] }
  else a.setJournalState clientId .accepted

def setActiveTurn (a : Arbiter) (turnId : Option String) : Arbiter :=
  if a.activeTurnId = turnId then a
  else
    a.activeTurnAcceptedClientIds.foldl (fun a clientId => a.setJournalState clientId .accepted)
      { a with activeTurnAcceptedClientIds := [], activeTurnId := turnId }

def canAcceptIntoActiveTurn (a : Arbiter) (clientId turnId : String) : Arbiter × Bool :=
  if a.activeTurnJournalOverflowed then (a, false)
  else
    let a := a.setActiveTurn (some turnId)
    (a, a.activeTurnAcceptedClientIds.contains clientId ||
      a.activeTurnAcceptedClientIds.length < a.options.maxActiveTurnJournalEntries)

def enqueue (a : Arbiter) (input : BridgeInput) (reason : DispatchReason) :
    Arbiter × Except Thrown Dispatch :=
  match a.journal input.clientUserMessageId with
  | some .accepted | some .abandoned => (a, .ok { kind := .duplicate })
  | some .uncertain => (a, .ok { kind := .uncertain, reason := some .unknownOutcome })
  | some .queued =>
    let index := a.queue.findIdx? fun entry =>
      entry.input.clientUserMessageId = input.clientUserMessageId
    (a, .ok { kind := .queued, queuePosition := index.map (· + 1), reason := some reason })
  | none =>
    if a.options.maxQueue ≤ a.queue.length then (a, .error (.queueFull a.options.maxQueue))
    else
      let entry : QueuedInput := ⟨a.nextQueueId, input, reason⟩
      let a := { a with queue := a.queue ++ [entry], nextQueueId := a.nextQueueId + 1 }
      (a.setJournalState input.clientUserMessageId .queued,
        .ok { kind := .queued, queuePosition := some a.queue.length, reason := some reason })

/-- `startParams` and `steerParams`. -/
def turnParams (a : Arbiter) (input : BridgeInput) (expectedTurnId : Option String) : TurnParams :=
  ⟨a.options.threadId, input.clientUserMessageId, input.text, input.metadata, expectedTurnId⟩

def scheduleFlushRetry (a : Arbiter) : Arbiter :=
  if a.flushRetryArmed || a.queue.isEmpty then a
  else { a with flushRetryArmed := true, flushRetryAttempt := a.flushRetryAttempt + 1 }

end Arbiter

/-- What the arbiter does to the outside, and what it learns of the fate of an id. -/
inductive Effect
  /-- `onWriteRejected` of the input ran. -/
  | rollback (clientId : String) (completed : Bool)
  | beforeWrite (clientId : String) (thrown : Option Thrown)
  /-- `turn/start`, or `turn/steer` with the expected turn. -/
  | write (params : TurnParams) (answer : Except Thrown String)
  /-- The operation of an interactive mutation. -/
  | mutation (method : InteractiveMutation) (answer : Except Thrown (Option String))
  /-- A resumed history or a started turn holds the id. -/
  | observed (clientId : String)
  | resolved (clientId : String) (outcome : Resolution)
  | cancelled (clientId : String)
  deriving DecidableEq

/-- The arbiter with what it has done, oldest first. -/
structure Lane where
  arbiter : Arbiter
  trace : List (Arbiter × Effect)

namespace Lane

def emit (s : Lane) (e : Effect) : Lane := { s with trace := s.trace ++ [(s.arbiter, e)] }

def modify (s : Lane) (f : Arbiter → Arbiter) : Lane := { s with arbiter := f s.arbiter }

def setPhase (s : Lane) (phase : Phase) : Lane := s.modify fun a => { a with phase := phase }

def enqueue (s : Lane) (input : BridgeInput) (reason : DispatchReason) :
    Lane × Except Thrown Dispatch :=
  let (a, dispatch) := s.arbiter.enqueue input reason
  ({ s with arbiter := a }, dispatch)

def registerRollbackDebt (s : Lane) (input : BridgeInput) : Lane :=
  s.modify fun a => { a with rollbackDebts := a.rollbackDebts.put input }

/-- `await input.onWriteRejected?.()`; a failure is owed. -/
def rollBack (s : Lane) (input : BridgeInput) (answers : WriteAnswers) : Lane :=
  let s := s.emit (.rollback input.clientUserMessageId answers.onWriteRejected)
  if answers.onWriteRejected then s else s.registerRollbackDebt input

/-- False stands for its `CodexRetryableBeforeWriteError`. -/
def settleRollbackDebt (s : Lane) (clientId : String) (answers : WriteAnswers) : Lane × Bool :=
  match s.arbiter.rollbackDebts.get? clientId with
  | none => (s, true)
  | some _ =>
    let s := s.emit (.rollback clientId answers.rollbackDebt)
    if answers.rollbackDebt then
      (s.modify fun a => { a with
        rollbackDebts := a.rollbackDebts.delete fun i => i.clientUserMessageId = clientId }, true)
    else (s, false)

/-- The steps of `start` and `steer` before the write. A failure comes with
`prepared`. -/
def prepare (s : Lane) (input : BridgeInput) (answers : WriteAnswers) :
    Lane × Option (Bool × Thrown) :=
  let (s, settled) := s.settleRollbackDebt input.clientUserMessageId answers
  if !settled then (s, some (false, .retryable))
  else
    let s := s.emit (.beforeWrite input.clientUserMessageId answers.beforeWrite)
    match answers.beforeWrite with
    | some error => (s, some (false, error))
    | none => (s, answers.checkWriteAuthorized.map fun error => (true, error))

/-- What follows a dispatch that threw nothing. -/
def andThen (r : Lane × Except Thrown Dispatch) (f : Lane → Lane) : Lane × Except Thrown Dispatch :=
  match r with
  | (s, .error error) => (s, .error error)
  | (s, .ok dispatch) => (f s, .ok dispatch)

/-- A failure before the write: a retryable one leaves the input queued. -/
def notPrepared (s : Lane) (input : BridgeInput) (answers : WriteAnswers)
    (reason : DispatchReason) (prepared : Bool) (error : Thrown) : Lane × Except Thrown Dispatch :=
  if error = .retryable then
    let s := if prepared then s.rollBack input answers else s
    andThen (s.enqueue input reason) (·.modify Arbiter.scheduleFlushRetry)
  else (s, .error error)

def deleteUncertain (s : Lane) (clientId : String) : Lane :=
  s.modify fun a => { a with
    uncertainInputs := a.uncertainInputs.delete fun i => i.clientUserMessageId = clientId }

/-- The write was accepted into `turnId`. -/
def accepted (s : Lane) (input : BridgeInput) (turnId : String) : Lane :=
  (((s.modify (·.setActiveTurn (some turnId))).setPhase (.normal turnId)).modify
    (·.setAcceptedJournalState input.clientUserMessageId (some turnId))).deleteUncertain
      input.clientUserMessageId

/-- Nobody knows whether the write was accepted. -/
def uncertain (s : Lane) (input : BridgeInput) : Lane × Except Thrown Dispatch :=
  (s.modify fun a =>
    let a := a.setJournalState input.clientUserMessageId .uncertain
    { a with uncertainInputs := a.uncertainInputs.put input },
    .ok { kind := .uncertain, reason := some .unknownOutcome })

def start (s : Lane) (input : BridgeInput) (answers : WriteAnswers) :
    Lane × Except Thrown Dispatch :=
  match (s.setPhase .unknown).prepare input answers with
  | (s, some (prepared, error)) =>
    (s.setPhase .idle).notPrepared input answers .startRejected prepared error
  | (s, none) =>
    let s := s.emit (.write (s.arbiter.turnParams input none) answers.transport)
    match answers.transport with
    | .ok turnId => (s.accepted input turnId, .ok { kind := .started, turnId := some turnId })
    | .error error =>
      if error.refuses then
        andThen (((s.setPhase .idle).rollBack input answers).enqueue input .startRejected)
          (·.modify Arbiter.scheduleFlushRetry)
      else (s.setPhase .unknown).uncertain input

/-- The end of a refused steer. -/
def steerRefused (s : Lane) (input : BridgeInput) (reason : DispatchReason) :
    Lane × Except Thrown Dispatch :=
  andThen (s.enqueue input reason) fun s =>
    if (s.arbiter.rollbackDebts.get? input.clientUserMessageId).isSome then
      s.modify Arbiter.scheduleFlushRetry
    else s

def steer (s : Lane) (input : BridgeInput) (expectedTurnId : String) (answers : WriteAnswers) :
    Lane × Except Thrown Dispatch :=
  match s.prepare input answers with
  | (s, some (prepared, error)) => s.notPrepared input answers .steerRejected prepared error
  | (s, none) =>
    let s := s.emit (.write (s.arbiter.turnParams input (some expectedTurnId)) answers.transport)
    match answers.transport with
    | .ok turnId =>
      -- the response is no authority to change the turn
      (s.accepted input expectedTurnId, .ok { kind := .steered, turnId := some turnId })
    | .error error =>
      match error.nonSteerableTurnKind with
      | some turnKind =>
        ((s.setPhase (.special turnKind (some expectedTurnId))).rollBack input answers).steerRefused
          input (.unsteerable turnKind.toUnsteerable)
      | none =>
        if error.refuses then
          ((s.rollBack input answers).setPhase .unknown).steerRefused input .steerRejected
        else (s.setPhase .unknown).uncertain input

/-- `flushRollbackDebts` over the queue. -/
def flushRollbackDebts (s : Lane) (answers : Answers) : Lane × Bool :=
  s.arbiter.queue.foldl (fun acc entry =>
    let clientId := entry.input.clientUserMessageId
    let (s, settled) := acc.1.settleRollbackDebt clientId (answers clientId)
    (s, acc.2 && settled)) (s, true)

def restoreQueuedAfterFlushError (s : Lane) (entry : QueuedInput) : Lane :=
  s.modify fun a =>
    ({ a with queue := entry :: a.queue }.setJournalState entry.input.clientUserMessageId
      .queued).scheduleFlushRetry

/-- The head of the queue is taken out to be written. -/
def takeQueued (s : Lane) (entry : QueuedInput) (rest : List QueuedInput) : Lane :=
  s.modify fun a =>
    { a with queue := rest }.deleteJournalState entry.input.clientUserMessageId

def resetRetryAttempt (s : Lane) : Lane := s.modify fun a => { a with flushRetryAttempt := 0 }

/-- What it throws is what the queue listener throws. -/
def flushFromIdle (s : Lane) (answers : Answers) : Lane × Option Thrown :=
  if s.arbiter.hasUncertainOutcome then (s, none)
  else
    match s.arbiter.queue with
    | [] => (s, none)
    | entry :: rest =>
      let answer := answers entry.input.clientUserMessageId
      match (s.takeQueued entry rest).start entry.input answer with
      | (s, .error _) => (s.restoreQueuedAfterFlushError entry, none)
      | (s, .ok dispatch) =>
        if dispatch.kind = .started then (s.resetRetryAttempt, answer.onQueuedDispatch)
        else (s, none)

/-- The head of the queue is steered into the turn. -/
def flushEntry (s : Lane) (entry : QueuedInput) (rest : List QueuedInput) (turnId : String)
    (answers : WriteAnswers) : Lane ⊕ (Lane × Option Thrown) :=
  match (s.takeQueued entry rest).steer entry.input turnId answers with
  | (s, .error _) => .inr (s.restoreQueuedAfterFlushError entry, none)
  | (s, .ok dispatch) =>
    if dispatch.kind = .queued || dispatch.kind = .uncertain then .inr (s, none)
    else if dispatch.kind = .started || dispatch.kind = .steered then
      match answers.onQueuedDispatch with
      | none => .inl s.resetRetryAttempt
      | some error => .inr (s.resetRetryAttempt, some error)
    else .inl s.resetRetryAttempt

/-- One pass of the loop of `flushIntoNormalTurn`. -/
def flushPass (answers : Answers) (s : Lane) : Lane ⊕ (Lane × Option Thrown) :=
  if s.arbiter.hasUncertainOutcome then .inr (s, none)
  else
    match s.arbiter.phase, s.arbiter.queue with
    | .normal turnId, entry :: rest =>
      let clientId := entry.input.clientUserMessageId
      let (a, accepts) := s.arbiter.canAcceptIntoActiveTurn clientId turnId
      if accepts then { s with arbiter := a }.flushEntry entry rest turnId (answers clientId)
      else .inr ({ s with arbiter := a }, none)
    | _, _ => .inr (s, none)

/-- Each pass that goes on has taken an entry off the queue. -/
def flushIntoNormalTurn (s : Lane) (answers : Answers) : Lane × Option Thrown :=
  (WhileLoop.run (flushPass answers) (s.arbiter.queue.length + 1) s).getD (s, none)

def flushAuthoritativePhase (s : Lane) (answers : Answers) : Lane × Option Thrown :=
  if s.arbiter.hasUncertainOutcome then (s, none)
  else
    match s.arbiter.phase with
    | .idle => s.flushFromIdle answers
    | .normal _ => s.flushIntoNormalTurn answers
    | _ => (s, none)

end Lane
end Codex
end AgentParty
