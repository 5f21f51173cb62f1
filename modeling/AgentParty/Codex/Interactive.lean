import AgentParty.Codex.Arbiter

/-! The writers of the lane: AgentParty's `submit` and `cancelQueued`, the mutations of
the interactive client, and the retry timer. -/

namespace AgentParty
namespace Codex

namespace Lane

/-- Input behind a queue waits in it. -/
def submitBehindQueue (s : Lane) (input : BridgeInput) : Lane × Except Thrown Dispatch :=
  let reason : DispatchReason := match s.arbiter.phase with
    | .idle => .startRejected
    | .normal _ => .steerRejected
    | .unsteerable state _ => .unsteerable state
  andThen (s.enqueue input reason) fun s =>
    match s.arbiter.phase, s.arbiter.queue with
    | .idle, _ => s.modify Arbiter.scheduleFlushRetry
    | .normal turnId, head :: _ =>
      let (a, accepts) :=
        s.arbiter.canAcceptIntoActiveTurn head.input.clientUserMessageId turnId
      { s with arbiter := if accepts then a.scheduleFlushRetry else a }
    | _, _ => s

/-- Fresh input with nothing queued before it. -/
def submitFirst (s : Lane) (input : BridgeInput) (answers : WriteAnswers) :
    Lane × Except Thrown Dispatch :=
  if s.arbiter.hasUncertainOutcome then s.enqueue input .unknownOutcome
  else
    match s.arbiter.phase with
    | .idle => s.start input answers
    | .normal turnId =>
      let (a, accepts) := s.arbiter.canAcceptIntoActiveTurn input.clientUserMessageId turnId
      let s := { s with arbiter := a }
      if accepts then s.steer input turnId answers else s.enqueue input .steerRejected
    | .unsteerable state _ => s.enqueue input (.unsteerable state)

def submit (s : Lane) (input : BridgeInput) (answers : Answers) : Lane × Except Thrown Dispatch :=
  match input.compactInput with
  | none => (s, .error .emptyInput)
  | some normalized =>
    match s.arbiter.journal normalized.clientUserMessageId with
    | some .accepted | some .abandoned => (s, .ok { kind := .duplicate })
    | some .uncertain => (s, .ok { kind := .uncertain, reason := some .unknownOutcome })
    | some .queued => s.enqueue normalized .steerRejected
    | none =>
      if s.arbiter.activeTurnJournalOverflowed then
        (s, .error (.journalOverflow s.arbiter.options.maxActiveTurnJournalEntries))
      else if !s.arbiter.queue.isEmpty then s.submitBehindQueue normalized
      else s.submitFirst normalized (answers normalized.clientUserMessageId)

/-- An input goes while it is only queued. -/
def cancelQueued (s : Lane) (clientId : String) : Lane × Bool :=
  if s.arbiter.journal clientId ≠ some .queued then (s, false)
  else
    match s.arbiter.queue.findIdx? fun entry => entry.input.clientUserMessageId = clientId with
    | none => (s, false)
    | some index =>
      let s := s.emit (.cancelled clientId)
      (s.modify fun a =>
        let a := { a with queue := a.queue.eraseIdx index }.deleteJournalState clientId
        let a := { a with
          rollbackDebts := a.rollbackDebts.delete fun i => i.clientUserMessageId = clientId }
        if a.queue.isEmpty && a.flushRetryArmed then
          { a with flushRetryArmed := false, flushRetryAttempt := 0 }
        else a, true)

def enterUnsteerable (s : Lane) (state : Special) (turnId : Option String) : Lane :=
  s.modify fun a => { a with shellLifecycle := none, phase := .special state turnId }

/-- The fired timer's turn in the lane. An error of the listener schedules another. -/
def retryFlush (s : Lane) (answers : Answers) : Lane :=
  match s.flushRollbackDebts answers with
  | (s, true) =>
    match s.flushAuthoritativePhase answers with
    | (s, none) => s
    | (s, some _) => s.modify Arbiter.scheduleFlushRetry
  | (s, false) => s.modify Arbiter.scheduleFlushRetry

end Lane

namespace Arbiter

/-- The base a shell command may start from. -/
def shellBase : Phase → Option ShellBasePhase
  | .idle => some .idle
  | .normal turnId => some (.normal turnId)
  | .unsteerable .review turnId => some (.special .review turnId)
  | .unsteerable .compact turnId => some (.special .compact turnId)
  | .unsteerable .shell _ | .unsteerable .unknown _ => none

def newShell (basePhase : ShellBasePhase) (baselineItemId : Option String) : ShellLifecycle where
  basePhase := basePhase
  baseTurnId := basePhase.turnId
  baseCompleted := basePhase = .idle
  baselineItemId := baselineItemId
  requestOutcome := .pending
  standaloneTurnId := none
  standaloneCompleted := false
  itemId := none
  itemTurnId := none
  itemCompleted := false
  itemAborted := false

/-- The refusals of `runInteractiveMutation` before anything is sent. -/
def mutationBlocked (a : Arbiter) (method : InteractiveMutation) : Option Thrown :=
  if a.hasUncertainOutcome then some (.blocked method .uncertainOutcome a.phase a.uncertainCount)
  else if method = .turnStart && a.phase ≠ .idle then some (.blocked method .phaseNotIdle a.phase 0)
  else if a.phase.isShell && method ≠ .turnInterrupt then
    some (.blocked method .phaseNotIdle a.phase 0)
  else if method = .threadShellCommand && (shellBase a.phase).isNone then
    some (.blocked method .phaseNotIdle a.phase 0)
  else none

/-- The phase leaves idle before the request is written. -/
def beginMutation (a : Arbiter) : InteractiveMutation → Arbiter
  | .turnStart | .turnInterrupt =>
    { a with shellLifecycle := none, phase := .unsteerable .unknown a.phase.turnId }
  | .reviewStart false =>
    { a with shellLifecycle := none, phase := .special .review a.phase.turnId }
  | .threadCompactStart =>
    { a with shellLifecycle := none, phase := .special .compact a.phase.turnId }
  | .threadShellCommand =>
    match shellBase a.phase with
    | none => a
    | some basePhase =>
      { a with
        shellLifecycle := some (newShell basePhase a.lastObservedUserShellItemId)
        phase := .unsteerable .shell basePhase.turnId }
  | .turnSteer _ | .reviewStart true => a

def withShell (a : Arbiter) (f : ShellLifecycle → ShellLifecycle) : Arbiter :=
  { a with shellLifecycle := a.shellLifecycle.map f }

def requestAnswered (outcome : RequestOutcome) (shell : ShellLifecycle) : ShellLifecycle :=
  { shell with requestOutcome := outcome }

/-- The `catch` of `runInteractiveMutation`. -/
def mutationFailed (a : Arbiter) (method : InteractiveMutation) (previous : Phase)
    (previousShellLifecycle : Option ShellLifecycle) (error : Thrown) : Arbiter :=
  let restored := { a with phase := previous, shellLifecycle := previousShellLifecycle }
  if error = .retryable then restored
  else if error.isProvenNotWritten then restored
  else if method = .threadShellCommand && error.isDefinitiveRpcRejection then restored
  else if method = .threadShellCommand && a.shellLifecycle.isSome then
    a.withShell (requestAnswered .uncertain)
  else
    match error.nonSteerableTurnKind with
    | some turnKind =>
      { a with shellLifecycle := none, phase := .special turnKind previous.turnId }
    | none =>
      if error.isDefinitiveRpcRejection &&
          (method = .threadCompactStart || method matches .reviewStart _) then restored
      else { a with shellLifecycle := none, phase := .unknown }

end Arbiter

namespace Lane

/-- The turn a response names becomes the active one. -/
def enterTurn (s : Lane) (turnId : Option String) (answers : Answers) : Lane × Option Thrown :=
  let s := s.modify (·.setActiveTurn turnId)
  match turnId with
  | none => (s.setPhase .unknown, none)
  | some turnId => (s.setPhase (.normal turnId)).flushIntoNormalTurn answers

/-- The rest of the `try` block; what it throws comes from the queue listener. -/
def mutationAccepted (s : Lane) (method : InteractiveMutation) (responseTurnId : Option String)
    (answers : Answers) : Lane × Option Thrown :=
  match method with
  | .turnStart => s.enterTurn responseTurnId answers
  | .turnSteer expectedTurnId => s.enterTurn (responseTurnId.or expectedTurnId) answers
  | .reviewStart false => (s.setPhase (.special .review responseTurnId), none)
  | .threadShellCommand =>
    (s.modify fun a => a.withShell (Arbiter.requestAnswered .accepted), none)
  | .turnInterrupt | .reviewStart true | .threadCompactStart => (s, none)

/-- The `try` block behind the request. -/
def mutationAnswered (s : Lane) (method : InteractiveMutation)
    (answer : Except Thrown (Option String)) (answers : Answers) : Lane × Option Thrown :=
  match answer with
  | .ok responseTurnId => s.mutationAccepted method responseTurnId answers
  | .error error => (s, some error)

/-- The mutation past its refusals. -/
def performMutation (s : Lane) (method : InteractiveMutation)
    (answer : Except Thrown (Option String)) (answers : Answers) : Lane × Option Thrown :=
  let previous := s.arbiter.phase
  let previousShellLifecycle := s.arbiter.shellLifecycle
  let s := (s.modify (·.beginMutation method)).emit (.mutation method answer)
  match s.mutationAnswered method answer answers with
  | (s, none) => (s, none)
  | (s, some error) =>
    (s.modify (·.mutationFailed method previous previousShellLifecycle error), some error)

def runInteractiveMutation (s : Lane) (method : InteractiveMutation)
    (answer : Except Thrown (Option String)) (answers : Answers) : Lane × Option Thrown :=
  let (s, rollbackReady) :=
    if s.arbiter.rollbackDebts.rows.isEmpty then (s, true) else s.flushRollbackDebts answers
  if !rollbackReady then (s.modify Arbiter.scheduleFlushRetry, some .retryable)
  else
    match s.arbiter.mutationBlocked method with
    | some blocked => (s, some blocked)
    | none => s.performMutation method answer answers

end Lane
end Codex
end AgentParty
