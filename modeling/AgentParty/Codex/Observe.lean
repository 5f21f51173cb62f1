import AgentParty.Codex.Interactive

/-! What the arbiter learns from the backend: turn and shell notifications, a resumed
thread, and the resolution of unknown outcomes. -/

namespace AgentParty
namespace Codex

namespace ShellLifecycle

/-- The turn of an event is the base turn while that is open, else the shell's own. -/
def attributeTurn (shell : ShellLifecycle) (turnId : String) : ShellLifecycle :=
  if shell.basePhase = .idle then
    { shell with standaloneTurnId := shell.standaloneTurnId.or (some turnId) }
  else if shell.baseTurnId = none then { shell with baseTurnId := some turnId }
  else if shell.baseTurnId ≠ some turnId then
    { shell with standaloneTurnId := shell.standaloneTurnId.or (some turnId) }
  else shell

/-- `standaloneTurnId ?? baseTurnId`. -/
def turnId (shell : ShellLifecycle) : Option String := shell.standaloneTurnId.or shell.baseTurnId

def bindItem (shell : ShellLifecycle) (turnId itemId : String) : ShellLifecycle :=
  { shell with itemId := some itemId, itemTurnId := some turnId }.attributeTurn turnId

/-- A terminal turn completes the shell's own turn or its base. -/
def turnEnded (shell : ShellLifecycle) (turnId : String) : ShellLifecycle :=
  if shell.standaloneTurnId = some turnId then { shell with standaloneCompleted := true }
  else if shell.baseTurnId = some turnId then { shell with baseCompleted := true }
  else shell

def aborted (shell : ShellLifecycle) : ShellLifecycle :=
  { shell with itemCompleted := true, itemAborted := true }

end ShellLifecycle

/-- An entry of `userShellItems`. -/
structure UserShellItem where
  itemId : String
  itemStatus : ItemStatus
  turnId : String
  turnStatus : TurnStatus
  deriving DecidableEq, Repr

namespace Thread

def userShellItems (thread : Thread) : List UserShellItem :=
  thread.turns.flatMap fun turn => turn.items.filterMap fun item =>
    if item.type = .commandExecution && item.userShell then
      item.id.map fun id => ⟨id, item.status, turn.id, turn.status⟩
    else none

/-- The only turn in progress. -/
def runningTurn (thread : Thread) : Option ThreadTurn :=
  match thread.turns.filter (·.status = .inProgress) with
  | [turn] => some turn
  | _ => none

end Thread

namespace ShellLifecycle

/-- The history item of this shell: the bound one, or the only one behind the baseline. -/
def historyMatch (shell : ShellLifecycle) (items : List UserShellItem) : Option UserShellItem :=
  match shell.itemId with
  | some itemId =>
    items.find? fun item => item.itemId = itemId && some item.turnId = shell.itemTurnId
  | none =>
    let candidates := match shell.baselineItemId with
      | none => some items
      | some baseline =>
        (items.findIdx? fun item => item.itemId = baseline).map fun i => items.drop (i + 1)
    match candidates with
    | some [candidate] => some candidate
    | _ => none

def withHistory (shell : ShellLifecycle) (item : UserShellItem) : ShellLifecycle :=
  let shell := if shell.itemId = none then shell.bindItem item.turnId item.itemId else shell
  let shell := if item.itemStatus.done then { shell with itemCompleted := true } else shell
  if item.turnStatus ≠ .inProgress then shell.turnEnded item.turnId else shell

/-- The restarted backend shows neither the item nor a running thread. -/
def lostUnbound (shell : ShellLifecycle) (backendRestarted : Bool) (thread : Thread) : Bool :=
  shell.itemId = none && shell.requestOutcome ≠ .pending && backendRestarted &&
    thread.status = .idle

/-- The item is bound, and the restarted backend only shows its turn, which is over. -/
def lostBound (shell : ShellLifecycle) (backendRestarted : Bool) (thread : Thread) : Bool :=
  shell.itemId.isSome && backendRestarted && thread.status = .idle &&
    match shell.itemTurnId with
    | none => false
    | some turnId =>
      (thread.turns.find? fun turn => turn.id = turnId).any fun turn => turn.status ≠ .inProgress

/-- An idle thread ends the turns that could be running. -/
def threadIdle (shell : ShellLifecycle) : ShellLifecycle :=
  { shell with
    baseCompleted := shell.baseCompleted || shell.basePhase ≠ .idle
    standaloneCompleted := shell.standaloneCompleted || shell.standaloneTurnId.isSome }

/-- The turn that the shell runs in is over. -/
def turnOver (shell : ShellLifecycle) : Bool :=
  if shell.standaloneTurnId.isSome then shell.standaloneCompleted
  else shell.basePhase ≠ .idle && shell.baseCompleted

end ShellLifecycle

namespace Arbiter

def rememberUserShellHistory (a : Arbiter) (items : List UserShellItem) : Arbiter :=
  { a with lastObservedUserShellItemId := items.getLast?.map (·.itemId) }

/-- The shell keeps the phase to itself. -/
def keepShell (a : Arbiter) (shell : ShellLifecycle) : Arbiter :=
  { a with shellLifecycle := some shell, phase := .unsteerable .shell shell.turnId }

end Arbiter

namespace Lane

/-- One id of `reconcileAcceptedClientIds`, which the active turn may hold. -/
def reconcileAccepted (activeClientIds : List String) (s : Lane) (clientId : String) : Lane :=
  let s := (s.emit (.observed clientId)).deleteUncertain clientId
  if activeClientIds.contains clientId then
    s.modify fun a => a.setAcceptedJournalState clientId a.activeTurnId
  else s.modify (·.setJournalState clientId .accepted)

/-- The inputs of the ids leave the queue with their rollback debts. -/
def dropAccepted (clientIds : List String) (a : Arbiter) : Arbiter :=
  let dropped := (a.queue.map (·.input.clientUserMessageId)).filter clientIds.contains
  { a with
    queue := a.queue.filter fun entry => !clientIds.contains entry.input.clientUserMessageId
    rollbackDebts := a.rollbackDebts.delete fun i => dropped.contains i.clientUserMessageId }

def reconcileAcceptedClientIds (s : Lane) (clientIds activeClientIds : List String) : Lane :=
  clientIds.eraseDups.foldl (reconcileAccepted activeClientIds) (s.modify (dropAccepted clientIds))

def finishShellIdle (s : Lane) (answers : Answers) : Lane × Option Thrown :=
  (s.modify fun a => { a with shellLifecycle := none, phase := .idle }).flushFromIdle answers

def restoreShellBase (s : Lane) (shell : ShellLifecycle) (answers : Answers) :
    Lane × Option Thrown :=
  let s := s.modify fun a => { a with shellLifecycle := none }
  match shell.basePhase with
  | .idle => (s.setPhase .idle).flushFromIdle answers
  | .normal turnId => (s.setPhase (.normal turnId)).flushIntoNormalTurn answers
  | .special kind _ => (s.setPhase (.special kind shell.baseTurnId), none)

/-- The shell branch of an idle resume. -/
def resumeIdleShell (s : Lane) (shell : ShellLifecycle) (answers : Answers) :
    Lane × Option Thrown :=
  let shell := shell.threadIdle
  let s := s.modify (·.keepShell shell)
  if shell.itemCompleted && shell.turnOver then s.finishShellIdle answers
  else if shell.itemCompleted && shell.standaloneTurnId.isNone && !shell.baseCompleted then
    s.restoreShellBase shell answers
  else (s, none)

/-- Where a completed item leaves a shell whose thread is active. -/
def settleShell (s : Lane) (shell : ShellLifecycle) (answers : Answers) : Lane × Option Thrown :=
  if shell.standaloneTurnId.isSome then
    if shell.standaloneCompleted then s.finishShellIdle answers else (s, none)
  else if shell.baseCompleted then s.finishShellIdle answers
  else s.restoreShellBase shell answers

/-- The shell branch of an active resume with one turn in progress. -/
def resumeActiveShell (s : Lane) (shell : ShellLifecycle) (turnId : String) (answers : Answers) :
    Lane × Option Thrown :=
  let shell := shell.attributeTurn turnId
  let s := s.modify (·.keepShell shell)
  if shell.itemCompleted then s.settleShell shell answers else (s, none)

/-- `observeResume` while a shell command is on. -/
def resumeShell (s : Lane) (shell : ShellLifecycle) (thread : Thread) (backendRestarted : Bool)
    (answers : Answers) : Lane × Option Thrown :=
  let items := thread.userShellItems
  let found := shell.historyMatch items
  let s := s.modify (·.rememberUserShellHistory items)
  if found.isNone && shell.lostUnbound backendRestarted thread then s.finishShellIdle answers
  else
    let shell := match found with
      | some item => shell.withHistory item
      | none =>
        if shell.lostBound backendRestarted thread then
          match shell.itemTurnId with
          | some turnId => shell.aborted.turnEnded turnId
          | none => shell
        else shell
    match thread.status, thread.runningTurn with
    | .idle, _ => s.resumeIdleShell shell answers
    | .active, some running => s.resumeActiveShell shell running.id answers
    | _, _ => (s.modify (·.keepShell shell), none)

end Lane

namespace ThreadTurn

/-- The last review mode change of the turn enters it. -/
def inReview (turn : ThreadTurn) : Bool :=
  (turn.items.reverse.find? fun item =>
    item.type = .enteredReviewMode || item.type = .exitedReviewMode).any
      (·.type = .enteredReviewMode)

def specialBase (turn : ThreadTurn) : Option Special :=
  if turn.inReview then some .review
  else if turn.items.any (·.type = .contextCompaction) then some .compact
  else none

/-- The shell items of the turn with their ids. -/
def shellItems (turn : ThreadTurn) : List (String × ItemStatus) :=
  turn.items.filterMap fun item =>
    if item.type = .commandExecution && item.userShell then item.id.map fun id => (id, item.status)
    else none

def hasAmbiguousShellStatus (turn : ThreadTurn) : Bool :=
  turn.shellItems.any fun item => item.2 = .other

def hasModelTurnEvidence (turn : ThreadTurn) : Bool :=
  turn.items.any fun item => item.type = .userMessage || item.type = .other

/-- `coldShellItem`. -/
def coldShellItem (turn : ThreadTurn) : Option (String × ItemStatus) :=
  match turn.shellItems.filter (·.2 = .inProgress), turn.shellItems with
  | [item], _ => some item
  | [], [item] => if turn.hasAmbiguousShellStatus then none else some item
  | _, _ => none

/-- Too many shell items, or a status nobody knows. -/
def ambiguousShell (turn : ThreadTurn) : Bool :=
  1 < (turn.shellItems.filter (·.2 = .inProgress)).length || turn.hasAmbiguousShellStatus ||
    ((turn.shellItems.filter (·.2 = .inProgress)).isEmpty && 1 < turn.shellItems.length &&
      !turn.hasModelTurnEvidence)

def coldBasePhase (turn : ThreadTurn) : ShellBasePhase :=
  match turn.specialBase with
  | some kind => .special kind (some turn.id)
  | none => if turn.hasModelTurnEvidence then .normal turn.id else .idle

/-- The shell command a cold resume finds in its running turn. -/
def coldShell (turn : ThreadTurn) (itemId : String) (itemCompleted : Bool) : ShellLifecycle where
  basePhase := turn.coldBasePhase
  baseTurnId := if turn.coldBasePhase = .idle then none else some turn.id
  baseCompleted := turn.coldBasePhase = .idle
  baselineItemId := none
  requestOutcome := .accepted
  standaloneTurnId := if turn.coldBasePhase = .idle then some turn.id else none
  standaloneCompleted := false
  itemId := some itemId
  itemTurnId := some turn.id
  itemCompleted := itemCompleted
  itemAborted := false

/-- The shell that fences the running turn, if one does. A completed auxiliary item
does not. -/
def fencingShell (turn : ThreadTurn) : Option ShellLifecycle :=
  match turn.coldShellItem with
  | none => none
  | some (itemId, status) =>
    if !status.done || turn.coldBasePhase = .idle then some (turn.coldShell itemId status.done)
    else none

end ThreadTurn

namespace Lane

/-- A resume without a shell command that finds one turn in progress. -/
def resumeActive (s : Lane) (turn : ThreadTurn) (answers : Answers) : Lane × Option Thrown :=
  match turn.fencingShell with
  | some shell =>
    (s.modify fun a =>
      { a with shellLifecycle := some shell, phase := .unsteerable .shell (some turn.id) }, none)
  | none =>
    if turn.ambiguousShell then (s.setPhase .unknown, none)
    else
      match turn.specialBase with
      | some kind => (s.setPhase (.special kind (some turn.id)), none)
      | none => (s.setPhase (.normal turn.id)).flushIntoNormalTurn answers

def resumeThread (s : Lane) (thread : Thread) (answers : Answers) : Lane × Option Thrown :=
  let s := s.modify (·.rememberUserShellHistory thread.userShellItems)
  match thread.status, thread.runningTurn with
  | .idle, _ => (s.setPhase .idle).flushFromIdle answers
  | .active, some running => s.resumeActive running answers
  | _, _ => (s.setPhase .unknown, none)

def observeResume (s : Lane) (thread : Thread) (backendRestarted : Bool) (answers : Answers) :
    Lane × Option Thrown :=
  let s := s.modify (·.setActiveTurn (thread.runningTurn.map (·.id)))
  let s := s.reconcileAcceptedClientIds (thread.turns.flatMap (·.clientIds))
    ((thread.runningTurn.map (·.clientIds)).getD [])
  match s.arbiter.shellLifecycle with
  | some shell => s.resumeShell shell thread backendRestarted answers
  | none => s.resumeThread thread answers

def observeTurnStarted (s : Lane) (turnId : String) (clientIds : List String) (answers : Answers) :
    Lane × Option Thrown :=
  let s := (s.modify (·.setActiveTurn (some turnId))).reconcileAcceptedClientIds clientIds clientIds
  match s.arbiter.phase with
  | .unsteerable .shell _ =>
    match s.arbiter.shellLifecycle with
    | none => (s.setPhase (.unsteerable .shell (some turnId)), none)
    | some shell => (s.modify (·.keepShell (shell.attributeTurn turnId)), none)
  | .unsteerable .review _ => (s.setPhase (.special .review (some turnId)), none)
  | .unsteerable .compact _ => (s.setPhase (.special .compact (some turnId)), none)
  | _ => (s.setPhase (.normal turnId)).flushIntoNormalTurn answers

/-- The shell's own turn, or its base, is over. -/
def shellTurnCompleted (s : Lane) (shell : ShellLifecycle) (turnId : String) (answers : Answers) :
    Lane × Option Thrown :=
  let ended := shell.turnEnded turnId
  let s := s.modify fun a => { a with shellLifecycle := some ended }
  if shell.standaloneTurnId = some turnId then
    if ended.itemCompleted then s.finishShellIdle answers else (s, none)
  else if shell.baseTurnId = some turnId && ended.itemCompleted && ended.standaloneTurnId.isNone then
    s.finishShellIdle answers
  else (s, none)

def observeTurnCompleted (s : Lane) (turnId : String) (answers : Answers) : Lane × Option Thrown :=
  let s := s.modify fun a => if a.activeTurnId = some turnId then a.setActiveTurn none else a
  match s.arbiter.phase, s.arbiter.shellLifecycle with
  | .unsteerable .shell _, some shell => s.shellTurnCompleted shell turnId answers
  | .unsteerable .unknown _, _ | .idle, _ => (s, none)
  | phase, _ =>
    if phase.turnId = some turnId then s.finishShellIdle answers else (s, none)

/-- For a shell on an idle base, idle is no sign of completion before its turn is known. -/
def shellThreadIdle (s : Lane) (shell : ShellLifecycle) (answers : Answers) :
    Lane × Option Thrown :=
  if shell.standaloneTurnId.isSome then
    let s := s.modify fun a => a.withShell fun shell => { shell with standaloneCompleted := true }
    if shell.itemCompleted then s.finishShellIdle answers else (s, none)
  else if shell.basePhase ≠ .idle then
    let s := s.modify fun a => a.withShell fun shell => { shell with baseCompleted := true }
    if shell.itemCompleted then s.finishShellIdle answers else (s, none)
  else (s, none)

def observeThreadIdle (s : Lane) (answers : Answers) : Lane × Option Thrown :=
  let s := s.modify (·.setActiveTurn none)
  match s.arbiter.phase, s.arbiter.shellLifecycle with
  | .unsteerable .shell _, some shell => s.shellThreadIdle shell answers
  | _, _ => s.finishShellIdle answers

/-- Only the item that started this shell request may release the fence. -/
def observeUserShellStarted (s : Lane) (turnId itemId : String) : Lane :=
  match s.arbiter.phase, s.arbiter.shellLifecycle with
  | .unsteerable .shell _, some shell =>
    let s := s.modify fun a => { a with lastObservedUserShellItemId := some itemId }
    if shell.itemId.isSome then s else s.modify (·.keepShell (shell.bindItem turnId itemId))
  | _, _ => s

def observeUserShellCompleted (s : Lane) (turnId itemId : String) (answers : Answers) :
    Lane × Option Thrown :=
  match s.arbiter.phase, s.arbiter.shellLifecycle with
  | .unsteerable .shell _, some shell =>
    if shell.itemId ≠ some itemId || shell.itemTurnId ≠ some turnId then (s, none)
    else
      let shell := { shell with itemCompleted := true }
      (s.modify fun a => { a with shellLifecycle := some shell }).settleShell shell answers
  | _, _ => (s, none)

/-- The dispatch, or what the flush threw. -/
def flushed (s : Lane) (dispatch : Dispatch) (answers : Answers) : Lane × Except Thrown Dispatch :=
  match s.flushAuthoritativePhase answers with
  | (s, none) => (s, .ok dispatch)
  | (s, some error) => (s, .error error)

def resolveUnknownOutcome (s : Lane) (input : BridgeInput) (outcome : Resolution)
    (answers : Answers) : Lane × Except Thrown Dispatch :=
  match input.compactInput with
  | none => (s, .error .emptyInput)
  | some normalized =>
    let clientId := normalized.clientUserMessageId
    match s.arbiter.journal clientId with
    | some .accepted | some .abandoned => (s, .ok { kind := .duplicate })
    | some .queued | none => s.enqueue normalized .steerRejected
    | some .uncertain =>
      let s := s.emit (.resolved clientId outcome)
      match outcome with
      | .accepted =>
        ((s.modify fun a => a.setAcceptedJournalState clientId a.activeTurnId).deleteUncertain
          clientId).flushed { kind := .duplicate } answers
      | .abandoned =>
        ((s.deleteUncertain clientId).modify (·.setJournalState clientId .abandoned)).flushed
          { kind := .duplicate } answers
      | .notAccepted =>
        match ((s.deleteUncertain clientId).modify (·.deleteJournalState clientId)).enqueue
            normalized .steerRejected with
        | (s, .error full) => (s, .error full)
        | (s, .ok dispatch) => s.flushed dispatch answers

end Lane
end Codex
end AgentParty
