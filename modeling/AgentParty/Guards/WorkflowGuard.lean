import AgentParty.Guards.Data
import Mathlib.Data.List.Sort

/-! The workflow guard: a status frame is progress when its step and state are not among the
last ones of the run; other agent frames of the workflow are counted, and as many of them in
a row as the limit block the workflow. -/

namespace AgentParty
namespace Guards

open Routing (Sender)

/-- `workflowTupleKey`; neither part has a NUL. -/
def workflowTupleKey (stepId : Option WorkflowId) (state : StatusState) : String :=
  (match stepId with
    | none => ""
    | some step => step.val) ++ String.singleton (Char.ofNat 0) ++ state.text

/-- What `workflowGuardDecision` finds for a frame. -/
structure WorkflowGuardDecision where
  workflow : StatusWorkflow
  progressed : Bool
  countable : Bool
  deriving DecidableEq

def RecentTuples.empty : RecentTuples := ⟨[], Nat.zero_le _⟩

/-- The end of a list that fits into the column. -/
def RecentTuples.of (l : List String) : RecentTuples :=
  ⟨l.rtake WORKFLOW_GUARD_WINDOW, Recent.length_rtake _ l⟩

def workflowProgressed (workflow : StatusWorkflow) (state : StatusState) :
    Option WorkflowGuardRow → Bool
  | none => true
  | some row =>
    row.runId ≠ workflow.runId || !row.recentTuples.val.contains (workflowTupleKey workflow.stepId state)

/-- The window that a frame of `workflow` goes on with: another run starts afresh. -/
def windowBase (workflow : StatusWorkflow) : Option WorkflowGuardRow → List String
  | none => []
  | some row => if row.runId = workflow.runId then row.recentTuples.val else []

def nextWorkflowGuardWindow (row : Option WorkflowGuardRow) (workflow : StatusWorkflow)
    (tuple : Option String) : RecentTuples :=
  match tuple with
  | none => RecentTuples.of (windowBase workflow row)
  | some tuple => RecentTuples.of (windowBase workflow row ++ [tuple])

namespace Room

def workflowGuardLimit (s : Room) : ℕ :=
  match s.settings.workflowGuardLimit with
  | some (configured + 1) => min (configured + 1) 1000
  | _ => 30

def workflowGuardRow (s : Room) (workflowId : WorkflowId) : Option WorkflowGuardRow :=
  s.workflowGuardState.get? workflowId

def workflowFromReply (s : Room) : Option ℕ → Option StatusWorkflow
  | none => none
  | some seq =>
    match s.messages.get? seq with
    | none => none
    | some m => m.messageWorkflow.or m.statusWorkflow

def statusDecision (s : Room) (workflow : StatusWorkflow) (state : StatusState) :
    WorkflowGuardDecision :=
  let row := s.workflowGuardRow workflow.workflowId
  { workflow := workflow
    progressed := workflowProgressed workflow state row
    countable := row.isSome && !workflowProgressed workflow state row }

def workflowGuardDecision (s : Room) (call : Call) : Option WorkflowGuardDecision :=
  if !s.settings.workflowGuardEnabled then none
  else
    match call.sender with
    | .human _ => none
    | .agent name =>
      match call.frame with
      | .status state _ _ workflow => workflow.map fun workflow => s.statusDecision workflow state
      | .message _ _ replyTo =>
        ((s.workflowFromReply replyTo).or (s.statusWorkflow name.val)).map
          fun workflow => ⟨workflow, false, true⟩

def workflowGuardBlockedMessage (workflowId : WorkflowId) (blockedSeq : Option ℕ) : String :=
  "workflow " ++ workflowId.val ++ " is blocked by workflow guard" ++
    (match blockedSeq with
      | none => ""
      | some seq => " at seq " ++ toString seq) ++
    "; send a progress status or ask a human to reset it"

/-- What `handleSend` refuses for the guard. -/
def workflowGuardError (s : Room) (decision : WorkflowGuardDecision) : Option SendError :=
  match s.workflowGuardRow decision.workflow.workflowId with
  | none => none
  | some row =>
    if row.noProgress && !decision.progressed then
      some ⟨.workflowGuard, workflowGuardBlockedMessage row.workflowId row.blockedSeq⟩
    else none

/-- `ORDER BY updated_at, workflow_id`. -/
def staleOrder (a b : WorkflowGuardRow) : Prop :=
  a.updatedAt < b.updatedAt ∨ a.updatedAt = b.updatedAt ∧ a.workflowId.val ≤ b.workflowId.val

instance : DecidableRel staleOrder := fun a b =>
  inferInstanceAs (Decidable (a.updatedAt < b.updatedAt ∨
    a.updatedAt = b.updatedAt ∧ a.workflowId.val ≤ b.workflowId.val))

def pruneVictims (s : Room) (excess : ℕ) : List WorkflowId :=
  (((s.workflowGuardState.rows.filter fun row => !row.noProgress).insertionSort staleOrder).take
    excess).map (·.workflowId)

def pruneWorkflowGuardState (s : Room) : Room :=
  let excess := s.workflowGuardState.rows.length - 200
  if excess = 0 then s
  else
    let victims := s.pruneVictims excess
    { s with
      workflowGuardState := s.workflowGuardState.delete fun row =>
        victims.contains row.workflowId && !row.noProgress }

/-- `INSERT … ON CONFLICT`, as progress. -/
def upsertWorkflowGuardProgress (s : Room) (workflow : StatusWorkflow) (state : StatusState)
    (seq : ℕ) (initiatorName : String) (hostName : Option String) (now : Int) (terminal : Bool)
    (recentTuples : RecentTuples) : Room :=
  let before := s.workflowGuardRow workflow.workflowId
  { s with
    workflowGuardState := s.workflowGuardState.put
      { workflowId := workflow.workflowId
        kind := workflow.kind
        runId := workflow.runId
        stepId := workflow.stepId
        state := some state
        countSinceProgress := 0
        noProgress := false
        recentTuples := recentTuples
        blockedSeq := none
        lastProgressSeq := some seq
        lastCountedSeq := before.bind (·.lastCountedSeq)
        initiatorName := (before.bind (·.initiatorName)).or (some initiatorName)
        hostName := hostName.or (before.bind (·.hostName))
        terminal := terminal
        terminalSeq := if terminal then some seq else none
        updatedAt := now } }

/-- Whether the frame that is counted now blocks its workflow. -/
def shouldTrip (s : Room) (row : Option WorkflowGuardRow) : Bool :=
  !row.any (·.noProgress) && s.workflowGuardLimit ≤ (row.map (·.countSinceProgress)).getD 0 + 1

/-- The `INSERT … ON CONFLICT` of a counted frame. -/
def countedRow (s : Room) (workflow : StatusWorkflow) (status : Option StatusState) (seq : ℕ)
    (name : String) (hostName : Option String) (now : Int) : WorkflowGuardRow :=
  let row := s.workflowGuardRow workflow.workflowId
  let blockedSeq := if s.shouldTrip row then some seq else row.bind (·.blockedSeq)
  { workflowId := workflow.workflowId
    kind := workflow.kind
    runId := workflow.runId
    stepId := workflow.stepId
    state := status.or (row.bind (·.state))
    countSinceProgress := (row.map (·.countSinceProgress)).getD 0 + 1
    noProgress := s.shouldTrip row || row.any (·.noProgress)
    recentTuples := nextWorkflowGuardWindow row workflow
      (status.map (workflowTupleKey workflow.stepId))
    blockedSeq := (row.bind (·.blockedSeq)).or blockedSeq
    lastProgressSeq := row.bind (·.lastProgressSeq)
    lastCountedSeq := some seq
    initiatorName := (row.bind (·.initiatorName)).or (some name)
    hostName := hostName.or (row.bind (·.hostName))
    terminal := false
    terminalSeq := none
    updatedAt := now }

def trippedNote (workflowId : WorkflowId) (count : ℕ) : String :=
  "workflow guard tripped: workflow " ++ workflowId.val ++ " made no progress after " ++
    toString count ++ " counted messages"

/-- The row is written, and a workflow that is blocked now is reported to the one who started
it and to the host. -/
def countWorkflowFrame (s : Room) (workflow : StatusWorkflow) (status : Option StatusState)
    (seq : ℕ) (name : String) (hostName : Option String) (now : Int) : Room :=
  let before := s.workflowGuardRow workflow.workflowId
  let row := s.countedRow workflow status seq name hostName now
  let counted := { s with workflowGuardState := s.workflowGuardState.put row }
  let reported :=
    if s.shouldTrip before then
      counted.insertSystemStatus (trippedNote workflow.workflowId row.countSinceProgress) now .blocked
        (((before.bind (·.initiatorName)).or (some name)).toList ++ hostName.toList).dedup
        (some workflow)
    else counted
  reported.pruneWorkflowGuardState

/-- `status` is the state of a status frame; a message has no step and no state. -/
def applyWorkflowGuardAfterSend (s : Room) (sender : Sender) (status : Option StatusState)
    (seq : ℕ) (decision : Option WorkflowGuardDecision) (now : Int) : Room :=
  match sender, decision with
  | .agent name, some decision =>
    let workflow := decision.workflow
    let row := s.workflowGuardRow workflow.workflowId
    let hostName := s.activeHostName.or (row.bind (·.hostName))
    match status with
    | some state =>
      if state = .done || decision.progressed then
        (s.upsertWorkflowGuardProgress workflow state seq name.val hostName now (state = .done)
          (nextWorkflowGuardWindow row workflow
            (some (workflowTupleKey workflow.stepId state)))).pruneWorkflowGuardState
      else if decision.countable then
        s.countWorkflowFrame workflow (some state) seq name.val hostName now
      else s
    | none =>
      if decision.countable then s.countWorkflowFrame workflow none seq name.val hostName now
      else s
  | _, _ => s

/-- The columns that both resets set. -/
def clearedRow (now : Int) (row : WorkflowGuardRow) : WorkflowGuardRow :=
  { row with countSinceProgress := 0, noProgress := false, blockedSeq := none, updatedAt := now }

theorem workflowId_clearedRow (now : Int) (row : WorkflowGuardRow) :
    (clearedRow now row).workflowId = row.workflowId := rfl

def clearWorkflowGuards (s : Room) (now : Int) : Room :=
  { s with
    workflowGuardState :=
      s.workflowGuardState.update (fun _ => true) (clearedRow now) (workflowId_clearedRow now) }

def resetWorkflowGuard (s : Room) (workflowId : WorkflowId) (now : Int) : Room :=
  { s with
    workflowGuardState := s.workflowGuardState.update (fun row => row.workflowId = workflowId)
      (clearedRow now) (workflowId_clearedRow now) }

end Room

end Guards
end AgentParty
