import AgentParty.Delivery.Routing
import AgentParty.Lib.Recent

/-! The rows and keys behind the two guards of a channel. The loop guard counts the agent
messages since a human spoke, in `meta`; the workflow guard keeps a row for each workflow.
Of `presence` the room has what the guards look up: the workflow in a sender's status, and
the active host. -/

namespace AgentParty
namespace Guards

open Routing (Sender AgentName)

def BODY_LIMIT : ℕ := 100000
def RATE_LIMIT_PER_MIN : ℕ := 30
def IDEMPOTENCY_WINDOW_MS : Int := 10 * 60000
def WAKE_VERIFY_MIN_INTERVAL_MS : Int := 30000
def LOOP_GUARD_N : ℕ := 30
def LOOP_GUARD_AGENT_N : ℕ := 15
def LOOP_GUARD_PARTY_N : ℕ := 200
def LOOP_GUARD_AGENT_PARTY_N : ℕ := 50
def WORKFLOW_GUARD_WINDOW : ℕ := 8

inductive StatusState
  | working
  | waiting
  | blocked
  | done
  deriving DecidableEq

def StatusState.text : StatusState → String
  | .working => "working"
  | .waiting => "waiting"
  | .blocked => "blocked"
  | .done => "done"

inductive WorkflowKind
  | pipeline
  | parallel
  | orchestratorWorkers
  | evaluatorOptimizer
  deriving DecidableEq

def isWorkflowChar (c : Char) : Bool := c.isAlphanum || c = '.' || c = '_' || c = ':' || c = '-'

/-- `/^[a-zA-Z0-9][a-zA-Z0-9._:-]{0,127}$/`. -/
def WORKFLOW_ID_RE (s : String) : Bool :=
  match s.toList with
  | [] => false
  | c :: cs => c.isAlphanum && cs.all isWorkflowChar && cs.length ≤ 127

/-- The ids of workflows, runs and steps. -/
def WorkflowId : Type := {s : String // WORKFLOW_ID_RE s = true}

instance : DecidableEq WorkflowId := inferInstanceAs (DecidableEq {_s : String // _})

structure StatusWorkflow where
  workflowId : WorkflowId
  kind : WorkflowKind
  runId : Option WorkflowId
  stepId : Option WorkflowId
  parentSummarySeq : Option ℕ
  deriving DecidableEq

/-- The function that wrote a row of `messages`. -/
inductive Writer
  | handleSend
  | insertSystemStatus
  | insertReviewerReply
  | insertDecisionResponse
  deriving DecidableEq

/-- A row of `messages`, the columns that the guards and the retry check read. -/
structure Message where
  seq : ℕ
  writer : Writer
  sender : Sender
  kind : MessageKind
  body : String
  mentions : List String
  deliveryTargets : List AgentName
  state : Option StatusState
  statusWorkflow : Option StatusWorkflow
  messageWorkflow : Option StatusWorkflow
  idempotencyKey : Option String
  ts : Int
  deriving DecidableEq

/-- A column `recent_tuples`; the parser cuts what it reads to the window. -/
def RecentTuples : Type := {l : List String // l.length ≤ WORKFLOW_GUARD_WINDOW}

instance : DecidableEq RecentTuples := inferInstanceAs (DecidableEq {_l : List String // _})

/-- A row of `workflow_guard_state`. -/
structure WorkflowGuardRow where
  workflowId : WorkflowId
  kind : WorkflowKind
  runId : Option WorkflowId
  stepId : Option WorkflowId
  state : Option StatusState
  countSinceProgress : ℕ
  noProgress : Bool
  recentTuples : RecentTuples
  blockedSeq : Option ℕ
  lastProgressSeq : Option ℕ
  lastCountedSeq : Option ℕ
  initiatorName : Option String
  hostName : Option String
  terminal : Bool
  terminalSeq : Option ℕ
  updatedAt : Int
  deriving DecidableEq

/-- A row of `rate`. -/
structure RateRow where
  name : String
  bucket : Int
  count : ℕ
  deriving DecidableEq

def RateRow.key (r : RateRow) : String × Int := (r.name, r.bucket)

/-- What `cacheChannelMeta` keeps of a channel. A cached limit is positive. -/
structure Settings where
  party : Bool
  loopGuardEnabled : Bool
  loopGuardLimit : Option ℕ
  workflowGuardEnabled : Bool
  workflowGuardLimit : Option ℕ
  deriving DecidableEq

inductive SendFrame
  | message (body : String) (mentions : List String) (replyTo : Option ℕ)
  | status (state : StatusState) (note : String) (mentions : List String)
      (workflow : Option StatusWorkflow)
  deriving DecidableEq

/-- A call of `handleSend`. -/
structure Call where
  sender : Sender
  frame : SendFrame
  idempotencyKey : Option String
  countRate : Bool
  deriving DecidableEq

/-- The codes of a refusal that is neither a guard's nor a limit's. -/
inductive RefusalCode
  | archived
  | unauthorized
  | unavailable
  | badRequest
  | mentionNotFound
  | mentionAmbiguous
  deriving DecidableEq

inductive ErrorCode
  | refusal (code : RefusalCode)
  | tooLarge
  | workflowGuard
  | wakeVerifyRateLimited
  | loopGuard
  | rateLimited
  deriving DecidableEq

structure Refusal where
  code : RefusalCode
  message : String
  deriving DecidableEq

structure SendError where
  code : ErrorCode
  message : String
  deriving DecidableEq

def Refusal.error (r : Refusal) : SendError := ⟨.refusal r.code, r.message⟩

inductive SendOutcome
  | sent (seq : ℕ)
  | deduped (seq : ℕ)
  | failed (error : SendError)
  /-- The transaction was rolled back. -/
  | thrown
  deriving DecidableEq

/-- The answer of `routeMentionsForDelivery`. -/
structure MentionRouting where
  mentions : List String
  deliveryTargets : List AgentName
  deriving DecidableEq

structure Room where
  settings : Settings
  lastSeq : ℕ
  agentStreak : ℕ
  /-- The keys `agent_count:…`; a key that is not there counts as 0. -/
  agentCount : String → ℕ
  loopGuardAlerted : Bool
  /-- The keys `wake_verify_at:…`. -/
  wakeVerifyAt : String → Option Int
  messages : Table Message Message.seq
  /-- The workflow in the status that `presence` has of a name. -/
  statusWorkflow : String → Option StatusWorkflow
  activeHostName : Option String
  rate : Table RateRow RateRow.key
  workflowGuardState : Table WorkflowGuardRow WorkflowGuardRow.workflowId
  /-- The calls that wait for their mentions to be routed. -/
  sends : List Call
  /-- Every row that was ever inserted into `messages`, oldest first. -/
  written : List Message
  /-- Every call that has returned, oldest first. -/
  outcomes : List (Call × SendOutcome)

namespace Room

def initial (settings : Settings) : Room where
  settings := settings
  lastSeq := 0
  agentStreak := 0
  agentCount := fun _ => 0
  loopGuardAlerted := false
  wakeVerifyAt := fun _ => none
  messages := Table.empty
  statusWorkflow := fun _ => none
  activeHostName := none
  rate := Table.empty
  workflowGuardState := Table.empty
  sends := []
  written := []
  outcomes := []

def insertMessage (s : Room) (m : Message) : Room :=
  { s with
    messages := s.messages.insert m
    written := s.written ++ [m] }

/-- `insertSystemStatus`; the number it takes is the next one. -/
def insertSystemStatus (s : Room) (note : String) (now : Int) (state : StatusState)
    (mentions : List String) (workflow : Option StatusWorkflow) : Room :=
  { s with lastSeq := s.lastSeq + 1 }.insertMessage
    { seq := s.lastSeq + 1
      writer := .insertSystemStatus
      sender := Routing.systemSender
      kind := .status
      body := note
      mentions := mentions
      deliveryTargets := []
      state := some state
      statusWorkflow := workflow
      messageWorkflow := none
      idempotencyKey := none
      ts := now }

end Room

end Guards
end AgentParty
