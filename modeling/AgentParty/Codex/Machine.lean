import AgentParty.Codex.Observe
import AgentParty.Lib.Run
import Mathlib.Data.List.Induction

/-! The lane over time. `serialize` runs one operation after another, so a run is the
list of operations with the answers each of them gets; what happens outside between
two of them is in the answers and in the next operation. -/

namespace AgentParty
namespace Codex

inductive Op
  | submit (input : BridgeInput) (answers : Answers)
  | cancelQueued (clientUserMessageId : String)
  | enterUnsteerable (state : Special) (turnId : Option String)
  | runInteractiveMutation (method : InteractiveMutation)
      (answer : Except Thrown (Option String)) (answers : Answers)
  | observeResume (thread : Thread) (backendRestarted : Bool) (answers : Answers)
  | observeTurnStarted (turnId : String) (clientIds : List String) (answers : Answers)
  | observeTurnCompleted (turnId : String) (answers : Answers)
  | observeThreadIdle (answers : Answers)
  | observeUserShellStarted (turnId itemId : String)
  | observeUserShellCompleted (turnId itemId : String) (answers : Answers)
  | resolveUnknownOutcome (input : BridgeInput) (outcome : Resolution) (answers : Answers)
  /-- The retry timer fires and waits for the lane. -/
  | timerFires
  /-- The lane gets to a fired timer. -/
  | retryFlush (answers : Answers)

/-- The ids whose fate an operation shows: those of a resumed history or of a started
turn, and the one that is resolved. -/
def Op.evidence : Op → List String
  | .observeResume thread _ _ => thread.turns.flatMap (·.clientIds)
  | .observeTurnStarted _ clientIds _ => clientIds
  | .resolveUnknownOutcome input _ _ =>
    (input.compactInput.map (·.clientUserMessageId)).toList
  | _ => []

namespace Lane

def apply (s : Lane) : Op → Lane
  | .submit input answers => (s.submit input answers).1
  | .cancelQueued clientId => (s.cancelQueued clientId).1
  | .enterUnsteerable state turnId => s.enterUnsteerable state turnId
  | .runInteractiveMutation method answer answers =>
    (s.runInteractiveMutation method answer answers).1
  | .observeResume thread backendRestarted answers =>
    (s.observeResume thread backendRestarted answers).1
  | .observeTurnStarted turnId clientIds answers =>
    (s.observeTurnStarted turnId clientIds answers).1
  | .observeTurnCompleted turnId answers => (s.observeTurnCompleted turnId answers).1
  | .observeThreadIdle answers => (s.observeThreadIdle answers).1
  | .observeUserShellStarted turnId itemId => s.observeUserShellStarted turnId itemId
  | .observeUserShellCompleted turnId itemId answers =>
    (s.observeUserShellCompleted turnId itemId answers).1
  | .resolveUnknownOutcome input outcome answers =>
    (s.resolveUnknownOutcome input outcome answers).1
  | .timerFires => s.modify fun a => { a with flushRetryArmed := false }
  | .retryFlush answers => s.retryFlush answers

end Lane

/-- A lane and the fired timers that wait for it. -/
structure Session where
  lane : Lane
  waitingRetries : ℕ

namespace Session

def initial (options : ArbiterOptions) : Session := ⟨⟨Arbiter.new options, []⟩, 0⟩

def Enabled (s : Session) : Op → Prop
  | .timerFires => s.lane.arbiter.flushRetryArmed = true
  | .retryFlush _ => 0 < s.waitingRetries
  | _ => True

def next (s : Session) (op : Op) : Session where
  lane := s.lane.apply op
  waitingRetries := match op with
    | .timerFires => s.waitingRetries + 1
    | .retryFlush _ => s.waitingRetries - 1
    | _ => s.waitingRetries

def Step (s : Session) (op : Op) (s' : Session) : Prop := s.Enabled op ∧ s' = s.next op

abbrev Run := EventSystem.Run Step

def exec (s : Session) (ops : List Op) : Session := ops.foldl next s

/-- Operations that wait for no timer run as they come. -/
theorem run_exec {s : Session} {ops : List Op}
    (h : ∀ op ∈ ops, ∀ s : Session, s.Enabled op) : Run s ops (s.exec ops) := by
  induction ops using List.reverseRecOn with
  | nil => exact EventSystem.Run.nil
  | append_singleton ops op ih =>
    rw [exec, List.foldl_concat]
    exact (ih fun o ho => h o (List.mem_append_left _ ho)).snoc ⟨h op (by simp) _, rfl⟩

def Reachable (options : ArbiterOptions) (s : Session) : Prop := ∃ ops, Run (initial options) ops s

end Session
end Codex
end AgentParty
