import AgentParty.Lib.Run
import Mathlib.Data.List.Sort

/-! The loop of `runServe` on a server without directed delivery frames, with the client's
`connect` below it and the restarts of `superviseServe` above it. The cursor and the debt are
written to their files in the same step as in memory, so they are kept once. -/

namespace AgentParty
namespace Serve

def MAX_CONSECUTIVE_WAKE_ABANDONS : ℕ := 3

/-- `maxUnackedFrames` and `maxWakeAttempts` are at least 1. -/
structure ServeOptions where
  self : String
  mentionsOnly : Bool
  skipBacklog : Bool
  maxUnackedFrames : ℕ
  maxAttempts : ℕ
  deriving DecidableEq

/-- `wakeVerify` is `isWakeVerifyFrame`; `revision` the fingerprint of a revision snapshot. -/
structure Msg where
  seq : ℕ
  sender : String
  mentions : List String
  wakeVerify : Bool
  revision : Option String
  deriving DecidableEq

/-- Presence and lease frames of the agent itself. -/
inductive Frame
  | welcome (lastSeq : ℕ) (directedDelivery paused : Bool)
  | serveLease (held : Bool)
  | presence (paused : Bool)
  | msg (m : Msg)
  deriving DecidableEq

/-- The debt file. -/
structure StuckWake where
  seq : ℕ
  attempts : ℕ
  retriable : Bool
  terminationUnconfirmed : Bool
  deriving DecidableEq

structure Connection where
  unacked : List Msg
  deliveredRevisions : List (ℕ × String)
  queue : List Frame
  /-- The replay buffer has run over. -/
  failed : Bool
  deriving DecidableEq

/-- Where the handling of a wake stands: at which `await`, or in front of which write. -/
inductive Phase
  | preparing
  /-- The failed preparation is being announced. -/
  | preflightFailed
  /-- The failed preparation is not announced. -/
  | preflightSkipped
  /-- The debt is cleared, the message is not acked yet. -/
  | preflightSettled
  | running (attempt : ℕ)
  /-- In front of the attempt, with the failure of the last one on disk. -/
  | retrying (attempt : ℕ)
  | givingUp
  | heldConfig
  | circuit
  /-- In front of the common end of the frame. -/
  | settled
  deriving DecidableEq

structure Work where
  frame : Msg
  attemptFloor : ℕ
  retriable : Bool
  terminationUnconfirmed : Bool
  phase : Phase
  deriving DecidableEq

/-- The memory of one `runServe`. -/
structure Instance where
  conn : Connection
  backlogCutoff : Option ℕ
  attachHead : Option ℕ
  directedDeliveryMode : Bool
  hasLease : Bool
  leaseKnown : Bool
  selfPaused : Bool
  deferredLeaseSeq : Option ℕ
  consecutiveWakeAbandons : ℕ
  work : Option Work
  deriving DecidableEq

structure State where
  cursor : ℕ
  stuck : Option StuckWake
  /-- `backlogCutoff` of the supervisor. -/
  backlogCutoff : Option ℕ
  inst : Option Instance
  /-- The messages of the runner starts. -/
  starts : List ℕ
  deriving DecidableEq

namespace Connection

/-- `onmessage`. A revision snapshot passes the look at the cursor, once per fingerprint. -/
def receive (c : Connection) (o : ServeOptions) (cursor : ℕ) (f : Frame) : Connection :=
  match f with
  | .msg m =>
    match m.revision with
    | some fp =>
      if c.deliveredRevisions.lookup m.seq = some fp then c
      else { c with
        deliveredRevisions := (m.seq, fp) :: c.deliveredRevisions
        queue := c.queue ++ [Frame.msg m] }
    | none =>
      if m.seq ≤ cursor || c.unacked.any (·.seq = m.seq) then c
      else if o.maxUnackedFrames ≤ c.unacked.length then { c with queue := [], failed := true }
      else { c with unacked := c.unacked ++ [m], queue := c.queue ++ [Frame.msg m] }
  | f => { c with queue := c.queue ++ [f] }

def pending (c : Connection) (seq : ℕ) : Bool :=
  c.queue.any fun f => match f with
    | .msg m => m.seq = seq
    | _ => false

/-- The unacked frames that are not in the queue come to its front, in the order of `seq`. -/
def replayUnacked (c : Connection) (cursor : ℕ) : Connection :=
  let frames := (c.unacked.filter fun m => cursor < m.seq && !c.pending m.seq).insertionSort
    fun a b => a.seq ≤ b.seq
  { c with queue := frames.map Frame.msg ++ c.queue }

end Connection

section Qualification

variable (o : ServeOptions) (s : State) (i : Instance) (m : Msg)

def fromSelf : Bool := m.sender = o.self && !m.wakeVerify

def fresh : Bool := s.cursor < m.seq

def isDebt : Bool := s.stuck.any (·.seq = m.seq)

def isBacklog : Bool :=
  o.skipBacklog && i.attachHead.any fun head => m.seq ≤ min head (i.backlogCutoff.getD head)

def mentionOwnedByDelivery : Bool := i.directedDeliveryMode && m.mentions.contains o.self

def passesFilter : Bool :=
  !fromSelf o m && !isBacklog o i m && !mentionOwnedByDelivery o i m &&
    (!o.mentionsOnly || m.mentions.contains o.self)

/-- A debt that is open keeps every other message from running. -/
def blockedByDebt : Bool := s.stuck.isSome && !isDebt s m

def wouldWake : Bool := fresh s m && !blockedByDebt s m && (isDebt s m || passesFilter o i m)

def deferredForLease : Bool := wouldWake o s i m && !i.selfPaused && !i.hasLease

def qualifies : Bool := wouldWake o s i m && !i.selfPaused && i.hasLease

end Qualification

/-- How a preparation ends; `undispatched` is the silent skip of a managed worker. -/
inductive Preparation
  | ok
  | failed (retriable : Bool)
  | undispatched
  deriving DecidableEq

inductive Outcome
  | success
  /-- `configuration` is a broken file of the runner. -/
  | failed (retriable configuration terminationUnconfirmed : Bool)
  deriving DecidableEq

inductive Event
  /-- A new `runServe`, by the supervisor or by a new process. -/
  | start
  /-- `runServe` returns where it waits: shutdown, an error frame, the end of the stream. -/
  | exit
  /-- The process is killed. -/
  | kill
  | arrive (f : Frame)
  | take
  | prepared (p : Preparation)
  | ran (r : Outcome)
  /-- A status post has succeeded or failed. -/
  | posted (ok : Bool)
  | proceed
  deriving DecidableEq

namespace State

def withInst (s : State) (i : Instance) : State := { s with inst := some i }

def withWork (s : State) (i : Instance) (w : Work) : State := s.withInst { i with work := some w }

/-- `advance`, for an ack. -/
def ack (s : State) (i : Instance) (seq : ℕ) : State :=
  let cursor := max s.cursor seq
  let conn := { i.conn with unacked := i.conn.unacked.filter fun m => cursor < m.seq }
  { s with cursor := cursor, inst := some { i with conn := conn } }

def heldForLease (i : Instance) (m : Msg) : Bool := i.deferredLeaseSeq.any (· ≤ m.seq)

/-- The common end of a message. -/
def finish (s : State) (i : Instance) (m : Msg) : State :=
  if s.stuck.all (m.seq < ·.seq) && !heldForLease i m then s.ack i m.seq else s.withInst i

def welcome (s : State) (i : Instance) (lastSeq : ℕ) (directedDelivery paused : Bool) : State :=
  { s with
    backlogCutoff := if i.attachHead.isNone then s.backlogCutoff.or (some lastSeq)
      else s.backlogCutoff
    inst := some { i with
      attachHead := i.attachHead.or (some lastSeq)
      directedDeliveryMode := directedDelivery
      leaseKnown := false
      selfPaused := paused } }

def serveLease (s : State) (i : Instance) (held : Bool) : State :=
  let takingOver := i.leaseKnown && !i.hasLease && held
  s.withInst { i with
    hasLease := held
    leaseKnown := true
    conn := if takingOver then i.conn.replayUnacked s.cursor else i.conn
    deferredLeaseSeq := if takingOver then none else i.deferredLeaseSeq }

/-- The wake begins where the debt file stands. -/
def beginWake (s : State) (i : Instance) (m : Msg) : State :=
  let debt := s.stuck.filter fun w => w.seq = m.seq
  s.withWork i ⟨m, (debt.map (·.attempts)).getD 0, debt.all (·.retriable),
    debt.any (·.terminationUnconfirmed), .preparing⟩

def message (o : ServeOptions) (s : State) (i : Instance) (m : Msg) : State :=
  if qualifies o s i m then s.beginWake i m
  else if deferredForLease o s i m then
    s.finish { i with
      deferredLeaseSeq := some (min (i.deferredLeaseSeq.getD m.seq) m.seq) } m
  else s.finish i m

def take (o : ServeOptions) (s : State) (i : Instance) : State :=
  match i.conn.queue with
  | [] => s
  | f :: queue =>
    let i := { i with conn := { i.conn with queue := queue } }
    match f with
    | .welcome lastSeq directedDelivery paused => s.welcome i lastSeq directedDelivery paused
    | .serveLease held => s.serveLease i held
    | .presence paused => s.withInst { i with selfPaused := paused }
    | .msg m => s.message o i m

/-- The head of the attempt loop. -/
def attempt (o : ServeOptions) (s : State) (i : Instance) (w : Work) (k : ℕ) : State :=
  if k ≤ o.maxAttempts && w.retriable then
    { s.withWork i { w with phase := .running k } with starts := s.starts ++ [w.frame.seq] }
  else s.withWork i { w with phase := .givingUp }

def prepared (o : ServeOptions) (s : State) (i : Instance) (w : Work) : Preparation → State
  | .ok => s.attempt o i w (w.attemptFloor + 1)
  | .failed retriable =>
    let used := w.attemptFloor + 1
    let w := { w with attemptFloor := used, retriable := retriable }
    let s := { s with stuck := some ⟨w.frame.seq, used, retriable, false⟩ }
    if retriable && used < o.maxAttempts then s.withWork i w
    else s.withWork i { w with phase := .preflightFailed }
  | .undispatched =>
    let used := w.attemptFloor + 1
    { s with stuck := some ⟨w.frame.seq, used, false, false⟩ }.withWork i
      { w with attemptFloor := used, retriable := false, phase := .preflightSkipped }

def ran (s : State) (i : Instance) (w : Work) (k : ℕ) : Outcome → State
  | .success =>
    { s with stuck := s.stuck.filter fun debt => debt.seq ≠ w.frame.seq }.withWork
      { i with consecutiveWakeAbandons := 0 } { w with phase := .settled }
  | .failed retriable configuration terminationUnconfirmed =>
    let w := { w with retriable := retriable, terminationUnconfirmed := terminationUnconfirmed }
    let s := { s with stuck := some ⟨w.frame.seq, k, retriable, terminationUnconfirmed⟩ }
    s.withWork i { w with phase := if configuration then .heldConfig else .retrying (k + 1) }

def posted (s : State) (i : Instance) (w : Work) (ok : Bool) : State :=
  match w.phase with
  | .preflightFailed =>
    if ok then
      { s with stuck := none }.withWork i { w with phase := .preflightSettled }
    else { s with inst := none }
  | .givingUp =>
    if ok then
      let abandons := i.consecutiveWakeAbandons + 1
      let trips := w.terminationUnconfirmed || MAX_CONSECUTIVE_WAKE_ABANDONS ≤ abandons
      { s with stuck := none }.withWork
        { i with consecutiveWakeAbandons := abandons }
        { w with phase := if trips then .circuit else .settled }
    else { s with inst := none }
  | .heldConfig => { s with inst := none }
  | .circuit => { s.finish { i with work := none } w.frame with inst := none }
  | _ => s

/-- The loop goes on behind a write, or behind the delay of a retry. -/
def proceed (o : ServeOptions) (s : State) (i : Instance) (w : Work) : State :=
  match w.phase with
  | .retrying k => s.attempt o i w k
  | .preflightSkipped =>
    { s with stuck := none }.withWork i { w with phase := .preflightSettled }
  | .preflightSettled => s.ack { i with work := none } w.frame.seq
  | .settled => s.finish { i with work := none } w.frame
  | _ => s

def attach (s : State) : Instance :=
  ⟨⟨[], [], [], false⟩, s.backlogCutoff, none, false, true, false, false, none, 0, none⟩

def next (o : ServeOptions) (s : State) : Event → State
  | .start => s.withInst s.attach
  | .exit => { s with inst := none }
  | .kill => { s with inst := none, backlogCutoff := none }
  | e =>
    match s.inst with
    | none => s
    | some i =>
      match e, i.work with
      | .arrive f, _ => s.withInst { i with conn := i.conn.receive o s.cursor f }
      | .take, none => s.take o i
      | .prepared p, some w => s.prepared o i w p
      | .ran r, some w =>
        match w.phase with
        | .running k => s.ran i w k r
        | _ => s
      | .posted ok, some w => s.posted i w ok
      | .proceed, some w => s.proceed o i w
      | _, _ => s

end State

namespace Phase

def isRunning : Phase → Bool
  | .running _ => true
  | _ => false

/-- The runner has done with the wake, and what remains has no `await` that can be aborted. -/
def closing : Phase → Bool
  | .preflightSkipped | .preflightSettled | .settled | .circuit => true
  | _ => false

def announcing : Phase → Bool
  | .preflightFailed | .givingUp | .heldConfig | .circuit => true
  | _ => false

def goesOn : Phase → Bool
  | .retrying _ | .preflightSkipped | .preflightSettled | .settled => true
  | _ => false

end Phase

/-- The process is at work, in one of these phases. -/
def State.atPhase (s : State) (p : Phase → Bool) : Bool :=
  s.inst.any fun i => i.work.any fun w => p w.phase

def State.Ready (s : State) : Event → Prop
  | .start => s.inst = none
  | .exit => s.atPhase Phase.closing = false
  | .kill => True
  | .arrive _ => s.inst.any (!·.conn.failed) = true
  | .take => s.inst.any (fun i => i.work.isNone && !i.conn.queue.isEmpty) = true
  | .prepared _ => s.atPhase (· = .preparing) = true
  | .ran _ => s.atPhase Phase.isRunning = true
  | .posted _ => s.atPhase Phase.announcing = true
  | .proceed => s.atPhase Phase.goesOn = true

instance (s : State) (e : Event) : Decidable (s.Ready e) := by
  cases e <;> unfold State.Ready <;> infer_instance

def Step (o : ServeOptions) (s : State) (e : Event) (s' : State) : Prop :=
  s.Ready e ∧ s' = s.next o e

abbrev Run (o : ServeOptions) := EventSystem.Run (Step o)

/-- No process is running; the files are as they are. -/
def State.initial (cursor : ℕ) (stuck : Option StuckWake) : State :=
  ⟨cursor, stuck, none, none, []⟩

end Serve
end AgentParty
