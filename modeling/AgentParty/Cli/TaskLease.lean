import AgentParty.Lib.Run
import AgentParty.Lib.Table
import Mathlib.Logic.Function.Basic

/-! The task leases of one machine, `task-lease.ts`: a lease file for each key, which an
operation reads, decides on, and writes or unlinks in a step of its own. The operations of
any number of executors take their steps in any order. -/

namespace AgentParty
namespace TaskLease

def isExecutorIdChar (c : Char) : Bool := c.isAlphanum || ['.', '_', ':', '@', '-'].contains c

/-- `/^[A-Za-z0-9][A-Za-z0-9._:@-]{0,127}$/`. -/
def isExecutorId (value : String) : Bool :=
  match value.toList with
  | [] => false
  | c :: rest => c.isAlphanum && rest.length ≤ 127 && rest.all isExecutorIdChar

/-- What `resolveExecutorIdentity` answers, if it answers an id. -/
structure ExecutorId where
  value : String
  valid : isExecutorId value = true
  deriving DecidableEq

/-- What `readLease` accepts as a lease. -/
structure TaskLeaseHolder where
  executorId : ExecutorId
  channel : String
  taskId : Int
  acquiredAt : Int
  renewedAt : Int
  expiresAt : Int
  takenOverFrom : Option ExecutorId := none
  deriving DecidableEq

inductive TaskLeaseState
  | acquired
  | renewed
  | denied
  | forced
  | unenforced
  deriving DecidableEq, Repr

inductive TaskLeaseReason
  | noExecutorIdentity
  | expired
  | takenOver
  | heldByOther
  | leaseStoreUnwritable
  deriving DecidableEq, Repr

structure TaskLeaseResult where
  state : TaskLeaseState
  holder : Option TaskLeaseHolder := none
  reason : Option TaskLeaseReason := none
  deriving DecidableEq

/-- A file of the lease directory; `none` is content that `readLease` refuses. -/
structure LeaseFile where
  name : String
  lease : Option TaskLeaseHolder
  deriving DecidableEq

abbrev Files := Table LeaseFile LeaseFile.name

def leasePath (key : String) : String := key ++ ".json"

def readLease (files : Files) (name : String) : Option TaskLeaseHolder :=
  (files.get? name).bind (·.lease)

structure AcquireTaskLeaseOptions where
  key : String
  channel : String
  taskId : Int
  executorId : Option ExecutorId
  ttlMs : Int
  now : Int
  force : Bool
  deriving DecidableEq

section Acquire

variable (options : AcquireTaskLeaseOptions) (executorId : ExecutorId)
  (existing : Option TaskLeaseHolder)

def mine : Bool := existing.any (·.executorId = executorId)

def live : Bool := existing.any (options.now < ·.expiresAt)

/-- Another executor holds the lease. -/
def refused : Bool :=
  existing.isSome && live options existing && !mine executorId existing && !options.force

def grantedState : TaskLeaseState :=
  if mine executorId existing then .renewed
  else if existing.isSome && live options existing then .forced
  else .acquired

def grantedHolder : TaskLeaseHolder where
  executorId := executorId
  channel := options.channel
  taskId := options.taskId
  acquiredAt :=
    match existing with
    | some holder => if holder.executorId = executorId then holder.acquiredAt else options.now
    | none => options.now
  renewedAt := options.now
  expiresAt := options.now + options.ttlMs
  takenOverFrom :=
    if grantedState options executorId existing = .forced then existing.map (·.executorId) else none

def grantedResult : TaskLeaseResult where
  state := grantedState options executorId existing
  holder := some (grantedHolder options executorId existing)
  reason :=
    match grantedState options executorId existing with
    | .forced => some .takenOver
    | .acquired => if existing.isSome then some .expired else none
    | _ => none

end Acquire

inductive Answer
  | lease (result : TaskLeaseResult)
  | released (removed : Bool)
  | pruned (removed : ℕ)
  deriving DecidableEq

/-- Where a call is; its next step touches the files. -/
inductive Call
  | acquireRead (options : AcquireTaskLeaseOptions) (executorId : ExecutorId)
  | acquireWrite (options : AcquireTaskLeaseOptions) (executorId : ExecutorId)
      (existing : Option TaskLeaseHolder)
  /-- `pruneExpiredTaskLeases`, for itself or at the end of an acquisition. -/
  | pruneList (now : Int) (result : Option TaskLeaseResult)
  | pruneRead (now : Int) (result : Option TaskLeaseResult) (entries : List String) (removed : ℕ)
  | pruneUnlink (now : Int) (result : Option TaskLeaseResult) (entry : String)
      (holder : Option TaskLeaseHolder) (entries : List String) (removed : ℕ)
  | releaseRead (key : String) (executorId : ExecutorId)
  | releaseUnlink (key : String) (executorId : ExecutorId) (existing : Option TaskLeaseHolder)
  | answered (answer : Answer)
  deriving DecidableEq

/-- An executor was granted the lease of the key. -/
structure Grant where
  executorId : ExecutorId
  key : String
  expiresAt : Int
  deriving DecidableEq

/-- `grants` are the answers that no release and no takeover has ended. -/
structure Machine where
  files : Files
  clock : Int
  calls : ℕ → Option Call
  grants : List Grant

namespace Machine

def initial (files : Files) (clock : Int) : Machine := ⟨files, clock, fun _ => none, []⟩

def moveTo (s : Machine) (id : ℕ) (call : Call) : Machine :=
  { s with calls := Function.update s.calls id (some call) }

def unlink (s : Machine) (name : String) : Machine :=
  { s with files := s.files.delete fun file => file.name = name }

/-- A granted lease; a forced one ends the leases of the others. -/
def grant (s : Machine) (options : AcquireTaskLeaseOptions) (executorId : ExecutorId)
    (expiresAt : Int) : Machine :=
  let kept := if options.force then
      s.grants.filter fun g => g.key ≠ options.key || g.executorId = executorId
    else s.grants
  { s with grants := ⟨executorId, options.key, expiresAt⟩ :: kept }

def endGrants (s : Machine) (key : String) (executorId : ExecutorId) : Machine :=
  { s with grants := s.grants.filter fun g => g.key ≠ key || g.executorId ≠ executorId }

/-- The answer of a call whose prune is over. -/
def pruneAnswer (result : Option TaskLeaseResult) (removed : ℕ) : Answer :=
  match result with
  | some result => .lease result
  | none => .pruned removed

/-- The next step of a call. A step that `fails` is a write, an unlink or a directory
listing that throws. -/
def advance (s : Machine) (id : ℕ) (fails : Bool) : Call → Machine
  | .acquireRead options executorId =>
    let existing := readLease s.files (leasePath options.key)
    if refused options executorId existing then
      s.moveTo id (.answered (.lease ⟨.denied, existing, some .heldByOther⟩))
    else s.moveTo id (.acquireWrite options executorId existing)
  | .acquireWrite options executorId existing =>
    if fails then
      s.moveTo id (.answered (.lease ⟨.unenforced, none, some .leaseStoreUnwritable⟩))
    else
      let holder := grantedHolder options executorId existing
      let s := { s with files := s.files.put ⟨leasePath options.key, some holder⟩ }
      (s.grant options executorId holder.expiresAt).moveTo id
        (.pruneList options.now (some (grantedResult options executorId existing)))
  | .pruneList now result =>
    if fails then s.moveTo id (.answered (pruneAnswer result 0))
    else
      let entries := (s.files.rows.map (·.name)).filter (·.endsWith ".json")
      s.moveTo id (.pruneRead now result entries 0)
  | .pruneRead _ result [] removed => s.moveTo id (.answered (pruneAnswer result removed))
  | .pruneRead now result (entry :: entries) removed =>
    let holder := readLease s.files entry
    if holder.any (now < ·.expiresAt) then s.moveTo id (.pruneRead now result entries removed)
    else s.moveTo id (.pruneUnlink now result entry holder entries removed)
  | .pruneUnlink now result entry _ entries removed =>
    if fails || (s.files.get? entry).isNone then
      s.moveTo id (.pruneRead now result entries removed)
    else (s.unlink entry).moveTo id (.pruneRead now result entries (removed + 1))
  | .releaseRead key executorId =>
    let existing := readLease s.files (leasePath key)
    if mine executorId existing then s.moveTo id (.releaseUnlink key executorId existing)
    else s.moveTo id (.answered (.released false))
  | .releaseUnlink key executorId _ =>
    if fails || (s.files.get? (leasePath key)).isNone then
      s.moveTo id (.answered (.released false))
    else
      ((s.unlink (leasePath key)).endGrants key executorId).moveTo id (.answered (.released true))
  | .answered _ => s

end Machine

inductive Event
  | tick (ms : ℕ)
  | acquireTaskLease (id : ℕ) (options : AcquireTaskLeaseOptions)
  | releaseTaskLease (id : ℕ) (key : String) (executorId : Option ExecutorId)
  | pruneExpiredTaskLeases (id : ℕ)
  | step (id : ℕ) (fails : Bool)

namespace Machine

/-- A call is new, and reads the clock as it starts. -/
def Enabled (s : Machine) : Event → Prop
  | .tick _ => True
  | .acquireTaskLease id options => s.calls id = none ∧ options.now = s.clock
  | .releaseTaskLease id _ _ => s.calls id = none
  | .pruneExpiredTaskLeases id => s.calls id = none
  | .step id _ => (s.calls id).isSome

instance (s : Machine) : (e : Event) → Decidable (s.Enabled e)
  | .tick _ => inferInstanceAs (Decidable True)
  | .acquireTaskLease id options =>
    inferInstanceAs (Decidable (s.calls id = none ∧ options.now = s.clock))
  | .releaseTaskLease id _ _ => inferInstanceAs (Decidable (s.calls id = none))
  | .pruneExpiredTaskLeases id => inferInstanceAs (Decidable (s.calls id = none))
  | .step id _ => inferInstanceAs (Decidable ((s.calls id).isSome = true))

def next (s : Machine) : Event → Machine
  | .tick ms => { s with clock := s.clock + ms }
  | .acquireTaskLease id options =>
    match options.executorId with
    | none =>
      s.moveTo id (.answered (.lease ⟨.unenforced, none, some .noExecutorIdentity⟩))
    | some executorId => s.moveTo id (.acquireRead options executorId)
  | .releaseTaskLease id key executorId =>
    match executorId with
    | none => s.moveTo id (.answered (.released false))
    | some executorId => s.moveTo id (.releaseRead key executorId)
  | .pruneExpiredTaskLeases id => s.moveTo id (.pruneList s.clock none)
  | .step id fails =>
    match s.calls id with
    | none => s
    | some call => s.advance id fails call

def Step (s : Machine) (e : Event) (s' : Machine) : Prop := s.Enabled e ∧ s' = s.next e

abbrev Run := EventSystem.Run Step

end Machine
end TaskLease
end AgentParty
