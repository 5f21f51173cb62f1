import AgentParty.Lib.Run
import Mathlib.Data.Nat.Notation
import Mathlib.Logic.Function.Basic

/-! The instance lock of one path, `instance-lock.ts`: a lock file that its holder creates
with `O_EXCL` and writes in a second step, and a reclaim file that orders the removal of a
stale lock. Any number of calls take their steps in any order, and a process may die at any
moment. -/

namespace AgentParty
namespace InstanceLock

/-- A process, with the birth time that tells it from a later one of its pid. -/
structure Process where
  pid : Int
  startedAt : Int
  deriving DecidableEq

structure ProcessOwner where
  pid : Int
  startedAt : Option Int
  deriving DecidableEq

structure ProcessIdentity where
  alive : Bool
  startedAt : Option Int := none
  deriving DecidableEq

/-- The fields of a lock file that are read. -/
structure LockHolder where
  pid : Option Int := none
  id : Option String := none
  startedAt : Option Int := none
  parentBound : Bool := false
  parentPid : Option Int := none
  parentStartedAt : Option Int := none
  deriving DecidableEq

section Probe

variable (inspectProcess : Int → ProcessIdentity)

def sameLiveProcess (pid : Int) (startedAt : Option Int) : Bool :=
  decide (0 < pid) && (inspectProcess pid).alive &&
    match startedAt, (inspectProcess pid).startedAt with
    | some recorded, some probed => decide ((recorded - probed).natAbs ≤ 2000)
    | _, _ => true

def holderProcessAlive (holder : Option LockHolder) : Bool :=
  match holder with
  | none => false
  | some holder =>
    match holder.pid with
    | none => false
    | some pid => sameLiveProcess inspectProcess pid holder.startedAt

def holderAlive (holder : Option LockHolder) : Bool :=
  holderProcessAlive inspectProcess holder &&
    match holder with
    | none => false
    | some holder =>
      !holder.parentBound ||
        match holder.parentPid with
        | none => false
        | some pid => decide (1 < pid) && sameLiveProcess inspectProcess pid holder.parentStartedAt

end Probe

def pidOf (holder : Option LockHolder) : Option Int := holder.bind (·.pid)

/-- The id of a lock file; without one the code writes `legacy:` and the pid, or
`legacy:invalid`. -/
inductive Generation
  | id (id : String)
  | legacy (pid : Option Int)
  deriving DecidableEq

def generationOf : Option LockHolder → Generation
  | none => .legacy none
  | some holder =>
    match holder.id with
    | some id => .id id
    | none => .legacy holder.pid

/-- What a call of `acquireInstanceLock` knows of itself. -/
structure Caller where
  process : Process
  parentOwner : Option ProcessOwner
  lockId : String
  deriving DecidableEq

def Caller.body (caller : Caller) : LockHolder where
  pid := some caller.process.pid
  id := some caller.lockId
  startedAt := some caller.process.startedAt
  parentBound := caller.parentOwner.isSome
  parentPid := caller.parentOwner.map (·.pid)
  parentStartedAt := caller.parentOwner.bind (·.startedAt)

/-- The reclaim file has no birth time; its id is not read by anyone. -/
def Caller.reclaimBody (caller : Caller) : LockHolder where
  pid := some caller.process.pid

/-- The calls on one path; `randomUUID` gives each an id of its own. -/
structure Callers where
  caller : ℕ → Caller
  distinct : Function.Injective fun i => (caller i).lockId

/-- A file at one of the two paths. The code sees its body alone, and `none` is a body that
does not parse, as that of a file still to be written; `creator` is the call that made it. -/
structure LockFile where
  creator : Option ℕ
  body : Option LockHolder
  deriving DecidableEq

/-- How the code inside the reclaim lock comes out of it. -/
inductive Outcome
  | denied (heldByPid : Option Int)
  | retry (generation : Generation)
  | held
  deriving DecidableEq

/-- Where a call is; its next step touches one file or inspects processes. -/
inductive Call
  | creating (stale : Option Generation)
  | filling
  | reading (stale : Option Generation)
  | judging (held : Option LockHolder) (stale : Option Generation)
  | judgingOrphan (held : Option LockHolder) (stale : Option Generation)
  /-- The head of the loop that waits for an orphaned holder. -/
  | waiting (observed : Generation) (current : Option LockHolder) (stale : Option Generation)
  | judgingWait (observed : Generation) (current : Option LockHolder) (stale : Option Generation)
  | waited (observed : Generation) (current : Option LockHolder) (stale : Option Generation)
  | reclaiming (stale : Generation)
  | readingReclaim (stale : Generation)
  | judgingReclaim (stale : Generation) (seen : Option LockFile)
  | removingReclaim (stale : Generation) (seen : LockFile)
  | fillingReclaim (stale : Generation)
  | inside (stale : Generation)
  | judgingInside (stale : Generation) (seen : Option LockFile)
  | unlinking (stale : Generation) (seen : Option LockFile)
  | recreating (stale : Generation)
  | refilling
  | leaving (outcome : Outcome)
  | denied (heldByPid : Option Int)
  | holding
  /-- `release`, which may be called `again`. -/
  | releasing (again : Bool)
  | dropping (again : Bool)
  | released
  deriving DecidableEq

structure Machine where
  path : Option LockFile
  reclaimPath : Option LockFile
  live : List Process
  gone : List Process
  calls : ℕ → Option Call

inductive Event
  | start (process : Process)
  | die (process : Process)
  | acquireInstanceLock (id : ℕ)
  | release (id : ℕ)
  | step (id : ℕ) (inspectProcess : Int → ProcessIdentity) (deadlinePassed : Bool)

namespace Machine

/-- No process runs yet; files of earlier days may lie about. -/
def initial (path reclaimPath : Option LockFile) : Machine :=
  ⟨path, reclaimPath, [], [], fun _ => none⟩

def moveTo (s : Machine) (id : ℕ) (call : Call) : Machine :=
  { s with calls := Function.update s.calls id (some call) }

def createPath (s : Machine) (id : ℕ) : Machine := { s with path := some ⟨some id, none⟩ }

def createReclaim (s : Machine) (id : ℕ) : Machine :=
  { s with reclaimPath := some ⟨some id, none⟩ }

def unlinkPath (s : Machine) : Machine := { s with path := none }

def unlinkReclaim (s : Machine) : Machine := { s with reclaimPath := none }

/-- A write goes to the file that the call opened, whether or not it is still at the path. -/
def fill (file : Option LockFile) (id : ℕ) (body : LockHolder) : Option LockFile :=
  file.map fun file => if file.creator = some id then { file with body := some body } else file

def writePath (s : Machine) (id : ℕ) (body : LockHolder) : Machine :=
  { s with path := fill s.path id body }

def writeReclaim (s : Machine) (id : ℕ) (body : LockHolder) : Machine :=
  { s with reclaimPath := fill s.reclaimPath id body }

/-- `readHolder`. -/
def readHolder (file : Option LockFile) : Option LockHolder := file.bind (·.body)

/-- The next step of a call. -/
def advance (s : Machine) (caller : Caller) (id : ℕ) (inspectProcess : Int → ProcessIdentity)
    (deadlinePassed : Bool) : Call → Machine
  | .creating stale =>
    if s.path.isSome then s.moveTo id (.reading stale)
    else (s.createPath id).moveTo id .filling
  | .filling => (s.writePath id caller.body).moveTo id .holding
  | .reading stale => s.moveTo id (.judging (readHolder s.path) stale)
  | .judging held stale =>
    if holderAlive inspectProcess held then s.moveTo id (.denied (pidOf held))
    else s.moveTo id (.judgingOrphan held stale)
  | .judgingOrphan held stale =>
    if holderProcessAlive inspectProcess held then
      s.moveTo id (.waiting (generationOf held) held stale)
    else if stale.any (generationOf held ≠ ·) then s.moveTo id (.denied (pidOf held))
    else s.moveTo id (.reclaiming (generationOf held))
  | .waiting observed current stale =>
    if deadlinePassed then s.moveTo id (.waited observed current stale)
    else s.moveTo id (.judgingWait observed (readHolder s.path) stale)
  | .judgingWait observed current stale =>
    if generationOf current ≠ observed ∨ ¬ holderProcessAlive inspectProcess current then
      s.moveTo id (.waited observed current stale)
    else s.moveTo id (.waiting observed current stale)
  | .waited observed current stale =>
    if generationOf current ≠ observed then s.moveTo id (.creating stale)
    else if holderProcessAlive inspectProcess current then s.moveTo id (.denied (pidOf current))
    else s.moveTo id (.creating stale)
  | .reclaiming stale =>
    if s.reclaimPath.isSome then s.moveTo id (.readingReclaim stale)
    else (s.createReclaim id).moveTo id (.fillingReclaim stale)
  | .readingReclaim stale => s.moveTo id (.judgingReclaim stale s.reclaimPath)
  | .judgingReclaim stale seen =>
    match seen with
    | none => s.moveTo id (.creating (some stale))
    | some seen =>
      if (pidOf seen.body).isSome && !holderAlive inspectProcess seen.body then
        s.moveTo id (.removingReclaim stale seen)
      else s.moveTo id (.creating (some stale))
  | .removingReclaim stale _ => s.unlinkReclaim.moveTo id (.creating (some stale))
  | .fillingReclaim stale => (s.writeReclaim id caller.reclaimBody).moveTo id (.inside stale)
  | .inside stale => s.moveTo id (.judgingInside stale s.path)
  | .judgingInside stale seen =>
    let current := readHolder seen
    if holderAlive inspectProcess current then s.moveTo id (.leaving (.denied (pidOf current)))
    else if generationOf current ≠ stale then s.moveTo id (.leaving (.denied (pidOf current)))
    else s.moveTo id (.unlinking stale seen)
  | .unlinking stale _ => s.unlinkPath.moveTo id (.recreating stale)
  | .recreating stale =>
    if s.path.isSome then s.moveTo id (.leaving (.retry stale))
    else (s.createPath id).moveTo id .refilling
  | .refilling => (s.writePath id caller.body).moveTo id (.leaving .held)
  | .leaving outcome =>
    s.unlinkReclaim.moveTo id
      (match outcome with
      | .denied heldByPid => .denied heldByPid
      | .retry stale => .creating (some stale)
      | .held => .holding)
  | .releasing again =>
    if (readHolder s.path).any (·.id = some caller.lockId) then s.moveTo id (.dropping again)
    else s.moveTo id .released
  | .dropping _ => s.unlinkPath.moveTo id .released
  | .denied _ | .holding | .released => s

variable (callers : Callers)

/-- A process once gone does not come back, and an inspection reports every live process as
the live one it is. -/
def Enabled (s : Machine) : Event → Prop
  | .start process => process ∉ s.live ∧ process ∉ s.gone
  | .die process => process ∈ s.live
  | .acquireInstanceLock id => (callers.caller id).process ∈ s.live ∧ s.calls id = none
  | .release id =>
    (callers.caller id).process ∈ s.live ∧
      (s.calls id = some .holding ∨ s.calls id = some .released)
  | .step id inspectProcess _ =>
    (callers.caller id).process ∈ s.live ∧
      ∀ p ∈ s.live, sameLiveProcess inspectProcess p.pid (some p.startedAt) = true

instance (s : Machine) : (e : Event) → Decidable (s.Enabled callers e)
  | .start _ => inferInstanceAs (Decidable (_ ∧ _))
  | .die _ => inferInstanceAs (Decidable (_ ∈ _))
  | .acquireInstanceLock _ => inferInstanceAs (Decidable (_ ∧ _))
  | .release _ => inferInstanceAs (Decidable (_ ∧ _))
  | .step _ _ _ => inferInstanceAs (Decidable (_ ∧ _))

def next (s : Machine) : Event → Machine
  | .start process => { s with live := process :: s.live }
  | .die process =>
    { s with live := s.live.filter (· ≠ process), gone := process :: s.gone }
  | .acquireInstanceLock id => s.moveTo id (.creating none)
  | .release id => s.moveTo id (.releasing (s.calls id = some .released))
  | .step id inspectProcess deadlinePassed =>
    match s.calls id with
    | none => s
    | some call => s.advance (callers.caller id) id inspectProcess deadlinePassed call

def Step (s : Machine) (e : Event) (s' : Machine) : Prop :=
  s.Enabled callers e ∧ s' = s.next callers e

abbrev Run := EventSystem.Run (Step callers)

end Machine
end InstanceLock
end AgentParty
