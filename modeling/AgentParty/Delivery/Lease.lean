import AgentParty.Delivery.Data
import Mathlib.Data.List.Sort

/-! The same-name serve lease: which connections are candidates, in which order,
and how `reconcileServeLease` and the recovery fence choose the holder. Frames
sent to connections are returned as (connection id, frame), oldest first. -/

namespace AgentParty

abbrev Outbox := List (String × ServerFrame)

def MAX_SAFE_INTEGER : ℕ := 2 ^ 53 - 1

/-- Collation weights of an ASCII character: punctuation (the underscore first),
digits, letters; case only breaks ties, lower case first. -/
def collationWeight (c : Char) : ℕ × ℕ :=
  if c = '_' then (0, 0)
  else if c.isDigit then (256 + c.toNat, 0)
  else if c.isLower then (512 + c.toNat, 0)
  else if c.isUpper then (512 + c.toLower.toNat, 1)
  else (if c.toNat < 128 then c.toNat else 1024 + c.toNat, 0)

/-- `a.localeCompare(b) <= 0`. -/
def localeLe (a b : String) : Bool :=
  let primary (s : String) := s.toList.map fun c => (collationWeight c).1
  let tertiary (s : String) := s.toList.map fun c => (collationWeight c).2
  primary a < primary b || (primary a = primary b && !(tertiary b < tertiary a : Bool))

/-- The comparator of the candidate lists. -/
def claimOrder (claimSeq : ConnState → Option ℕ) (a b : Connection) : Prop :=
  let left := (claimSeq a.state).getD MAX_SAFE_INTEGER
  let right := (claimSeq b.state).getD MAX_SAFE_INTEGER
  left < right ∨ (left = right ∧ localeLe a.id b.id = true)

instance (claimSeq : ConnState → Option ℕ) : DecidableRel (claimOrder claimSeq) := fun a b =>
  inferInstanceAs (Decidable (_ < _ ∨ (_ = _ ∧ localeLe a.id b.id = true)))

namespace Connections

def getConnections (cs : Connections) : List Connection := cs.rows.filter (·.listed)

/-- `setState` on one connection. -/
def withState (f : ConnState → ConnState) (c : Connection) : Connection :=
  { c with state := f c.state }

@[simp] theorem withState_id (f : ConnState → ConnState) (c : Connection) :
    (withState f c).id = c.id := rfl

def setState (cs : Connections) (id : String) (f : ConnState → ConnState) : Connections :=
  cs.update (fun c => c.id = id) (withState f) (withState_id f)

def closedConnection (lingers : Bool) (c : Connection) : Connection :=
  { c with closed := true, listed := c.listed && lingers }

@[simp] theorem closedConnection_id (lingers : Bool) (c : Connection) :
    (closedConnection lingers c).id = c.id := rfl

/-- `connection.close(…)`. Whether `getConnections()` goes on yielding the socket
is the server library's choice, given by `lingering`. The close event follows later. -/
def close (cs : Connections) (lingering : List String) (id : String) : Connections :=
  cs.update (fun c => c.id = id) (closedConnection (lingering.contains id))
    (closedConnection_id _)

def excluded (excludeId : Option String) (c : Connection) : Bool :=
  match excludeId with
  | none => false
  | some id => c.id = id

def watchLeaseCandidates (cs : Connections) (name : String) (excludeId : Option String) :
    List Connection :=
  ((getConnections cs).filter fun c =>
    !excluded excludeId c && c.state.watchCandidate && c.state.kind = .agent &&
      c.state.name = name).insertionSort (claimOrder (·.watchClaimSeq))

def ofPrincipal (principal : Option String) (c : Connection) : Bool :=
  match principal with
  | none => true
  | some p => c.state.identityDeliveryPrincipal = p

def claimedServeConnections (cs : Connections) (name : String) (excludeId : Option String)
    (principal : Option String) : List Connection :=
  ((getConnections cs).filter fun c =>
    !excluded excludeId c && c.state.serveCandidate && c.state.kind = .agent &&
      c.state.name = name && ofPrincipal principal c).insertionSort (claimOrder (·.serveClaimSeq))

/-- Only an explicit v1 consumer may own a durable directed-delivery lease. -/
def serveLeaseCandidates (cs : Connections) (name : String) (excludeId : Option String)
    (principal : Option String) : List Connection :=
  (claimedServeConnections cs name excludeId principal).filter (·.state.directedDeliveryV1)

/-- The choice within one principal group: the incumbent, else the first v1
claimant, else the first claimant. -/
def leaseHolder (group : List Connection) : Option Connection :=
  match group.find? fun c => c.state.serveLeaseHeld = some true with
  | some incumbent => some incumbent
  | none =>
    match group.find? fun c => c.state.directedDeliveryV1 with
    | some v1 => some v1
    | none => group.head?

def principalGroup (candidates : List Connection) (principal : String) : List Connection :=
  candidates.filter fun c => c.state.identityDeliveryPrincipal = principal

/-- `holderIds`: one choice for each principal among the candidates. -/
def holderIds (candidates : List Connection) : List String :=
  ((candidates.map fun c => c.state.identityDeliveryPrincipal).eraseDups.filterMap fun p =>
    leaseHolder (principalGroup candidates p)).map (·.id)

def withHeld (held : Bool) (st : ConnState) : ConnState := { st with serveLeaseHeld := some held }

/-- One turn of the notification loop. -/
def announceHeld (name : String) (holders : List String) (acc : Connections × Outbox)
    (c : Connection) : Connections × Outbox :=
  let held := holders.contains c.id
  if c.state.serveLeaseHeld = some held then acc
  else (setState acc.1 c.id (withHeld held), acc.2 ++ [(c.id, .serveLease name held)])

/-- `reconcileServeLease`; the dispatch it schedules may start at any time. -/
def reconcileServeLease (cs : Connections) (name : String) (excludeId : Option String) :
    Connections × Outbox :=
  let candidates := claimedServeConnections cs name excludeId none
  candidates.foldl (announceHeld name (holderIds candidates)) (cs, [])

/-- The candidates a serve recovery fences. -/
def fenced (identity : ConnState) (c : Connection) : Bool :=
  c.listed && c.state.kind = .agent && c.state.name = identity.name && c.state.serveCandidate &&
    c.state.identityDeliveryPrincipal = identity.identityDeliveryPrincipal

/-- The recovering connection holds with claim sequence zero, the others do not. -/
def withFence (connectionId : String) (c : Connection) : Connection :=
  if c.id = connectionId then
    { c with state := { c.state with serveClaimSeq := some 0, serveLeaseHeld := some true } }
  else { c with state := { c.state with serveLeaseHeld := some false } }

@[simp] theorem withFence_id (connectionId : String) (c : Connection) :
    (withFence connectionId c).id = c.id := by
  unfold withFence
  split_ifs <;> rfl

def watchFenced (identity : ConnState) (connectionId : String) (c : Connection) : Bool :=
  c.listed && c.id = connectionId && c.state.kind = .agent && c.state.name = identity.name &&
    c.state.watchCandidate &&
    c.state.identityDeliveryPrincipal = identity.identityDeliveryPrincipal

def withWatchFence (st : ConnState) : ConnState := { st with watchClaimSeq := some 0 }

/-- `fenceRecoveredDeliveryConnection`: connections, frames and the answer. -/
def fenceRecoveredDeliveryConnection (cs : Connections) (lingering : List String)
    (identity : ConnState) (connectionId : String) (adapter : Option LeaseAdapter) (previousConnectionId : String) :
    Connections × Outbox × Bool :=
  let cs :=
    if previousConnectionId ≠ "" && previousConnectionId ≠ connectionId &&
        (getConnections cs).any (·.id = previousConnectionId) then
      close cs lingering previousConnectionId
    else cs
  match adapter with
  | some .watch =>
    if cs.rows.any (watchFenced identity connectionId) then
      (setState cs connectionId withWatchFence, [], true)
    else (cs, [], false)
  | some .serve =>
    (cs.update (fenced identity) (withFence connectionId) (withFence_id connectionId),
      (cs.rows.filter (fenced identity)).map fun c =>
        (c.id, .serveLease identity.name (c.id = connectionId)),
      cs.rows.any fun c => fenced identity c && c.id = connectionId)
  | _ => (cs, [], false)

end Connections

end AgentParty
