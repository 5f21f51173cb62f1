import AgentParty.Delivery.Lease

/-! The life of the sockets: connection, message handlers that read their socket's
state before they wait and write it back afterwards, hello, the serve claim, the
watch registration, and the ways a socket goes. Each constructor of
`SocketEvent` is one stretch between two waits. -/

namespace AgentParty

def HELLO_TIMEOUT_MS : Int := 8000
def OCS_ROSTER_MIN_INTERVAL_MS : Int := 5000

structure Sockets where
  connections : Connections
  claimSeq : ℕ
  sent : Outbox

/-- Why the server closes a socket: `closeHelloExpired`, `closeRevokedConnection` for its
token or for its removed participant, `closeUpgradeRequired`. -/
inductive CloseCause
  | helloExpired
  | revoked
  | removed
  | upgradeRequired
  deriving DecidableEq, Repr

inductive SocketEvent
  /-- `onConnect`. -/
  | connected (id : String) (identity : Identity) (now : Int)
  /-- A handler reads `connection.state`, then waits. -/
  | frameBegins (id : String)
  /-- It writes the state back with a new `lastSeen`, then waits for the token check. -/
  | frameTouched (id : String)
  | frameEnds (id : String)
  | hello (id : String) (directedDelivery recovery : Bool) (since : ℕ)
  | claimServe (id : String) (v1Conflict : Bool)
  | registerWatch (id : String)
  /-- `canWrite` of the handler's state, and whether the sessions of the frame parse. -/
  | ocsRoster (id : String) (canWrite parsed : Bool) (now : Int)
  | serverCloses (id : String) (cause : CloseCause) (lingering : List String)
  /-- `getConnections()` no longer yields it. -/
  | unlisted (id : String)
  /-- `onClose` before it waits for the frames that came first. -/
  | closeBegins (id : String)
  /-- `onClose` past its wait. -/
  | closeHandled (id : String) (lingering : List String)
  /-- `scanPresence`. -/
  | presenceStale (ids : List String) (lingering : List String)

namespace Connections

def newConnection (id : String) (identity : Identity) (now : Int) : Connection where
  id := id
  state :=
    { toIdentity := identity, serveCandidate := false, serveClaimSeq := none,
      serveLeaseHeld := none, watchCandidate := false, watchClaimSeq := none,
      directedDeliveryV1 := false, deliveryRecoveryV1 := false, helloPending := true,
      helloExpired := false, helloDeadlineAt := some (now + HELLO_TIMEOUT_MS), helloSince := none }
  listed := true
  closed := false
  handler := none

/-- `connection.setState({ ...st, … })` by the handler: what it read replaces what
is stored. -/
def writtenBack (f : ConnState → ConnState) (c : Connection) : Connection :=
  match c.handler with
  | none => c
  | some st => { c with state := f st, handler := some (f st) }

@[simp] theorem writtenBack_id (f : ConnState → ConnState) (c : Connection) :
    (writtenBack f c).id = c.id := by
  unfold writtenBack
  split <;> rfl

def writeBack (cs : Connections) (id : String) (f : ConnState → ConnState) : Connections :=
  cs.update (fun c => c.id = id) (writtenBack f) (writtenBack_id f)

/-- `lastSeen` is written back, unless the wait has found the participant removed. -/
def touched (c : Connection) : Connection :=
  if c.state.authorizationRevoked then { c with handler := none } else writtenBack (fun st => st) c

@[simp] theorem touched_id (c : Connection) : (touched c).id = c.id := by
  unfold touched
  split_ifs
  · rfl
  · exact writtenBack_id _ c

def withHandler (f : Connection → Option ConnState) (c : Connection) : Connection :=
  { c with handler := f c }

@[simp] theorem withHandler_id (f : Connection → Option ConnState) (c : Connection) :
    (withHandler f c).id = c.id := rfl

def setHandler (cs : Connections) (id : String) (f : Connection → Option ConnState) :
    Connections :=
  cs.update (fun c => c.id = id) (withHandler f) (withHandler_id f)

def withUnlisted (c : Connection) : Connection := { c with listed := false }

@[simp] theorem withUnlisted_id (c : Connection) : (withUnlisted c).id = c.id := rfl

def saidHello (directedDelivery recovery : Bool) (since : ℕ) (st : ConnState) : ConnState :=
  { st with
    directedDeliveryV1 := st.directedDeliveryV1 || directedDelivery
    deliveryRecoveryV1 := st.deliveryRecoveryV1 || recovery
    helloSince := some (max (st.helloSince.getD 0) since)
    helloPending := false
    helloExpired := false }

def claimedServe (claimSeq : ℕ) (st : ConnState) : ConnState :=
  { st with serveCandidate := true, serveClaimSeq := some claimSeq }

def registeredWatch (claimSeq : ℕ) (st : ConnState) : ConnState :=
  { st with watchCandidate := true, watchClaimSeq := some claimSeq }

/-- No earlier report of this socket lies less than the interval back. -/
def mayReport (now : Int) (st : ConnState) : Bool :=
  st.ocsReportedAt.all fun reportedAt => OCS_ROSTER_MIN_INTERVAL_MS ≤ now - reportedAt

def reportedOcs (now : Int) (st : ConnState) : ConnState := { st with ocsReportedAt := some now }

/-- What a closing socket is marked with. -/
def closedFor (cause : CloseCause) (st : ConnState) : ConnState :=
  match cause with
  | .helloExpired => { st with helloExpired := true }
  | .revoked => { st with closing := true }
  | .removed => { st with authorizationRevoked := true, closing := true }
  | .upgradeRequired => { st with upgradeRequired := true }

def markedClosing (st : ConnState) : ConnState := { st with closing := true }

end Connections

namespace Sockets

open Connections

def reconcile (s : Sockets) (name : String) (excludeId : Option String) : Sockets :=
  let (connections, sent) := reconcileServeLease s.connections name excludeId
  { s with connections := connections, sent := s.sent ++ sent }

/-- What the handler of `id` has read. -/
def handlerState (s : Sockets) (id : String) : Option ConnState :=
  (s.connections.get? id).bind (·.handler)

/-- `frame.type === "hello"`, behind both waits. The election runs again, on the
handler's own view of whether this is a candidate. -/
def hello (s : Sockets) (id : String) (directedDelivery recovery : Bool) (since : ℕ) : Sockets :=
  match s.handlerState id with
  | none => s
  | some st =>
    let s := { s with
      connections := writeBack s.connections id (saidHello directedDelivery recovery since) }
    if st.kind = .agent && st.serveCandidate then s.reconcile st.name none else s

/-- `frame.type === "serve_lease"`. The claim sequence is fixed by the first claim. -/
def claimServe (s : Sockets) (id : String) (v1Conflict : Bool) : Sockets :=
  match s.handlerState id with
  | none => s
  | some st =>
    if st.helloPending then s
    else if !st.directedDeliveryV1 && v1Conflict then s
    else
      let s :=
        if st.serveCandidate then s
        else { s with
          connections := writeBack s.connections id (claimedServe (s.claimSeq + 1))
          claimSeq := s.claimSeq + 1 }
      s.reconcile st.name none

def registerWatch (s : Sockets) (id : String) : Sockets :=
  match s.handlerState id with
  | none => s
  | some st =>
    if st.helloPending || st.kind ≠ .agent || st.watchCandidate then s
    else { s with
      connections := writeBack s.connections id (registeredWatch (s.claimSeq + 1))
      claimSeq := s.claimSeq + 1 }

/-- `frame.type === "ocs_roster"`: a frame that is refused, early or dirty writes nothing. -/
def ocsRoster (s : Sockets) (id : String) (canWrite parsed : Bool) (now : Int) : Sockets :=
  match s.handlerState id with
  | none => s
  | some st =>
    if st.helloPending || st.kind ≠ .agent || !canWrite then s
    else if !mayReport now st || !parsed then s
    else { s with connections := writeBack s.connections id (reportedOcs now) }

/-- `onClose`: elect without the closing socket. -/
def closeHandled (s : Sockets) (id : String) (lingering : List String) : Sockets :=
  let s := { s with connections := close s.connections lingering id }
  match s.connections.get? id with
  | none => s
  | some c => if c.state.serveCandidate then s.reconcile c.state.name (some id) else s

/-- The names whose serve candidates `scanPresence` closes. -/
def staleServeNames (s : Sockets) (ids : List String) : List String :=
  ((ids.filterMap s.connections.get?).filterMap fun c =>
    if c.state.serveCandidate && c.state.name ≠ "" then some c.state.name else none).eraseDups

def presenceStale (s : Sockets) (ids : List String) (lingering : List String) : Sockets :=
  let names := s.staleServeNames ids
  let s := { s with connections := ids.foldl (fun cs id => close cs lingering id) s.connections }
  names.foldl (fun s name => s.reconcile name none) s

def apply (s : Sockets) : SocketEvent → Sockets
  | .connected id identity now =>
    { s with connections := s.connections.insert (newConnection id identity now) }
  | .frameBegins id =>
    { s with connections := setHandler s.connections id fun c => some c.state }
  | .frameTouched id =>
    { s with connections := s.connections.update (fun c => c.id = id) touched touched_id }
  | .frameEnds id => { s with connections := setHandler s.connections id fun _ => none }
  | .hello id directedDelivery recovery since => s.hello id directedDelivery recovery since
  | .claimServe id v1Conflict => s.claimServe id v1Conflict
  | .registerWatch id => s.registerWatch id
  | .ocsRoster id canWrite parsed now => s.ocsRoster id canWrite parsed now
  | .serverCloses id cause lingering =>
    { s with connections := close (setState s.connections id (closedFor cause)) lingering id }
  | .unlisted id =>
    { s with connections := s.connections.update (fun c => c.id = id) withUnlisted withUnlisted_id }
  | .closeBegins id => { s with connections := setState s.connections id markedClosing }
  | .closeHandled id lingering => s.closeHandled id lingering
  | .presenceStale ids lingering => s.presenceStale ids lingering

end Sockets

end AgentParty
