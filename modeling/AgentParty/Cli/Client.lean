import Mathlib.Algebra.GroupWithZero.Nat
import Mathlib.Data.List.Induction
import Mathlib.Data.List.Sort

/-! `connect` of the CLI's `client.ts`: one stream of frames over sockets that follow one another.
What is not acknowledged is kept, and a message of the channel enters the stream once. -/

namespace AgentParty
namespace Ws

/-- A `msg` or `status` frame; `revision` is the fingerprint of a revision snapshot. -/
structure Message where
  seq : ℕ
  revSeq : Option ℕ
  revision : Option String
  deriving DecidableEq

inductive ServerFrame
  | welcome (lastRevSeq : Option ℕ)
  | message (m : Message)
  | messageUpdate (revSeq : Option ℕ)
  | sent (seq : ℕ)
  | pong
  | error (code text : String)
  /-- The other frames, which are only passed on. -/
  | other (content : String)
  deriving DecidableEq

def ServerFrame.seq? : ServerFrame → Option ℕ
  | .message m => some m.seq
  | _ => none

/-- The readers that wait are counted. The last three fields are the trace of what was pushed, what
was put in front again, and what came out. -/
structure FrameQueue where
  items : List ServerFrame
  waiters : ℕ
  done : Bool
  failure : Option String
  pushed : List ServerFrame
  requeued : List ServerFrame
  handed : List ServerFrame
  waiting : 0 < waiters → items = [] ∧ done = false

namespace FrameQueue

/-- What `next` answers. -/
inductive Answer
  | frame (frame : ServerFrame)
  | done
  | failed (error : String)
  | pending

def new : FrameQueue where
  items := []
  waiters := 0
  done := false
  failure := none
  pushed := []
  requeued := []
  handed := []
  waiting := fun h => absurd h (Nat.lt_irrefl 0)

variable (q : FrameQueue)

def push (frame : ServerFrame) : FrameQueue :=
  if q.done then q
  else if hwaits : 0 < q.waiters then
    { q with
      waiters := q.waiters - 1
      pushed := q.pushed ++ [frame]
      handed := q.handed ++ [frame]
      waiting := fun _ => q.waiting hwaits }
  else
    { q with
      items := q.items ++ [frame]
      pushed := q.pushed ++ [frame]
      waiting := fun h => absurd h hwaits }

/-- `end`. -/
def finish : FrameQueue :=
  if q.done then q
  else { q with done := true, waiters := 0, waiting := fun h => absurd h (Nat.lt_irrefl 0) }

def fail (error : String) : FrameQueue :=
  if q.done then q
  else { q with
    done := true, failure := some error, items := [], waiters := 0
    waiting := fun h => absurd h (Nat.lt_irrefl 0) }

def next : FrameQueue × Answer :=
  match q.failure with
  | some error => (q, .failed error)
  | none =>
    match hitems : q.items with
    | frame :: items =>
      ({ q with
        items := items
        handed := q.handed ++ [frame]
        waiting := fun h => absurd ((q.waiting h).1.symm.trans hitems) (List.cons_ne_nil _ _).symm },
        .frame frame)
    | [] =>
      if hdone : q.done = true then (q, .done)
      else
        ({ q with
          waiters := q.waiters + 1
          waiting := fun _ => ⟨hitems, Bool.not_eq_true _ ▸ hdone⟩ }, .pending)

/-- The readers that wait are served first, the rest comes in front of the items. -/
def prepend (frames : List ServerFrame) : FrameQueue × Bool :=
  if q.done ∨ frames = [] then (q, false)
  else
    ({ q with
      waiters := q.waiters - frames.length
      items := frames.drop q.waiters ++ q.items
      requeued := q.requeued ++ frames
      handed := q.handed ++ frames.take q.waiters
      waiting := fun h => by
        obtain ⟨hitems, hopen⟩ := q.waiting (by omega)
        exact ⟨by rw [hitems, List.drop_eq_nil_of_le (by omega), List.append_nil], hopen⟩ }, true)

end FrameQueue

structure ConnectOptions where
  maxUnackedFrames : ℕ
  backoffBaseMs : ℕ
  backoffMaxMs : ℕ

/-- A socket, whether it has been open, and the cursor of its hello. -/
structure Sock where
  id : ℕ
  opened : Bool
  helloSince : ℕ

/-- What `connect` closes over. The watchdog remembers its socket, a reconnect its delay. -/
structure Connection where
  cursor : ℕ
  revCursor : ℕ
  delivered : List ℕ
  unacked : List Message
  deliveredRevisions : List (ℕ × String)
  queue : FrameQueue
  closed : Bool
  attempt : ℕ
  ws : Option Sock
  sockets : ℕ
  reconnectTimer : Option ℕ
  inboundWatchdogTimer : Option ℕ
  probing : Bool

/-- How `probeFatal` ends. -/
inductive Probe
  | fatal (code text : String)
  | retry
  | thrown (error : String)

def fatalCloseFrame : String → Option ServerFrame
  | "archived" => some (.error "archived" "channel archived")
  | "revoked" => some (.error "unauthorized" "token revoked, re-run: party init")
  | "forbidden" => some (.error "unauthorized" "channel access forbidden")
  | "unauthorized" => some (.error "unauthorized" "unauthorized")
  | _ => none

namespace Connection

variable (o : ConnectOptions) (s : Connection)

/-- `new WebSocket`, the first time or after a delay. -/
def «open» : Connection :=
  { s with ws := some ⟨s.sockets, false, 0⟩, sockets := s.sockets + 1 }

def connect (since sinceRev : ℕ) : Connection :=
  «open» {
    cursor := since
    revCursor := sinceRev
    delivered := []
    unacked := []
    deliveredRevisions := []
    queue := .new
    closed := false
    attempt := 0
    ws := none
    sockets := 0
    reconnectTimer := none
    inboundWatchdogTimer := none
    probing := false }

def advanceRev (rev : ℕ) : Connection := { s with revCursor := max s.revCursor rev }

def advance (seq : ℕ) : Connection :=
  let cursor := max s.cursor seq
  { s with
    cursor := cursor
    delivered := s.delivered.filter fun n => cursor < n
    unacked := s.unacked.filter fun m => !(s.delivered.contains m.seq && m.seq ≤ cursor) }

def scheduleReconnect : Connection :=
  if s.closed ∨ s.reconnectTimer.isSome then s
  else { s with
    reconnectTimer := some (min (o.backoffBaseMs * 2 ^ s.attempt) o.backoffMaxMs)
    attempt := s.attempt + 1 }

/-- The handshake of a socket is done: its hello goes out with both cursors. -/
def onopen (id : ℕ) : Connection :=
  match s.ws with
  | some sock =>
    if s.closed ∨ sock.id ≠ id then s
    else { s with ws := some ⟨id, true, s.cursor⟩, inboundWatchdogTimer := some id }
  | none => s

/-- A message that is no revision, above the cursor and not delivered yet. -/
def deliver (m : Message) : Connection :=
  { s with
    delivered := s.delivered ++ [m.seq]
    unacked := s.unacked ++ [m]
    queue := s.queue.push (.message m) }

def overflowError (limit : ℕ) : String :=
  "unacked replay buffer exceeded " ++ toString limit ++
    " frames; terminating without advancing cursor"

def overflow : Connection :=
  { s with
    closed := true
    inboundWatchdogTimer := none
    queue := s.queue.fail (overflowError o.maxUnackedFrames) }

def onRevision (m : Message) (fingerprint : String) : Connection :=
  if s.deliveredRevisions.lookup m.seq = some fingerprint then s
  else { s with
    deliveredRevisions := (m.seq, fingerprint) :: s.deliveredRevisions
    queue := s.queue.push (.message m) }

def onPlain (m : Message) : Connection :=
  if m.seq ≤ s.cursor ∨ m.seq ∈ s.delivered then s
  else if o.maxUnackedFrames ≤ s.unacked.length then s.overflow o
  else s.deliver m

/-- A frame of the current socket. -/
def onFrame (helloSince : ℕ) (frame : ServerFrame) : Connection :=
  let s := if frame = .pong then s else { s with attempt := 0 }
  match frame with
  | .welcome (some rev) =>
    let s := if helloSince = 0 then s.advanceRev rev else s
    { s with queue := s.queue.push frame }
  | .messageUpdate (some rev) =>
    let s := s.advanceRev rev
    { s with queue := s.queue.push frame }
  | .message m =>
    let s := match m.revSeq with
      | some rev => s.advanceRev rev
      | none => s
    match m.revision with
    | some fingerprint => s.onRevision m fingerprint
    | none => s.onPlain o m
  | .sent seq =>
    let s := s.advance seq
    { s with queue := s.queue.push frame }
  | frame => { s with queue := s.queue.push frame }

/-- The lines of one message of a socket; the overflow leaves the loop. -/
def onmessage (id : ℕ) (frames : List ServerFrame) : Connection :=
  match s.ws with
  | some sock =>
    if s.closed ∨ sock.id ≠ id then s
    else
      let s := if frames = [] then s else { s with inboundWatchdogTimer := some id }
      frames.foldl (fun s frame => if s.closed then s else s.onFrame o sock.helloSince frame) s
  | none => s

def onclose (id code : ℕ) (reason : String) : Connection :=
  match s.ws with
  | some sock =>
    if sock.id ≠ id then s
    else
      let s := { s with ws := none, inboundWatchdogTimer := none }
      if s.closed then { s with queue := s.queue.finish }
      else if code = 1008 then
        let queue := match fatalCloseFrame reason with
          | some frame => s.queue.push frame
          | none => s.queue
        { s with closed := true, queue := queue.finish }
      else if sock.opened then s.scheduleReconnect o
      else { s with probing := true }
  | none => s

/-- The probe of a refused handshake comes back. -/
def probed (result : Probe) : Connection :=
  if !s.probing then s
  else
    let s := { s with probing := false }
    if s.closed then s
    else
      match result with
      | .fatal code text =>
        { s with closed := true, queue := (s.queue.push (.error code text)).finish }
      | .retry => s.scheduleReconnect o
      | .thrown error => { s with closed := true, queue := s.queue.fail error }

/-- The watchdog of a socket fires; `ready` is whether the socket still counts as open. -/
def watchdog (ready : Bool) : Connection :=
  match s.inboundWatchdogTimer with
  | none => s
  | some id =>
    let s := { s with inboundWatchdogTimer := none }
    match s.ws with
    | some sock =>
      if s.closed ∨ sock.id ≠ id ∨ ready = false then s
      else { s with ws := none }.scheduleReconnect o
    | none => s

/-- The delay of a reconnect is over; `throws` is whether the new socket cannot be made. -/
def reconnect (throws : Bool) : Connection :=
  if s.reconnectTimer.isNone then s
  else
    let s := { s with reconnectTimer := none }
    if s.closed then s else if throws then s.scheduleReconnect o else s.open

def close : Connection :=
  if s.closed then s
  else { s with
    closed := true, inboundWatchdogTimer := none, reconnectTimer := none
    queue := s.queue.finish }

def replayFrames : List Message :=
  let pendingSeqs := s.queue.items.filterMap ServerFrame.seq?
  (s.unacked.filter fun m => s.cursor < m.seq && !pendingSeqs.contains m.seq).insertionSort
    fun a b => a.seq ≤ b.seq

/-- What was taken and not acknowledged comes back in front, in its order. -/
def replayUnacked : Connection × ℕ :=
  let result := s.queue.prepend (s.replayFrames.map .message)
  ({ s with queue := result.1 }, if result.2 then s.replayFrames.length else 0)

inductive Event
  | opened (id : ℕ)
  | message (id : ℕ) (frames : List ServerFrame)
  | socketClosed (id code : ℕ) (reason : String)
  | probed (result : Probe)
  | watchdog (ready : Bool)
  | reconnect (throws : Bool)
  | ack (seq : ℕ)
  | replayUnacked
  | next
  | close

def step (s : Connection) : Event → Connection
  | .opened id => s.onopen id
  | .message id frames => s.onmessage o id frames
  | .socketClosed id code reason => s.onclose o id code reason
  | .probed result => s.probed o result
  | .watchdog ready => s.watchdog o ready
  | .reconnect throws => s.reconnect o throws
  | .ack seq => s.advance seq
  | .replayUnacked => s.replayUnacked.1
  | .next => { s with queue := s.queue.next.1 }
  | .close => s.close

end Connection

end Ws
end AgentParty
