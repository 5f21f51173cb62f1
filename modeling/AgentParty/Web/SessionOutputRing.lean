import AgentParty.Web.State
import AgentParty.Lib.Run
import Mathlib.Data.List.Sort
import Mathlib.Algebra.Order.Field.Rat

/-! `SessionOutputRing`: the last lines of each agent's session on the server, and a web page
that is sent what it returns. -/

namespace AgentParty
namespace Web

def SESSION_OUTPUT_MAX_AGENTS : ℕ := 64
def SESSION_OUTPUT_BUCKET_CAPACITY : ℚ := 20
def SESSION_OUTPUT_BUCKET_REFILL_PER_SEC : ℚ := 4
def SESSION_OUTPUT_RING_LINES : ℕ := 300

/-- What a runner reports. -/
structure SessionOutputClientFrame where
  sessionId : String
  taskSeq : Option ℕ
  state : SessionOutputState
  lines : List SessionOutputLine
  deriving DecidableEq

structure SessionEntry where
  name : String
  sessionId : String
  taskSeq : Option ℕ
  state : SessionOutputState
  lines : List SessionOutputLine
  connectionId : String
  updatedAt : Int
  deriving DecidableEq

/-- The nearest whole number to `n / d`, of two the even one. -/
def nearestEven (n d : ℕ) : ℕ :=
  let q := n / d
  let r := n % d
  if 2 * r < d || (2 * r = d && q % 2 = 0) then q else q + 1

/-- The double next to a number that is not negative: 53 significant bits. -/
def toDouble (x : ℚ) : ℚ :=
  let n := x.num.toNat
  let k : Int := (Nat.log2 n : Int) - Nat.log2 x.den
  -- the power of two below `x`
  let k := if n <<< (-k).toNat < x.den <<< k.toNat then k - 1 else k
  let shift := 52 - k
  let m := nearestEven (n <<< shift.toNat) (x.den <<< (-shift).toNat)
  ((m <<< (-shift).toNat : ℕ) : ℚ) / ((1 <<< shift.toNat : ℕ) : ℚ)

example : toDouble (1 / 10) = 3602879701896397 / 36028797018963968 := by decide +kernel

structure Bucket where
  connectionId : String
  tokens : ℚ
  takenAt : Int
  deriving DecidableEq

/-- The last lines, at most `SESSION_OUTPUT_RING_LINES`. -/
def ringLines (lines : List SessionOutputLine) : List SessionOutputLine :=
  lines.drop (lines.length - SESSION_OUTPUT_RING_LINES)

namespace SessionEntry

/-- The frame of a change; `replay` for all that is kept. -/
def frame (e : SessionEntry) (lines : List SessionOutputLine) (replay : Bool) :
    SessionOutputFrame where
  name := e.name
  sessionId := e.sessionId
  taskSeq := e.taskSeq
  state := e.state
  lines := lines
  ts := e.updatedAt
  replay := replay

def disconnected (e : SessionEntry) (now : Int) : SessionEntry :=
  { e with state := .disconnected, updatedAt := now }

/-- The reporter of a running session is not among these connections. -/
def lost (e : SessionEntry) : Option (List String) → Bool
  | none => false
  | some live => e.state = .running && !live.contains e.connectionId

/-- The entry as a snapshot leaves it. -/
def swept (e : SessionEntry) (live : Option (List String)) (now : Int) : SessionEntry :=
  if e.lost live then e.disconnected now else e

end SessionEntry

abbrev Sessions := Table SessionEntry (·.name)

structure SessionOutputRing where
  sessions : Sessions
  buckets : Table Bucket (·.connectionId)

namespace SessionOutputRing

/-- `ensureLoaded`: what the store holds, the longest untouched first. -/
def load (stored : Sessions) : SessionOutputRing where
  sessions :=
    let kept := stored.update (fun _ => true) (fun e => { e with lines := ringLines e.lines })
      fun _ => rfl
    ⟨kept.rows.insertionSort fun a b => a.updatedAt ≤ b.updatedAt,
      ((List.perm_insertionSort _ kept.rows).map _).nodup_iff.2 kept.nodup⟩
  buckets := Table.empty

/-- `take`: whether the connection has a token left. Each operation rounds; times are whole
milliseconds. -/
def take (r : SessionOutputRing) (connectionId : String) (now : Int) : SessionOutputRing × Bool :=
  let bucket := (r.buckets.get? connectionId).getD ⟨connectionId, SESSION_OUTPUT_BUCKET_CAPACITY, now⟩
  let elapsed := toDouble ((max 0 (now - bucket.takenAt) : Int) / 1000)
  let tokens := min SESSION_OUTPUT_BUCKET_CAPACITY
    (toDouble (bucket.tokens + toDouble (elapsed * SESSION_OUTPUT_BUCKET_REFILL_PER_SEC)))
  if tokens < 1 then ({ r with buckets := r.buckets.put ⟨connectionId, tokens, now⟩ }, false)
  else ({ r with buckets := r.buckets.put ⟨connectionId, toDouble (tokens - 1), now⟩ }, true)

/-- The rate limit lets the report through; it spares the last one of a session. -/
def admits (r : SessionOutputRing) (connectionId : String) (frame : SessionOutputClientFrame)
    (now : Int) : Bool :=
  frame.state ≠ .running || (r.take connectionId now).2

/-- The first of the entries that were updated the longest ago. -/
def oldest (entries : List SessionEntry) : Option SessionEntry :=
  entries.foldl (fun oldest entry =>
    match oldest with
    | none => some entry
    | some found => if entry.updatedAt < found.updatedAt then some entry else some found) none

/-- The loop of `evict`; each turn takes one entry. -/
def evict (sessions : Sessions) : ℕ → Sessions
  | 0 => sessions
  | turns + 1 =>
    match oldest sessions.rows with
    | none => sessions
    | some entry => evict (sessions.delete fun e => e.name = entry.name) turns

/-- A new session takes the place of the agent's old one. -/
def enter (r : SessionOutputRing) (entry : SessionEntry) : SessionOutputRing :=
  let sessions := (r.sessions.delete fun e => e.name = entry.name).put entry
  { r with sessions := evict sessions (sessions.rows.length - SESSION_OUTPUT_MAX_AGENTS) }

/-- The entry behind a report. -/
def reported (entry : SessionEntry) (connectionId : String) (frame : SessionOutputClientFrame)
    (now : Int) : SessionEntry :=
  { entry with
    lines := ringLines (entry.lines ++ frame.lines)
    state := frame.state
    taskSeq := frame.taskSeq.or entry.taskSeq
    connectionId := connectionId
    updatedAt := now }

/-- The new entry may have been evicted already; it is changed, and broadcast, all the same. -/
def record (r : SessionOutputRing) (entry : SessionEntry) (frame : SessionOutputClientFrame) :
    SessionOutputRing × Option SessionOutputFrame :=
  let sessions := r.sessions.update (fun e => e.name = entry.name)
    (fun e => if e.name = entry.name then entry else e) fun e => by
      split_ifs with h
      · exact h.symm
      · rfl
  ({ r with sessions := sessions }, some (entry.frame frame.lines false))

def apply (r : SessionOutputRing) (name connectionId : String) (frame : SessionOutputClientFrame)
    (now : Int) : SessionOutputRing × Option SessionOutputFrame :=
  let terminal : Bool := frame.state ≠ .running
  let r' := if terminal then (r, true) else r.take connectionId now
  let r := r'.1
  if !r'.2 then (r, none)
  else
    match (r.sessions.get? name).filter fun e => e.sessionId = frame.sessionId with
    | none =>
      let entry : SessionEntry :=
        ⟨name, frame.sessionId, frame.taskSeq, frame.state, [], connectionId, now⟩
      (r.enter entry).record (reported entry connectionId frame now) frame
    | some entry =>
      if entry.state ≠ .running then (r, none)
      else if !terminal && frame.lines.isEmpty && !entry.lines.isEmpty then (r, none)
      else r.record (reported entry connectionId frame now) frame

/-- The running sessions of the connection are marked and announced. -/
def disconnect (r : SessionOutputRing) (connectionId : String) (now : Int) :
    SessionOutputRing × List SessionOutputFrame :=
  let left (e : SessionEntry) : Bool := e.connectionId = connectionId && e.state = .running
  ({ sessions := r.sessions.update left (·.disconnected now) fun _ => rfl
     buckets := r.buckets.delete fun b => b.connectionId = connectionId },
    r.sessions.rows.filterMap fun e =>
      if left e then some ((e.disconnected now).frame [] false) else none)

/-- The marks are not announced to the pages that are connected. -/
def snapshot (r : SessionOutputRing) (live : Option (List String)) (now : Int) :
    SessionOutputRing × List SessionOutputFrame :=
  let sessions := r.sessions.update (·.lost live) (·.disconnected now) fun _ => rfl
  ({ r with sessions := sessions }, sessions.rows.map fun e => e.frame e.lines true)

end SessionOutputRing

/-- The ring and one page: the frames on the way to it, oldest first. -/
structure Watched where
  ring : SessionOutputRing
  view : ChannelState
  online : Bool
  inbox : List ServerFrame
  /-- The reports that have been broadcast, those in the inbox apart. -/
  past : List SessionOutputFrame

namespace Watched

inductive Event
  | apply (name connectionId : String) (frame : SessionOutputClientFrame) (now : Int)
  | disconnect (connectionId : String) (now : Int)
  /-- Another page says hello. -/
  | snapshot (live : Option (List String)) (now : Int)
  /-- The page says hello on a new connection. -/
  | hello (participants presence : List String) (live : Option (List String)) (now : Int)
  /-- The page's connection is lost, with what is on the way. -/
  | close
  /-- The page takes the next frame. -/
  | receive
  deriving DecidableEq

def ServerFrame.report : ServerFrame → Option SessionOutputFrame
  | .sessionOutput frame => if frame.replay then none else some frame
  | _ => none

/-- The reports on the way. -/
def reports (inbox : List ServerFrame) : List SessionOutputFrame := inbox.filterMap ServerFrame.report

def broadcast (s : Watched) (frames : List SessionOutputFrame) : Watched :=
  if s.online then { s with inbox := s.inbox ++ frames.map ServerFrame.sessionOutput }
  else { s with past := s.past ++ frames }

def dropInbox (s : Watched) : Watched := { s with inbox := [], past := s.past ++ reports s.inbox }

def next (s : Watched) : Event → Watched
  | .apply name connectionId frame now =>
    let out := s.ring.apply name connectionId frame now
    { s with ring := out.1 }.broadcast out.2.toList
  | .disconnect connectionId now =>
    let out := s.ring.disconnect connectionId now
    { s with ring := out.1 }.broadcast out.2
  | .snapshot live now => { s with ring := (s.ring.snapshot live now).1 }
  | .hello participants presence live now =>
    let out := s.ring.snapshot live now
    { s.dropInbox with
      ring := out.1, online := true
      inbox := .welcome participants presence :: out.2.map .sessionOutput }
  | .close => { s.dropInbox with online := false }
  | .receive =>
    match s.inbox with
    | [] => s
    | frame :: inbox =>
      { s with
        view := applyFrame s.view frame
        inbox := inbox
        past := s.past ++ reports [frame] }

def Step (s : Watched) (e : Event) (s' : Watched) : Prop := s' = s.next e

abbrev Run := EventSystem.Run Step

/-- A page that has not said hello yet; the store's sessions count as broadcast. -/
def initial (stored : Sessions) : Watched :=
  let ring := SessionOutputRing.load stored
  ⟨ring, initialChannelState, false, [], ring.sessions.rows.map fun e => e.frame e.lines false⟩

end Watched

end Web
end AgentParty
