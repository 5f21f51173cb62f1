import AgentParty.Web.SessionOutputRing
import Mathlib.Logic.Function.Basic

/-! The tables behind `SessionOutputRing`, `createSqlSessionOutputStore`, and the ring that is
loaded from them and writes to them, call by call. -/

namespace AgentParty
namespace Web

/-- A row of `session_output_sessions`. -/
structure SessionRow where
  name : String
  sessionId : String
  taskSeq : Option ℕ
  state : SessionOutputState
  connectionId : String
  updatedAt : Int
  deriving DecidableEq

def SessionEntry.row (e : SessionEntry) : SessionRow :=
  ⟨e.name, e.sessionId, e.taskSeq, e.state, e.connectionId, e.updatedAt⟩

def SessionRow.entry (row : SessionRow) (lines : List SessionOutputLine) : SessionEntry :=
  ⟨row.name, row.sessionId, row.taskSeq, row.state, lines, row.connectionId, row.updatedAt⟩

/-- A row of `session_output_lines`. -/
structure StoredLine where
  id : ℕ
  name : String
  line : SessionOutputLine
  deriving DecidableEq

/-- The rows of the lines stand in the order of their ids; `lastId` is the last one given out. -/
structure SessionOutputStore where
  sessions : Table SessionRow (·.name)
  lines : List StoredLine
  lastId : ℕ

namespace SessionOutputStore

def empty : SessionOutputStore := ⟨Table.empty, [], 0⟩

/-- `WHERE name = ? ORDER BY id DESC LIMIT ?`. -/
def latest (store : SessionOutputStore) (name : String) : List StoredLine :=
  (store.lines.filter fun l => l.name = name).reverse.take SESSION_OUTPUT_RING_LINES

def loadAll (store : SessionOutputStore) : Sessions where
  rows := store.sessions.rows.map fun row =>
    row.entry ((store.latest row.name).reverse.map StoredLine.line)
  nodup := by
    rw [List.map_map]
    exact store.sessions.nodup

def updateMeta (store : SessionOutputStore) (entry : SessionEntry) : SessionOutputStore :=
  { store with sessions := store.sessions.put entry.row }

def reset (store : SessionOutputStore) (entry : SessionEntry) : SessionOutputStore :=
  updateMeta { store with lines := store.lines.filter fun l => l.name ≠ entry.name } entry

def insertLine (name : String) (store : SessionOutputStore) (line : SessionOutputLine) :
    SessionOutputStore :=
  { store with
    lines := store.lines ++ [⟨store.lastId + 1, name, line⟩]
    lastId := store.lastId + 1 }

/-- `DELETE … WHERE name = ? AND id NOT IN (…)`. -/
def trim (store : SessionOutputStore) (name : String) : SessionOutputStore :=
  let kept := (store.latest name).map StoredLine.id
  { store with lines := store.lines.filter fun l => ¬(l.name = name ∧ l.id ∉ kept) }

def append (store : SessionOutputStore) (entry : SessionEntry) (lines : List SessionOutputLine) :
    SessionOutputStore :=
  let store := lines.foldl (insertLine entry.name) store
  let store := if lines.isEmpty then store else store.trim entry.name
  store.updateMeta entry

def remove (store : SessionOutputStore) (name : String) : SessionOutputStore :=
  { store with
    lines := store.lines.filter fun l => l.name ≠ name
    sessions := store.sessions.delete fun row => row.name = name }

end SessionOutputStore

open SessionOutputRing (take oldest reported record)

/-- A `SessionOutputRing` over a store; there is no ring before the first call. -/
structure StoredRing where
  ring : Option SessionOutputRing
  store : SessionOutputStore

namespace StoredRing

def ensureLoaded (s : StoredRing) : SessionOutputRing :=
  s.ring.getD (SessionOutputRing.load s.store.loadAll)

/-- The loop of `evict`; each turn takes one entry, and its rows. -/
def evict (sessions : Sessions) (store : SessionOutputStore) : ℕ → Sessions × SessionOutputStore
  | 0 => (sessions, store)
  | turns + 1 =>
    match oldest sessions.rows with
    | none => (sessions, store)
    | some entry =>
      evict (sessions.delete fun e => e.name = entry.name) (store.remove entry.name) turns

def apply (s : StoredRing) (name connectionId : String) (frame : SessionOutputClientFrame)
    (now : Int) : StoredRing × Option SessionOutputFrame :=
  let r := s.ensureLoaded
  let terminal : Bool := frame.state ≠ .running
  let r' := if terminal then (r, true) else r.take connectionId now
  let r := r'.1
  if !r'.2 then (⟨some r, s.store⟩, none)
  else
    match (r.sessions.get? name).filter fun e => e.sessionId = frame.sessionId with
    | none =>
      let entry : SessionEntry :=
        ⟨name, frame.sessionId, frame.taskSeq, frame.state, [], connectionId, now⟩
      let sessions := (r.sessions.delete fun e => e.name = entry.name).put entry
      let left := evict sessions s.store (sessions.rows.length - SESSION_OUTPUT_MAX_AGENTS)
      let entry := reported entry connectionId frame now
      let out := record { r with sessions := left.1 } entry frame
      (⟨some out.1, (left.2.reset entry).append entry frame.lines⟩, out.2)
    | some entry =>
      if entry.state ≠ .running then (⟨some r, s.store⟩, none)
      else if !terminal && frame.lines.isEmpty && !entry.lines.isEmpty then
        (⟨some r, s.store⟩, none)
      else
        let entry := reported entry connectionId frame now
        let out := r.record entry frame
        (⟨some out.1, s.store.append entry frame.lines⟩, out.2)

/-- The rows of the entries that are marked. -/
def persistMarks (store : SessionOutputStore) (sessions : Sessions) (marked : SessionEntry → Bool)
    (now : Int) : SessionOutputStore :=
  (sessions.rows.filter marked).foldl (fun store e => store.updateMeta (e.disconnected now)) store

def disconnect (s : StoredRing) (connectionId : String) (now : Int) :
    StoredRing × List SessionOutputFrame :=
  let r := s.ensureLoaded
  let left (e : SessionEntry) : Bool := e.connectionId = connectionId && e.state = .running
  let out := r.disconnect connectionId now
  (⟨some out.1, persistMarks s.store r.sessions left now⟩, out.2)

def snapshot (s : StoredRing) (live : Option (List String)) (now : Int) :
    StoredRing × List SessionOutputFrame :=
  let r := s.ensureLoaded
  let out := r.snapshot live now
  (⟨some out.1, persistMarks s.store r.sessions (·.lost live) now⟩, out.2)

def forget (s : StoredRing) (name : String) : StoredRing :=
  let r := s.ensureLoaded
  ⟨some { r with sessions := r.sessions.delete fun e => e.name = name }, s.store.remove name⟩

def forgetConnection (s : StoredRing) (name connectionId : String) : StoredRing :=
  let r := s.ensureLoaded
  let buckets := r.buckets.delete fun b => b.connectionId = connectionId
  match (r.sessions.get? name).filter fun e => e.connectionId = connectionId with
  | none => ⟨some { r with buckets := buckets }, s.store⟩
  | some _ =>
    ⟨some ⟨r.sessions.delete fun e => e.name = name, buckets⟩, s.store.remove name⟩

/-- The object is gone; a new one over the same store takes its place. -/
def restarted (s : StoredRing) : StoredRing := { s with ring := none }

/-- A new ring over the same store, with the old one's buckets. -/
def reloaded (s : StoredRing) : StoredRing :=
  { s with
    ring := some { SessionOutputRing.load s.store.loadAll with buckets := s.ensureLoaded.buckets } }

inductive Call
  | apply (name connectionId : String) (frame : SessionOutputClientFrame) (now : Int)
  | disconnect (connectionId : String) (now : Int)
  | snapshot (live : Option (List String)) (now : Int)
  | forget (name : String)
  | forgetConnection (name connectionId : String)
  | restart
  deriving DecidableEq

def call (s : StoredRing) : Call → StoredRing × List SessionOutputFrame
  | .apply name connectionId frame now =>
    let out := s.apply name connectionId frame now
    (out.1, out.2.toList)
  | .disconnect connectionId now => s.disconnect connectionId now
  | .snapshot live now => s.snapshot live now
  | .forget name => (s.forget name, [])
  | .forgetConnection name connectionId => (s.forgetConnection name connectionId, [])
  | .restart => (s.restarted, [])

def Call.now? : Call → Option Int
  | .apply _ _ _ now | .disconnect _ now | .snapshot _ now => some now
  | .forget _ | .forgetConnection _ _ | .restart => none

end StoredRing

end Web
end AgentParty
