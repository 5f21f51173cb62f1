import AgentParty.Delivery.Enqueue
import AgentParty.Lib.Run
import AgentParty.Lib.Table
import Mathlib.Data.Int.Order.Basic

/-! The wake budget of an agent: `dispatchWebhooks` counts the wakes in the ledger before it
posts, and writes the row of a wake after its POST. Which notify hooks a message is for
(filter, pause, directed work) is left open, and so is when a failed wake is posted again. -/

namespace AgentParty
namespace Wakes

def WAKE_BUDGET_MIN_WINDOW_MS : Int := 1000
def WAKE_BUDGET_MAX_WINDOW_MS : Int := 30 * 24 * 60 * 60 * 1000
def WAKE_LEDGER_RETENTION_MS : Int := WAKE_BUDGET_MAX_WINDOW_MS + 5 * 24 * 60 * 60 * 1000

/-- What `PUT /internal/wake-budget` accepts. -/
structure WakeBudget where
  limit : ℕ
  windowMs : Int
  limit_pos : 0 < limit
  window_min : WAKE_BUDGET_MIN_WINDOW_MS ≤ windowMs
  window_max : windowMs ≤ WAKE_BUDGET_MAX_WINDOW_MS

inductive AdapterKind
  | webhook
  | serve
  | watch
  deriving DecidableEq

inductive WakeResult
  | ok
  | failed
  | budget
  | broadcast
  | consumed
  deriving DecidableEq

/-- A row of `wake_delivery_ledger`. -/
structure WakeRow where
  mentionSeq : ℕ
  targetName : String
  adapterKind : AdapterKind
  attempt : ℕ
  result : WakeResult
  error : Option String
  attemptedAt : Int
  deriving DecidableEq

/-- A `messages` row. -/
structure Message where
  seq : ℕ
  ts : Int
  retracted : Bool
  deriving DecidableEq

/-- A wake that waits to be posted again, in `webhook_queue` or in `webhook_dead_letters`. -/
structure Stored where
  seq : ℕ
  name : String
  attempts : ℕ
  deriving DecidableEq

/-- Where a loop stands with a wake: it waits for the directory, or for the answer. -/
inductive Stage
  | checks
  | posting
  deriving DecidableEq

/-- A wake a loop has in hand. -/
structure Wake where
  seq : ℕ
  name : String
  attempt : ℕ
  stage : Stage
  deriving DecidableEq

/-- A POST that has started. -/
structure Post where
  seq : ℕ
  name : String
  attempt : ℕ
  startedAt : Int
  deriving DecidableEq

structure Room where
  clock : Int
  lastSeq : ℕ
  messages : Table Message Message.seq
  /-- Messages whose `afterSend` has not come to `dispatchWebhooks` yet. -/
  unsent : List ℕ
  wakes : List Wake
  stored : List Stored
  ledger : List WakeRow
  /-- Every row that was ever inserted into the ledger. -/
  written : List WakeRow
  posts : List Post
  /-- The mentions that a budget has withheld. -/
  withheld : List (ℕ × String)

namespace Room

def initial (clock : Int) : Room := ⟨clock, 0, Table.empty, [], [], [], [], [], [], []⟩

def isMessageRetracted (s : Room) (seq : ℕ) : Bool := (s.messages.get? seq).any (·.retracted)

/-- The rows that use up a budget. -/
def spends (name : String) (since : Int) (row : WakeRow) : Bool :=
  row.targetName = name ∧ row.adapterKind = .webhook ∧ row.attempt = 1 ∧ row.result ≠ .budget ∧
    since ≤ row.attemptedAt

def wakeCountInWindow (s : Room) (name : String) (windowStart : Int) : ℕ :=
  s.ledger.countP (spends name windowStart)

/-- Every hundredth message, `handleSend` deletes the rows behind the last `RETAIN_N`, the
`held` ones apart (a pending review or decision, a delivery). -/
def trims (seq : ℕ) (held : List ℕ) (m : Message) : Bool :=
  seq % 100 = 0 && m.seq + RETAIN_N ≤ seq && !held.contains m.seq

def handleSend (s : Room) (held : List ℕ) : Room :=
  { s with
    lastSeq := s.lastSeq + 1
    messages := (s.messages.insert ⟨s.lastSeq + 1, s.clock, false⟩).delete
      (trims (s.lastSeq + 1) held)
    unsent := s.unsent ++ [s.lastSeq + 1] }

section Budget

variable (config : String → Option WakeBudget)

def isOverWakeBudget (s : Room) (name : String) : Bool :=
  match config name with
  | none => false
  | some cfg => cfg.limit ≤ s.wakeCountInWindow name (s.clock - cfg.windowMs)

def insertRow (s : Room) (row : WakeRow) : Room :=
  { s with ledger := s.ledger ++ [row], written := s.written ++ [row] }

def withheldRow (s : Room) (seq : ℕ) (name : String) : WakeRow where
  mentionSeq := seq
  targetName := name
  adapterKind := .webhook
  attempt := 1
  result := .budget
  error := some (match config name with
    | none => "wake budget exceeded"
    | some cfg => "wake budget exceeded: " ++ toString cfg.limit ++ " wakes / " ++
        toString cfg.windowMs ++ "ms")
  attemptedAt := s.clock

def recordWakeWithheld (s : Room) (seq : ℕ) (name : String) : Room :=
  { s.insertRow (s.withheldRow config seq name) with withheld := s.withheld ++ [(seq, name)] }

/-- One turn of the loop over the targets. A wake that fires waits for the directory. -/
def consider (seq : ℕ) (s : Room) (name : String) : Room :=
  if s.isOverWakeBudget config name then s.recordWakeWithheld config seq name
  else { s with wakes := s.wakes ++ [⟨seq, name, 1, .checks⟩] }

/-- `dispatchWebhooks` up to its first wait. -/
def dispatchWebhooks (s : Room) (seq : ℕ) (targets : List String) : Room :=
  let s := { s with unsent := s.unsent.erase seq }
  if s.isMessageRetracted seq then s else targets.foldl (consider config seq) s

end Budget

def post (s : Room) (w : Wake) : Room :=
  { s with
    wakes := s.wakes.erase w ++ [{ w with stage := .posting }]
    posts := s.posts ++ [⟨w.seq, w.name, w.attempt, s.clock⟩] }

def drop (s : Room) (w : Wake) : Room := { s with wakes := s.wakes.erase w }

/-- The directory has answered; a removed participant loses its rows. -/
def checked (s : Room) (w : Wake) (removed : Bool) : Room :=
  if removed then { s.drop w with stored := s.stored.filter (·.name ≠ w.name) } else s.post w

def attemptRow (s : Room) (w : Wake) (ok : Bool) (error : Option String) : WakeRow where
  mentionSeq := w.seq
  targetName := w.name
  adapterKind := .webhook
  attempt := w.attempt
  result := if ok then .ok else .failed
  error := error
  attemptedAt := s.clock

/-- The stretch behind the answer: a retracted message leaves no row, a failed wake is kept
to be posted again. -/
def answered (s : Room) (w : Wake) (ok : Bool) (error : Option String) : Room :=
  let s := s.drop w
  if s.isMessageRetracted w.seq then { s with stored := s.stored.filter (·.seq ≠ w.seq) }
  else
    let s := s.insertRow (s.attemptRow w ok error)
    if ok then s else { s with stored := s.stored ++ [⟨w.seq, w.name, w.attempt⟩] }

/-- `retryWebhooks` and `redeliverDeadLetters` take up a row, which stays. -/
def retry (s : Room) (q : Stored) : Room :=
  { s with wakes := s.wakes ++ [⟨q.seq, q.name, q.attempts + 1, .checks⟩] }

def retract (s : Room) (seq : ℕ) : Room :=
  { s with
    messages := s.messages.update (fun m => m.seq = seq) (fun m => { m with retracted := true })
      fun _ => rfl
    stored := s.stored.filter (·.seq ≠ seq) }

/-- The rows about messages that `pruneRetainedContent` takes away. -/
def expired (s : Room) (cutoff : Int) (seq : ℕ) : Bool := (s.messages.get? seq).any (·.ts ≤ cutoff)

def pruneRetainedContent (s : Room) (cutoff : Int) : Room :=
  { s with
    messages := s.messages.delete fun m => m.ts ≤ cutoff
    stored := s.stored.filter fun q => !s.expired cutoff q.seq
    ledger := s.ledger.filter fun row => !s.expired cutoff row.mentionSeq }

def pruneWakeLedger (s : Room) : Room :=
  { s with ledger := s.ledger.filter fun row => s.clock - WAKE_LEDGER_RETENTION_MS ≤ row.attemptedAt }

def eraseIdentityData (s : Room) (name : String) : Room :=
  { s with
    stored := s.stored.filter (·.name ≠ name)
    ledger := s.ledger.filter (·.targetName ≠ name) }

end Room

inductive Event
  | tick (ms : ℕ)
  /-- A message is stored; its `afterSend` will dispatch it. -/
  | send (held : List ℕ)
  | dispatchWebhooks (seq : ℕ) (targets : List String)
  | checked (w : Wake) (removed : Bool)
  | answered (w : Wake) (ok : Bool) (error : Option String)
  | retry (q : Stored)
  /-- A stored row is dropped. -/
  | forget (q : Stored)
  /-- `recordServeWatchWakes`, or the wake of an agent hook by `dispatchDirectedWebhook`. -/
  | otherWake (row : WakeRow)
  | retract (seq : ℕ)
  | pruneRetainedContent (cutoff : Int)
  | pruneWakeLedger
  | eraseIdentityData (name : String)

namespace Room

section Step

variable (config : String → Option WakeBudget)

def next (s : Room) : Event → Room
  | .tick ms => { s with clock := s.clock + ms }
  | .send held => s.handleSend held
  | .dispatchWebhooks seq targets => s.dispatchWebhooks config seq targets
  | .checked w removed => s.checked w removed
  | .answered w ok error => s.answered w ok error
  | .retry q => s.retry q
  | .forget q => { s with stored := s.stored.erase q }
  | .otherWake row => s.insertRow row
  | .retract seq => s.retract seq
  | .pruneRetainedContent cutoff => s.pruneRetainedContent cutoff
  | .pruneWakeLedger => s.pruneWakeLedger
  | .eraseIdentityData name => s.eraseIdentityData name

/-- A step goes on with what is there; a hook's name is the key of its row. -/
def Ready (s : Room) : Event → Prop
  | .dispatchWebhooks seq targets => seq ∈ s.unsent ∧ targets.Nodup
  | .checked w _ => w ∈ s.wakes ∧ w.stage = .checks
  | .answered w _ _ => w ∈ s.wakes ∧ w.stage = .posting
  | .retry q => q ∈ s.stored
  | .otherWake row => row.result ≠ .budget ∧ row.attemptedAt = s.clock
  | _ => True

instance (s : Room) : DecidablePred s.Ready := fun e => by
  cases e <;> unfold Ready <;> infer_instance

def Step (s : Room) (e : Event) (s' : Room) : Prop := s.Ready e ∧ s' = s.next config e

end Step

end Room

end Wakes
end AgentParty
