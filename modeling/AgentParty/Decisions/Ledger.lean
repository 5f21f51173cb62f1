import AgentParty.Lib.Run
import AgentParty.Lib.Table
import AgentParty.Decisions.LedgerText

/-! The decision ledger in the database: the tables, triggers and indexes of
`0042_channel_decisions.sql`, and `writeDecisionLedgerEntry` over them. A query of a call is
one step, its batch one transaction; the calls take their steps in any order. -/

namespace AgentParty
namespace Decisions

structure Channel where
  slug : String
  archivedAt : Option Int
  deriving DecidableEq

inductive CreatedByKind
  | agent
  | human
  deriving DecidableEq

structure ChannelDecision where
  id : String
  channelSlug : String
  topic : List Char
  summary : List Char
  sourceSeq : Option ℕ
  supersedesId : Option String
  createdBy : String
  createdByKind : CreatedByKind
  createdAt : Int
  deriving DecidableEq

/-- What `COLLATE NOCASE` compares; only ASCII letters fold. -/
def noCase (topic : List Char) : List Char := topic.map Char.toLower

/-- The channel and topic under which rows belong together. -/
def ChannelDecision.subject (d : ChannelDecision) : String × List Char :=
  (d.channelSlug, noCase d.topic)

structure DecisionHead where
  channelSlug : String
  topic : List Char
  decisionId : String
  deriving DecidableEq

/-- `PRIMARY KEY (channel_slug, topic)`, where the column collates `NOCASE`. -/
def DecisionHead.subject (h : DecisionHead) : String × List Char := (h.channelSlug, noCase h.topic)

/-- Rows stand in the order in which they were inserted. -/
structure Ledger where
  channels : Table Channel Channel.slug
  decisions : Table ChannelDecision ChannelDecision.id
  heads : Table DecisionHead DecisionHead.subject

inductive LedgerError
  | channelArchived
  | activeDecisionExists
  | activeDecisionLimit
  | supersedesNotActive
  | headMismatch
  | headLineage
  | uniqueConstraint (index : String)
  | checkConstraint (expression : String)
  | foreignKey
  /-- The database is not reached, or fails before it changes anything. -/
  | unavailable (message : String)
  deriving DecidableEq

def LedgerError.message : LedgerError → String
  | .channelArchived => "channel is archived"
  | .activeDecisionExists => "active decision already exists for topic"
  | .activeDecisionLimit => "channel active decision limit reached"
  | .supersedesNotActive => "supersedes_id must reference the active decision for the same topic"
  | .headMismatch => "decision head must match decision channel and topic"
  | .headLineage => "decision head must advance through explicit supersedes lineage"
  | .uniqueConstraint index => "UNIQUE constraint failed: " ++ index
  | .checkConstraint expression => "CHECK constraint failed: " ++ expression
  | .foreignKey => "FOREIGN KEY constraint failed"
  | .unavailable message => message

namespace Ledger

def empty : Ledger := ⟨Table.empty, Table.empty, Table.empty⟩

section Insert

variable (db : Ledger) (d : ChannelDecision)

/-- `channel_decisions_validate_insert`. -/
def validateInsert : Except LedgerError Unit :=
  if (db.channels.get? d.channelSlug).any (·.archivedAt.isSome) then .error .channelArchived
  else if d.supersedesId = none ∧ (db.heads.get? d.subject).isSome then
    .error .activeDecisionExists
  else if d.supersedesId = none ∧
      CHANNEL_DECISION_ACTIVE_MAX ≤ (db.heads.rows.filter (·.channelSlug = d.channelSlug)).length then
    .error .activeDecisionLimit
  else if d.supersedesId.isSome ∧ ¬ (db.heads.get? d.subject).any fun h =>
      d.supersedesId = some h.decisionId ∧
        (db.decisions.get? h.decisionId).any (·.channelSlug = d.channelSlug) then
    .error .supersedesNotActive
  else .ok ()

/-- The constraints of the table and of `idx_channel_decisions_supersedes`. -/
def checkInsert : Except LedgerError Unit :=
  if d.topic = [] then .error (.checkConstraint "length(topic) > 0")
  else if d.summary = [] then .error (.checkConstraint "length(summary) > 0")
  else if d.sourceSeq = some 0 then .error (.checkConstraint "source_seq IS NULL OR source_seq > 0")
  else if d.supersedesId = some d.id then
    .error (.checkConstraint "supersedes_id IS NULL OR supersedes_id != id")
  else if (db.decisions.get? d.id).isSome then .error (.uniqueConstraint "channel_decisions.id")
  else if d.supersedesId.isSome ∧ ∃ other ∈ db.decisions,
      other.channelSlug = d.channelSlug ∧ other.supersedesId = d.supersedesId then
    .error (.uniqueConstraint "channel_decisions.channel_slug, channel_decisions.supersedes_id")
  else if (db.channels.get? d.channelSlug).isNone ∨
      d.supersedesId.any fun old => (db.decisions.get? old).isNone then
    .error .foreignKey
  else .ok ()

def insertDecision : Except LedgerError Ledger := do
  db.validateInsert d
  db.checkInsert d
  return { db with decisions := db.decisions.insert d }

end Insert

section Heads

variable (db : Ledger) (head : DecisionHead)

/-- The decision of the head is one of its channel and topic. -/
def headMatches : Bool :=
  (db.decisions.get? head.decisionId).any (·.subject = head.subject)

/-- `channel_decision_heads_validate_insert`, then the constraints. -/
def insertHead : Except LedgerError Ledger :=
  if !db.headMatches head then .error .headMismatch
  else if (db.heads.get? head.subject).isSome then
    .error (.uniqueConstraint "channel_decision_heads.channel_slug, channel_decision_heads.topic")
  else if (db.channels.get? head.channelSlug).isNone then .error .foreignKey
  else .ok { db with heads := db.heads.insert head }

/-- The conditional `UPDATE` that advances a head, with the checks of
`channel_decision_heads_validate_update`; without a matching row it changes nothing. -/
def updateHead (supersedesId : String) : Except LedgerError Ledger :=
  match (db.heads.get? head.subject).filter (·.decisionId = supersedesId) with
  | none => .ok db
  | some old =>
    if !db.headMatches head then .error .headMismatch
    else if head.decisionId ≠ old.decisionId ∧
        ¬ (db.decisions.get? head.decisionId).any (·.supersedesId = some old.decisionId) then
      .error .headLineage
    else .ok { db with heads := db.heads.put head }

end Heads

/-- The transaction; on an error the database stays as it was. -/
def batch (db : Ledger) (d : ChannelDecision) : Except LedgerError Ledger := do
  let db ← db.insertDecision d
  let head : DecisionHead := ⟨d.channelSlug, d.topic, d.id⟩
  match d.supersedesId with
  | none => db.insertHead head
  | some supersedesId => db.updateHead head supersedesId

end Ledger

inductive DecisionLedgerSkipReason
  | alreadyRecorded
  | ledgerFull
  | conflict
  | archived
  | writeFailed
  deriving DecidableEq

structure DecisionLedgerWriteResult where
  recorded : Bool
  id : Option String
  topic : JsString
  reason : Option DecisionLedgerSkipReason := none
  deriving DecidableEq

structure DecisionLedgerWriteInput where
  slug : String
  seq : ℕ
  topic : JsString
  summary : JsString
  createdBy : String
  createdByKind : CreatedByKind
  createdAt : Int
  deriving DecidableEq

/-- What `recordResolvedDecisionInLedger` has in hand when it calls: the answered request and
who answered it. -/
structure ResolvedDecision where
  channelSlug : String
  seq : ℕ
  prompt : JsString
  kind : DecisionKind
  chosenIndex : ℕ
  chosenOption : JsString
  reason : Option JsString
  responder : String
  responderKind : CreatedByKind
  now : Int
  deriving DecidableEq

def ResolvedDecision.input (r : ResolvedDecision) : DecisionLedgerWriteInput where
  slug := r.channelSlug
  seq := r.seq
  topic := decisionAskLedgerTopic r.prompt
  summary := decisionAskLedgerSummary
    ⟨r.kind, r.chosenIndex, r.chosenOption, js r.responder, r.seq, r.reason⟩
  createdBy := r.responder
  createdByKind := r.responderKind
  createdAt := r.now

/-- The channel and topic under which the input is filed. -/
def DecisionLedgerWriteInput.subject (input : DecisionLedgerWriteInput) : String × List Char :=
  (input.slug, noCase (bound input.topic))

def DecisionLedgerWriteInput.row (input : DecisionLedgerWriteInput) (id : String)
    (supersedesId : Option String) : ChannelDecision where
  id := id
  channelSlug := input.slug
  topic := bound input.topic
  summary := bound input.summary
  sourceSeq := some input.seq
  supersedesId := supersedesId
  createdBy := input.createdBy
  createdByKind := input.createdByKind
  createdAt := input.createdAt

/-- The row records the decision that the input is about. -/
def DecisionLedgerWriteInput.RecordedBy (input : DecisionLedgerWriteInput) (d : ChannelDecision) :
    Prop :=
  d.channelSlug = input.slug ∧ d.sourceSeq = some input.seq

instance (input : DecisionLedgerWriteInput) (d : ChannelDecision) :
    Decidable (input.RecordedBy d) :=
  inferInstanceAs (Decidable (_ ∧ _))

/-- Whether the pattern is found in the error's text. -/
def LedgerError.says (error : LedgerError) (pattern : String) : Bool :=
  pattern.toList <:+: error.message.toList

def skipReason (error : LedgerError) : DecisionLedgerSkipReason :=
  if error.says "channel is archived" then .archived
  else if error.says "active decision limit reached" then .ledgerFull
  else if error.says "active decision already exists" || error.says "supersedes_id must reference" ||
      error.says "UNIQUE constraint" then .conflict
  else .writeFailed

/-- What a call does next; `threw` is a call whose query threw. -/
inductive Progress
  | existing
  | head
  | batch (supersedesId : Option String)
  | answered (result : DecisionLedgerWriteResult)
  | threw
  deriving DecidableEq

structure WriteCall where
  id : ℕ
  input : DecisionLedgerWriteInput
  progress : Progress
  deriving DecidableEq

structure World where
  db : Ledger
  calls : Table WriteCall WriteCall.id

inductive Event
  | createChannel (slug : String)
  | setArchived (slug : String) (archivedAt : Option Int)
  /-- A new call of `writeDecisionLedgerEntry`. -/
  | call (c : ℕ) (decision : ResolvedDecision)
  | selectExisting (c : ℕ)
  | selectHead (c : ℕ)
  /-- The batch, under the id the call has drawn. -/
  | batch (c : ℕ) (id : String)
  /-- The query or batch at hand fails and changes nothing. -/
  | fails (c : ℕ) (message : String)
  deriving DecidableEq

/-- The call that takes the step. -/
def Event.caller : Event → Option ℕ
  | .selectExisting c | .selectHead c | .batch c _ | .fails c _ => some c
  | _ => none

namespace World

def initial : World := ⟨Ledger.empty, Table.empty⟩

def move (w : World) (call : WriteCall) (progress : Progress) : World :=
  { w with calls := w.calls.put { call with progress } }

def skip (w : World) (call : WriteCall) (id : Option String) (reason : DecisionLedgerSkipReason) :
    World :=
  w.move call (.answered ⟨false, id, call.input.topic, some reason⟩)

def runExisting (w : World) (call : WriteCall) : World :=
  match w.db.decisions.rows.find? fun d => call.input.RecordedBy d with
  | some existing => w.skip call (some existing.id) .alreadyRecorded
  | none => w.move call .head

def runHead (w : World) (call : WriteCall) : World :=
  w.move call (.batch ((w.db.heads.get? call.input.subject).map (·.decisionId)))

def runBatch (w : World) (call : WriteCall) (supersedesId : Option String) (id : String) : World :=
  match w.db.batch (call.input.row id supersedesId) with
  | .ok db => { w with db }.move call (.answered ⟨true, some id, call.input.topic, none⟩)
  | .error error => w.skip call none (skipReason error)

/-- A query throws out of the call; the `catch` of the batch answers. -/
def runFails (w : World) (call : WriteCall) (message : String) : World :=
  match call.progress with
  | .batch _ => w.skip call none (skipReason (.unavailable message))
  | _ => w.move call .threw

/-- The step of a call that waits for it. -/
def take (w : World) : WriteCall → Event → World
  | call@⟨_, _, .existing⟩, .selectExisting _ => w.runExisting call
  | call@⟨_, _, .head⟩, .selectHead _ => w.runHead call
  | call@⟨_, _, .batch supersedesId⟩, .batch _ id => w.runBatch call supersedesId id
  | ⟨_, _, .answered _⟩, _ => w
  | ⟨_, _, .threw⟩, _ => w
  | call, .fails _ message => w.runFails call message
  | _, _ => w

def next (w : World) (e : Event) : World :=
  match e with
  | .createChannel slug =>
    { w with db := { w.db with channels := w.db.channels.insert ⟨slug, none⟩ } }
  | .setArchived slug archivedAt =>
    let channels := w.db.channels.update (·.slug = slug) (fun c => { c with archivedAt }) fun _ => rfl
    { w with db := { w.db with channels } }
  | .call c decision => { w with calls := w.calls.insert ⟨c, decision.input, .existing⟩ }
  | .selectExisting c | .selectHead c | .batch c _ | .fails c _ =>
    match w.calls.get? c with
    | some call => w.take call e
    | none => w

/-- A step leads where `next` does; an event out of place changes nothing. -/
def Step (w : World) (e : Event) (w' : World) : Prop := w' = w.next e

end World

end Decisions
end AgentParty
