import AgentParty.Delivery.Machine

/-! Answers to decisions: `POST /internal/messages/:seq/decision` from the read of the question's
row on, with a wait for the body and, where the asker's principal is not stored, one for the
directory. Beside it stands every writer of questions, replies and their deliveries; what only
moves a delivery (claims, receipts, requeues, expiry) is one event. -/

namespace AgentParty
namespace Answers

open Ledger

/-- The part of `decision_request_json` that the delivery ledger does not read. -/
structure Form where
  isApproval : Bool
  prompt : String
  options : List String
  deriving DecidableEq

/-- What a resolution and a response have in common; an empty reason is not stored. -/
structure Choice where
  chosenIndex : ℕ
  chosenOption : String
  reason : String
  deriving DecidableEq

/-- `decision_resolution_json`. -/
structure Resolution where
  choice : Choice
  responder : String
  responderKind : SenderKind
  responderOwner : Option String
  respondedAt : Int
  deriving DecidableEq

/-- `decision_response_json`, next to the request's number and lineage. -/
structure Response where
  choice : Choice
  prompt : String
  deriving DecidableEq

/-- What the body of a request names; the text of an option is trimmed. -/
inductive Pick
  | action (approve : Bool)
  | badAction
  | index (i : Int)
  | option (text : String)
  | missing
  deriving DecidableEq

structure Body where
  pick : Pick
  reason : String

/-- The error codes of the route; `thrown` is `.one()` without a row. -/
inductive Refusal
  | thrown
  | badRequest
  | forbidden
  | alreadyFinal
  | tooLarge
  | unavailable
  deriving DecidableEq

/-- The index before it is checked; `indexOf` of an unknown option is out of range. -/
def pickedIndex (form : Form) : Pick → Option Int
  | .action approve => if form.isApproval then some (if approve then 0 else 1) else none
  | .badAction => none
  | .index i => some i
  | .option text => (form.options.idxOf? text).map Int.ofNat
  | .missing => none

def parseBody (form : Form) (body : Body) : Except Refusal Choice :=
  match pickedIndex form body.pick with
  | none => .error .badRequest
  | some i =>
    if i < 0 then .error .badRequest
    else
      match form.options[i.toNat]? with
      | none => .error .badRequest
      | some chosen =>
        if DECISION_REASON_LIMIT < body.reason.utf8ByteSize then .error .tooLarge
        else .ok ⟨i.toNat, chosen, body.reason⟩

inductive Stage
  | body
  | directory (choice : Choice)
  deriving DecidableEq

/-- A request that waits, with the row of the question as it was read. -/
structure Task where
  id : ℕ
  responder : Identity
  row : Message
  request : DecisionRequest
  form : Form
  stage : Stage

/-- The values of `crypto.randomUUID()` for the work of an answer. -/
structure Mint where
  id : Uuid
  workId : Uuid
  continuationRef : Uuid

/-- An answer that was stored: the transaction that resolved the question. -/
structure Answered where
  question : ℕ
  reply : ℕ
  resolution : Resolution
  response : Response
  /-- The `owner_answer` deliveries it created. -/
  works : List String

/-- The pair of frames that a successful request is shown. -/
structure Shown where
  question : ℕ
  reply : ℕ
  resolution : Resolution
  response : Option Response
  deriving DecidableEq

/-- The channel. The decision columns are written with their row and read while the row has
them, so they are kept by the number of the row. -/
structure Desk where
  ledger : Ledger
  lastSeq : ℕ
  forms : ℕ → Form
  resolutions : ℕ → Option Resolution
  responses : ℕ → Option Response
  tasks : List Task
  /-- Every answer that was ever stored. -/
  answered : List Answered
  /-- What the requests were answered. -/
  outcomes : List (Except Refusal Shown)

/-- One stretch of the channel between two waits. -/
inductive Event
  /-- The request has passed the token check. -/
  | arrive (id : ℕ) (responder : Identity) (moderator : Bool) (seq : ℕ)
  | body (id : ℕ) (body : Body) (mint : Mint) (selfMention : Bool) (now : Int)
  | directory (id : ℕ) (owner : Option String) (mint : Mint) (selfMention : Bool) (now : Int)
  | send (c : SendCommit) (form : Form)
  /-- A message without decision columns. -/
  | note (m : Message) (author : Identity) (now : Int)
  | stage (seq : ℕ) (edited : Bool) (targets : List DeliveryTarget) (now : Int)
  | retract (seq : ℕ) (now : Int)
  | sourcesExpired (roots : List String) (failure : DeliveryFailure) (now : Int)
  | deleteMessages (seqs : List ℕ)
  | pruneDeliveries (now : Int)
  | eraseIdentity (name : String)
  | reviewed (seq : ℕ) (reviewPending : Bool)
  /-- Deliveries move, and no row is made. -/
  | moves (deliveries : Deliveries) (leaseHistory : List LeaseHistory)

namespace Desk

def initial : Desk where
  ledger := ⟨Table.empty, [], Table.empty, 0⟩
  lastSeq := 0
  forms _ := ⟨false, "", []⟩
  resolutions _ := none
  responses _ := none
  tasks := []
  answered := []
  outcomes := []

/-- `parseStoredDecisionResolution` of a row that is resolved. -/
def resolutionOf (d : Desk) (m : Message) : Option Resolution :=
  if m.decisionState = some .resolved then d.resolutions m.seq else none

def responseOf (d : Desk) (m : Message) : Option Response :=
  if m.decisionResponse.isSome then d.responses m.seq else none

/-- The first row whose response names the request. -/
def originalReply (d : Desk) (seq : ℕ) : Option Message :=
  ((d.ledger.messages.rows.filter fun m =>
    m.decisionResponse.any (·.requestSeq = seq)).insertionSort (·.seq ≤ ·.seq)).head?

def sameResponder (resolution : Resolution) (responder : Identity) : Bool :=
  resolution.responder = responder.name && resolution.responderKind = responder.kind &&
    resolution.responderOwner.all (responder.owner = some ·)

def resolvedRetryResponse (d : Desk) (responder : Identity) (question : Message) : Option Shown :=
  match d.resolutionOf question with
  | none => none
  | some resolution =>
    if !sameResponder resolution responder then none
    else
      (d.originalReply question.seq).map fun reply =>
        ⟨question.seq, reply.seq, resolution, d.responseOf reply⟩

/-- The checks of the row before its state is looked at. -/
def checkRow (row : Message) (responder : Identity) (moderator : Bool) :
    Except Refusal DecisionRequest :=
  match row.decisionRequest.bind (·.parsed) with
  | none => .error .badRequest
  | some request =>
    if row.kind ≠ .message then .error .badRequest
    else if row.retractedAt.isSome then .error .badRequest
    else if request.expectedResponderOwner.any (fun owner =>
        responder.kind ≠ .human || responder.owner ≠ some owner) then .error .forbidden
    else if responder.name = row.senderName then .error .forbidden
    else if responder.kind ≠ .human && !moderator then .error .forbidden
    else .ok request

def tell (d : Desk) (outcome : Except Refusal Shown) : Desk :=
  { d with outcomes := d.outcomes ++ [outcome] }

def arrive (d : Desk) (id : ℕ) (responder : Identity) (moderator : Bool) (seq : ℕ) : Desk :=
  match d.ledger.messages.get? seq with
  | none => d.tell (.error .thrown)
  | some row =>
    match checkRow row responder moderator with
    | .error refusal => d.tell (.error refusal)
    | .ok request =>
      match d.resolvedRetryResponse responder row with
      | some shown => d.tell (.ok shown)
      | none =>
        if row.decisionState ≠ some .pending then d.tell (.error .alreadyFinal)
        else { d with tasks := ⟨id, responder, row, request, d.forms seq, .body⟩ :: d.tasks }

/-- Whose principal the work of the answer is for. -/
inductive Binding
  | noWork
  | principal (owner : String)
  | directory
  deriving DecidableEq

/-- The lineage is checked on the row that was read and the deliveries as they are. -/
def binding (l : Ledger) (row : Message) (request : DecisionRequest) : Except Refusal Binding :=
  if row.senderKind ≠ .agent then .ok .noWork
  else
    match request.lineage with
    | some _ =>
      match l.exactDecisionSource row request with
      | none => .error .unavailable
      | some source =>
        if source.state ≠ .waitingOwner then .error .alreadyFinal
        else .ok (.principal (text source.targetOwner))
    | none =>
      if row.replyTo.any fun seq => l.deliveries.rows.any fun r =>
          r.messageSeq = seq && r.targetName = row.senderName then .error .unavailable
      else
        match row.senderOwner.filter fun o => o ≠ "" with
        | some owner => .ok (.principal owner)
        | none => .ok .directory

/-- The `WHERE` clause of the compare-and-set. -/
def casWins (l : Ledger) (t : Task) : Bool :=
  (l.messages.get? t.row.seq).any fun m =>
    m.decisionState = some .pending &&
      (t.request.expectedResponderOwner.isNone ||
        (t.responder.kind = .human &&
          ((m.decisionRequest.bind (·.parsed)).bind (·.expectedResponderOwner)).any
            (t.responder.owner = some ·)))

/-- The `owner_answer` rows that are there and were not. -/
def newWorks (l l' : Ledger) : List String :=
  (l'.deliveries.rows.filter fun r =>
    r.cause = .ownerAnswer && (l.directedDeliveryRow r.id).isNone).map (·.id)

def without (d : Desk) (id : ℕ) : Desk := { d with tasks := d.tasks.filter fun t => t.id ≠ id }

/-- What a request finds that comes after the question was finalized. -/
def casLost (d : Desk) (t : Task) : Except Refusal Shown :=
  match d.ledger.messages.get? t.row.seq with
  | none => .error .thrown
  | some row =>
    match d.resolvedRetryResponse t.responder row with
    | some shown => .ok shown
    | none => .error .alreadyFinal

def resolutionFor (t : Task) (choice : Choice) (now : Int) : Resolution where
  choice := choice
  responder := t.responder.name
  responderKind := t.responder.kind
  responderOwner := t.responder.owner
  respondedAt := now

def responseFor (t : Task) (choice : Choice) : Response := ⟨choice, t.form.prompt⟩

def answerOf (d : Desk) (t : Task) (mint : Mint) (now : Int) : DecisionAnswer where
  responder := t.responder
  questionSeq := t.row.seq
  seq := d.lastSeq + 1
  seq_pos := Nat.succ_pos _
  directoryOwner := none
  id := mint.id
  workId := mint.workId
  continuationRef := mint.continuationRef
  now := now

def targetsOf (t : Task) (owner : Option String) (mint : Mint) (selfMention : Bool) :
    List DeliveryTarget :=
  match owner with
  | none => []
  | some owner =>
    [⟨t.row.senderName, some owner, selfMention, mint.id, mint.workId, mint.continuationRef⟩]

/-- The transaction that resolves the question, stores the reply and makes its delivery. -/
def resolve (d : Desk) (t : Task) (choice : Choice) (owner : Option String) (mint : Mint)
    (selfMention : Bool) (now : Int) : Desk :=
  let reply := d.lastSeq + 1
  let ledger := d.ledger.commitAnswer (d.answerOf t mint now) t.request
    (targetsOf t owner mint selfMention)
  let resolution := resolutionFor t choice now
  let response := responseFor t choice
  { d with
    ledger := ledger
    lastSeq := reply
    resolutions := Function.update d.resolutions t.row.seq (some resolution)
    responses := Function.update d.responses reply (some response)
    answered := d.answered ++
      [⟨t.row.seq, reply, resolution, response, newWorks d.ledger ledger⟩]
    outcomes := d.outcomes ++ [Except.ok ⟨t.row.seq, reply, resolution, some response⟩] }

def commit (d : Desk) (t : Task) (choice : Choice) (owner : Option String) (mint : Mint)
    (selfMention : Bool) (now : Int) : Desk :=
  let d := d.without t.id
  if casWins d.ledger t then d.resolve t choice owner mint selfMention now
  else d.tell (d.casLost t)

def task (d : Desk) (id : ℕ) : Option Task := d.tasks.find? (·.id = id)

def awaitDirectory (d : Desk) (t : Task) (choice : Choice) : Desk :=
  { d with tasks := { t with stage := .directory choice } :: (d.without t.id).tasks }

def onBody (d : Desk) (t : Task) (body : Body) (mint : Mint) (selfMention : Bool) (now : Int) :
    Desk :=
  match parseBody t.form body with
  | .error refusal => (d.without t.id).tell (.error refusal)
  | .ok choice =>
    match binding d.ledger t.row t.request with
    | .error refusal => (d.without t.id).tell (.error refusal)
    | .ok .noWork => d.commit t choice none mint selfMention now
    | .ok (.principal owner) => d.commit t choice (some owner) mint selfMention now
    | .ok .directory => d.awaitDirectory t choice

def onDirectory (d : Desk) (t : Task) (choice : Choice) (owner : Option String) (mint : Mint)
    (selfMention : Bool) (now : Int) : Desk :=
  match owner with
  | none => (d.without t.id).tell (.error .unavailable)
  | some owner => d.commit t choice (some owner) mint selfMention now

def send (d : Desk) (c : SendCommit) (form : Form) : Desk :=
  { d with
    ledger := d.ledger.commitSend c
    lastSeq := c.seq
    forms := Function.update d.forms c.seq form }

def withLedger (d : Desk) (ledger : Ledger) : Desk := { d with ledger }

def next (d : Desk) : Event → Desk
  | .arrive id responder moderator seq => d.arrive id responder moderator seq
  | .body id body mint selfMention now =>
    match d.task id with
    | some t =>
      match t.stage with
      | .body => d.onBody t body mint selfMention now
      | _ => d
    | none => d
  | .directory id owner mint selfMention now =>
    match d.task id with
    | some t =>
      match t.stage with
      | .directory choice => d.onDirectory t choice owner mint selfMention now
      | _ => d
    | none => d
  | .send c form => d.send c form
  | .note m author now =>
    { d with
      ledger := (d.ledger.storeMessage m).linkWakeResume author m [] now
      lastSeq := m.seq }
  | .stage seq edited targets now =>
    match d.ledger.messages.get? seq with
    | none => d
    | some msg =>
      d.withLedger (d.ledger.ensureDirectedDeliveries msg targets
        (if edited then some .mentionEdit else none) now)
  | .retract seq now => d.withLedger (d.ledger.retractMessage seq now)
  | .sourcesExpired roots failure now =>
    d.withLedger (d.ledger.failDeliveryTree roots now failure).1
  | .deleteMessages seqs => d.withLedger (d.ledger.deleteMessages seqs)
  | .pruneDeliveries now => d.withLedger (d.ledger.pruneDirectedDeliveries now)
  | .eraseIdentity name => d.withLedger (d.ledger.eraseIdentityData name)
  | .reviewed seq reviewPending =>
    d.withLedger { d.ledger with
      revSeq := d.ledger.revSeq + 1
      messages := d.ledger.messages.update (fun m => m.seq = seq)
        (withReviewPending reviewPending) (withReviewPending_seq _) }
  | .moves deliveries leaseHistory => d.withLedger { d.ledger with deliveries, leaseHistory }

/-- The row was there, for the same message and of the same cause. -/
def continuesRow (d : Desk) (r : Delivery) : Prop :=
  ∃ r₀ ∈ d.ledger.deliveries, r₀.id = r.id ∧ r₀.messageSeq = r.messageSeq ∧ r₀.cause = r.cause

/-- What an event needs besides its own checks: the next number, fresh keys, a message whose
deliveries are not an answer's, the reasons that the sweeps give. -/
def Ready (d : Desk) : Event → Prop
  | .arrive id _ _ _ => ∀ t ∈ d.tasks, t.id ≠ id
  | .body _ _ mint _ _ | .directory _ _ mint _ _ => ∀ r ∈ d.ledger.deliveries, r.id ≠ mint.id.val
  | .send c _ => c.seq = d.lastSeq + 1 ∧
      ∀ r ∈ d.ledger.deliveries, r.id ∉ c.targets.map (·.id.val)
  | .note m _ _ => m.seq = d.lastSeq + 1 ∧ m.decisionState = none ∧ m.decisionRequest.isNone ∧
      m.decisionResponse = none
  | .stage seq edited _ _ =>
    ∃ m ∈ d.ledger.messages, m.seq = seq ∧ (edited = true ∨ m.decisionResponse = none)
  | .sourcesExpired _ failure _ => failure.terminalReason = .sourceRetentionExpired ∨
      failure.terminalReason = .deliveryExpired ∨ failure.terminalReason = .undeliveredTimeout
  | .moves deliveries _ => ∀ r ∈ deliveries, d.continuesRow r
  | _ => True

def Step (d : Desk) (e : Event) (d' : Desk) : Prop := d.Ready e ∧ d' = d.next e

end Desk

end Answers
end AgentParty
