import AgentParty.Delivery.Data
import AgentParty.Lib.Run

/-! Completions under the reviewer gate: a completion waits for a review, and a rejected one may
be named by the send that replaces it. The link is kept twice, on the new row when it is
inserted and on the old row by an update behind it. The checks that no column of a completion
decides (tokens, the archive, rates, mentions) come with the event. -/

namespace AgentParty
namespace Completions

def REVIEW_REASON_LIMIT : ℕ := 4000

structure Identity where
  name : String
  kind : SenderKind
  owner : Option String
  deriving DecidableEq

/-- `completion_artifact_json`; what the parser has accepted it accepts again. -/
structure CompletionArtifact where
  kickoffSeq : ℕ
  repliesCount : ℕ
  timeout : Bool
  relatedIssues : List ℕ
  relatedPrs : List ℕ
  taskId : Option ℕ
  deriving DecidableEq

inductive CompletionReviewState
  | pendingReview
  | approved
  | rejected
  deriving DecidableEq

inductive CompletionReviewPolicy
  | sender
  | owner
  deriving DecidableEq

/-- The columns of a row of `messages` that a completion has. -/
structure Message where
  seq : ℕ
  sender : Identity
  kind : MessageKind
  body : String
  completionArtifact : Option CompletionArtifact
  reviewState : Option CompletionReviewState
  reviewPolicy : Option CompletionReviewPolicy
  reviewedBy : Option Identity
  reviewedAt : Option Int
  reviewReason : Option String
  replacesSeq : Option ℕ
  replacedBySeq : Option ℕ
  retracted : Bool
  deriving DecidableEq

inductive CompletionGate
  | off
  | reviewer
  deriving DecidableEq

structure SendFrame where
  kind : MessageKind
  body : String
  completionArtifact : Option CompletionArtifact
  replaces : Option ℕ
  deriving DecidableEq

inductive ReviewAction
  | approve
  | reject
  deriving DecidableEq

structure Room where
  completionGate : CompletionGate
  completionReviewPolicy : CompletionReviewPolicy
  lastSeq : ℕ
  messages : Table Message Message.seq
  /-- Every row as it was inserted, oldest first. -/
  written : List Message
  /-- The completions that a review has decided, oldest first. -/
  reviewed : List ℕ

namespace Room

def initial (gate : CompletionGate) (policy : CompletionReviewPolicy) : Room :=
  ⟨gate, policy, 0, Table.empty, [], []⟩

def insertMessage (s : Room) (m : Message) : Room :=
  { s with
    messages := s.messages.insert m
    written := s.written ++ [m] }

section Send

/-- The target that counts: only a completion under the gate replaces one. -/
def replacesSeq (s : Room) (frame : SendFrame) : Option ℕ :=
  if frame.kind = .message ∧ frame.completionArtifact.isSome = true ∧ s.completionGate = .reviewer then
    frame.replaces
  else none

/-- The refusal of a replacement. -/
def replacementError (s : Room) (frame : SendFrame) (replaces : ℕ) : Option String :=
  match s.messages.get? replaces with
  | none => some ("replacement target seq " ++ toString replaces ++ " not found")
  | some row =>
    if row.kind ≠ .message ∨ row.completionArtifact = none then
      some "replacement target is not a completion message"
    else if row.reviewState ≠ some .rejected then
      some "replacement target is not a rejected completion"
    else if row.completionArtifact.map (·.kickoffSeq) ≠
        frame.completionArtifact.map (·.kickoffSeq) then
      some "replacement target kickoff_seq does not match"
    else none

def sentMessage (s : Room) (sender : Identity) (frame : SendFrame) : Message :=
  let artifact := if frame.kind = .message then frame.completionArtifact else none
  let gated := artifact.isSome = true ∧ s.completionGate = .reviewer
  { seq := s.lastSeq + 1
    sender := sender
    kind := frame.kind
    body := frame.body
    completionArtifact := artifact
    reviewState := if gated then some .pendingReview else none
    reviewPolicy := if gated then some s.completionReviewPolicy else none
    reviewedBy := none
    reviewedAt := none
    reviewReason := none
    replacesSeq := s.replacesSeq frame
    replacedBySeq := none
    retracted := false }

def replacedBy (seq : ℕ) (m : Message) : Message := { m with replacedBySeq := some seq }

/-- The transaction: the new row, and the link of the old one. -/
def store (s : Room) (sender : Identity) (frame : SendFrame) : Room :=
  let stored := { s with lastSeq := s.lastSeq + 1 }.insertMessage (s.sentMessage sender frame)
  match s.replacesSeq frame with
  | none => stored
  | some replaces =>
    { stored with
      messages := stored.messages.update (fun m => m.seq = replaces) (replacedBy (s.lastSeq + 1))
        fun _ => rfl }

/-- `handleSend` from its last wait on; `refused` is what the other checks answer, before the
number of the message is taken or behind it. -/
def send (s : Room) (sender : Identity) (frame : SendFrame) (refused : Option Bool) : Room :=
  match refused with
  | some numbered => if numbered then { s with lastSeq := s.lastSeq + 1 } else s
  | none =>
    match (s.replacesSeq frame).bind (s.replacementError frame) with
    | some _ => { s with lastSeq := s.lastSeq + 1 }
    | none => s.store sender frame

end Send

section Review

def reviewState : ReviewAction → CompletionReviewState
  | .approve => .approved
  | .reject => .rejected

/-- What `POST …/review` answers instead of a review of the row. -/
def reviewError (reviewer : Identity) (action : ReviewAction) (reason : String) (row : Message) :
    Option String :=
  -- an empty owner is no principal
  let senderOwner := row.sender.owner.filter (· ≠ "")
  if action = .reject ∧ reason = "" then some "reject reason is required"
  else if REVIEW_REASON_LIMIT < reason.utf8ByteSize then
    some ("reason exceeds " ++ toString REVIEW_REASON_LIMIT ++ " bytes")
  else if row.kind ≠ .message ∨ row.completionArtifact = none then
    some "target is not a completion message"
  else if row.retracted then some "retracted completion cannot be reviewed"
  else if row.reviewState ≠ some .pendingReview then some "completion is not pending review"
  else if reviewer.name = row.sender.name then
    some "completion sender cannot review their own completion"
  else if row.reviewPolicy = some .owner ∧ senderOwner.isSome = true ∧
      reviewer.owner = senderOwner then
    some "same owner cannot review this completion"
  else if action = .reject ∧ row.sender.kind = .agent ∧ senderOwner = none then
    some "completion is missing its creation-time principal; cannot bind reject reply delivery"
  else none

def reviewedMessage (reviewer : Identity) (action : ReviewAction) (reason : String) (now : Int)
    (m : Message) : Message :=
  { m with
    reviewState := some (reviewState action)
    reviewedBy := some reviewer
    reviewedAt := some now
    reviewReason := if action = .reject then some reason else none }

def reviewReply (seq : ℕ) (reviewer : Identity) (action : ReviewAction) (reason senderName : String)
    (target : ℕ) : Message where
  seq := seq
  sender := reviewer
  kind := .message
  body :=
    match action with
    | .approve =>
      if reason = "" then "review approved #" ++ toString target
      else "review approved #" ++ toString target ++ ": " ++ reason
    | .reject => "@" ++ senderName ++ " review rejected #" ++ toString target ++ ": " ++ reason
  completionArtifact := none
  reviewState := none
  reviewPolicy := none
  reviewedBy := none
  reviewedAt := none
  reviewReason := none
  replacesSeq := none
  replacedBySeq := none
  retracted := false

/-- `POST /internal/messages/…/review`, from the read of the row on. -/
def review (s : Room) (seq : ℕ) (reviewer : Identity) (action : ReviewAction) (reason : String)
    (now : Int) : Room :=
  match s.messages.get? seq with
  | none => s
  | some row =>
    match reviewError reviewer action reason row with
    | some _ => s
    | none =>
      { s with
        lastSeq := s.lastSeq + 1
        messages := s.messages.update (fun m => m.seq = seq)
          (reviewedMessage reviewer action reason now) fun _ => rfl
        reviewed := s.reviewed ++ [seq] }.insertMessage
          (reviewReply (s.lastSeq + 1) reviewer action reason row.sender.name seq)

end Review

section Revise

/-- Whether a row can be edited, retracted or superseded. -/
def revisable (m : Message) : Bool := m.kind = .message && !m.retracted && m.body ≠ "[erased]"

def scrubbed (body : String) (m : Message) : Message :=
  { m with
    body := body
    completionArtifact := none
    reviewState := none
    reviewPolicy := none
    reviewedBy := none
    reviewedAt := none
    reviewReason := none }

def edited (body : String) (m : Message) : Message := { m with body := body }

def edit (s : Room) (seq : ℕ) (body : String) : Room :=
  { s with
    messages := s.messages.update (fun m => m.seq = seq && revisable m) (edited body) fun _ => rfl }

def retracted (m : Message) : Message := { scrubbed "[retracted]" m with retracted := true }

def retract (s : Room) (seq : ℕ) : Room :=
  { s with
    messages := s.messages.update (fun m => m.seq = seq && revisable m) retracted fun _ => rfl }

/-- The new text of `supersede` is an ordinary message; the rows of the two are linked in columns
of their own. -/
def supersede (s : Room) (seq : ℕ) (sender : Identity) (body : String) (refused : Option Bool) :
    Room :=
  match s.messages.get? seq with
  | none => s
  | some m => if revisable m then s.send sender ⟨.message, body, none, none⟩ refused else s

def erased (m : Message) : Message :=
  { scrubbed "[erased]" m with sender := { m.sender with owner := none } }

def eraseIdentityData (s : Room) (name : String) : Room :=
  { s with
    messages := s.messages.update (fun m => m.sender.name = name && m.body ≠ "[erased]") erased
      fun _ => rfl }

end Revise

end Room

inductive Event
  | send (sender : Identity) (frame : SendFrame) (refused : Option Bool)
  | review (seq : ℕ) (reviewer : Identity) (action : ReviewAction) (reason : String) (now : Int)
  | edit (seq : ℕ) (body : String)
  | retract (seq : ℕ)
  | supersede (seq : ℕ) (sender : Identity) (body : String) (refused : Option Bool)
  | eraseIdentityData (name : String)
  /-- The prunings, of the last messages and by age. -/
  | prune (seqs : List ℕ)
  | cacheChannelMeta (gate : CompletionGate) (policy : CompletionReviewPolicy)

namespace Room

def next (s : Room) : Event → Room
  | .send sender frame refused => s.send sender frame refused
  | .review seq reviewer action reason now => s.review seq reviewer action reason now
  | .edit seq body => s.edit seq body
  | .retract seq => s.retract seq
  | .supersede seq sender body refused => s.supersede seq sender body refused
  | .eraseIdentityData name => s.eraseIdentityData name
  | .prune seqs => { s with messages := s.messages.delete fun m => seqs.contains m.seq }
  | .cacheChannelMeta gate policy =>
    { s with completionGate := gate, completionReviewPolicy := policy }

def Step (s : Room) (e : Event) (s' : Room) : Prop := s' = s.next e

end Room

end Completions
end AgentParty
