import AgentParty.Guards.LoopGuard
import AgentParty.Guards.WorkflowGuard
import AgentParty.Lib.Run

/-! `handleSend` as far as the guards go. A call first looks for its retry, then waits for its
mentions to be routed; from there to the end of the transaction nothing waits, so that the
checks of the guards and what they count are one step. What other tables decide (membership,
decision lineage, completion replacement) comes with the event. -/

namespace AgentParty
namespace Guards

open Routing (Sender AgentName mentionMatchKey isWakeVerifyFrame)

def SendFrame.payload : SendFrame → String
  | .message body _ _ => body
  | .status _ note _ _ => note

def SendFrame.kind : SendFrame → MessageKind
  | .message .. => .message
  | .status .. => .status

def SendFrame.state : SendFrame → Option StatusState
  | .message .. => none
  | .status state .. => some state

def SendFrame.workflow : SendFrame → Option StatusWorkflow
  | .message .. => none
  | .status _ _ _ workflow => workflow

/-- What the code outside the guards answers a call that goes on. -/
structure Answers where
  routing : Except Refusal MentionRouting
  /-- The refusal of the decision request or of the replacement. -/
  request : Option Refusal
  /-- The lineage has changed before the commit. -/
  decisionPrecondition : Option Refusal
  /-- A statement of the transaction throws. -/
  throws : Bool
  now : Int

namespace Room

section Send

variable (nfc : String → String) (toISOString : Int → String)

def finish (s : Room) (call : Call) (outcome : SendOutcome) : Room :=
  { s with outcomes := s.outcomes ++ [(call, outcome)] }

/-- The row of which this call is a retry. -/
def priorRow (s : Room) (call : Call) (now : Int) : Option Message :=
  match call.idempotencyKey with
  | none => none
  | some key =>
    ((s.messages.rows.filter fun m =>
      m.sender.name = call.sender.name && m.idempotencyKey = some key &&
        now - IDEMPOTENCY_WINDOW_MS ≤ m.ts).insertionSort fun a b => b.seq ≤ a.seq).head?

/-- `handleSend` up to its last wait; `refused` is the answer of the checks before the retry
is looked for. -/
def enter (s : Room) (call : Call) (refused : Option Refusal) (now : Int) : Room :=
  match refused with
  | some refusal => s.finish call (.failed refusal.error)
  | none =>
    match s.priorRow call now with
    | some m => s.finish call (.deduped m.seq)
    | none =>
      if BODY_LIMIT < call.frame.payload.utf8ByteSize then
        s.finish call (.failed ⟨.tooLarge, "body exceeds " ++ toString BODY_LIMIT ++ " bytes"⟩)
      else { s with sends := s.sends ++ [call] }

/-- A message of an agent to itself alone that has reached its registered identity. -/
def isVerifyProbe (sender : Sender) (kind : MessageKind) (body : String) (mentions : List String)
    (deliveryTargets : List AgentName) : Bool :=
  match sender with
  | .human _ => false
  | .agent name =>
    isWakeVerifyFrame nfc sender kind body mentions &&
      deliveryTargets.any fun target => mentionMatchKey nfc target.val = mentionMatchKey nfc name.val

def verifyProbe (call : Call) (routing : MentionRouting) : Bool :=
  isVerifyProbe nfc call.sender call.frame.kind call.frame.payload routing.mentions
    routing.deliveryTargets

def wakeVerifyMessage (name : String) (retryAt retryAfterMs : Int) : String :=
  name ++ " already sent a wake-verify frame in this channel within the last 30s " ++
    "(limit: 1 per 30s per sender); retry in " ++ toString (max 1 ((retryAfterMs + 999) / 1000)) ++
    "s, at " ++ toISOString retryAt

def wakeVerifyRateLimit (s : Room) (name : String) (now : Int) : Option SendError :=
  match s.wakeVerifyAt name with
  | none => none
  | some last =>
    let retryAt := last + WAKE_VERIFY_MIN_INTERVAL_MS
    if retryAt - now ≤ 0 then none
    else some ⟨.wakeVerifyRateLimited, wakeVerifyMessage toISOString name retryAt (retryAt - now)⟩

def sendLoopGuard (s : Room) (call : Call) : Option String :=
  match call.sender, call.frame with
  | .agent name, .message .. => s.loopGuardMessage name.val
  | _, _ => none

/-- The guards, in the order of their checks. -/
def checkGuards (s : Room) (call : Call) (routing : MentionRouting) (now : Int) :
    Room × Option SendError :=
  match (s.workflowGuardDecision call).bind s.workflowGuardError with
  | some error => (s, some error)
  | none =>
    match
      if verifyProbe nfc call routing then s.wakeVerifyRateLimit toISOString call.sender.name now
      else none with
    | some error => (s, some error)
    | none =>
      match s.sendLoopGuard call with
      | some message => (s.alertLoopGuard message now, some ⟨.loopGuard, message⟩)
      | none => (s, none)

def rateError : SendError :=
  ⟨.rateLimited, "over " ++ toString RATE_LIMIT_PER_MIN ++ " messages per minute"⟩

/-- The counts of the current bucket and of the one before. -/
def rateCounts (s : Room) (name : String) (bucket : Int) : ℕ × ℕ :=
  (s.rate.rows.filter fun r => r.name = name && bucket - 1 ≤ r.bucket).foldl
    (fun counts r => if r.bucket = bucket then (r.count, counts.2) else (counts.1, r.count)) (0, 0)

/-- The window is counted in sixty-thousandths of a message. -/
def consumeRate (s : Room) (name : String) (now : Int) : Room × Option SendError :=
  let bucket := now / 60000
  let swept := { s with rate := s.rate.delete fun r => r.bucket < bucket - 1 }
  let counts := swept.rateCounts name bucket
  if RATE_LIMIT_PER_MIN * 60000 ≤ counts.1 * 60000 + counts.2 * (60000 - now % 60000) then
    (swept, some rateError)
  else
    ({ swept with
      rate := swept.rate.put
        ⟨name, bucket, ((swept.rate.get? (name, bucket)).map (·.count)).getD 0 + 1⟩ }, none)

def sentMessage (call : Call) (routing : MentionRouting) (decision : Option WorkflowGuardDecision)
    (seq : ℕ) (now : Int) : Message where
  seq := seq
  writer := .handleSend
  sender := call.sender
  kind := call.frame.kind
  body := call.frame.payload
  mentions := routing.mentions
  deliveryTargets := routing.deliveryTargets
  state := call.frame.state
  statusWorkflow := call.frame.workflow
  messageWorkflow := decision.map (·.workflow)
  idempotencyKey := call.idempotencyKey
  ts := now

/-- What a stored frame does to the loop guard; a human message clears both guards. -/
def countFrame (s : Room) (call : Call) (routing : MentionRouting) (now : Int) : Room :=
  match call.frame, call.sender with
  | .status .., _ => s
  | .message .., .agent name =>
    if verifyProbe nfc call routing then
      { s with wakeVerifyAt := Function.update s.wakeVerifyAt name.val (some now) }
    else s.countAgentMessage name.val
  | .message .., .human _ => s.clearLoopGuardState.clearWorkflowGuards now

/-- The statements of the transaction behind its checks. -/
def store (s : Room) (call : Call) (routing : MentionRouting)
    (decision : Option WorkflowGuardDecision) (seq : ℕ) (now : Int) : Room :=
  ((s.insertMessage (sentMessage call routing decision seq now)).applyWorkflowGuardAfterSend
    call.sender call.frame.state seq decision now).countFrame nfc call routing now

def transact (s : Room) (call : Call) (routing : MentionRouting)
    (decision : Option WorkflowGuardDecision) (seq : ℕ) (answers : Answers) : Room × SendOutcome :=
  match answers.decisionPrecondition with
  | some refusal => (s, .failed refusal.error)
  | none =>
    match if call.countRate then s.consumeRate call.sender.name answers.now else (s, none) with
    | (limited, some error) => (limited, .failed error)
    | (counted, none) =>
      if answers.throws then (s, .thrown)
      else (counted.store nfc call routing decision seq answers.now, .sent seq)

/-- The rest of `handleSend`, from the answer of the routing on. -/
def resumed (s : Room) (call : Call) (answers : Answers) : Room × SendOutcome :=
  match answers.routing with
  | .error refusal => (s, .failed refusal.error)
  | .ok routing =>
    match s.checkGuards nfc toISOString call routing answers.now with
    | (checked, some error) => (checked, .failed error)
    | (checked, none) =>
      -- the number is taken whatever comes of the call
      let numbered := { checked with lastSeq := checked.lastSeq + 1 }
      match answers.request with
      | some refusal => (numbered, .failed refusal.error)
      | none =>
        numbered.transact nfc call routing (s.workflowGuardDecision call) numbered.lastSeq answers

def resume (s : Room) (call : Call) (answers : Answers) : Room :=
  let result := { s with sends := s.sends.erase call }.resumed nfc toISOString call answers
  result.1.finish call result.2

/-- A row that `insertReviewerReply` or `insertDecisionResponse` writes. -/
def insertReply (s : Room) (writer : Writer) (sender : Sender) (body : String)
    (mentions : List String) (now : Int) : Room :=
  { s with lastSeq := s.lastSeq + 1 }.insertMessage
    { seq := s.lastSeq + 1
      writer := writer
      sender := sender
      kind := .message
      body := body
      mentions := mentions
      deliveryTargets := []
      state := none
      statusWorkflow := none
      messageWorkflow := none
      idempotencyKey := none
      ts := now }

end Send

end Room

/-- A note by which `alertLoopGuard` reports. -/
def isLoopGuardNote (note : String) : Bool :=
  Room.LOOP_GUARD_TRIPPED.toList.isPrefixOf note.toList

inductive Event
  | enter (call : Call) (refused : Option Refusal) (now : Int)
  | resume (call : Call) (answers : Answers)
  /-- `POST /internal/reset-guard`. -/
  | resetGuard
  /-- `POST /internal/workflows/…/reset-guard`. -/
  | resetWorkflowGuard (workflowId : WorkflowId) (now : Int)
  | cacheChannelMeta (settings : Settings)
  | insertReply (writer : Writer) (sender : Sender) (body : String) (mentions : List String)
      (now : Int)
  /-- A system status of another part of the room. -/
  | insertSystemStatus (note : String) (now : Int) (state : StatusState) (mentions : List String)
      (workflow : Option StatusWorkflow)
  /-- `presence` has changed. -/
  | presence (statusWorkflow : String → Option StatusWorkflow) (activeHostName : Option String)
  /-- Edits, retractions and prunings. -/
  | rewrite (messages : Table Message Message.seq)

namespace Room

section Step

variable (nfc : String → String) (toISOString : Int → String)

def next (s : Room) : Event → Room
  | .enter call refused now => s.enter call refused now
  | .resume call answers => s.resume nfc toISOString call answers
  | .resetGuard => s.clearLoopGuardState
  | .resetWorkflowGuard workflowId now => s.resetWorkflowGuard workflowId now
  | .cacheChannelMeta settings => { s with settings := settings }
  | .insertReply writer sender body mentions now => s.insertReply writer sender body mentions now
  | .insertSystemStatus note now state mentions workflow =>
    s.insertSystemStatus note now state mentions workflow
  | .presence statusWorkflow activeHostName =>
    { s with statusWorkflow := statusWorkflow, activeHostName := activeHostName }
  | .rewrite messages => { s with messages := messages }

/-- A call goes on once; the other parts of the room have notes and rows of their own. -/
def Ready (s : Room) : Event → Prop
  | .resume call _ => call ∈ s.sends
  | .insertReply writer _ _ _ _ => writer = .insertReviewerReply ∨ writer = .insertDecisionResponse
  | .insertSystemStatus note _ _ _ _ => isLoopGuardNote note = false
  | _ => True

instance decidableReady (s : Room) : DecidablePred s.Ready
  | .resume call _ => inferInstanceAs (Decidable (call ∈ s.sends))
  | .insertReply writer _ _ _ _ =>
    inferInstanceAs (Decidable (writer = .insertReviewerReply ∨ writer = .insertDecisionResponse))
  | .insertSystemStatus note _ _ _ _ => inferInstanceAs (Decidable (isLoopGuardNote note = false))
  | .enter .. => inferInstanceAs (Decidable True)
  | .resetGuard => inferInstanceAs (Decidable True)
  | .resetWorkflowGuard .. => inferInstanceAs (Decidable True)
  | .cacheChannelMeta .. => inferInstanceAs (Decidable True)
  | .presence .. => inferInstanceAs (Decidable True)
  | .rewrite .. => inferInstanceAs (Decidable True)

def Step (s : Room) (e : Event) (s' : Room) : Prop := s.Ready e ∧ s' = s.next nfc toISOString e

end Step

end Room

end Guards
end AgentParty
