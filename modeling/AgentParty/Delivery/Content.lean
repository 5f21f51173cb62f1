import AgentParty.Delivery.Enqueue
import AgentParty.Delivery.Webhook
import AgentParty.Lib.Run

/-! What the webhook loops carry: message content. `dispatchWebhooks`,
`dispatchDirectedWebhook`, `retryWebhooks` and `redeliverDeadLetters` each hold a
copy of a frame while they wait for the directory and for the network; the copy is
not the message. Which hooks fire and what the directory answers is left open. -/

namespace AgentParty.WebhookLoops

/-- A `messages` row. A removal replaces the body by a fixed text: `none`. -/
structure Message where
  seq : ℕ
  sender : String
  ts : Int
  body : Option String
  retracted : Bool
  deriving DecidableEq, Repr

/-- What a payload says: `JSON.stringify` of the frame, taken once. -/
structure Payload where
  seq : ℕ
  sender : String
  body : Option String
  /-- `directed_delivery.target_name`. -/
  target : Option String
  deriving DecidableEq, Repr

/-- A row of `webhook_queue` or of `webhook_dead_letters`. -/
structure Stored where
  id : ℕ
  hook : String
  payload : Payload
  attempts : ℕ
  deriving DecidableEq, Repr

/-- The loop that holds a copy, with the row it has read. -/
inductive Loop
  | notify
  | directed
  | retry (id : ℕ)
  | redeliver (id : ℕ)
  deriving DecidableEq, Repr

/-- Where the loop stands with the copy: it has not come to it yet, it waits for the
directory, it waits for the answer to its POST. -/
inductive Stage
  | held
  | checks
  | posting
  deriving DecidableEq, Repr

structure Copy where
  loop : Loop
  stage : Stage
  hook : String
  payload : Payload
  attempts : ℕ
  deriving DecidableEq, Repr

structure State where
  messages : Table Message Message.seq
  lastSeq : ℕ
  copies : List Copy
  queue : List Stored
  queueSeq : ℕ
  deadLetters : List Stored
  letterSeq : ℕ
  /-- The POSTs that have started, oldest first. -/
  requests : List Payload

namespace Message

def frame (m : Message) (target : Option String) : Payload := ⟨m.seq, m.sender, m.body, target⟩

def retract (m : Message) : Message := { m with body := none, retracted := true }

@[simp] theorem retract_seq (m : Message) : m.retract.seq = m.seq := rfl

/-- The erasure keeps `retracted_at`. -/
def erase (m : Message) : Message := { m with body := none }

@[simp] theorem erase_seq (m : Message) : m.erase.seq = m.seq := rfl

end Message

namespace State

def isMessageRetracted (s : State) (seq : ℕ) : Bool :=
  (s.messages.get? seq).any (·.retracted)

/-- The two deletions by the payload's `seq`. -/
def deleteArtifacts (s : State) (p : Payload → Bool) : State :=
  { s with
    queue := s.queue.filter fun q => !p q.payload
    deadLetters := s.deadLetters.filter fun q => !p q.payload }

def scrubRetractedWebhookArtifacts (s : State) (payload : Payload) : State × Bool :=
  if s.isMessageRetracted payload.seq then (s.deleteArtifacts fun p => p.seq = payload.seq, true)
  else (s, false)

def recordDeadLetter (s : State) (hook : String) (payload : Payload) (attempts : ℕ) : State :=
  match s.scrubRetractedWebhookArtifacts payload with
  | (s, true) => s
  | (s, false) =>
    let letters := s.deadLetters ++ [⟨s.letterSeq + 1, hook, payload, attempts⟩]
    { s with
      letterSeq := s.letterSeq + 1
      deadLetters := letters.drop (letters.length - MAX_WEBHOOK_DEAD_LETTERS) }

/-- `INSERT INTO webhook_queue`. -/
def enqueue (s : State) (hook : String) (payload : Payload) : State :=
  { s with
    queueSeq := s.queueSeq + 1
    queue := s.queue ++ [⟨s.queueSeq + 1, hook, payload, 1⟩] }

def deleteQueued (s : State) (id : ℕ) : State :=
  { s with queue := s.queue.filter fun q => q.id ≠ id }

def deleteLetter (s : State) (id : ℕ) : State :=
  { s with deadLetters := s.deadLetters.filter fun q => q.id ≠ id }

def countQueued (s : State) (id attempts : ℕ) : State :=
  { s with queue := s.queue.map fun q => if q.id = id then { q with attempts := attempts } else q }

def countLetter (s : State) (id attempts : ℕ) : State :=
  { s with
    deadLetters := s.deadLetters.map fun q => if q.id = id then { q with attempts := attempts } else q }

/-- `removeParticipantDeliveryAdapters`. -/
def removeAdapters (s : State) (hook : String) : State :=
  { s with
    queue := s.queue.filter fun q => q.hook ≠ hook
    deadLetters := s.deadLetters.filter fun q => q.hook ≠ hook }

/-- `removeStaleDeliveryPrincipal` and `DELETE /internal/webhooks` take rows of the queue
of one hook. -/
def dropQueued (s : State) (hook : String) (ids : List ℕ) : State :=
  { s with queue := s.queue.filter fun q => !(q.hook = hook && ids.contains q.id) }

def without (s : State) (c : Copy) : State := { s with copies := s.copies.erase c }

def withCopies (s : State) (copies : List Copy) : State := { s with copies := s.copies ++ copies }

def post (s : State) (c : Copy) : State :=
  { s.withCopies [{ c with stage := .posting }] with requests := s.requests ++ [c.payload] }

/-- The stretch up to the first wait. `dispatchWebhooks` looks for the tombstone of the
message once, for all the hooks that fire, and adds the hook's own directed work; the two
batch loops look for it per row. -/
def start (s : State) (c : Copy) (firing : List (String × Bool)) : State :=
  let s := s.without c
  match c.loop with
  | .notify =>
    if s.isMessageRetracted c.payload.seq then s
    else s.withCopies (firing.map fun f => { c with
      stage := .checks, hook := f.1,
      payload := { c.payload with target := if f.2 then some f.1 else none } })
  | .directed => s.withCopies [{ c with stage := .checks }]
  | .retry _ | .redeliver _ =>
    match s.scrubRetractedWebhookArtifacts c.payload with
    | (s, true) => s
    | (s, false) => s.withCopies [{ c with stage := .checks }]

/-- What the checks before the POST come to. -/
inductive Verdict
  /-- The participant has been removed. -/
  | removed
  /-- The principal is no longer current; these queued rows were bound to it. -/
  | stale (ids : List ℕ)
  /-- The registration is gone, or the payload no longer fits its work. -/
  | refused
  /-- The row is no longer this registration's claim. -/
  | lost
  | passed
  deriving DecidableEq, Repr

/-- The stretch between the checks and the POST. Only `dispatchDirectedWebhook` looks for
the tombstone again here. -/
def check (s : State) (c : Copy) (verdict : Verdict) : State :=
  let s := s.without c
  match verdict with
  | .removed => s.removeAdapters c.hook
  | .stale ids => s.dropQueued c.hook ids
  | .refused =>
    match c.loop with
    | .retry id => (s.recordDeadLetter c.hook c.payload (c.attempts + 1)).deleteQueued id
    | .redeliver id => s.countLetter id (c.attempts + 1)
    | .notify | .directed => s
  | .lost =>
    match c.loop with
    | .retry id => s.deleteQueued id
    | .redeliver id => s.countLetter id (c.attempts + 1)
    | .notify | .directed => s
  | .passed =>
    match c.loop with
    | .directed =>
      match s.scrubRetractedWebhookArtifacts c.payload with
      | (s, true) => s
      | (s, false) => s.post c
    | .notify | .retry _ | .redeliver _ => s.post c

/-- The stretch behind the answer; `kept` says whether the claim and the registration of
the work are still there. -/
def answer (s : State) (c : Copy) (ok kept : Bool) : State :=
  match (s.without c).scrubRetractedWebhookArtifacts c.payload with
  | (s, true) => s
  | (s, false) =>
    match c.loop with
    | .notify =>
      if ok then s
      else if MAX_WEBHOOK_QUEUE_ROWS ≤ s.queue.length then s.recordDeadLetter c.hook c.payload 1
      else s.enqueue c.hook c.payload
    | .directed =>
      if ok || !kept then s
      else if MAX_WEBHOOK_QUEUE_ROWS ≤ s.queue.length then
        s.recordDeadLetter c.hook c.payload c.attempts
      else s.enqueue c.hook c.payload
    | .retry id =>
      if ok then s.deleteQueued id
      else if WEBHOOK_MAX_RETRIES < c.attempts + 1 then
        (s.deleteQueued id).recordDeadLetter c.hook c.payload (c.attempts + 1)
      else s.countQueued id (c.attempts + 1)
    | .redeliver id =>
      if ok && kept then s.deleteLetter id else s.countLetter id (c.attempts + 1)

/-- `DELETE /internal/webhooks`: the queued rows of the hook become dead letters. -/
def deleteWebhook (s : State) (hook : String) : State :=
  let queued := s.queue.filter fun q => q.hook = hook
  let s := queued.foldl (fun s q => s.recordDeadLetter hook q.payload q.attempts) s
  { s with queue := s.queue.filter fun q => q.hook ≠ hook }

/-- The retract transaction. -/
def retractMessage (s : State) (seq : ℕ) : State :=
  { s.deleteArtifacts fun p => p.seq = seq with
    messages := s.messages.update (fun m => m.seq = seq) Message.retract Message.retract_seq }

/-- Every hundredth message, `handleSend` deletes the rows behind the last `RETAIN_N`, the
retracted ones too, and no stored row with them. A pending review or question or a delivery row
holds a message back: `held`. -/
def trims (seq : ℕ) (held : List ℕ) (m : Message) : Bool :=
  seq % 100 = 0 && m.seq + RETAIN_N ≤ seq && !held.contains m.seq

/-- The commit of a message; `afterSend` will call `dispatchWebhooks` with its frame. -/
def handleSend (s : State) (m : Message) (held : List ℕ) : State :=
  { s.withCopies [⟨.notify, .held, "", m.frame none, 0⟩] with
    messages := (s.messages.insert m).delete (trims m.seq held), lastSeq := m.seq }

def expired (s : State) (cutoff : Int) : List Message :=
  s.messages.rows.filter fun m => m.ts ≤ cutoff

/-- The deletion transaction of `pruneRetainedContent`. -/
def pruneRetainedContent (s : State) (cutoff : Int) : State :=
  { s.deleteArtifacts fun p => (s.expired cutoff).any fun m => m.seq = p.seq with
    messages := s.messages.delete fun m => m.ts ≤ cutoff }

def eraseIdentityData (s : State) (name : String) : State :=
  { s.deleteArtifacts fun p => p.sender = name || p.target = some name with
    messages := s.messages.update (fun m => m.sender = name) Message.erase Message.erase_seq }

end State

inductive Event
  | send (sender : String) (body : Option String) (ts : Int) (held : List ℕ)
  /-- A dispatch has claimed work on the message for a webhook. -/
  | claim (seq : ℕ) (hook target : String) (attempts : ℕ)
  | retryWebhooks (batch : List Stored)
  | redeliverDeadLetters (batch : List Stored)
  | starts (c : Copy) (firing : List (String × Bool))
  | checked (c : Copy) (verdict : State.Verdict)
  | answered (c : Copy) (ok kept : Bool)
  | removeParticipant (hook : String)
  | deleteWebhook (hook : String)
  | retract (seq : ℕ)
  | prune (cutoff : Int)
  | eraseIdentity (name : String)

namespace State

def next (s : State) : Event → State
  | .send sender body ts held => s.handleSend ⟨s.lastSeq + 1, sender, ts, body, false⟩ held
  | .claim seq hook target attempts =>
    match s.messages.get? seq with
    | none => s
    | some m => s.withCopies [⟨.directed, .held, hook, m.frame (some target), attempts⟩]
  | .retryWebhooks batch =>
    s.withCopies (batch.map fun q => ⟨.retry q.id, .held, q.hook, q.payload, q.attempts⟩)
  | .redeliverDeadLetters batch =>
    s.withCopies (batch.map fun q => ⟨.redeliver q.id, .held, q.hook, q.payload, q.attempts⟩)
  | .starts c firing => s.start c firing
  | .checked c verdict => s.check c verdict
  | .answered c ok kept => s.answer c ok kept
  | .removeParticipant hook => s.removeAdapters hook
  | .deleteWebhook hook => s.deleteWebhook hook
  | .retract seq => s.retractMessage seq
  | .prune cutoff => s.pruneRetainedContent cutoff
  | .eraseIdentity name => s.eraseIdentityData name

/-- A loop reads stored rows and goes on with a copy it holds. -/
def Ready (s : State) : Event → Prop
  | .retryWebhooks batch => ∀ q ∈ batch, q ∈ s.queue
  | .redeliverDeadLetters batch => ∀ q ∈ batch, q ∈ s.deadLetters
  | .starts c _ => c ∈ s.copies ∧ c.stage = .held
  | .checked c _ => c ∈ s.copies ∧ c.stage = .checks
  | .answered c _ _ => c ∈ s.copies ∧ c.stage = .posting
  | .send _ body _ _ => body.isSome = true
  | _ => True

instance (s : State) : (e : Event) → Decidable (s.Ready e)
  | .retryWebhooks batch => inferInstanceAs (Decidable (∀ q ∈ batch, q ∈ s.queue))
  | .redeliverDeadLetters batch => inferInstanceAs (Decidable (∀ q ∈ batch, q ∈ s.deadLetters))
  | .starts c _ => inferInstanceAs (Decidable (c ∈ s.copies ∧ c.stage = .held))
  | .checked c _ => inferInstanceAs (Decidable (c ∈ s.copies ∧ c.stage = .checks))
  | .answered c _ _ => inferInstanceAs (Decidable (c ∈ s.copies ∧ c.stage = .posting))
  | .send _ body _ _ => inferInstanceAs (Decidable (body.isSome = true))
  | .claim _ _ _ _ | .removeParticipant _ | .deleteWebhook _ | .retract _ | .prune _
  | .eraseIdentity _ => inferInstanceAs (Decidable True)

def Step (s : State) (e : Event) (s' : State) : Prop := s.Ready e ∧ s' = s.next e

abbrev Run := EventSystem.Run Step

/-- A new channel. -/
def initial : State := ⟨Table.empty, 0, [], [], 0, [], 0, []⟩

end State

end AgentParty.WebhookLoops
