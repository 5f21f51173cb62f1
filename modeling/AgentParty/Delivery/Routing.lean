import AgentParty.Delivery.Enqueue
import AgentParty.Lib.Run
import AgentParty.Lib.SecondaryIndex

/-! Who a message is for: the mentions and delivery targets on its row, the delivery rows made
for them, and the index `message_mentions` that answers `GET /internal/next-mention`. Every
writer of `messages` that touches a mention is here, with the prunings of the two tables and
the start-up of the room. `String.prototype.normalize("NFC")` is a parameter. -/

namespace AgentParty
namespace Routing

def NEXT_MENTION_SCAN_LIMIT : ℕ := 200
def WAKE_VERIFY_PREFIX : String := "[wake-verify]"
def ERASED : String := "[erased]"

def isNameChar (c : Char) : Bool := c.isAlphanum || c = '.' || c = '_' || c = '-'

/-- `/^[a-zA-Z0-9][a-zA-Z0-9._-]{0,63}$/`; agent tokens are issued under the same expression. -/
def MENTION_NAME_RE (s : String) : Bool :=
  match s.toList with
  | [] => false
  | c :: cs => c.isAlphanum && cs.all isNameChar && cs.length ≤ 63

def AgentName : Type := {s : String // MENTION_NAME_RE s = true}

instance : DecidableEq AgentName := inferInstanceAs (DecidableEq {_s : String // _})

inductive Sender
  | agent (name : AgentName)
  | human (name : String)
  deriving DecidableEq

def Sender.name : Sender → String
  | .agent name => name.val
  | .human name => name

/-- The delivery target that a reply to the sender has. -/
def Sender.target : Sender → List AgentName
  | .agent name => [name]
  | .human _ => []

def systemSender : Sender := .agent ⟨"system", by decide⟩

/-- A row of `messages`, the columns that routing reads. `awaits` is a pending completion
review or a pending decision. -/
structure Message where
  seq : ℕ
  sender : Sender
  kind : MessageKind
  body : String
  mentions : List String
  deliveryTargets : List AgentName
  retracted : Bool
  ts : Int
  awaits : Bool
  deriving DecidableEq

/-- A row of `directed_deliveries`. -/
structure DeliveryRow where
  messageSeq : ℕ
  targetName : AgentName
  active : Bool
  updatedAt : Int
  deriving DecidableEq

/-- `UNIQUE(message_seq, target_name)`. -/
def DeliveryRow.key (r : DeliveryRow) : ℕ × AgentName := (r.messageSeq, r.targetName)

section Names

variable (nfc : String → String)

def mentionMatchKey (value : String) : String :=
  let normalized := nfc value
  if normalized ≠ "" && normalized.toList.all isNameChar then
    String.ofList (normalized.toList.map Char.toLower)
  else normalized

/-- A set of names up to their keys. -/
def keysOf (names : List String) : Finset String := (names.map (mentionMatchKey nfc)).toFinset

def targetKeys (targets : List AgentName) : Finset String := keysOf nfc (targets.map (·.val))

/-- The first name of each key; a column of `AgentName`s has none that the parser skips. -/
def parseStoredTargetNames : List AgentName → List AgentName
  | [] => []
  | t :: targets => t :: (parseStoredTargetNames targets).filter fun t' =>
      mentionMatchKey nfc t'.val ≠ mentionMatchKey nfc t.val

def Message.names (m : Message) : List String :=
  m.mentions ++ (parseStoredTargetNames nfc m.deliveryTargets).map (·.val)

def Message.keys (m : Message) : Finset String := keysOf nfc (Message.names nfc m)

def isWakeVerifyFrame (sender : Sender) (kind : MessageKind) (body : String)
    (mentions : List String) : Bool :=
  let self := mentionMatchKey nfc sender.name
  kind = .message && WAKE_VERIFY_PREFIX.toList.isPrefixOf body.toList &&
    !mentions.isEmpty && self ≠ "" && mentions.all (mentionMatchKey nfc · = self)

def isSelfMention (sender : Sender) (kind : MessageKind) (body : String) (mentions : List String)
    (target : AgentName) : Bool :=
  mentionMatchKey nfc sender.name = mentionMatchKey nfc target.val &&
    !match sender with
      | .human _ => false
      | .agent _ => isWakeVerifyFrame nfc sender kind body mentions

def Message.mentionsSelf (m : Message) (target : AgentName) : Bool :=
  isSelfMention nfc m.sender m.kind m.body m.mentions target

/-- What `routeMentionsForDelivery` answers to the writer of a text: every delivery target is
mentioned, and none is the writer's own name. -/
structure RoutedMentionFrame (writer : Sender) (kind : MessageKind) (body : String) where
  mentions : List String
  deliveryTargets : List AgentName
  covered : targetKeys nfc deliveryTargets ⊆ keysOf nfc mentions
  others : ∀ t ∈ deliveryTargets, isSelfMention nfc writer kind body mentions t = false

end Names

structure Room where
  messages : Table Message Message.seq
  deliveries : Table DeliveryRow DeliveryRow.key
  messageMentions : Finset (String × ℕ)
  lastSeq : ℕ
  /-- Every delivery row that was ever created. -/
  created : List (ℕ × AgentName)

/-- The send of a message or a status, as it is stored. -/
structure Send (nfc : String → String) where
  sender : Sender
  kind : MessageKind
  body : String
  routing : RoutedMentionFrame nfc sender kind body
  awaits : Bool
  now : Int

variable (nfc : String → String)

inductive Event
  /-- A send that is refused after it has its number. -/
  | nextSeq
  /-- `handleSend`, also for the message of a supersede. -/
  | send (frame : Send nfc)
  | insertSystemStatus (note : String) (mentions : List String) (now : Int)
  /-- The completion review and its reply. -/
  | review (seq : ℕ) (approve : Bool) (reviewer : Sender) (body : String) (now : Int)
  /-- The decision response and its reply. -/
  | respond (seq : ℕ) (responder : Sender) (body : String) (now : Int)
  /-- The sender or a moderator edits. -/
  | edit (seq : ℕ) (editor : Sender) (moderator : Bool) (body : String)
      (routing : RoutedMentionFrame nfc editor .message body) (now : Int)
  | retract (seq : ℕ) (now : Int)
  | eraseIdentityData (name : String)
  /-- A delivery moves on: claims, receipts, requeues, expiry. -/
  | settle (messageSeq : ℕ) (targetName : AgentName) (active : Bool) (now : Int)
  /-- A pending question loses its work. -/
  | invalidateDecision (seq : ℕ)
  /-- The rows that a child or a pending question keeps are given. -/
  | pruneDirectedDeliveryRetention (kept : List (ℕ × AgentName)) (now : Int)
  | pruneRetainedContent (cutoff : Int)
  /-- `onStart` after a hibernation. -/
  | onStart

namespace Room

def initial : Room := ⟨Table.empty, Table.empty, ∅, 0, []⟩

def deliveryFor (s : Room) (seq : ℕ) (target : AgentName) : Option DeliveryRow :=
  s.deliveries.get? (seq, target)

def deliveriesOf (s : Room) (seq : ℕ) : List DeliveryRow :=
  s.deliveries.rows.filter (·.messageSeq = seq)

/-- `INSERT INTO messages` and `indexMessageMentions`. -/
def store (s : Room) (m : Message) : Room :=
  { s with
    messages := s.messages.insert m
    messageMentions := SecondaryIndex.add s.messageMentions m.seq (m.keys nfc)
    lastSeq := m.seq }

def ensureOne (seq : ℕ) (now : Int) (s : Room) (target : AgentName) : Room :=
  if (s.deliveryFor seq target).isSome then s
  else
    { s with
      deliveries := s.deliveries.insert ⟨seq, target, true, now⟩
      created := s.created ++ [(seq, target)] }

def ensureDirectedDeliveries (s : Room) (m : Message) (targets : List AgentName) (now : Int) :
    Room :=
  if m.kind ≠ .message then s
  else (targets.filter fun t => !m.mentionsSelf nfc t).foldl (ensureOne m.seq now) s

/-- The message a pruning by count may take, apart from its deliveries. -/
def prunable (seq : ℕ) (m : Message) : Bool := m.seq + RETAIN_N ≤ seq && !m.awaits

/-- The rows that a pruning by count takes. -/
def countTakes (s : Room) (seq : ℕ) (now : Int) (r : DeliveryRow) : Bool :=
  r.updatedAt ≤ now - DIRECTED_DELIVERY_TERMINAL_RETENTION_MS &&
    s.messages.rows.any (fun m => m.seq = r.messageSeq && prunable seq m) &&
    !(s.deliveriesOf r.messageSeq).any (·.active)

/-- The deletions after every hundredth message. -/
def pruneCount (s : Room) (seq : ℕ) (now : Int) : Room :=
  let deliveries := s.deliveries.delete (s.countTakes seq now)
  let messages := s.messages.delete fun m =>
    prunable seq m && !deliveries.rows.any (·.messageSeq = m.seq)
  { s with
    deliveries := deliveries
    messages := messages
    messageMentions := SecondaryIndex.dropOrphans messages s.messageMentions }

def sentMessage (s : Room) (frame : Send nfc) : Message where
  seq := s.lastSeq + 1
  sender := frame.sender
  kind := frame.kind
  body := frame.body
  mentions := frame.routing.mentions
  deliveryTargets := frame.routing.deliveryTargets
  retracted := false
  ts := frame.now
  awaits := frame.awaits

/-- The transaction of a send up to its pruning. -/
def sent (s : Room) (frame : Send nfc) : Room :=
  let m := s.sentMessage nfc frame
  (s.store nfc m).ensureDirectedDeliveries nfc m frame.routing.deliveryTargets frame.now

def handleSend (s : Room) (frame : Send nfc) : Room :=
  let seq := s.lastSeq + 1
  if seq % 100 = 0 then (s.sent nfc frame).pruneCount seq frame.now else s.sent nfc frame

def insertSystemStatus (s : Room) (note : String) (mentions : List String) (now : Int) : Room :=
  s.store nfc
    { seq := s.lastSeq + 1, sender := systemSender, kind := .status, body := note,
      mentions := mentions, deliveryTargets := [], retracted := false, ts := now, awaits := false }

def updateMessage (s : Room) (seq : ℕ) (f : Message → Message) (hf : ∀ m, (f m).seq = m.seq) :
    Room :=
  { s with messages := s.messages.update (·.seq = seq) f hf }

def answered (m : Message) : Message := { m with awaits := false }

@[simp] theorem answered_seq (m : Message) : (answered m).seq = m.seq := rfl

/-- `insertReviewerReply` and `insertDecisionResponse` with the deliveries of the reply: no
targets are written on the row. -/
def storeReply (s : Room) (author : Sender) (body : String) (mentions : List String)
    (targets : List AgentName) (now : Int) : Room :=
  let m : Message :=
    { seq := s.lastSeq + 1, sender := author, kind := .message, body := body,
      mentions := mentions, deliveryTargets := [], retracted := false, ts := now, awaits := false }
  (s.store nfc m).ensureDirectedDeliveries nfc m targets now

/-- A question or a completion that somebody else may still answer. -/
def answerable (m : Message) (author : Sender) : Bool :=
  m.kind = .message && !m.retracted && m.awaits && author.name ≠ m.sender.name

/-- The approval mentions nobody; the targets are the author's in both cases. -/
def review (s : Room) (seq : ℕ) (approve : Bool) (reviewer : Sender) (body : String) (now : Int) :
    Room :=
  match s.messages.get? seq with
  | none => s
  | some m =>
    if !answerable m reviewer then s
    else
      let mentions := if approve then [] else [m.sender.name]
      (s.updateMessage seq answered answered_seq).storeReply nfc reviewer body mentions
        m.sender.target now

def respond (s : Room) (seq : ℕ) (responder : Sender) (body : String) (now : Int) : Room :=
  match s.messages.get? seq with
  | none => s
  | some m =>
    if !answerable m responder then s
    else
      (s.updateMessage seq answered answered_seq).storeReply nfc responder body [m.sender.name]
        m.sender.target now

/-- The tombstone merged with the rows that are still there. -/
def historicalTargets (s : Room) (m : Message) : List AgentName :=
  parseStoredTargetNames nfc
    (parseStoredTargetNames nfc m.deliveryTargets ++ (s.deliveriesOf m.seq).map (·.targetName))

/-- The edit would remove a routed target or add it again. -/
def changesRouted (m : Message) (desired : Finset String) (target : AgentName) : Bool :=
  let key := mentionMatchKey nfc target.val
  (key ∈ keysOf nfc m.mentions && key ∉ desired) || (key ∉ keysOf nfc m.mentions && key ∈ desired)

/-- Neither retracted nor erased. -/
def live (m : Message) : Bool := !m.retracted && m.body ≠ ERASED

def editable (m : Message) : Bool := m.kind = .message && live m

def mayRevise (m : Message) (editor : Sender) (moderator : Bool) : Bool :=
  m.sender.name = editor.name || moderator

def unrouted (s : Room) (m : Message) (target : AgentName) : Bool :=
  mentionMatchKey nfc target.val ∉ targetKeys nfc (s.historicalTargets nfc m)

section Edit

variable (s : Room) (m : Message) {editor : Sender} {body : String}
  (routing : RoutedMentionFrame nfc editor .message body)

def acceptsEdit (moderator : Bool) : Bool :=
  mayRevise m editor moderator && editable m &&
    !(s.historicalTargets nfc m).any
      (changesRouted nfc m (targetKeys nfc routing.deliveryTargets))

def newDeliveryTargets : List AgentName :=
  routing.deliveryTargets.filter fun t =>
    mentionMatchKey nfc t.val ∉ keysOf nfc m.mentions && s.unrouted nfc m t

def preservedLegacyTargets : List AgentName :=
  routing.deliveryTargets.filter fun t =>
    mentionMatchKey nfc t.val ∈ keysOf nfc m.mentions && s.unrouted nfc m t

def edited (old : Message) : Message :=
  { old with
    body := body
    mentions := routing.mentions
    deliveryTargets := s.historicalTargets nfc m ++ s.preservedLegacyTargets nfc m routing ++
      s.newDeliveryTargets nfc m routing }

@[simp] theorem edited_seq (old : Message) : (s.edited nfc m routing old).seq = old.seq := rfl

def edit (seq : ℕ) (moderator : Bool) (now : Int) : Room :=
  match s.messages.get? seq with
  | none => s
  | some m =>
    if !s.acceptsEdit nfc m routing moderator then s
    else
      let m' := s.edited nfc m routing m
      let s' := s.updateMessage seq (s.edited nfc m routing) (edited_seq nfc s m routing)
      let s' := { s' with
        messageMentions :=
          SecondaryIndex.add (SecondaryIndex.drop s.messageMentions seq) seq (m'.keys nfc) }
      s'.ensureDirectedDeliveries nfc m' (s.newDeliveryTargets nfc m routing) now

end Edit

/-- What a retraction and an erasure leave of a message. -/
def scrubbed (body : String) (m : Message) : Message :=
  { m with body := body, mentions := [], deliveryTargets := [], awaits := false }

@[simp] theorem scrubbed_seq (body : String) (m : Message) : (scrubbed body m).seq = m.seq := rfl

def retracted (m : Message) : Message := { scrubbed "[retracted]" m with retracted := true }

@[simp] theorem retracted_seq (m : Message) : (retracted m).seq = m.seq := rfl

def settled (active : Bool) (now : Int) (r : DeliveryRow) : DeliveryRow :=
  { r with active := active, updatedAt := now }

@[simp] theorem settled_key (active : Bool) (now : Int) (r : DeliveryRow) :
    (settled active now r).key = r.key := rfl

def retract (s : Room) (seq : ℕ) (now : Int) : Room :=
  if (s.messages.get? seq).any editable then
    let s := s.updateMessage seq retracted retracted_seq
    { s with
      messageMentions := SecondaryIndex.drop s.messageMentions seq
      deliveries := s.deliveries.update (fun r => r.messageSeq = seq && r.active)
        (settled false now) (settled_key false now) }
  else s

def erases (name : String) (m : Message) : Bool := m.sender.name = name && m.body ≠ ERASED

def eraseIdentityData (s : Room) (name : String) : Room :=
  let affected := (s.messages.rows.filter (erases name)).map (·.seq)
  { s with
    messages := s.messages.update (erases name) (scrubbed ERASED) (scrubbed_seq ERASED)
    messageMentions := affected.foldl SecondaryIndex.drop s.messageMentions
    deliveries := s.deliveries.delete (·.targetName.val = name) }

def retentionTakes (kept : List (ℕ × AgentName)) (now : Int) (r : DeliveryRow) : Bool :=
  !r.active && r.updatedAt ≤ now - DIRECTED_DELIVERY_TERMINAL_RETENTION_MS && !kept.contains r.key

def pruneDirectedDeliveryRetention (s : Room) (kept : List (ℕ × AgentName)) (now : Int) : Room :=
  { s with deliveries := s.deliveries.delete (retentionTakes kept now) }

def pruneRetainedContent (s : Room) (cutoff : Int) : Room :=
  let messages := s.messages.delete (·.ts ≤ cutoff)
  { s with
    messages := messages
    deliveries := s.deliveries.delete fun r => (s.messages.get? r.messageSeq).any (·.ts ≤ cutoff)
    messageMentions := SecondaryIndex.dropOrphans messages s.messageMentions }

/-- The rows whose empty tombstone `onStart` fills. -/
def backfills (s : Room) (m : Message) : Bool :=
  m.deliveryTargets.isEmpty && live m && !(s.deliveriesOf m.seq).isEmpty

def backfilled (s : Room) (m : Message) : Message :=
  { m with deliveryTargets := (s.deliveriesOf m.seq).map (·.targetName) }

@[simp] theorem backfilled_seq (s : Room) (m : Message) : (s.backfilled m).seq = m.seq := rfl

/-- The `UPDATE` of `delivery_targets_json` runs at every start; the index is filled once. -/
def onStart (s : Room) : Room :=
  { s with messages := s.messages.update s.backfills s.backfilled s.backfilled_seq }

def next (s : Room) : Event nfc → Room
  | .nextSeq => { s with lastSeq := s.lastSeq + 1 }
  | .send frame => s.handleSend nfc frame
  | .insertSystemStatus note mentions now => s.insertSystemStatus nfc note mentions now
  | .review seq approve reviewer body now => s.review nfc seq approve reviewer body now
  | .respond seq responder body now => s.respond nfc seq responder body now
  | .edit seq _ moderator _ routing now => s.edit nfc routing seq moderator now
  | .retract seq now => s.retract seq now
  | .eraseIdentityData name => s.eraseIdentityData name
  | .settle messageSeq targetName active now =>
    { s with
      deliveries := s.deliveries.update (·.key = (messageSeq, targetName)) (settled active now)
        (settled_key active now) }
  | .invalidateDecision seq => s.updateMessage seq answered answered_seq
  | .pruneDirectedDeliveryRetention kept now => s.pruneDirectedDeliveryRetention kept now
  | .pruneRetainedContent cutoff => s.pruneRetainedContent cutoff
  | .onStart => s.onStart

def Step (s : Room) (e : Event nfc) (s' : Room) : Prop := s' = s.next nfc e

/-- The candidates of `GET /internal/next-mention`: the window is cut before they are checked. -/
def nextMentionRows (s : Room) (name : String) (since : ℕ) : List Message :=
  let indexed := (SecondaryIndex.lookup s.messageMentions (mentionMatchKey nfc name)).filter (since < ·)
  ((indexed.sort (· ≤ ·)).filterMap s.messages.get?).filter (·.sender.name ≠ name)
    |>.take NEXT_MENTION_SCAN_LIMIT

def nextMention (s : Room) (name : String) (since : ℕ) : List ℕ :=
  ((s.nextMentionRows nfc name since).filter fun m =>
    (m.names nfc).any (mentionMatchKey nfc · = mentionMatchKey nfc name)).map (·.seq)

end Room

end Routing
end AgentParty
