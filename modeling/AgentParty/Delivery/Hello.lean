import AgentParty.Cli.Client

/-! The handshake of a socket, `hello` of the channel object: what a client has missed, page by page,
and then the live frames. The channel is seen from one client. -/

namespace AgentParty
namespace Ws
namespace Handoff

def HELLO_BACKFILL_PAGE_SIZE : ℕ := 1000

/-- The table `messages`, in the order of its primary key. -/
structure Messages where
  rows : List Message
  ascending : rows.Pairwise fun a b => a.seq < b.seq
  /-- Numbers count from one. -/
  positive : ∀ m ∈ rows, 0 < m.seq

namespace Messages

def numbers (t : Messages) : List ℕ := t.rows.map Message.seq

/-- `nextSeq` is above every number, so a new row is the last. -/
def insert (t : Messages) (m : Message) : Messages :=
  if h : 0 < m.seq ∧ ∀ row ∈ t.rows, row.seq < m.seq then
    { rows := t.rows ++ [m]
      ascending := List.pairwise_append.2 ⟨t.ascending, List.pairwise_singleton _ _,
        fun row hrow _ hlast => List.mem_singleton.1 hlast ▸ h.2 row hrow⟩
      positive := fun row hrow => (List.mem_append.1 hrow).elim (t.positive row) fun hlast =>
        List.mem_singleton.1 hlast ▸ h.1 }
  else t

def revisedRow (seq revSeq : ℕ) (fingerprint : String) (m : Message) : Message :=
  if m.seq = seq then ⟨m.seq, some revSeq, some fingerprint⟩ else m

theorem revisedRow_seq (seq revSeq : ℕ) (fingerprint : String) (m : Message) :
    (revisedRow seq revSeq fingerprint m).seq = m.seq := by
  unfold revisedRow
  split <;> rfl

/-- An edit writes its number and what the row shows now. -/
def revise (t : Messages) (seq revSeq : ℕ) (fingerprint : String) : Messages where
  rows := t.rows.map (revisedRow seq revSeq fingerprint)
  ascending := List.pairwise_map.2 (t.ascending.imp fun hlt => by
    rwa [revisedRow_seq, revisedRow_seq])
  positive row hrow := by
    obtain ⟨m, hm, rfl⟩ := List.mem_map.1 hrow
    rw [revisedRow_seq]
    exact t.positive m hm

/-- `WHERE seq > since OR rev_seq > since_rev`. -/
def missed (since sinceRev : ℕ) (m : Message) : Bool :=
  since < m.seq || m.revSeq.any (sinceRev < ·)

def page (t : Messages) (since sinceRev pageCursor : ℕ) : List Message :=
  (t.rows.filter fun m => missed since sinceRev m && pageCursor < m.seq).take
    HELLO_BACKFILL_PAGE_SIZE

/-- The loop over the pages: a page that is not full is the last. -/
def pages (t : Messages) (since sinceRev : ℕ) : ℕ → ℕ → List Message
  | 0, _ => []
  | fuel + 1, pageCursor =>
    let rows := t.page since sinceRev pageCursor
    match rows.getLast? with
    | none => rows
    | some last =>
      if rows.length < HELLO_BACKFILL_PAGE_SIZE then rows
      else rows ++ pages t since sinceRev fuel last.seq

def backfill (t : Messages) (since sinceRev : ℕ) : List Message :=
  t.pages since sinceRev (t.rows.length + 1) 0

end Messages

/-- A socket of the client: the hello that is on its way to the channel, and the frames that are on
their way to the client. -/
structure Link where
  sock : ℕ
  hello : Option (ℕ × ℕ)
  helloPending : Bool
  wire : List ServerFrame

/-- `unsent` are the messages that are stored and whose broadcast is still to come. -/
structure State where
  client : Connection
  messages : Messages
  unsent : List ℕ
  link : Option Link

/-- What the client does by itself, and what its sockets do but bring frames. -/
inductive Local
  | probed (result : Probe)
  | watchdog (ready : Bool)
  | reconnect (throws : Bool)
  | ack (seq : ℕ)
  | replayUnacked
  | next
  | close
  /-- A socket is gone before the channel knows it. -/
  | socketClosed (id code : ℕ) (reason : String)

def Local.event : Local → Connection.Event
  | .probed result => .probed result
  | .watchdog ready => .watchdog ready
  | .reconnect throws => .reconnect throws
  | .ack seq => .ack seq
  | .replayUnacked => .replayUnacked
  | .next => .next
  | .close => .close
  | .socketClosed id code reason => .socketClosed id code reason

inductive Event
  | client (event : Local)
  /-- The handshake of the current socket is done. -/
  | accept
  | hello
  | store (m : Message)
  /-- `sendFrame` of `sent`, if the message is the client's own, and `broadcastFrame`. -/
  | broadcast (m : Message) (own : Bool)
  | revise (seq revSeq : ℕ) (fingerprint : String)
  /-- A frame that is neither a message nor `sent`. -/
  | other (frame : ServerFrame) (hframe : frame.seq? = none) (hsent : ∀ seq, frame ≠ .sent seq)
  | arrive
  | drop (code : ℕ) (reason : String)

namespace State

variable (o : ConnectOptions) (s : State)

/-- Frames for the client, if it is connected. -/
def send (frames : List ServerFrame) : State :=
  { s with link := s.link.map fun link => { link with wire := link.wire ++ frames } }

/-- Frames that are withheld until the hello. -/
def sendLive (frames : List ServerFrame) : State :=
  match s.link with
  | some link => if link.helloPending then s else s.send frames
  | none => s

def accept : State :=
  match s.client.ws with
  | some sock =>
    if s.client.closed ∨ sock.opened then s
    else { s with
      client := s.client.step o (.opened sock.id)
      link := some ⟨sock.id, some (s.client.cursor, s.client.revCursor), true, []⟩ }
  | none => s

def hello : State :=
  match s.link with
  | some ⟨sock, some (since, sinceRev), _, wire⟩ =>
    { s with link := some ⟨sock, none, false,
        wire ++ (s.messages.backfill since sinceRev).map ServerFrame.message⟩ }
  | _ => s

def arrive : State :=
  match s.link with
  | some ⟨sock, hello, helloPending, frame :: wire⟩ =>
    { s with
      client := s.client.step o (.message sock [frame])
      link := some ⟨sock, hello, helloPending, wire⟩ }
  | _ => s

def drop (code : ℕ) (reason : String) : State :=
  match s.link with
  | some link => { s with
      client := s.client.step o (.socketClosed link.sock code reason), link := none }
  | none => s

def next : Event → State
  | .client event => { s with client := s.client.step o event.event }
  | .accept => s.accept o
  | .hello => s.hello
  | .store m =>
    if 0 < m.seq ∧ ∀ row ∈ s.messages.rows, row.seq < m.seq then
      { s with messages := s.messages.insert m, unsent := s.unsent ++ [m.seq] }
    else s
  | .broadcast m own =>
    ({ s with unsent := s.unsent.filter (· ≠ m.seq) } : State).sendLive
      ((if own then [.sent m.seq] else []) ++ [ServerFrame.message m])
  | .revise seq revSeq fingerprint =>
    ({ s with messages := s.messages.revise seq revSeq fingerprint } : State).sendLive
      [.messageUpdate (some revSeq)]
  | .other frame _ _ => s.send [frame]
  | .arrive => s.arrive o
  | .drop code reason => s.drop o code reason

/-- A broadcast is of a message that is due and has no earlier one before it; only what came out of
the stream is acknowledged. -/
def Ready : Event → Prop
  | .broadcast m _ => m.seq ∈ s.unsent ∧ ∀ seq ∈ s.unsent, m.seq ≤ seq
  | .client (.ack seq) => ∃ frame ∈ s.client.queue.handed, frame.seq? = some seq
  | _ => True

/-- A client that connects to a channel. -/
def start (since sinceRev : ℕ) (messages : Messages) : State :=
  ⟨.connect since sinceRev, messages, [], none⟩

/-- Every event of a run is ready when it comes. -/
def Orderly : State → List Event → Prop
  | _, [] => True
  | s, event :: events => s.Ready event ∧ (s.next o event).Orderly events

instance (event : Event) : Decidable (s.Ready event) := by
  unfold Ready
  split <;> infer_instance

def run (events : List Event) : State := events.foldl (next o) s

end State

end Handoff

end Ws
end AgentParty
