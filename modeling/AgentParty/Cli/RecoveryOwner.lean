import AgentParty.Cli.RecoveryJournal
import AgentParty.Delivery.Machine

/-! The room and one process that owes it deliveries: the process keeps its tokens in a
journal, crashes and restarts from the file, and sends recovery frames that are lost, late
or delivered more than once; so are the answers. Whatever else happens in the room happens
between. -/

namespace AgentParty
namespace RecoveryJournal

/-- `text(value)` with its limit. -/
def acceptable (value : String) : Bool := value ≠ "" && decide (jsLength value ≤ 128)

/-- `parseDeliveryRecoverFrame`. -/
def parseDeliveryRecoverFrame (q : RecoverRequest) : Option DeliveryRecoverFrame :=
  if h : q.deliveryId ≠ "" ∧ 0 < q.attempt ∧ 0 < q.leaseEpoch ∧ q.leaseToken ≠ "" ∧
      q.nextLeaseToken ≠ "" ∧ q.leaseToken ≠ q.nextLeaseToken then
    if acceptable q.deliveryId && acceptable q.requestId && acceptable q.leaseToken &&
        acceptable q.nextLeaseToken then
      some ⟨q.deliveryId, q.attempt, q.leaseEpoch, q.leaseToken, q.nextLeaseToken, q.replaySafe,
        h.1, h.2.1, h.2.2.1, h.2.2.2.1, h.2.2.2.2.1, h.2.2.2.2.2⟩
    else none
  else none

/-- The answer frame of the room. -/
def resultFrame (requestId : String) (result : RecoveryResult) (row : Delivery) :
    RecoveryResultFrame where
  deliveryId := row.id
  requestId := requestId
  result := result
  state := row.state
  attempt := row.attempt
  leaseEpoch := row.leaseEpoch
  leaseToken := if result = .recovered then some (text row.leaseToken) else none
  leaseUntil := if result = .recovered then some (row.leaseUntil.getD 0) else none

/-- An assignment: the delivery, its attempt and its lease epoch. -/
abbrev Assignment := String × ℕ × ℕ

/-- `memory` is the journal of the running process. `tokens` are the tokens the journal has
ever had, `received` the assignments whose token has arrived, `foreign` the tokens that
others have presented; `latest` is the last request built from an entry as it stands. -/
structure Owner where
  room : Room
  file : Entries
  memory : Option Entries
  tokens : List String
  received : List Assignment
  foreign : List String
  asked : List RecoverRequest
  answers : List RecoveryResultFrame
  latest : String → Option RecoverRequest

inductive OwnerEvent
  /-- The room goes on without the process. -/
  | room (e : Event)
  | claimArrives (delivery : DirectedDelivery) (message : MsgFrame) (now : Int) (c : Commit)
  | update (deliveryId : String) (patch : Patch) (now : Int) (c : Commit)
  | removeMany (deliveryIds : List String) (c : Commit)
  | prepareRecovery (deliveryId : String) (options : PrepareOptions) (token requestId : Uuid)
      (now : Int) (c : Commit)
  /-- A recovery frame reaches the room, over a connection of any identity. -/
  | deliver (q : RecoverRequest) (identity : ConnState) (connectionId : String)
      (lingering : List String) (now : Int)
  | answerArrives (frame : RecoveryResultFrame) (now : Int) (c : Commit)
  | crash
  | restart

namespace Owner

def initial : Owner :=
  ⟨Room.initial, Table.empty, some Table.empty, [], [], [], [], [], fun _ => none⟩

/-- The tokens that an event of the others presents. -/
def presented : Event → List String
  | .recover _ _ f _ _ => [f.leaseToken, f.nextLeaseToken]
  | _ => []

/-- A claim without a token is nothing that could be recovered. -/
def assignmentOf (delivery : DirectedDelivery) : Option Assignment :=
  match delivery.leaseEpoch, delivery.leaseToken with
  | some leaseEpoch, some _ => some (delivery.id, delivery.attempt, leaseEpoch)
  | _, _ => none

/-- The claim frame that the room has sent for the delivery. -/
def claimFrame (delivery : DirectedDelivery) : Option ServerFrame :=
  delivery.leaseEpoch.map fun leaseEpoch =>
    .delivery delivery.id delivery.attempt leaseEpoch delivery.leaseToken

/-- The running process goes on with a journal. -/
def withJournal (s : Owner) (j : Journal) : Owner :=
  { s with file := j.file, memory := some j.entriesById }

def forget (s : Owner) (deliveryId : String) : Owner :=
  { s with latest := Function.update s.latest deliveryId none }

def remember (s : Owner) (q : RecoverRequest) : Owner :=
  { s with
    asked := q :: s.asked
    latest := Function.update s.latest q.deliveryId (some q) }

def withTokens (s : Owner) (tokens : List String) : Owner := { s with tokens := tokens ++ s.tokens }

/-- The frame is the answer that the process waits for. -/
def awaits (s : Owner) (frame : RecoveryResultFrame) : Bool :=
  (s.latest frame.deliveryId).any fun q => q.requestId = frame.requestId

/-- Claim frames arrive once; others do not present the tokens of the journal, nor have they
presented one that arrives; minted values are new. -/
def Enabled (s : Owner) : OwnerEvent → Prop
  | .room e => s.room.Ready e ∧ ∀ token ∈ presented e, token ∉ s.tokens
  | .claimArrives delivery _ _ _ =>
    (∃ frame ∈ s.room.sockets.sent, claimFrame delivery = some frame.2) ∧
      (∀ a ∈ assignmentOf delivery, a ∉ s.received) ∧
      ∀ token ∈ delivery.leaseToken, token ∉ s.foreign
  | .prepareRecovery _ _ token requestId _ _ =>
    token.val ∉ s.tokens ∧ ∀ q ∈ s.asked, q.requestId ≠ requestId.val
  | .deliver q _ _ _ _ => q ∈ s.asked
  | .answerArrives frame _ _ => frame ∈ s.answers
  | .update _ _ _ _ | .removeMany _ _ | .crash => True
  | .restart => s.memory = none

instance decidableEnabled (s : Owner) : (e : OwnerEvent) → Decidable (s.Enabled e)
  | .room e => inferInstanceAs (Decidable (s.room.Ready e ∧ ∀ token ∈ presented e, token ∉ s.tokens))
  | .claimArrives delivery _ _ _ => inferInstanceAs (Decidable
      ((∃ frame ∈ s.room.sockets.sent, claimFrame delivery = some frame.2) ∧
        (∀ a ∈ assignmentOf delivery, a ∉ s.received) ∧
        ∀ token ∈ delivery.leaseToken, token ∉ s.foreign))
  | .prepareRecovery _ _ token requestId _ _ => inferInstanceAs (Decidable
      (token.val ∉ s.tokens ∧ ∀ q ∈ s.asked, q.requestId ≠ requestId.val))
  | .deliver q _ _ _ _ => inferInstanceAs (Decidable (q ∈ s.asked))
  | .answerArrives frame _ _ => inferInstanceAs (Decidable (frame ∈ s.answers))
  | .update _ _ _ _ | .removeMany _ _ | .crash => inferInstanceAs (Decidable True)
  | .restart => decidable_of_iff (s.memory.isNone = true) (by simp [Enabled])

def deliver (s : Owner) (q : RecoverRequest) (identity : ConnState) (connectionId : String)
    (lingering : List String) (now : Int) : Owner :=
  match parseDeliveryRecoverFrame q with
  | none => s
  | some f =>
    let answer := (s.room.ledger.recoverDirectedDelivery s.room.sockets.connections lingering
      identity connectionId f now).answer
    { s with
      room := s.room.next (.recover identity connectionId f lingering now)
      answers := (answer.map fun a => resultFrame q.requestId a.1 a.2).toList ++ s.answers }

/-- What the process does at its own events. -/
def advance (s : Owner) (entries : Entries) : OwnerEvent → Owner
  | .claimArrives delivery message now c =>
    let (j, entry) := recordClaim ⟨entries, s.file⟩ delivery message now c
    let s := { s with received := (assignmentOf delivery).toList ++ s.received }
    let s := (s.withJournal j).withTokens delivery.leaseToken.toList
    if entry.isSome then s.forget delivery.id else s
  | .update deliveryId patch now c =>
    s.withJournal (RecoveryJournal.update ⟨entries, s.file⟩ deliveryId patch now c).1
  | .removeMany deliveryIds c =>
    { s.withJournal (RecoveryJournal.removeMany ⟨entries, s.file⟩ deliveryIds c) with
      latest := fun id =>
        if decide (c = .durable) && deliveryIds.contains id then none else s.latest id }
  | .prepareRecovery deliveryId options token requestId now c =>
    let (j, request) := RecoveryJournal.prepareRecovery ⟨entries, s.file⟩ deliveryId options
      token.val requestId.val now c
    let s := (s.withJournal j).withTokens [token.val]
    match request with
    | none => s
    | some q => s.remember q
  | .answerArrives frame now c =>
    if s.awaits frame then
      let s := s.forget frame.deliveryId
      if frame.result = .recovered then
        s.withJournal (acceptRecovery ⟨entries, s.file⟩ frame now c).1
      else s
    else s
  | .crash => { s with memory := none, latest := fun _ => none }
  | .room _ | .deliver _ _ _ _ _ | .restart => s

def next (s : Owner) : OwnerEvent → Owner
  | .room e => { s with room := s.room.next e, foreign := presented e ++ s.foreign }
  | .deliver q identity connectionId lingering now =>
    s.deliver q identity connectionId lingering now
  | .restart => { s with memory := load s.file }
  | e =>
    match s.memory with
    | none => s
    | some entries => s.advance entries e

def Step (s : Owner) (e : OwnerEvent) (s' : Owner) : Prop := s.Enabled e ∧ s' = s.next e

abbrev Run := EventSystem.Run Step

/-- The states of a channel and a process of it over their lives. -/
def Reachable (s : Owner) : Prop := ∃ evs, Run initial evs s

end Owner
end RecoveryJournal
end AgentParty
