import AgentParty.Cli.DesktopIpc
import AgentParty.Lib.PrefixCode
import Mathlib.Data.List.Nodup
import Mathlib.Data.List.Perm.Basic

/-! The follower client of ChatGPT Desktop over a whole connection. Its frames come out of the byte
stream as they went in, whatever the chunks. Every request is settled once, and one whose start of a
turn was handed to the router never fails as if nothing had been sent. The conversation states it
holds are states of the App. -/

namespace AgentParty
namespace DesktopIpc

open Mentions (Text)

section Frames

def Framed (payload : Bytes) : Prop :=
  payload.length ≠ 0 ∧ payload.length ≤ MAX_IPC_FRAME_BYTES

theorem readUInt32LE_write {n : ℕ} (h : n < 2 ^ 32) :
    readUInt32LE (UInt8.ofNat n) (UInt8.ofNat (n / 2 ^ 8)) (UInt8.ofNat (n / 2 ^ 16))
      (UInt8.ofNat (n / 2 ^ 24)) = n := by
  simp only [readUInt32LE, UInt8.toNat_ofNat']
  omega

theorem frames_encode : Framing.Encodes frames frame Framed := by
  intro payload hframed tail
  have hlength : payload.length < 2 ^ 32 := lt_of_le_of_lt hframed.2 (by decide)
  have hread := readUInt32LE_write hlength
  show scan (frame payload ++ tail) = _
  simp only [frame, writeUInt32LE, List.cons_append, List.nil_append, scan, hread]
  rw [if_neg (by have := hframed.1; have := hframed.2; omega), if_neg (by simp)]
  simp

end Frames

section Fields

namespace Session

variable (a : Around) (s : Session) (requestId : Text) (settlement : Settlement)

@[simp] theorem settle_pending : (s.settle requestId settlement).pending = s.pending := by
  unfold settle; split <;> rfl

@[simp] theorem settle_closed : (s.settle requestId settlement).closed = s.closed := by
  unfold settle; split <;> rfl

@[simp] theorem settle_states : (s.settle requestId settlement).states = s.states := by
  unfold settle; split <;> rfl

@[simp] theorem settle_wire : (s.settle requestId settlement).wire = s.wire := by
  unfold settle; split <;> rfl

theorem settle_settled (h : requestId ∉ s.settled.map Prod.fst) :
    (s.settle requestId settlement).settled = s.settled ++ [(requestId, settlement)] := by
  rw [settle, if_neg h]

/-- Every promise of a list is told. -/
def settleAll (s : Session) (ps : List PendingRequest) : Session :=
  ps.foldl (fun s p => s.settle p.requestId (.rejected (closeFailure p))) s

theorem handleClose_eq : s.handleClose = s.shut.settleAll s.pending := rfl

variable (ps : List PendingRequest)

@[simp] theorem settleAll_pending : (s.settleAll ps).pending = s.pending := by
  induction ps generalizing s with
  | nil => rfl
  | cons p ps ih => exact (ih _).trans (settle_pending ..)

@[simp] theorem settleAll_closed : (s.settleAll ps).closed = s.closed := by
  induction ps generalizing s with
  | nil => rfl
  | cons p ps ih => exact (ih _).trans (settle_closed ..)

@[simp] theorem settleAll_states : (s.settleAll ps).states = s.states := by
  induction ps generalizing s with
  | nil => rfl
  | cons p ps ih => exact (ih _).trans (settle_states ..)

@[simp] theorem settleAll_wire : (s.settleAll ps).wire = s.wire := by
  induction ps generalizing s with
  | nil => rfl
  | cons p ps ih => exact (ih _).trans (settle_wire ..)

theorem settleAll_settled
    (h : (s.settled.map Prod.fst ++ ps.map PendingRequest.requestId).Nodup) :
    (s.settleAll ps).settled =
      s.settled ++ ps.map fun p => (p.requestId, .rejected (closeFailure p)) := by
  induction ps generalizing s with
  | nil => simp [settleAll]
  | cons p ps ih =>
    have hp : p.requestId ∉ s.settled.map Prod.fst := fun hmem =>
      (List.nodup_append.1 h).2.2 _ hmem _ List.mem_cons_self rfl
    have hsettled := settle_settled s p.requestId (.rejected (closeFailure p)) hp
    have hrest := ih (s.settle p.requestId (.rejected (closeFailure p))) (by
      rw [hsettled, List.map_append, List.append_assoc]
      exact h)
    rw [settleAll, List.foldl_cons]
    exact hrest.trans (by rw [hsettled, List.append_assoc]; rfl)

@[simp] theorem handleClose_pending : s.handleClose.pending = [] := by
  rw [handleClose_eq, settleAll_pending]; rfl

@[simp] theorem handleClose_closed : s.handleClose.closed = true := by
  rw [handleClose_eq, settleAll_closed]; rfl

@[simp] theorem handleClose_states : s.handleClose.states = s.states := by
  rw [handleClose_eq, settleAll_states]; rfl

@[simp] theorem handleClose_wire : s.handleClose.wire = s.wire := by
  rw [handleClose_eq, settleAll_wire]; rfl

theorem handleClose_idle (h : s.closed = true) : s.handleClose = s := by
  have hpending := s.closed_idle h
  obtain ⟨connected, clientId, pending, states, closed, settled, wire, hidle⟩ := s
  obtain rfl : pending = [] := hpending
  obtain rfl : closed = true := h
  rfl

end Session

end Fields

section Messages

/-! What a message does: it answers a request, or it touches the states and may ask for a
snapshot. -/

namespace Session

variable (a : Around) (s : Session)

def withStates (s : Session) (states : Text → Option ConversationState) : Session :=
  { s with states := states }

/-- The states may change, and a snapshot may be asked for. -/
inductive Touched : Session → Prop
  | quiet (states) : Touched (s.withStates states)
  | follow (states) (threadId hostId) : Touched ((s.withStates states).follow a threadId hostId)

theorem patched_touched (threadId : Text) (baseRevision revision : ℚ) (patches : List Json) :
    Touched a s (s.patched a threadId baseRevision revision patches) := by
  unfold patched
  split
  · exact .follow s.states threadId _
  · split
    · exact .follow s.states threadId _
    · split
      · exact .quiet _
      · exact .follow _ threadId _

theorem stateChanged_touched (threadId : Text) (change : Json) :
    Touched a s (s.stateChanged a threadId change) := by
  unfold stateChanged
  dsimp only
  split
  · exact .quiet s.states
  · split
    · exact .quiet _
    · split
      · split
        · exact patched_touched a s _ _ _ _
        · exact .quiet s.states
      · exact .quiet s.states

/-- A response that a pending request waits for. -/
def Answers (requestId : Text) (value : Json) : Prop :=
  requestId ∈ s.pending.map PendingRequest.requestId ∧
    (value.get "type").isText "response" = true ∧ (value.get "requestId").str? = some requestId

theorem handleMessage_cases (value : Json) :
    (∃ requestId, s.Answers requestId value ∧
      s.handleMessage a value = (s.forget requestId).settle requestId (.resolved value)) ∨
    Touched a s (s.handleMessage a value) := by
  unfold handleMessage
  dsimp only
  split
  · rename_i requestId htype hid
    unfold response
    split
    · rename_i hmem
      exact .inl ⟨requestId, ⟨hmem, htype, hid⟩, rfl⟩
    · exact .inr (.quiet s.states)
  · split
    · exact .inr (.quiet s.states)
    · split
      · exact .inr (stateChanged_touched a s _ _)
      · exact .inr (.quiet s.states)

theorem follow_closed {s : Session} (h : s.closed = true) (threadId hostId : Text) :
    s.follow a threadId hostId = s := if_neg fun hopen => hopen.2 h

/-- A closed client: nothing that a message does can be seen but by the states. -/
theorem handleMessage_closed {s : Session} (h : s.closed = true) (value : Json) :
    ∃ states, s.handleMessage a value = s.withStates states := by
  rcases handleMessage_cases a s value with ⟨requestId, hanswers, -⟩ | htouched
  · exact absurd hanswers.1 (by rw [s.closed_idle h]; simp)
  · generalize s.handleMessage a value = s' at htouched
    cases htouched with
    | quiet states => exact ⟨states, rfl⟩
    | follow states threadId hostId =>
      exact ⟨states, follow_closed a (s := s.withStates states) h threadId hostId⟩

end Session

theorem consumer_lawful (a : Around) : (consumer a).Lawful frames where
  bad_stopped _ s _ := by simp [consumer, Session.disconnect]
  leaves_stopped s payload h := by
    show (s.handleFrame a payload).1.closed = true
    have h : (s.handleFrame a payload).2 = false := h
    unfold Session.handleFrame at h ⊢
    split <;> simp_all [Session.disconnect]
  stays_stopped s payload h := by
    show (s.handleFrame a payload).1.closed = true
    unfold Session.handleFrame
    split
    · obtain ⟨states, heq⟩ := Session.handleMessage_closed a h ‹Json›
      rw [heq]
      exact h
    · simp [Session.disconnect]
  obs_step s payload h := by
    show ({ (s.handleFrame a payload).1 with connected := _, states := _ } : Session) = _
    unfold Session.handleFrame
    split
    · obtain ⟨states, heq⟩ := Session.handleMessage_closed a h ‹Json›
      rw [heq]
      rfl
    · rw [s.handleClose_idle h]
      rfl
  obs_bad s h := by
    show ({ s.handleClose.disconnect with connected := _, states := _ } : Session) = _
    rw [s.handleClose_idle h]
    rfl

/-- What a client still shows. -/
def shown (s : Session) : Session := { s with connected := false, states := fun _ => none }

theorem settle_shown (s : Session) (requestId : Text) (settlement : Settlement) :
    shown (s.settle requestId settlement) = (shown s).settle requestId settlement := by
  unfold Session.settle
  split <;> rename_i h
  · rw [if_pos (show requestId ∈ (shown s).settled.map Prod.fst from h)]
  · rw [if_neg (show requestId ∉ (shown s).settled.map Prod.fst from h)]
    rfl

theorem initialized_shown (s : Session) (requestId : Text) :
    shown (s.initialized requestId) = (shown s).initialized requestId := by
  unfold Session.initialized
  rw [show (shown s).settled = s.settled from rfl]
  split
  · split <;> rfl
  · rfl

theorem next_shown (a : Around) {s : Session} (h : s.closed = true) (e : Session.Event) :
    (s.next a e).closed = true ∧ shown (s.next a e) = (shown s).next a e := by
  have h' : (shown s).closed = true := h
  cases e with
  | initialized requestId =>
    refine ⟨?_, initialized_shown s requestId⟩
    show (s.initialized requestId).closed = true
    unfold Session.initialized
    split
    · split <;> exact h
    · exact h
  | request r =>
    have hrequest : ∀ t : Session, t.closed = true →
        t.request a r = t.settle r.requestId (.rejected .unavailable) := fun t ht => by
      rw [Session.request, dif_neg fun hopen => hopen.2 ht]
    show (s.request a r).closed = true ∧ shown (s.request a r) = (shown s).request a r
    rw [hrequest s h, hrequest _ h', settle_shown]
    exact ⟨by simpa using h, rfl⟩
  | timeout requestId =>
    have htimeout : ∀ t : Session, t.closed = true → t.timeout requestId = t := fun t ht => by
      rw [Session.timeout, t.closed_idle ht, List.find?_nil]
    show (s.timeout requestId).closed = true ∧
      shown (s.timeout requestId) = (shown s).timeout requestId
    rw [htimeout s h, htimeout _ h']
    exact ⟨h, rfl⟩
  | follow threadId hostId =>
    show (s.follow a threadId hostId).closed = true ∧
      shown (s.follow a threadId hostId) = (shown s).follow a threadId hostId
    rw [Session.follow_closed a h, Session.follow_closed a h']
    exact ⟨h, rfl⟩
  | streamClosed =>
    show s.handleClose.closed = true ∧ shown s.handleClose = (shown s).handleClose
    rw [s.handleClose_idle h, (shown s).handleClose_idle h']
    exact ⟨h, rfl⟩
  | close =>
    have hclose : ∀ t : Session, t.closed = true → t.close = t := fun t ht => if_pos ht
    show s.close.closed = true ∧ shown s.close = (shown s).close
    rw [hclose s h, hclose _ h']
    exact ⟨h, rfl⟩

theorem next_respects (a : Around) : Framing.Respects (consumer a) (Session.next a) := by
  intro s s' e hs hs' hobs
  obtain ⟨hclosed, hshown⟩ := next_shown a hs e
  obtain ⟨-, hshown'⟩ := next_shown a hs' e
  have hobs : shown s = shown s' := hobs
  exact ⟨hclosed, hshown.trans (by rw [hobs]; exact hshown'.symm)⟩

end Messages

section Link

/-- A client at the level of messages: its own events, and the payloads that are handled. -/
def frameRun (a : Around) (r : Request) (evs : List (Session.Event ⊕ Bytes)) : Session :=
  evs.foldl (Framing.frameStep (consumer a) (Session.next a)) (Session.connect a r)

/-- Frames that arrive in chunks are handled as the payloads they were made of, each once and in
order, between the client's own events; the start of a frame waits for its rest. A client that has
closed agrees in all but its connection and its conversation states. -/
theorem frames_arrive (a : Around) (r : Request) {payloads : List Bytes}
    (hframed : ∀ payload ∈ payloads, Framed payload) {evs : List (Session.Event ⊕ Bytes)}
    (harrived : Framing.received evs <+: Framing.encoded frame payloads) :
    ∃ (evs' : List (Session.Event ⊕ Bytes)) (rest : List Bytes) (tail : Bytes),
      evs'.filterMap Sum.getLeft? = evs.filterMap Sum.getLeft? ∧
      payloads = evs'.filterMap Sum.getRight? ++ rest ∧
      Framing.received evs = Framing.encoded frame (evs'.filterMap Sum.getRight?) ++ tail ∧
      scan tail = .more ∧ shown (run a r evs).state = shown (frameRun a r evs') ∧
      (run a r evs).state.closed = (frameRun a r evs').closed ∧
      ((run a r evs).state.closed = false →
        (run a r evs).state = frameRun a r evs' ∧ (run a r evs).buffer = tail) := by
  obtain ⟨evs', rest, tail, hown, hframes, hreceived, hmore, halike, hbuffer⟩ :=
    Framing.refines (consumer_lawful a) (next_respects a) frames_encode (Session.connect a r)
      hframed harrived
  exact ⟨evs', rest, tail, hown, hframes, hreceived, hmore, halike.2.1, halike.1,
    fun hopen => ⟨halike.2.2 hopen, hbuffer hopen⟩⟩

def snapshotMessage : Json :=
  .obj [(lit "type", .str (lit "broadcast")),
    (lit "method", .str (lit "thread-stream-state-changed")),
    (lit "params", .obj [(lit "conversationId", .str (lit "thread")),
      (lit "change", .obj [(lit "type", .str (lit "snapshot")), (lit "revision", .num 1),
        (lit "conversationState", .obj [])])])]

/-- The byte 1 stands for the snapshot, and every message is written as the byte 2. -/
def snapshots : Around where
  stringify _ := [2]
  parse payload := if payload = [1] then some snapshotMessage else none
  write _ := .taken

def firstRequest : Request := ⟨lit "request-1", .initializeClient, .obj [], none, 10000⟩

/-- A frame in three chunks, with a timeout between them. -/
def cutSnapshot : List (Session.Event ⊕ Bytes) :=
  [.inr [1, 0], .inl (.timeout (lit "request-1")), .inr [0, 0], .inr [1]]

theorem frames_arrive_cutSnapshot : ∃ (evs' : List (Session.Event ⊕ Bytes)) (rest : List Bytes)
    (tail : Bytes), [[1]] = evs'.filterMap Sum.getRight? ++ rest ∧
      Framing.received cutSnapshot =
        Framing.encoded frame (evs'.filterMap Sum.getRight?) ++ tail ∧
      shown (run snapshots firstRequest cutSnapshot).state =
        shown (frameRun snapshots firstRequest evs') := by
  obtain ⟨evs', rest, tail, -, hframes, hreceived, -, hshown, -⟩ :=
    @frames_arrive snapshots firstRequest [[1]] (by simp [Framed, MAX_IPC_FRAME_BYTES]) cutSnapshot
      (by decide)
  exact ⟨evs', rest, tail, hframes, hreceived, hshown⟩

end Link

section Settlement

namespace Session

def ids (s : Session) : List Text := s.pending.map PendingRequest.requestId ++ s.settled.map Prod.fst

/-- Every request asked so far waits or is settled, once; only a response resolves one; and where a
request that starts a turn was handed over, its failure leaves the outcome open. -/
structure Books (s : Session) (asked : List Text) : Prop where
  perm : s.ids.Perm asked
  written : ∀ p ∈ s.pending, p.written = true
  known : ∀ clientId r, Outgoing.request clientId r ∈ s.wire → r.requestId ∈ s.ids
  method : ∀ clientId r, Outgoing.request clientId r ∈ s.wire →
    ∀ p ∈ s.pending, p.requestId = r.requestId → p.method = r.method
  response : ∀ requestId value, (requestId, Settlement.resolved value) ∈ s.settled →
    (value.get "type").isText "response" = true ∧ (value.get "requestId").str? = some requestId
  open_outcome : ∀ clientId r error, Outgoing.request clientId r ∈ s.wire →
    r.method = .threadFollowerStartTurn → (r.requestId, Settlement.rejected error) ∈ s.settled →
    error = .unknownOutcome

variable {a : Around} {s : Session} {asked : List Text}

/-- The books do not see the states, the stream or the name of the client. -/
theorem Books.congr (h : s.Books asked) {s' : Session} (hpending : s'.pending = s.pending)
    (hsettled : s'.settled = s.settled) (hwire : s'.wire = s.wire) : s'.Books asked := by
  have hids : s'.ids = s.ids := by rw [ids, ids, hpending, hsettled]
  constructor
  · rw [hids]; exact h.perm
  · rw [hpending]; exact h.written
  · rw [hwire, hids]; exact h.known
  · rw [hwire, hpending]; exact h.method
  · rw [hsettled]; exact h.response
  · rw [hwire, hsettled]; exact h.open_outcome

theorem Books.following (h : s.Books asked) (clientId threadId hostId : Text) :
    ({ s with wire := s.wire ++ [Outgoing.following clientId threadId hostId] } : Session).Books
      asked := by
  have hmem : ∀ c r,
      Outgoing.request c r ∈ s.wire ++ [Outgoing.following clientId threadId hostId] →
        Outgoing.request c r ∈ s.wire := by simp
  exact ⟨h.perm, h.written, fun c r hr => h.known c r (hmem c r hr),
    fun c r hr => h.method c r (hmem c r hr), h.response,
    fun c r error hr => h.open_outcome c r error (hmem c r hr)⟩

theorem Books.nodup (h : s.Books asked) (hasked : asked.Nodup) : s.ids.Nodup :=
  h.perm.nodup_iff.2 hasked

theorem forget_ids (hnodup : (s.pending.map PendingRequest.requestId).Nodup) {requestId : Text}
    (hmem : requestId ∈ s.pending.map PendingRequest.requestId) :
    (requestId :: (s.forget requestId).pending.map PendingRequest.requestId).Perm
      (s.pending.map PendingRequest.requestId) := by
  have hfilter : (s.forget requestId).pending.map PendingRequest.requestId =
      (s.pending.map PendingRequest.requestId).erase requestId := by
    rw [hnodup.erase_eq_filter, List.filter_map]
    refine congrArg _ (List.filter_congr fun p _ => ?_)
    by_cases hp : p.requestId = requestId <;> simp [hp]
  rw [hfilter]
  exact (List.perm_cons_erase hmem).symm

/-- What may be told to a pending request. -/
def Fit (s : Session) (requestId : Text) : Settlement → Prop
  | .resolved value =>
    (value.get "type").isText "response" = true ∧ (value.get "requestId").str? = some requestId
  | .rejected error => ∀ p ∈ s.pending, p.requestId = requestId →
    p.method = .threadFollowerStartTurn → error = .unknownOutcome

theorem Books.answer (h : s.Books asked) (hasked : asked.Nodup) {requestId : Text}
    (hmem : requestId ∈ s.pending.map PendingRequest.requestId) {settlement : Settlement}
    (hfit : s.Fit requestId settlement) :
    ((s.forget requestId).settle requestId settlement).Books asked := by
  obtain ⟨hpending, -, hdisjoint⟩ := List.nodup_append.1 (h.nodup hasked)
  have hnew : requestId ∉ s.settled.map Prod.fst := fun hsettled =>
    hdisjoint _ hmem _ hsettled rfl
  have hsettled : ((s.forget requestId).settle requestId settlement).settled =
      s.settled ++ [(requestId, settlement)] := settle_settled _ _ _ hnew
  have hids : ((s.forget requestId).settle requestId settlement).ids.Perm s.ids := by
    rw [ids, hsettled, settle_pending, List.map_append, ids]
    refine .trans ?_ ((forget_ids hpending hmem).append_right _)
    rw [← List.append_assoc]
    exact List.perm_append_comm
  have hkept : ∀ p ∈ (s.forget requestId).pending, p ∈ s.pending := fun p hp =>
    List.mem_of_mem_filter hp
  constructor
  · exact hids.trans h.perm
  · rw [settle_pending]
    exact fun p hp => h.written p (hkept p hp)
  · rw [settle_wire]
    exact fun c r hr => hids.mem_iff.2 (h.known c r hr)
  · rw [settle_wire, settle_pending]
    exact fun c r hr p hp => h.method c r hr p (hkept p hp)
  · rw [hsettled]
    intro id value hvalue
    rcases List.mem_append.1 hvalue with hold | hold
    · exact h.response id value hold
    · obtain ⟨rfl, rfl⟩ : id = requestId ∧ Settlement.resolved value = settlement := by
        simpa using hold
      exact hfit
  · rw [settle_wire, hsettled]
    intro c r error hr hmethod herror
    rcases List.mem_append.1 herror with hold | hold
    · exact h.open_outcome c r error hr hmethod hold
    · obtain ⟨rfl, rfl⟩ : r.requestId = requestId ∧ Settlement.rejected error = settlement := by
        simpa using hold
      obtain ⟨p, hp, hid⟩ := List.mem_map.1 hmem
      exact hfit p hp hid ((h.method c r hr p hp hid).trans hmethod)

theorem Books.handleClose (h : s.Books asked) (hasked : asked.Nodup) :
    s.handleClose.Books asked := by
  have hnodup : (s.settled.map Prod.fst ++ s.pending.map PendingRequest.requestId).Nodup :=
    List.perm_append_comm.nodup_iff.1 (h.nodup hasked)
  have hsettled : s.handleClose.settled =
      s.settled ++ s.pending.map fun p => (p.requestId, .rejected (closeFailure p)) :=
    settleAll_settled s.shut s.pending hnodup
  have hids : s.handleClose.ids.Perm s.ids := by
    rw [ids, hsettled, handleClose_pending, List.map_append, List.map_map, List.map_nil,
      List.nil_append, ids]
    exact List.perm_append_comm
  constructor
  · exact hids.trans h.perm
  · simp
  · rw [handleClose_wire]
    exact fun c r hr => hids.mem_iff.2 (h.known c r hr)
  · simp
  · rw [hsettled]
    intro id value hvalue
    rcases List.mem_append.1 hvalue with hold | hold
    · exact h.response id value hold
    · obtain ⟨p, -, heq⟩ := List.mem_map.1 hold
      simp at heq
  · rw [handleClose_wire, hsettled]
    intro c r error hr hmethod herror
    rcases List.mem_append.1 herror with hold | hold
    · exact h.open_outcome c r error hr hmethod hold
    · obtain ⟨p, hp, heq⟩ := List.mem_map.1 hold
      obtain ⟨hid, rfl⟩ : p.requestId = r.requestId ∧ closeFailure p = error := by simpa using heq
      rw [closeFailure, if_pos ⟨(h.method c r hr p hp hid).trans hmethod, h.written p hp⟩]

theorem Books.afterWrite (h : s.Books asked) (hasked : asked.Nodup) (result : Write) :
    (s.afterWrite result).Books asked := by
  cases result with
  | taken => exact h
  | throws => exact h
  | closes => exact h.handleClose hasked

theorem Books.follow (h : s.Books asked) (hasked : asked.Nodup) (threadId hostId : Text) :
    (s.follow a threadId hostId).Books asked := by
  unfold Session.follow
  split
  · unfold hand
    cases encodeFrame _ with
    | none => exact h
    | some bytes => exact (h.following s.clientId threadId hostId).afterWrite hasked _
  · exact h

theorem Books.touched (h : s.Books asked) (hasked : asked.Nodup) {s' : Session}
    (htouched : Touched a s s') : s'.Books asked := by
  cases htouched with
  | quiet states => exact h.congr rfl rfl rfl
  | follow states threadId hostId =>
    exact Books.follow (s := s.withStates states) (h.congr rfl rfl rfl) hasked threadId hostId

theorem Books.frame (h : s.Books asked) (hasked : asked.Nodup) (payload : Bytes) :
    (s.handleFrame a payload).1.Books asked := by
  unfold handleFrame
  split
  · rename_i value _
    rcases handleMessage_cases a s value with ⟨requestId, ⟨hmem, hresponse⟩, heq⟩ | htouched
    · rw [heq]
      exact h.answer hasked hmem hresponse
    · exact h.touched hasked htouched
  · exact (h.handleClose hasked).congr rfl rfl rfl

theorem Books.refused (h : s.Books asked) {requestId : Text} (hnew : requestId ∉ s.ids)
    {error : Failure} : (s.settle requestId (.rejected error)).Books (requestId :: asked) := by
  have hsettled := settle_settled s requestId (.rejected error) fun hmem =>
    hnew (List.mem_append_right _ hmem)
  have hids : (s.settle requestId (.rejected error)).ids.Perm (requestId :: s.ids) := by
    rw [ids, hsettled, settle_pending, List.map_append, ← List.append_assoc]
    exact List.perm_append_comm
  constructor
  · exact hids.trans (h.perm.cons requestId)
  · rw [settle_pending]; exact h.written
  · rw [settle_wire]
    exact fun c r hr => hids.mem_iff.2 (List.mem_cons_of_mem _ (h.known c r hr))
  · rw [settle_wire, settle_pending]; exact h.method
  · rw [hsettled]
    exact fun id value hvalue => h.response id value (by simpa using hvalue)
  · rw [settle_wire, hsettled]
    intro c r error' hr hmethod herror
    rcases List.mem_append.1 herror with hold | hold
    · exact h.open_outcome c r error' hr hmethod hold
    · obtain ⟨hid, -⟩ : r.requestId = requestId ∧ error' = error := by simpa using hold
      exact absurd (hid ▸ h.known c r hr) hnew

/-- A request whose frame is handed over. -/
theorem Books.awaited (h : s.Books asked) {r : Request} (hnew : r.requestId ∉ s.ids)
    (hopen : s.closed ≠ true) (clientId : Text) :
    ({ s.await r hopen with wire := s.wire ++ [Outgoing.request clientId r] } : Session).Books
      (r.requestId :: asked) := by
  have hids : ((s.await r hopen).ids).Perm (r.requestId :: s.ids) := by
    rw [ids, await, List.map_append, List.append_assoc]
    exact List.perm_middle
  have hwire : ∀ c r', Outgoing.request c r' ∈ s.wire ++ [Outgoing.request clientId r] →
      Outgoing.request c r' ∈ s.wire ∨ r' = r := by
    intro c r' hr
    rcases List.mem_append.1 hr with hold | hold
    · exact .inl hold
    · exact .inr (Outgoing.request.inj (List.mem_singleton.1 hold)).2
  constructor
  · exact hids.trans (h.perm.cons r.requestId)
  · intro p hp
    rcases List.mem_append.1 hp with hold | hold
    · exact h.written p hold
    · rw [List.mem_singleton.1 hold]
  · intro c r' hr
    refine hids.mem_iff.2 ?_
    rcases hwire c r' hr with hold | rfl
    · exact List.mem_cons_of_mem _ (h.known c r' hold)
    · exact List.mem_cons_self
  · intro c r' hr p hp hid
    rcases List.mem_append.1 hp with hold | hold
    · rcases hwire c r' hr with hr | rfl
      · exact h.method c r' hr p hold hid
      · exact absurd (List.mem_append_left _ (List.mem_map.2 ⟨p, hold, hid⟩)) hnew
    · rw [List.mem_singleton.1 hold] at hid ⊢
      rcases hwire c r' hr with hr | rfl
      · have hid : r.requestId = r'.requestId := hid
        exact absurd (hid ▸ h.known c r' hr) hnew
      · rfl
  · exact h.response
  · intro c r' error hr hmethod herror
    rcases hwire c r' hr with hr | rfl
    · exact h.open_outcome c r' error hr hmethod herror
    · exact absurd (List.mem_append_right _ (List.mem_map.2 ⟨_, herror, rfl⟩)) hnew

theorem Books.request (h : s.Books asked) {r : Request} (hasked : (r.requestId :: asked).Nodup) :
    (s.request a r).Books (r.requestId :: asked) := by
  have hnew : r.requestId ∉ s.ids := fun hmem =>
    (List.nodup_cons.1 hasked).1 (h.perm.mem_iff.1 hmem)
  unfold Session.request
  split
  · rename_i hopen
    unfold hand
    cases encodeFrame _ with
    | none => exact h.refused hnew
    | some bytes =>
      have hawaited := h.awaited hnew hopen.2 s.clientId
      dsimp only [Option.map_some]
      cases a.write _ with
      | taken => exact hawaited
      | closes => exact hawaited.handleClose hasked
      | throws =>
        refine hawaited.answer hasked (by simp [await]) fun p hp hid hmethod => ?_
        rw [if_pos ((hawaited.method s.clientId r (by simp) p hp hid).symm.trans hmethod)]
  · exact h.refused hnew

theorem Books.timeout (h : s.Books asked) (hasked : asked.Nodup) (requestId : Text) :
    (s.timeout requestId).Books asked := by
  unfold Session.timeout
  split
  · exact h
  · rename_i p hp
    have hid : p.requestId = requestId := by simpa using List.find?_some hp
    have hmem := List.mem_of_find?_eq_some hp
    refine h.answer hasked (List.mem_map.2 ⟨p, hmem, hid⟩) fun p' hp' hid' hmethod => ?_
    have hsame : p' = p := List.inj_on_of_nodup_map (List.nodup_append.1 (h.nodup hasked)).1 hp'
      hmem (hid'.trans hid.symm)
    rw [if_pos (hsame ▸ hmethod)]

theorem Books.initialized (h : s.Books asked) (requestId : Text) :
    (s.initialized requestId).Books asked := by
  unfold Session.initialized
  split
  · split
    · exact h.congr rfl rfl rfl
    · exact h
  · exact h

theorem Books.next (h : s.Books asked) {e : Event} (hasked : (e.asks ++ asked).Nodup) :
    (s.next a e).Books (e.asks ++ asked) := by
  cases e with
  | initialized requestId => exact h.initialized requestId
  | request r => exact h.request hasked
  | timeout requestId => exact h.timeout hasked requestId
  | follow threadId hostId => exact h.follow hasked threadId hostId
  | streamClosed => exact h.handleClose hasked
  | close =>
    show s.close.Books asked
    unfold Session.close
    split
    · exact h
    · have hdisconnected : s.disconnect.Books asked := h.congr rfl rfl rfl
      exact hdisconnected.handleClose hasked

end Session

theorem asked_snoc (r : Request) (evs : List (Session.Event ⊕ Bytes)) (e : Session.Event ⊕ Bytes) :
    asked r (evs ++ [e]) = (e.getLeft?.toList.flatMap Session.Event.asks) ++ asked r evs := by
  cases e <;> simp [asked, List.filterMap_append]

theorem run_books (a : Around) (r : Request) {evs : List (Session.Event ⊕ Bytes)}
    (hfresh : (asked r evs).Nodup) : (run a r evs).state.Books (asked r evs) := by
  induction evs using List.reverseRecOn with
  | nil =>
    have hnew : ({ Session.new with connected := true } : Session).Books [] :=
      ⟨.nil, by simp [Session.new], by simp [Session.new], by simp [Session.new],
        by simp [Session.new], by simp [Session.new]⟩
    exact hnew.request hfresh
  | append_singleton evs e ih =>
    rw [asked_snoc] at hfresh ⊢
    have hbooks := ih (List.nodup_append.1 hfresh).2.1
    rw [run, List.foldl_append]
    cases e with
    | inl e =>
      have hasks : (Sum.getLeft? (.inl e : Session.Event ⊕ Bytes)).toList.flatMap
          Session.Event.asks = e.asks := by simp
      rw [hasks] at hfresh ⊢
      exact hbooks.next hfresh
    | inr chunk =>
      exact Framing.feed_invariant (I := fun s : Session => s.Books (asked r evs))
        (fun s payload h => h.frame hfresh payload)
        (fun s h => (h.handleClose hfresh).congr rfl rfl rfl) hbooks chunk

/-- Every request of a client, whatever arrives and whenever its stream fails, waits or is settled,
never both and never twice; a closed client leaves none waiting; a request resolves with a response
of its own id; and a request to start a turn whose frame was handed to the stream fails in no other
way than with the outcome left open. -/
theorem requests_settle (a : Around) (r : Request) (evs : List (Session.Event ⊕ Bytes))
    (hfresh : (asked r evs).Nodup) :
    let s := (run a r evs).state
    (s.pending.map PendingRequest.requestId ++ s.settled.map Prod.fst).Perm (asked r evs) ∧
    (s.closed = true → (s.settled.map Prod.fst).Perm (asked r evs)) ∧
    (∀ requestId value, (requestId, Settlement.resolved value) ∈ s.settled →
      (value.get "requestId").str? = some requestId) ∧
    ∀ clientId r' error, Outgoing.request clientId r' ∈ s.wire →
      r'.method = .threadFollowerStartTurn →
      (r'.requestId, Settlement.rejected error) ∈ s.settled → error = .unknownOutcome := by
  have h := run_books a r hfresh
  refine ⟨h.perm, fun hclosed => ?_, fun id value hvalue => (h.response id value hvalue).2,
    h.open_outcome⟩
  simpa [Session.ids, (run a r evs).state.closed_idle hclosed] using h.perm

theorem requests_settle_cutSnapshot :
    let s := (run snapshots firstRequest cutSnapshot).state
    (s.pending.map PendingRequest.requestId ++ s.settled.map Prod.fst).Perm [lit "request-1"] :=
  (requests_settle snapshots firstRequest cutSnapshot (by decide)).1

end Settlement

section Replica

/-- The states of the App's conversations, by their revisions. -/
abbrev App := Text → ℚ → Option Json

/-- A change that the App broadcasts: a snapshot is a state of the conversation, and patches lead
from the state of their base revision to that of their own. -/
structure Honest (app : App) (threadId : Text) (change : Json) : Prop where
  snapshot : ∀ revision, (change.get "revision").num? = some revision →
    (change.get "type").isText "snapshot" = true → (change.get "conversationState").isObject = true →
    app threadId revision = some (change.get "conversationState")
  patches : ∀ baseRevision revision patches state,
    (change.get "revision").num? = some revision →
    (change.get "baseRevision").num? = some baseRevision →
    (change.get "type").isText "patches" = true → (change.get "patches").arr? = some patches →
    app threadId baseRevision = some state →
    ∃ state', applyPatches state patches = (state', true) ∧ app threadId revision = some state'

/-- What the App sends about its conversations is true; it may leave changes out. -/
def Truthful (app : App) (value : Json) : Prop :=
  ∀ threadId, ((value.get "params").get "conversationId").str? = some threadId →
    Honest app threadId ((value.get "params").get "change")

namespace Session

/-- Every state held is the state of the App at its revision. -/
def Replica (app : App) (s : Session) : Prop :=
  ∀ threadId current, s.states threadId = some current →
    app threadId current.revision = some current.state

variable {app : App} {a : Around} {s : Session}

theorem Replica.congr (h : s.Replica app) {s' : Session} (hstates : s'.states = s.states) :
    s'.Replica app := by
  intro threadId current
  rw [hstates]
  exact h threadId current

theorem Replica.setState (h : s.Replica app) {threadId : Text} {revision : ℚ} {state : Json}
    (hstate : app threadId revision = some state) :
    (s.setState threadId ⟨revision, state⟩).Replica app := by
  intro threadId' current hcurrent
  simp only [Session.setState] at hcurrent
  split at hcurrent
  · rename_i heq
    obtain rfl := Option.some.inj hcurrent
    rwa [heq]
  · exact h threadId' current hcurrent

theorem hand_states {out : Outgoing} {result : Session × Write} (h : s.hand a out = some result) :
    result.1.states = s.states := by
  unfold hand at h
  obtain ⟨bytes, -, rfl⟩ := Option.map_eq_some_iff.1 h
  dsimp only
  cases a.write s.wire.length with
  | taken => rfl
  | throws => rfl
  | closes => exact handleClose_states _

theorem follow_states (threadId hostId : Text) : (s.follow a threadId hostId).states = s.states := by
  unfold Session.follow
  split
  · cases hhand : s.hand a (.following s.clientId threadId hostId) with
    | none => rfl
    | some result => exact hand_states hhand
  · rfl

theorem Replica.stateChanged (h : s.Replica app) {threadId : Text} {change : Json}
    (hhonest : Honest app threadId change) : (s.stateChanged a threadId change).Replica app := by
  unfold Session.stateChanged
  dsimp only
  split
  · exact h
  · rename_i revision hrevision
    split
    · rename_i hsnapshot
      exact h.setState (hhonest.snapshot revision hrevision hsnapshot.1 hsnapshot.2)
    · split
      · rename_i hpatches
        split
        · rename_i baseRevision patches hbase harr
          unfold Session.patched
          split
          · exact h.congr (follow_states ..)
          · rename_i current hcurrent
            by_cases hfits : current.revision = baseRevision
            · obtain ⟨state', happly, hstate'⟩ := hhonest.patches baseRevision revision patches
                current.state hrevision hbase hpatches harr (hfits ▸ h threadId current hcurrent)
              rw [if_neg (not_not.2 hfits), happly]
              exact h.setState hstate'
            · rw [if_pos hfits]
              exact h.congr (follow_states ..)
        · exact h
      · exact h

theorem Replica.frame (h : s.Replica app) {payload : Bytes}
    (htrue : ∀ value, a.parse payload = some value → Truthful app value) :
    (s.handleFrame a payload).1.Replica app := by
  unfold handleFrame
  split
  · rename_i value hparse
    unfold handleMessage
    dsimp only
    split
    · unfold Session.response
      split
      · exact h.congr (settle_states ..)
      · exact h
    · split
      · exact h
      · rename_i threadId hthread
        split
        · exact h.stateChanged (htrue value hparse threadId hthread)
        · exact h
  · exact h.congr (handleClose_states s)

theorem next_states (e : Event) : (s.next a e).states = s.states := by
  cases e with
  | initialized requestId =>
    show (s.initialized requestId).states = s.states
    unfold Session.initialized
    split
    · split <;> rfl
    · rfl
  | request r =>
    show (s.request a r).states = s.states
    unfold Session.request
    split
    · rename_i hopen
      cases hhand : (s.await r hopen.2).hand a (.request s.clientId r) with
      | none => exact settle_states ..
      | some result =>
        have hstates : result.1.states = s.states := hand_states (s := s.await r hopen.2) hhand
        obtain ⟨s', write⟩ := result
        cases write with
        | taken => exact hstates
        | throws => exact (settle_states ..).trans hstates
        | closes => exact hstates
    · exact settle_states ..
  | timeout requestId =>
    show (s.timeout requestId).states = s.states
    unfold Session.timeout
    split
    · rfl
    · exact settle_states ..
  | follow threadId hostId => exact follow_states threadId hostId
  | streamClosed => exact handleClose_states s
  | close =>
    show s.close.states = s.states
    unfold Session.close
    split
    · rfl
    · exact handleClose_states _

end Session

theorem run_replica (a : Around) (r : Request) {app : App} {payloads : List Bytes}
    (hframed : ∀ payload ∈ payloads, Framed payload)
    (htrue : ∀ payload ∈ payloads, ∀ value, a.parse payload = some value → Truthful app value)
    {evs : List (Session.Event ⊕ Bytes)}
    (harrived : Framing.received evs <+: Framing.encoded frame payloads) :
    (run a r evs).state.Replica app := by
  have hnew : (Session.connect a r).Replica app := by
    have hstates : (Session.connect a r).states = fun _ => none :=
      Session.next_states (a := a) (s := { Session.new with connected := true }) (.request r)
    intro threadId current hcurrent
    rw [hstates] at hcurrent
    cases hcurrent
  exact Framing.run_invariant (consumer_lawful a) (next_respects a) frames_encode hframed
    (fun s payload hpayload h => h.frame (htrue payload hpayload))
    (fun s e h => h.congr (Session.next_states e)) hnew harrived

end Replica

section Delegation

/-- A code unit of an escaped text. -/
def escapeUnit (u : ℕ) : Text :=
  if u = AMPERSAND then lit "&amp;" else if u = LESS then lit "&lt;"
  else if u = GREATER then lit "&gt;" else [u]

theorem escapeXml_eq (value : Text) : escapeXml value = value.flatMap escapeUnit := by
  unfold escapeXml replaceAll
  rw [List.flatMap_assoc, List.flatMap_assoc]
  refine List.flatMap_congr fun u _ => ?_
  unfold escapeUnit
  by_cases hamp : u = AMPERSAND
  · subst hamp
    decide
  · by_cases hless : u = LESS
    · subst hless
      decide
    · by_cases hgreater : u = GREATER
      · subst hgreater
        decide
      · simp [hamp, hless, hgreater]

theorem escapeUnit_prefixFree : PrefixCode.PrefixFree escapeUnit := by
  have hamp : lit "&amp;" = [38, 97, 109, 112, 59] := by decide
  have hless : lit "&lt;" = [38, 108, 116, 59] := by decide
  have hgreater : lit "&gt;" = [38, 103, 116, 59] := by decide
  intro u v rest rest' h
  simp only [escapeUnit, hamp, hless, hgreater, AMPERSAND, LESS, GREATER] at h
  split_ifs at h <;> simp_all

theorem escapeXml_injective {value value' : Text} (h : escapeXml value = escapeXml value') :
    value = value' := by
  rw [escapeXml_eq, escapeXml_eq] at h
  refine PrefixCode.flatMap_injective escapeUnit_prefixFree (fun u => ?_) h
  unfold escapeUnit
  split_ifs
  · decide
  · decide
  · decide
  · simp

theorem less_notMem_escapeXml (value : Text) : LESS ∉ escapeXml value := by
  rw [escapeXml_eq]
  refine PrefixCode.not_mem_flatMap (fun u => ?_) value
  unfold escapeUnit
  split_ifs with hamp hless hgreater
  · decide
  · decide
  · decide
  · simpa [eq_comm] using hless

theorem codexDelegationEnvelope_eq (source prompt : Text) :
    codexDelegationEnvelope source prompt =
      (lit "<codex_delegation>" ++ Mentions.NEWLINE :: lit "  <source_thread_id>") ++
        (escapeXml source ++ LESS ::
          ((lit "/source_thread_id>" ++ Mentions.NEWLINE :: lit "  <input>") ++
            (escapeXml prompt ++ LESS ::
              (lit "/input>" ++ Mentions.NEWLINE :: lit "</codex_delegation>")))) := by
  have hsource : lit "</source_thread_id>" = LESS :: lit "/source_thread_id>" := by decide
  have hinput : lit "</input>" = LESS :: lit "/input>" := by decide
  simp [codexDelegationEnvelope, List.intercalate, List.intersperse, hsource, hinput]

/-- An envelope tells its source and its prompt. -/
theorem codexDelegationEnvelope_injective {source source' prompt prompt' : Text}
    (h : codexDelegationEnvelope source prompt = codexDelegationEnvelope source' prompt') :
    source = source' ∧ prompt = prompt' := by
  rw [codexDelegationEnvelope_eq, codexDelegationEnvelope_eq] at h
  obtain ⟨hsource, hrest⟩ := PrefixCode.append_mark_inj (less_notMem_escapeXml source)
    (less_notMem_escapeXml source') (List.append_cancel_left h)
  obtain ⟨hprompt, -⟩ := PrefixCode.append_mark_inj (less_notMem_escapeXml prompt)
    (less_notMem_escapeXml prompt') (List.append_cancel_left hrest)
  exact ⟨escapeXml_injective hsource, escapeXml_injective hprompt⟩

/-- However what the App sends is cut into chunks, and whatever the client does meanwhile: a state it
holds is the state of the App at that revision, and a turn that `findDelegation` finds is a turn of
such a state, started with the source, the prompt and the message id asked for; no other delegation
has its envelope. -/
theorem delegation_found (a : Around) (r : Request) {app : App} {payloads : List Bytes}
    (hframed : ∀ payload ∈ payloads, Framed payload)
    (htrue : ∀ payload ∈ payloads, ∀ value, a.parse payload = some value → Truthful app value)
    {evs : List (Session.Event ⊕ Bytes)}
    (harrived : Framing.received evs <+: Framing.encoded frame payloads) :
    (∀ threadId current, (run a r evs).state.states threadId = some current →
      app threadId current.revision = some current.state) ∧
    ∀ input turn, (run a r evs).state.findDelegation input = some turn →
      (∃ revision state, app input.targetThreadId revision = some state ∧
        turn ∈ canonicalTurns state) ∧
      (turn.params.get "clientUserMessageId").str? = some input.clientUserMessageId ∧
      ∀ source prompt, ((turn.params.get "toolOutput").get "output").str? =
          some (codexDelegationEnvelope source prompt) →
        source = input.sourceThreadId ∧ prompt = input.prompt := by
  have hreplica := run_replica a r hframed htrue harrived
  refine ⟨hreplica, fun input turn hfound => ?_⟩
  unfold Session.findDelegation at hfound
  split at hfound
  · cases hfound
  · rename_i current hcurrent
    have hmatches := List.find?_some hfound
    simp only [Delegation.matches, Bool.and_eq_true, decide_eq_true_eq] at hmatches
    refine ⟨⟨current.revision, current.state, hreplica _ current hcurrent,
      List.mem_of_find?_eq_some hfound⟩, hmatches.1.1.1.1.2, fun source prompt houtput => ?_⟩
    exact codexDelegationEnvelope_injective (Option.some.inj (houtput.symm.trans hmatches.2))

def emptyApp : App := fun _ _ => some (.obj [])

theorem delegation_found_snapshot :
    ∃ current, (run snapshots firstRequest cutSnapshot).state.states (lit "thread") = some current ∧
      emptyApp (lit "thread") current.revision = some current.state := by
  have hheld : ((run snapshots firstRequest cutSnapshot).state.states (lit "thread")).isSome := by
    decide +kernel
  obtain ⟨current, hcurrent⟩ := Option.isSome_iff_exists.1 hheld
  refine ⟨current, hcurrent, ?_⟩
  exact (@delegation_found snapshots firstRequest emptyApp [[1]]
    (by simp [Framed, MAX_IPC_FRAME_BYTES])
    (fun payload hpayload value hvalue => by
      obtain rfl : payload = [1] := List.mem_singleton.1 hpayload
      obtain rfl : value = snapshotMessage := (Option.some.inj hvalue).symm
      exact fun threadId hthread => ⟨fun _ _ _ _ => rfl,
        fun _ _ _ _ _ _ htype _ _ => absurd htype (by decide)⟩)
    cutSnapshot (by decide)).1 (lit "thread") current hcurrent

end Delegation

end DesktopIpc
end AgentParty
