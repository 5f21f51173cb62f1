import AgentParty.Delivery.Content

/-! What becomes of removed content. A stored row is written from a copy in flight, behind a
look for the tombstone; a POST of `dispatchWebhooks` and of the two batch loops starts without
one. After a removal that finds every copy behind its next look, nothing brings the body back. -/

namespace AgentParty.WebhookLoops

open EventSystem

/-- The payload does not carry a body of the message. -/
def Payload.Clean (seq : ℕ) (p : Payload) : Prop := p.seq = seq → p.body = none

/-- The next use of the copy is behind a look for the tombstone. -/
def Copy.Shielded (c : Copy) : Prop := c.stage ≠ .checks ∨ c.loop = .directed

/-- The answer to its POST ends the copy, or counts an attempt on its row. -/
def Copy.Spent (c : Copy) : Prop :=
  c.stage = .posting ∧ match c.loop with
    | .redeliver _ => True
    | .retry _ => c.attempts < WEBHOOK_MAX_RETRIES
    | .notify | .directed => False

/-- With or without a tombstone, the copy comes to nothing. -/
def Copy.Harmless (c : Copy) (tombstone : Bool) : Prop :=
  (tombstone = true ∧ c.Shielded) ∨ c.Spent

/-- The message is affected by the removal. -/
def Event.removes : Event → Message → Bool
  | .retract seq, m => m.seq = seq
  | .prune cutoff, m => m.ts ≤ cutoff
  | .eraseIdentity name, m => m.sender = name
  | _, _ => false

/-- There is a tombstone for the message behind its removal. -/
def Event.tombstone : Event → Message → Bool
  | .retract _, _ => true
  | .prune _, _ => false
  | _, m => m.retracted

namespace State

variable {s s' s'' : State} {P Q : Payload → Prop} {seq : ℕ}

def Stores (s : State) (p : Payload) : Prop :=
  (∃ q ∈ s.queue, q.payload = p) ∨ ∃ q ∈ s.deadLetters, q.payload = p

/-- From `s` to `s'` only the stored rows change, and new payloads satisfy `P`. -/
structure Adds (P : Payload → Prop) (s s' : State) : Prop where
  messages : s'.messages = s.messages
  lastSeq : s'.lastSeq = s.lastSeq
  copies : s'.copies = s.copies
  requests : s'.requests = s.requests
  stores : ∀ p, s'.Stores p → s.Stores p ∨ P p

theorem Adds.refl (s : State) : Adds P s s := ⟨rfl, rfl, rfl, rfl, fun _ h => Or.inl h⟩

theorem Adds.trans (h : Adds P s s') (h' : Adds P s' s'') : Adds P s s'' where
  messages := h'.messages.trans h.messages
  lastSeq := h'.lastSeq.trans h.lastSeq
  copies := h'.copies.trans h.copies
  requests := h'.requests.trans h.requests
  stores p hp := (h'.stores p hp).elim (h.stores p) Or.inr

theorem Adds.mono (hPQ : ∀ p, P p → Q p) (h : Adds P s s') : Adds Q s s' :=
  ⟨h.messages, h.lastSeq, h.copies, h.requests, fun p hp => (h.stores p hp).imp_right (hPQ p)⟩

theorem Adds.isMessageRetracted (h : Adds P s s') (seq : ℕ) :
    s'.isMessageRetracted seq = s.isMessageRetracted seq := by
  rw [State.isMessageRetracted, State.isMessageRetracted, h.messages]

theorem adds_of_sublists (hq : ∀ q ∈ s'.queue, ∃ q₀ ∈ s.queue, q₀.payload = q.payload)
    (hd : ∀ q ∈ s'.deadLetters, ∃ q₀ ∈ s.deadLetters, q₀.payload = q.payload)
    (hm : s'.messages = s.messages) (hl : s'.lastSeq = s.lastSeq)
    (hc : s'.copies = s.copies) (hr : s'.requests = s.requests) :
    Adds P s s' := by
  refine ⟨hm, hl, hc, hr, ?_⟩
  rintro p (⟨q, hmem, rfl⟩ | ⟨q, hmem, rfl⟩)
  · exact Or.inl (Or.inl (hq q hmem))
  · exact Or.inl (Or.inr (hd q hmem))

theorem adds_deleteArtifacts (pick : Payload → Bool) : Adds P s (s.deleteArtifacts pick) :=
  adds_of_sublists (fun q hq => ⟨q, (List.mem_filter.1 hq).1, rfl⟩)
    (fun q hq => ⟨q, (List.mem_filter.1 hq).1, rfl⟩) rfl rfl rfl rfl

theorem adds_deleteQueued (id : ℕ) : Adds P s (s.deleteQueued id) :=
  adds_of_sublists (fun q hq => ⟨q, (List.mem_filter.1 hq).1, rfl⟩) (fun q hq => ⟨q, hq, rfl⟩)
    rfl rfl rfl rfl

theorem adds_deleteLetter (id : ℕ) : Adds P s (s.deleteLetter id) :=
  adds_of_sublists (fun q hq => ⟨q, hq, rfl⟩) (fun q hq => ⟨q, (List.mem_filter.1 hq).1, rfl⟩)
    rfl rfl rfl rfl

theorem adds_removeAdapters (hook : String) : Adds P s (s.removeAdapters hook) :=
  adds_of_sublists (fun q hq => ⟨q, (List.mem_filter.1 hq).1, rfl⟩)
    (fun q hq => ⟨q, (List.mem_filter.1 hq).1, rfl⟩) rfl rfl rfl rfl

theorem adds_dropQueued (hook : String) (ids : List ℕ) : Adds P s (s.dropQueued hook ids) :=
  adds_of_sublists (fun q hq => ⟨q, (List.mem_filter.1 hq).1, rfl⟩) (fun q hq => ⟨q, hq, rfl⟩)
    rfl rfl rfl rfl

theorem exists_of_counted {rows : List Stored} {id attempts : ℕ} {q : Stored}
    (h : q ∈ rows.map fun q => if q.id = id then { q with attempts := attempts } else q) :
    ∃ q₀ ∈ rows, q₀.payload = q.payload := by
  obtain ⟨q₀, hq₀, rfl⟩ := List.mem_map.1 h
  refine ⟨q₀, hq₀, ?_⟩
  split_ifs <;> rfl

theorem adds_countQueued (id attempts : ℕ) : Adds P s (s.countQueued id attempts) :=
  adds_of_sublists (fun _ hq => exists_of_counted hq) (fun q hq => ⟨q, hq, rfl⟩)
    rfl rfl rfl rfl

theorem adds_countLetter (id attempts : ℕ) : Adds P s (s.countLetter id attempts) :=
  adds_of_sublists (fun q hq => ⟨q, hq, rfl⟩) (fun _ hq => exists_of_counted hq)
    rfl rfl rfl rfl

/-- A payload without a tombstone. -/
def Standing (s : State) (payload p : Payload) : Prop :=
  p = payload ∧ s.isMessageRetracted payload.seq = false

theorem adds_enqueue (hook : String) {payload : Payload}
    (h : s.isMessageRetracted payload.seq = false) :
    Adds (s.Standing payload) s (s.enqueue hook payload) := by
  refine ⟨rfl, rfl, rfl, rfl, ?_⟩
  rintro p (⟨q, hq, rfl⟩ | hp)
  · rcases List.mem_append.1 hq with hq | hq
    · exact Or.inl (Or.inl ⟨q, hq, rfl⟩)
    · obtain rfl := List.mem_singleton.1 hq
      exact Or.inr ⟨rfl, h⟩
  · exact Or.inl (Or.inr hp)

/-- Either the tombstone is there and the rows go, or nothing happens. -/
theorem scrub_cases (s : State) (payload : Payload) :
    (∃ s', s.scrubRetractedWebhookArtifacts payload = (s', true) ∧ Adds P s s') ∨
      (s.scrubRetractedWebhookArtifacts payload = (s, false) ∧
        s.isMessageRetracted payload.seq = false) := by
  unfold scrubRetractedWebhookArtifacts
  split_ifs with h
  · exact Or.inl ⟨_, rfl, adds_deleteArtifacts _⟩
  · exact Or.inr ⟨rfl, Bool.eq_false_iff.2 h⟩

theorem adds_recordDeadLetter (hook : String) (payload : Payload) (attempts : ℕ) :
    Adds (s.Standing payload) s (s.recordDeadLetter hook payload attempts) := by
  unfold recordDeadLetter
  rcases scrub_cases s payload with ⟨s', hscrub, hadds⟩ | ⟨hscrub, h⟩
  · rw [hscrub]
    exact hadds
  · rw [hscrub]
    refine ⟨rfl, rfl, rfl, rfl, ?_⟩
    rintro p (hp | ⟨q, hq, rfl⟩)
    · exact Or.inl (Or.inl hp)
    · dsimp only at hq
      rcases List.mem_append.1 (List.mem_of_mem_drop hq) with hq | hq
      · exact Or.inl (Or.inr ⟨q, hq, rfl⟩)
      · obtain rfl := List.mem_singleton.1 hq
        exact Or.inr ⟨rfl, h⟩

theorem standing_of_adds {payload p : Payload} (h : Adds P s s') (hp : s'.Standing payload p) :
    s.Standing payload p :=
  ⟨hp.1, h.isMessageRetracted payload.seq ▸ hp.2⟩

/-- Behind the checks the copy is given up, or posted; the work of a claim only without a
tombstone. -/
theorem check_cases (s : State) (c : Copy) (verdict : Verdict) :
    Adds ((s.without c).Standing c.payload) (s.without c) (s.check c verdict) ∨
      (s.check c verdict = (s.without c).post c ∧
        (c.loop = .directed → s.isMessageRetracted c.payload.seq = false)) := by
  unfold check
  cases verdict with
  | removed => exact Or.inl (adds_removeAdapters c.hook)
  | stale ids => exact Or.inl (adds_dropQueued c.hook ids)
  | refused =>
    refine Or.inl ?_
    cases c.loop with
    | retry id =>
      have hletter := adds_recordDeadLetter (s := s.without c) c.hook c.payload (c.attempts + 1)
      exact hletter.trans (adds_deleteQueued id)
    | redeliver id => exact adds_countLetter id _
    | notify | directed => exact Adds.refl _
  | lost =>
    refine Or.inl ?_
    cases c.loop with
    | retry id => exact adds_deleteQueued id
    | redeliver id => exact adds_countLetter id _
    | notify | directed => exact Adds.refl _
  | passed =>
    cases c.loop with
    | directed =>
      dsimp only
      rcases scrub_cases (s.without c) c.payload with ⟨s', hscrub, hadds⟩ | ⟨hscrub, h⟩
      · rw [hscrub]
        exact Or.inl hadds
      · rw [hscrub]
        exact Or.inr ⟨rfl, fun _ => h⟩
    | notify | retry _ | redeliver _ => exact Or.inr ⟨rfl, fun h => by cases h⟩

/-- Behind the answer only a payload without a tombstone is stored. -/
theorem answer_adds (s : State) (c : Copy) (ok kept : Bool) :
    Adds ((s.without c).Standing c.payload) (s.without c) (s.answer c ok kept) := by
  unfold answer
  rcases scrub_cases (s.without c) c.payload with ⟨s', hscrub, hadds⟩ | ⟨hscrub, h⟩
  · rw [hscrub]
    exact hadds
  rw [hscrub]
  dsimp only
  cases c.loop with
  | notify =>
    dsimp only
    split_ifs
    · exact Adds.refl _
    · exact adds_recordDeadLetter c.hook c.payload 1
    · exact adds_enqueue c.hook h
  | directed =>
    dsimp only
    split_ifs
    · exact Adds.refl _
    · exact adds_recordDeadLetter c.hook c.payload c.attempts
    · exact adds_enqueue c.hook h
  | retry id =>
    dsimp only
    split_ifs
    · exact adds_deleteQueued id
    · have hrow : Adds ((s.without c).Standing c.payload) (s.without c) _ := adds_deleteQueued id
      refine hrow.trans ((adds_recordDeadLetter c.hook c.payload _).mono fun p hp => ?_)
      exact standing_of_adds hrow hp
    · exact adds_countQueued id _
  | redeliver id =>
    dsimp only
    split_ifs
    · exact adds_deleteLetter id
    · exact adds_countLetter id _

/-- Behind its last POST the copy is not stored again. -/
theorem answer_adds_of_spent {c : Copy} (hc : c.Spent) (ok kept : Bool) :
    Adds P (s.without c) (s.answer c ok kept) := by
  obtain ⟨loop, stage, hook, payload, attempts⟩ := c
  obtain ⟨-, hloop⟩ := hc
  set c : Copy := ⟨loop, stage, hook, payload, attempts⟩ with hc
  unfold answer
  rcases scrub_cases (s.without c) c.payload with ⟨s', hscrub, hadds⟩ | ⟨hscrub, -⟩
  · rw [hscrub]
    exact hadds
  rw [hscrub]
  dsimp only
  cases loop with
  | notify | directed => exact hloop.elim
  | retry id =>
    have hlast : ¬ WEBHOOK_MAX_RETRIES < attempts + 1 := Nat.not_lt.2 hloop
    change Adds P (s.without c)
      (if ok then _ else if WEBHOOK_MAX_RETRIES < attempts + 1 then _ else _)
    rw [if_neg hlast]
    split_ifs
    · exact adds_deleteQueued id
    · exact adds_countQueued id _
  | redeliver id =>
    change Adds P (s.without c) (if ok && kept then _ else _)
    split_ifs
    · exact adds_deleteLetter id
    · exact adds_countLetter id _

/-- The first look drops the copy, or hands it on. -/
theorem start_cases (s : State) (c : Copy) (firing : List (String × Bool)) :
    Adds P (s.without c) (s.start c firing) ∨ ∃ copies,
      s.start c firing = (s.without c).withCopies copies ∧
        (c.loop = .directed ∨ s.isMessageRetracted c.payload.seq = false) ∧
        ∀ c' ∈ copies, c'.loop = c.loop ∧ c'.payload.seq = c.payload.seq ∧
          c'.payload.sender = c.payload.sender ∧ c'.payload.body = c.payload.body := by
  obtain ⟨loop, stage, hook, payload, attempts⟩ := c
  set c : Copy := ⟨loop, stage, hook, payload, attempts⟩ with hc
  have hsame : ∀ c' ∈ [{ c with stage := .checks }], c'.loop = c.loop ∧
      c'.payload.seq = c.payload.seq ∧ c'.payload.sender = c.payload.sender ∧
      c'.payload.body = c.payload.body := by
    intro c' hc'
    obtain rfl := List.mem_singleton.1 hc'
    exact ⟨rfl, rfl, rfl, rfl⟩
  cases loop with
  | notify =>
    unfold start
    dsimp only [hc]
    split_ifs with h
    · exact Or.inl (Adds.refl _)
    · refine Or.inr ⟨_, rfl, Or.inr (Bool.eq_false_iff.2 h), fun c' hc' => ?_⟩
      obtain ⟨f, -, rfl⟩ := List.mem_map.1 hc'
      exact ⟨rfl, rfl, rfl, rfl⟩
  | directed => exact Or.inr ⟨_, rfl, Or.inl rfl, hsame⟩
  | retry id | redeliver id =>
    rcases scrub_cases (s.without c) c.payload with ⟨s', hscrub, hadds⟩ | ⟨hscrub, h⟩
    · refine Or.inl ?_
      simp only [start, hc] at hscrub ⊢
      rw [hscrub]
      exact hadds
    · refine Or.inr ⟨_, ?_, Or.inr h, hsame⟩
      simp only [start, hc] at hscrub ⊢
      rw [hscrub]

theorem deleteWebhook_adds (s : State) (hook : String) :
    Adds s.Stores s (s.deleteWebhook hook) := by
  have hloop : ∀ (rows : List Stored) (s' : State), (∀ q ∈ rows, s.Stores q.payload) →
      Adds s.Stores s' (rows.foldl
        (fun s q => s.recordDeadLetter hook q.payload q.attempts) s') := by
    intro rows
    induction rows with
    | nil => exact fun s' _ => Adds.refl s'
    | cons q rows ih =>
      intro s' hrows
      rw [List.forall_mem_cons] at hrows
      have hq : Adds s.Stores s' (s'.recordDeadLetter hook q.payload q.attempts) := by
        refine (adds_recordDeadLetter hook q.payload q.attempts).mono fun p hp => ?_
        rw [hp.1]
        exact hrows.1
      exact hq.trans (ih _ hrows.2)
  refine (hloop (s.queue.filter fun q => q.hook = hook) s fun q hq =>
    Or.inl ⟨q, (List.mem_filter.1 hq).1, rfl⟩).trans ?_
  exact adds_of_sublists (fun q hq => ⟨q, (List.mem_filter.1 hq).1, rfl⟩) (fun q hq => ⟨q, hq, rfl⟩)
    rfl rfl rfl rfl

/-- What is stored or held was taken from a message of this channel. -/
structure Sound (s : State) : Prop where
  seqs : ∀ m ∈ s.messages, m.seq ≤ s.lastSeq
  stored : ∀ p, s.Stores p → p.seq ≤ s.lastSeq ∧
    ∀ m ∈ s.messages, m.seq = p.seq → m.sender = p.sender
  held : ∀ c ∈ s.copies, c.payload.seq ≤ s.lastSeq ∧
    ∀ m ∈ s.messages, m.seq = c.payload.seq → m.sender = c.payload.sender

/-- No stored row and no message row has a body of `seq`; a copy that has one is
harmless. -/
structure Clear (seq : ℕ) (s : State) : Prop where
  known : seq ≤ s.lastSeq
  source : ∀ m ∈ s.messages, m.seq = seq → m.body = none
  stored : ∀ p, s.Stores p → p.Clean seq
  held : ∀ c ∈ s.copies, ¬ c.payload.Clean seq → c.Harmless (s.isMessageRetracted seq)

/-- The send takes the row of the message. -/
def trimmed (s : State) : Event → Message → Bool
  | .send _ _ _ held, m => trims (s.lastSeq + 1) held m
  | _, _ => false

/-- A removal finds only harmless copies of what it removes, and a send that takes a tombstone
only copies that need none. -/
structure Settled (s : State) (e : Event) : Prop where
  removal : ∀ m ∈ s.messages, e.removes m = true →
    ∀ c ∈ s.copies, ¬ c.payload.Clean m.seq → c.Harmless (e.tombstone m)
  trim : ∀ m ∈ s.messages, m.retracted = true → s.trimmed e m = true →
    ∀ c ∈ s.copies, ¬ c.payload.Clean m.seq → c.Spent

theorem Sound.adds (h : Sound s) (ha : Adds P s s') (hP : ∀ p, P p → p.seq ≤ s.lastSeq ∧
    ∀ m ∈ s.messages, m.seq = p.seq → m.sender = p.sender) : Sound s' := by
  refine ⟨?_, fun p hp => ?_, ?_⟩ <;> simp only [ha.messages, ha.lastSeq, ha.copies]
  · exact h.seqs
  · exact (ha.stores p hp).elim (h.stored p) (hP p)
  · exact h.held

theorem Sound.without (h : Sound s) (c : Copy) : Sound (s.without c) :=
  ⟨h.seqs, h.stored, fun c' hc' => h.held c' (List.mem_of_mem_erase hc')⟩

theorem Sound.withCopies (h : Sound s) {copies : List Copy} (hc : ∀ c ∈ copies,
    c.payload.seq ≤ s.lastSeq ∧ ∀ m ∈ s.messages, m.seq = c.payload.seq →
      m.sender = c.payload.sender) : Sound (s.withCopies copies) := by
  refine ⟨h.seqs, h.stored, fun c hmem => ?_⟩
  rcases List.mem_append.1 hmem with hmem | hmem
  · exact h.held c hmem
  · exact hc c hmem

theorem initial_sound : Sound initial := by
  refine ⟨fun m hm => absurd hm (Table.not_mem_empty m), ?_, fun c hc => by cases hc⟩
  rintro p (⟨q, hq, -⟩ | ⟨q, hq, -⟩)
  · cases hq
  · cases hq

theorem Clear.adds (h : Clear seq s) (ha : Adds P s s') (hP : ∀ p, P p → p.Clean seq) :
    Clear seq s' := by
  refine ⟨?_, ?_, fun p hp => (ha.stores p hp).elim (h.stored p) (hP p), ?_⟩ <;>
    simp only [ha.messages, ha.lastSeq, ha.copies, ha.isMessageRetracted]
  · exact h.known
  · exact h.source
  · exact h.held

theorem Clear.without (h : Clear seq s) (c : Copy) : Clear seq (s.without c) :=
  ⟨h.known, h.source, h.stored, fun c' hc' => h.held c' (List.mem_of_mem_erase hc')⟩

theorem Clear.withCopies (h : Clear seq s) {copies : List Copy} (hc : ∀ c ∈ copies,
    ¬ c.payload.Clean seq → c.Harmless (s.isMessageRetracted seq)) :
    Clear seq (s.withCopies copies) := by
  refine ⟨h.known, h.source, h.stored, fun c hmem => ?_⟩
  rcases List.mem_append.1 hmem with hmem | hmem
  · exact h.held c hmem
  · exact hc c hmem

theorem seq_of_dirty {p : Payload} (h : ¬ p.Clean seq) : p.seq = seq := by
  by_contra hne
  exact h fun heq => absurd heq hne

/-- A copy that is used without a tombstone, and not for the last time, does not carry the
body. -/
theorem Clear.clean_of_standing (h : Clear seq s) {c : Copy} (hc : c ∈ s.copies)
    (hs : s.isMessageRetracted c.payload.seq = false) (hlive : ¬ c.Spent) :
    c.payload.Clean seq := by
  by_contra hdirty
  rcases h.held c hc hdirty with ⟨htomb, -⟩ | hspent
  · rw [seq_of_dirty hdirty, htomb] at hs
    cases hs
  · exact hlive hspent

theorem isMessageRetracted_iff : s.isMessageRetracted seq = true ↔
    ∃ m ∈ s.messages, m.seq = seq ∧ m.retracted = true := by
  unfold State.isMessageRetracted
  rw [Option.any_eq_true]
  constructor
  · rintro ⟨m, hm, hr⟩
    obtain ⟨hmem, hseq⟩ := Table.get?_eq_some.1 hm
    exact ⟨m, hmem, hseq, hr⟩
  · rintro ⟨m, hmem, rfl, hr⟩
    exact ⟨m, Table.get?_key hmem, hr⟩

/-- The rows after a removal are rows from before it with the same sender. -/
theorem Sound.removal (h : Sound s) {messages : Table Message Message.seq}
    (hrows : ∀ m' ∈ messages, ∃ m ∈ s.messages, m.seq = m'.seq ∧ m.sender = m'.sender)
    (pick : Payload → Bool) : Sound { s.deleteArtifacts pick with messages := messages } := by
  have hsender : ∀ {p : Payload}, (∀ m ∈ s.messages, m.seq = p.seq → m.sender = p.sender) →
      ∀ m' ∈ messages, m'.seq = p.seq → m'.sender = p.sender := by
    intro p hp m' hm' hseq
    obtain ⟨m, hm, hmseq, hmsender⟩ := hrows m' hm'
    rw [← hmsender]
    exact hp m hm (hmseq.trans hseq)
  refine ⟨fun m' hm' => ?_, fun p hp => ?_, fun c hc => ?_⟩
  · obtain ⟨m, hm, hmseq, -⟩ := hrows m' hm'
    exact hmseq ▸ h.seqs m hm
  · have hadds : Adds (fun _ => False) s (s.deleteArtifacts pick) := adds_deleteArtifacts pick
    have hp₀ : s.Stores p := (hadds.stores p hp).resolve_right id
    exact ⟨(h.stored p hp₀).1, hsender (h.stored p hp₀).2⟩
  · exact ⟨(h.held c hc).1, hsender (h.held c hc).2⟩

theorem rows_update (f : Message → Message) (hf : ∀ m, (f m).seq = m.seq) {pick : Message → Bool}
    (hsender : ∀ m, (f m).sender = m.sender) :
    ∀ m' ∈ s.messages.update pick f hf, ∃ m ∈ s.messages, m.seq = m'.seq ∧
      m.sender = m'.sender ∧ (m.body = none → (f m).body = none → m'.body = none) := by
  intro m' hm'
  obtain ⟨m, hm, rfl⟩ := (Table.mem_update hf).1 hm'
  refine ⟨m, hm, ?_⟩
  split_ifs
  · exact ⟨(hf m).symm, (hsender m).symm, fun _ h => h⟩
  · exact ⟨rfl, rfl, fun h _ => h⟩

theorem mem_handleSend {m m' : Message} {held : List ℕ} :
    m' ∈ (s.handleSend m held).messages ↔
      (m' ∈ s.messages ∨ (m' = m ∧ ∀ m₀ ∈ s.messages, m₀.seq ≠ m.seq)) ∧
        trims m.seq held m' = false := by
  rw [← Table.mem_insert]
  exact Table.mem_delete

theorem Sound.handleSend (h : Sound s) {m : Message} (hseq : m.seq = s.lastSeq + 1)
    (held : List ℕ) : Sound (s.handleSend m held) := by
  have hlast : (s.handleSend m held).lastSeq = s.lastSeq + 1 := hseq
  -- what was taken from an older message is not taken from the new one
  have hold : ∀ {p : Payload}, p.seq ≤ s.lastSeq → (∀ m' ∈ s.messages, m'.seq = p.seq →
      m'.sender = p.sender) → p.seq ≤ s.lastSeq + 1 ∧ ∀ m' ∈ (s.handleSend m held).messages,
        m'.seq = p.seq → m'.sender = p.sender := by
    intro p hp hsender
    refine ⟨hp.trans (Nat.le_succ _), fun m' hm' hpseq => ?_⟩
    rcases (mem_handleSend.1 hm').1 with hm' | ⟨rfl, -⟩
    · exact hsender m' hm' hpseq
    · omega
  refine ⟨fun m' hm' => ?_, fun p hp => ?_, fun c hc => ?_⟩
  · rw [hlast]
    rcases (mem_handleSend.1 hm').1 with hm' | ⟨rfl, -⟩
    · exact (h.seqs m' hm').trans (Nat.le_succ _)
    · exact hseq.le
  · rw [hlast]
    exact hold (h.stored p hp).1 (h.stored p hp).2
  · rw [hlast]
    rcases List.mem_append.1 hc with hc | hc
    · exact hold (h.held c hc).1 (h.held c hc).2
    · obtain rfl := List.mem_singleton.1 hc
      refine ⟨hseq.le, fun m' hm' hpseq => ?_⟩
      rcases (mem_handleSend.1 hm').1 with hm' | ⟨rfl, -⟩
      · have hle := h.seqs m' hm'
        have hnew : m'.seq = m.seq := hpseq
        omega
      · rfl

theorem Sound.step {e : Event} (h : Sound s) (hs : Step s e s') : Sound s' := by
  obtain ⟨hready, rfl⟩ := hs
  have hstanding : ∀ c ∈ s.copies, ∀ p, (s.without c).Standing c.payload p →
      p.seq ≤ s.lastSeq ∧ ∀ m ∈ s.messages, m.seq = p.seq → m.sender = p.sender := by
    intro c hc p hp
    rw [hp.1]
    exact h.held c hc
  cases e with
  | send sender body ts held => exact h.handleSend rfl held
  | claim seq hook target attempts =>
    simp only [next]
    split
    · exact h
    · rename_i m hm
      obtain ⟨hmem, rfl⟩ := Table.get?_eq_some.1 hm
      refine h.withCopies fun c hc => ?_
      obtain rfl := List.mem_singleton.1 hc
      exact ⟨h.seqs m hmem, fun m' hm' hseq => by rw [Table.eq_of_key hm' hmem hseq]; rfl⟩
  | retryWebhooks batch =>
    refine h.withCopies fun c hc => ?_
    obtain ⟨q, hq, rfl⟩ := List.mem_map.1 hc
    exact h.stored q.payload (Or.inl ⟨q, hready q hq, rfl⟩)
  | redeliverDeadLetters batch =>
    refine h.withCopies fun c hc => ?_
    obtain ⟨q, hq, rfl⟩ := List.mem_map.1 hc
    exact h.stored q.payload (Or.inr ⟨q, hready q hq, rfl⟩)
  | starts c firing =>
    rcases start_cases (P := fun _ => False) s c firing with hadds | ⟨copies, heq, -, hcopies⟩
    · exact (h.without c).adds hadds fun _ => False.elim
    · simp only [next, heq]
      refine (h.without c).withCopies fun c' hc' => ?_
      obtain ⟨-, hseq, hsender, -⟩ := hcopies c' hc'
      rw [hseq, hsender]
      exact h.held c hready.1
  | checked c verdict =>
    rcases check_cases s c verdict with hadds | ⟨heq, -⟩
    · exact (h.without c).adds hadds (hstanding c hready.1)
    · simp only [next, heq]
      have hposted : Sound ((s.without c).withCopies [{ c with stage := .posting }]) := by
        refine (h.without c).withCopies fun c' hc' => ?_
        obtain rfl := List.mem_singleton.1 hc'
        exact h.held c hready.1
      exact ⟨hposted.seqs, hposted.stored, hposted.held⟩
  | answered c ok kept =>
    exact (h.without c).adds (answer_adds s c ok kept) (hstanding c hready.1)
  | removeParticipant hook =>
    have hadds : Adds (fun _ => False) s (s.removeAdapters hook) := adds_removeAdapters hook
    exact h.adds hadds fun _ => False.elim
  | deleteWebhook hook => exact h.adds (deleteWebhook_adds s hook) h.stored
  | retract seq =>
    refine h.removal (fun m' hm' => ?_) _
    obtain ⟨m, hm, hseq, hsender, -⟩ := rows_update _ Message.retract_seq (fun _ => rfl) m' hm'
    exact ⟨m, hm, hseq, hsender⟩
  | prune cutoff => exact h.removal (fun m hm => ⟨m, (Table.mem_delete.1 hm).1, rfl, rfl⟩) _
  | eraseIdentity name =>
    refine h.removal (fun m' hm' => ?_) _
    obtain ⟨m, hm, hseq, hsender, -⟩ := rows_update _ Message.erase_seq (fun _ => rfl) m' hm'
    exact ⟨m, hm, hseq, hsender⟩

/-- The rows after a removal are rows from before it, no body comes back, and a tombstone
of `seq` is only lost when its copies are spent. -/
theorem Clear.removal (h : Clear seq s) {messages : Table Message Message.seq}
    (hrows : ∀ m' ∈ messages, ∃ m ∈ s.messages, m.seq = m'.seq ∧ (m.body = none → m'.body = none))
    (hheld : ∀ c ∈ s.copies, ¬ c.payload.Clean seq → (∃ m' ∈ messages, m'.seq = seq ∧
      m'.retracted = true) ∨ c.Spent) (pick : Payload → Bool) :
    Clear seq { s.deleteArtifacts pick with messages := messages } := by
  refine ⟨h.known, fun m' hm' hseq => ?_, fun p hp => ?_, fun c hc hdirty => ?_⟩
  · obtain ⟨m, hm, hmseq, hbody⟩ := hrows m' hm'
    exact hbody (h.source m hm (hmseq.trans hseq))
  · have hadds : Adds (fun _ => False) s (s.deleteArtifacts pick) := adds_deleteArtifacts pick
    exact h.stored p ((hadds.stores p hp).resolve_right id)
  · rcases h.held c hc hdirty with ⟨-, hshield⟩ | hspent
    · rcases hheld c hc hdirty with hrow | hspent
      · exact Or.inl ⟨isMessageRetracted_iff.2 hrow, hshield⟩
      · exact Or.inr hspent
    · exact Or.inr hspent

/-- The tombstone of `seq` goes only when its copies are spent. -/
theorem Clear.handleSend (h : Clear seq s) {m : Message} (hseq : m.seq = s.lastSeq + 1)
    {held : List ℕ} (htrim : ∀ m' ∈ s.messages, m'.retracted = true →
      trims (s.lastSeq + 1) held m' = true → ∀ c ∈ s.copies, ¬ c.payload.Clean m'.seq → c.Spent) :
    Clear seq (s.handleSend m held) := by
  have hknown := h.known
  refine ⟨?_, fun m' hm' hmseq => ?_, h.stored, fun c hc hdirty => ?_⟩
  · exact hknown.trans ((Nat.le_succ _).trans hseq.ge)
  · rcases (mem_handleSend.1 hm').1 with hm' | ⟨rfl, -⟩
    · exact h.source m' hm' hmseq
    · omega
  · rcases List.mem_append.1 hc with hc | hc
    · rcases h.held c hc hdirty with ⟨htomb, hshield⟩ | hspent
      · obtain ⟨m', hm', rfl, hret⟩ := isMessageRetracted_iff.1 htomb
        cases htaken : trims m.seq held m' with
        | true => exact Or.inr (htrim m' hm' hret (hseq ▸ htaken) c hc hdirty)
        | false =>
          exact Or.inl ⟨isMessageRetracted_iff.2
            ⟨m', mem_handleSend.2 ⟨Or.inl hm', htaken⟩, rfl, hret⟩, hshield⟩
      · exact Or.inr hspent
    · obtain rfl := List.mem_singleton.1 hc
      have hnew : m.seq = seq := seq_of_dirty hdirty
      omega

theorem Clear.step {e : Event} (hclear : Clear seq s) (hsettled : Settled s e) (hs : Step s e s') :
    Clear seq s' ∧ ∃ new, s'.requests = s.requests ++ new ∧ ∀ p ∈ new, p.Clean seq := by
  obtain ⟨hready, rfl⟩ := hs
  -- every event but a POST leaves the requests alone
  have quiet : ∀ {t : State}, t.requests = s.requests → Clear seq t → Clear seq t ∧
      ∃ new, t.requests = s.requests ++ new ∧ ∀ p ∈ new, p.Clean seq := by
    intro t hreq ht
    exact ⟨ht, [], by rw [hreq, List.append_nil], fun p hp => by cases hp⟩
  cases e with
  | send sender body ts held => exact quiet rfl (hclear.handleSend rfl hsettled.trim)
  | claim seq' hook target attempts =>
    simp only [next]
    split
    · exact quiet rfl hclear
    · rename_i m hm
      obtain ⟨hmem, rfl⟩ := Table.get?_eq_some.1 hm
      refine quiet rfl (hclear.withCopies fun c hc hdirty => ?_)
      obtain rfl := List.mem_singleton.1 hc
      exact absurd (fun hseq => hclear.source m hmem hseq) hdirty
  | retryWebhooks batch =>
    refine quiet rfl (hclear.withCopies fun c hc hdirty => ?_)
    obtain ⟨q, hq, rfl⟩ := List.mem_map.1 hc
    exact absurd (hclear.stored q.payload (Or.inl ⟨q, hready q hq, rfl⟩)) hdirty
  | redeliverDeadLetters batch =>
    refine quiet rfl (hclear.withCopies fun c hc hdirty => ?_)
    obtain ⟨q, hq, rfl⟩ := List.mem_map.1 hc
    exact absurd (hclear.stored q.payload (Or.inr ⟨q, hready q hq, rfl⟩)) hdirty
  | starts c firing =>
    obtain ⟨hmem, hstage⟩ := hready
    rcases start_cases (P := fun _ => False) s c firing with hadds | ⟨copies, heq, hlook, hcopies⟩
    · exact quiet hadds.requests ((hclear.without c).adds hadds fun _ => False.elim)
    · simp only [next, heq]
      refine quiet rfl ((hclear.without c).withCopies fun c' hc' hdirty => ?_)
      obtain ⟨hloop, hseq, -, hbody⟩ := hcopies c' hc'
      have hdirty' : ¬ c.payload.Clean seq := by
        rwa [Payload.Clean, hseq, hbody, ← Payload.Clean] at hdirty
      have hlive : ¬ c.Spent := by
        rintro ⟨hposting, -⟩
        rw [hstage] at hposting
        cases hposting
      rcases hlook with hdirected | hnone
      · have htomb := (hclear.held c hmem hdirty').resolve_right hlive
        exact Or.inl ⟨htomb.1, Or.inr (hloop.trans hdirected)⟩
      · exact absurd (hclear.clean_of_standing hmem hnone hlive) hdirty'
  | checked c verdict =>
    obtain ⟨hmem, hstage⟩ := hready
    have hlive : ¬ c.Spent := by
      rintro ⟨hposting, -⟩
      rw [hstage] at hposting
      cases hposting
    rcases check_cases s c verdict with hadds | ⟨heq, hlook⟩
    · refine quiet hadds.requests ((hclear.without c).adds hadds fun p hp => ?_)
      rw [hp.1]
      exact hclear.clean_of_standing hmem hp.2 hlive
    · have hclean : c.payload.Clean seq := by
        by_contra hdirty
        obtain ⟨htomb, hnot | hdirected⟩ := (hclear.held c hmem hdirty).resolve_right hlive
        · exact hnot hstage
        · exact hdirty (hclear.clean_of_standing hmem (hlook hdirected) hlive)
      simp only [next, heq]
      have hposted : Clear seq ((s.without c).withCopies [{ c with stage := .posting }]) := by
        refine (hclear.without c).withCopies fun c' hc' hdirty => ?_
        obtain rfl := List.mem_singleton.1 hc'
        exact absurd hclean hdirty
      refine ⟨⟨hposted.known, hposted.source, hposted.stored, hposted.held⟩, [c.payload], rfl, ?_⟩
      intro p hp
      obtain rfl := List.mem_singleton.1 hp
      exact hclean
  | answered c ok kept =>
    by_cases hspent : c.Spent
    · have hadds : Adds (fun _ => False) (s.without c) (s.answer c ok kept) :=
        answer_adds_of_spent hspent ok kept
      exact quiet hadds.requests ((hclear.without c).adds hadds fun _ => False.elim)
    · have hadds := answer_adds s c ok kept
      refine quiet hadds.requests ((hclear.without c).adds hadds fun p hp => ?_)
      rw [hp.1]
      exact hclear.clean_of_standing hready.1 hp.2 hspent
  | removeParticipant hook =>
    have hadds : Adds (fun _ => False) s (s.removeAdapters hook) := adds_removeAdapters hook
    exact quiet rfl (hclear.adds hadds fun _ => False.elim)
  | deleteWebhook hook =>
    have hadds := deleteWebhook_adds s hook
    exact quiet hadds.requests (hclear.adds hadds hclear.stored)
  | retract seq' =>
    refine quiet rfl (hclear.removal (fun m' hm' => ?_) (fun c hc hdirty => ?_) _)
    · obtain ⟨m, hm, hseq, -, hbody⟩ := rows_update _ Message.retract_seq (fun _ => rfl) m' hm'
      exact ⟨m, hm, hseq, fun h => hbody h rfl⟩
    · refine (hclear.held c hc hdirty).imp_left fun htomb => ?_
      obtain ⟨m, hm, hseq, hret⟩ := isMessageRetracted_iff.1 htomb.1
      refine ⟨_, (Table.mem_update Message.retract_seq).2 ⟨m, hm, rfl⟩, ?_⟩
      split_ifs
      · exact ⟨hseq, rfl⟩
      · exact ⟨hseq, hret⟩
  | prune cutoff =>
    refine quiet rfl (hclear.removal (fun m hm => ⟨m, (Table.mem_delete.1 hm).1, rfl, id⟩)
      (fun c hc hdirty => ?_) _)
    rcases hclear.held c hc hdirty with ⟨htomb, -⟩ | hspent
    · obtain ⟨m, hm, rfl, hret⟩ := isMessageRetracted_iff.1 htomb
      by_cases hold : m.ts ≤ cutoff
      · refine Or.inr ((hsettled.removal m hm ?_ c hc hdirty).resolve_left fun h => ?_)
        · exact decide_eq_true hold
        · cases h.1
      · exact Or.inl ⟨m, Table.mem_delete.2 ⟨hm, decide_eq_false hold⟩, rfl, hret⟩
    · exact Or.inr hspent
  | eraseIdentity name =>
    refine quiet rfl (hclear.removal (fun m' hm' => ?_) (fun c hc hdirty => ?_) _)
    · obtain ⟨m, hm, hseq, -, hbody⟩ := rows_update _ Message.erase_seq (fun _ => rfl) m' hm'
      exact ⟨m, hm, hseq, fun h => hbody h rfl⟩
    · refine (hclear.held c hc hdirty).imp_left fun htomb => ?_
      obtain ⟨m, hm, hseq, hret⟩ := isMessageRetracted_iff.1 htomb.1
      refine ⟨_, (Table.mem_update Message.erase_seq).2 ⟨m, hm, rfl⟩, ?_⟩
      split_ifs
      · exact ⟨hseq, hret⟩
      · exact ⟨hseq, hret⟩

theorem stores_deleteArtifacts {pick : Payload → Bool} {messages : Table Message Message.seq}
    {p : Payload} (hp : Stores { s.deleteArtifacts pick with messages := messages } p) :
    s.Stores p ∧ pick p = false := by
  rcases hp with ⟨q, hq, rfl⟩ | ⟨q, hq, rfl⟩
  · obtain ⟨hmem, hpick⟩ := List.mem_filter.1 hq
    exact ⟨Or.inl ⟨q, hmem, rfl⟩, by simpa using hpick⟩
  · obtain ⟨hmem, hpick⟩ := List.mem_filter.1 hq
    exact ⟨Or.inr ⟨q, hmem, rfl⟩, by simpa using hpick⟩

/-- What a removal leaves of the message. -/
theorem removal_leaves {e : Event} {m : Message} (h : Sound s) (hm : m ∈ s.messages)
    (hr : e.removes m = true) :
    (s.next e).lastSeq = s.lastSeq ∧ (s.next e).copies = s.copies ∧
      (s.next e).requests = s.requests ∧
      (s.next e).isMessageRetracted m.seq = e.tombstone m ∧
      (∀ m' ∈ (s.next e).messages, m'.seq = m.seq → m'.body = none) ∧
      ∀ p, (s.next e).Stores p → p.seq ≠ m.seq := by
  refine ⟨?_, ?_, ?_, ?_, fun m' hm' hseq => ?_, fun p hp hseq => ?_⟩
  · cases e <;> first | rfl | cases hr
  · cases e <;> first | rfl | cases hr
  · cases e <;> first | rfl | cases hr
  · cases e with
    | retract seq =>
      have hrow : m.retract ∈ (s.next (.retract seq)).messages := by
        refine (Table.mem_update Message.retract_seq).2 ⟨m, hm, ?_⟩
        exact (if_pos hr).symm
      exact isMessageRetracted_iff.2 ⟨m.retract, hrow, rfl, rfl⟩
    | prune cutoff =>
      refine Bool.eq_false_iff.2 fun htomb => ?_
      obtain ⟨m', hm', hseq, -⟩ := isMessageRetracted_iff.1 htomb
      obtain ⟨hmem, hkeep⟩ := Table.mem_delete.1 hm'
      rw [Table.eq_of_key hmem hm hseq] at hkeep
      exact absurd hr (Bool.eq_false_iff.1 hkeep)
    | eraseIdentity name =>
      have hrow : m.erase ∈ (s.next (.eraseIdentity name)).messages := by
        refine (Table.mem_update Message.erase_seq).2 ⟨m, hm, ?_⟩
        exact (if_pos hr).symm
      unfold isMessageRetracted
      rw [show m.seq = m.erase.seq from rfl, Table.get?_key hrow]
      rfl
    | _ => cases hr
  · cases e with
    | retract seq =>
      obtain ⟨m₀, hm₀, rfl⟩ := (Table.mem_update Message.retract_seq).1 hm'
      split_ifs at hseq ⊢ with hpick
      · rfl
      · rw [Table.eq_of_key hm₀ hm hseq] at hpick
        exact absurd hr hpick
    | prune cutoff =>
      obtain ⟨hmem, hkeep⟩ := Table.mem_delete.1 hm'
      rw [Table.eq_of_key hmem hm hseq] at hkeep
      exact absurd hr (Bool.eq_false_iff.1 hkeep)
    | eraseIdentity name =>
      obtain ⟨m₀, hm₀, rfl⟩ := (Table.mem_update Message.erase_seq).1 hm'
      split_ifs at hseq ⊢ with hpick
      · rfl
      · rw [Table.eq_of_key hm₀ hm hseq] at hpick
        exact absurd hr hpick
    | _ => cases hr
  · cases e with
    | retract seq =>
      obtain ⟨-, hpick⟩ := stores_deleteArtifacts hp
      exact of_decide_eq_false hpick (hseq.trans (of_decide_eq_true hr))
    | prune cutoff =>
      obtain ⟨-, hpick⟩ := stores_deleteArtifacts hp
      have hold : m ∈ s.expired cutoff := List.mem_filter.2 ⟨hm, hr⟩
      rw [List.any_eq_false] at hpick
      exact hpick m hold (decide_eq_true hseq.symm)
    | eraseIdentity name =>
      obtain ⟨hstored, hpick⟩ := stores_deleteArtifacts hp
      have hsender := (h.stored p hstored).2 m hm hseq.symm
      rw [of_decide_eq_true hr] at hsender
      rw [Bool.or_eq_false_iff] at hpick
      exact of_decide_eq_false hpick.1 hsender.symm
    | _ => cases hr

theorem Clear.of_removal {e : Event} {m : Message} (h : Sound s) (hm : m ∈ s.messages)
    (hr : e.removes m = true)
    (hharmless : ∀ c ∈ s.copies, ¬ c.payload.Clean m.seq → c.Harmless (e.tombstone m)) :
    Clear m.seq (s.next e) := by
  obtain ⟨hlast, hcopies, -, htomb, hsource, hstored⟩ := removal_leaves h hm hr
  refine ⟨hlast ▸ h.seqs m hm, hsource, fun p hp hseq => absurd hseq (hstored p hp), ?_⟩
  rw [hcopies, htomb]
  exact hharmless

/-- Nothing stored carries a body of `seq`, and no POST since `s` has. -/
def KeepsOut (seq : ℕ) (s t : State) : Prop :=
  (∀ p, t.Stores p → p.Clean seq) ∧
    ∃ new, t.requests = s.requests ++ new ∧ ∀ p ∈ new, p.Clean seq

theorem Clear.run {evs : List Event} (h : Clear seq s)
    (hrun : EventSystem.Run (Guarded Step Settled) s evs s') :
    Clear seq s' ∧ KeepsOut seq s s' := by
  induction hrun with
  | nil =>
    exact ⟨h, h.stored, [], (List.append_nil _).symm, fun p hp => by cases hp⟩
  | snoc _ hs ih =>
    obtain ⟨hclear, -, new, hnew, hclean⟩ := ih
    obtain ⟨hclear', new', hnew', hclean'⟩ := hclear.step hs.2 hs.1
    refine ⟨hclear', hclear'.stored, new ++ new', ?_, fun p hp => ?_⟩
    · rw [hnew', hnew, List.append_assoc]
    · exact (List.mem_append.1 hp).elim (hclean p) (hclean' p)

/-- Only the removals affect a message, and only a send takes a row. -/
theorem settled_of_no_removal {e : Event} (h : ∀ m, e.removes m = false)
    (htrim : ∀ m, s.trimmed e m = false) : Settled s e := by
  constructor
  · intro m _ hr
    rw [h m] at hr
    cases hr
  · intro m _ _ htaken
    rw [htrim m] at htaken
    cases htaken

theorem not_keepsOut_of_post {t : State} {p : Payload} (ht : t.requests = s.requests ++ [p])
    (hdirty : ¬ p.Clean seq) : ¬ KeepsOut seq s t := by
  rintro ⟨-, new, hnew, hclean⟩
  rw [ht] at hnew
  refine hdirty (hclean p ?_)
  rw [← List.append_cancel_left hnew]
  exact List.mem_singleton_self p

theorem not_keepsOut_of_row {t : State} {p : Payload} (ht : t.Stores p)
    (hdirty : ¬ p.Clean seq) : ¬ KeepsOut seq s t := fun h => hdirty (h.1 p ht)

/-- A copy behind its checks is posted. -/
theorem post_of_checks {c : Copy} (hc : c ∈ s.copies) (hstage : c.stage = .checks)
    (hlook : c.loop = .directed → s.isMessageRetracted c.payload.seq = false) :
    ∃ t, EventSystem.Run (Guarded Step Settled) s [.checked c .passed] t ∧
      t.requests = s.requests ++ [c.payload] := by
  refine ⟨_, EventSystem.Run.single ⟨⟨⟨hc, hstage⟩, rfl⟩,
    settled_of_no_removal (fun _ => rfl) fun _ => rfl⟩, ?_⟩
  have hpassed : s.check c .passed = (s.without c).post c := by
    rcases hloop : c.loop with _ | _ | _ | _ <;> simp only [check, hloop]
    have hnone : (s.without c).isMessageRetracted c.payload.seq = false := hlook hloop
    rw [scrubRetractedWebhookArtifacts, if_neg (Bool.eq_false_iff.1 hnone)]
  simp only [next, hpassed]
  rfl

/-- Without a tombstone, a copy the loop has not come to is posted. -/
theorem post_of_held {c : Copy} (hc : c ∈ s.copies) (hstage : c.stage = .held)
    (hnone : s.isMessageRetracted c.payload.seq = false) :
    ∃ evs t p, EventSystem.Run (Guarded Step Settled) s evs t ∧
      t.requests = s.requests ++ [p] ∧ p.seq = c.payload.seq ∧ p.body = c.payload.body := by
  have hstarts : EventSystem.Run (Guarded Step Settled) s [.starts c [("", false)]] _ :=
    EventSystem.Run.single ⟨⟨⟨hc, hstage⟩, rfl⟩, settled_of_no_removal (fun _ => rfl) fun _ => rfl⟩
  have hlook : (s.without c).isMessageRetracted c.payload.seq = false := hnone
  obtain ⟨c', hstart, hstage', hseq, hbody⟩ : ∃ c' : Copy,
      s.start c [("", false)] = (s.without c).withCopies [c'] ∧ c'.stage = .checks ∧
        c'.payload.seq = c.payload.seq ∧ c'.payload.body = c.payload.body := by
    unfold start
    rcases hloop : c.loop with _ | _ | _ | _ <;>
      simp only [scrubRetractedWebhookArtifacts, if_neg (Bool.eq_false_iff.1 hlook)] <;>
      exact ⟨_, rfl, rfl, rfl, rfl⟩
  have hmem : c' ∈ (s.start c [("", false)]).copies := by
    rw [hstart]
    exact List.mem_append_right _ (List.mem_singleton_self c')
  have hnone' : (s.start c [("", false)]).isMessageRetracted c'.payload.seq = false := by
    rw [hstart, hseq]
    exact hnone
  obtain ⟨t, hposts, hreq⟩ := post_of_checks hmem hstage' fun _ => hnone'
  refine ⟨_, t, c'.payload, hstarts.append hposts, ?_, hseq, hbody⟩
  rw [hreq, hstart]
  rfl

/-- Without a tombstone, a failed POST stores its payload, unless it counts on a row. -/
theorem row_of_posting {c : Copy} (hc : c ∈ s.copies) (hstage : c.stage = .posting)
    (hlive : ¬ c.Spent) (hnone : s.isMessageRetracted c.payload.seq = false) :
    ∃ t, EventSystem.Run (Guarded Step Settled) s [.answered c false true] t ∧
      t.Stores c.payload := by
  refine ⟨_, EventSystem.Run.single ⟨⟨⟨hc, hstage⟩, rfl⟩,
    settled_of_no_removal (fun _ => rfl) fun _ => rfl⟩, ?_⟩
  have hlook : (s.without c).isMessageRetracted c.payload.seq = false := hnone
  have hletter : ∀ (t : State) (attempts : ℕ), t.isMessageRetracted c.payload.seq = false →
      (t.recordDeadLetter c.hook c.payload attempts).Stores c.payload := by
    intro t attempts ht
    rw [recordDeadLetter, scrubRetractedWebhookArtifacts, if_neg (Bool.eq_false_iff.1 ht)]
    refine Or.inr ⟨⟨t.letterSeq + 1, c.hook, c.payload, attempts⟩, ?_, rfl⟩
    dsimp only
    rw [List.drop_append_of_le_length]
    · exact List.mem_append_right _ (List.mem_singleton_self _)
    · rw [List.length_append, List.length_singleton, MAX_WEBHOOK_DEAD_LETTERS]
      omega
  have hrow : ((s.without c).enqueue c.hook c.payload).Stores c.payload :=
    Or.inl ⟨_, List.mem_append_right _ (List.mem_singleton_self _), rfl⟩
  simp only [next, answer, scrubRetractedWebhookArtifacts, if_neg (Bool.eq_false_iff.1 hlook)]
  rcases hloop : c.loop with _ | _ | id | id
  · simp only [Bool.false_eq_true, if_false]
    split_ifs
    · exact hletter _ _ hlook
    · exact hrow
  · simp only [Bool.not_true, Bool.or_self, Bool.false_eq_true, if_false]
    split_ifs
    · exact hletter _ _ hlook
    · exact hrow
  · have hlast : WEBHOOK_MAX_RETRIES < c.attempts + 1 := by
      by_contra hle
      refine hlive ⟨hstage, ?_⟩
      rw [hloop]
      exact Nat.not_lt.1 hle
    simp only [Bool.false_eq_true, if_false, if_pos hlast]
    exact hletter _ _ hlook
  · exact absurd ⟨hstage, by rw [hloop]; trivial⟩ hlive

/-- A copy that is not harmless brings the body back in some continuation. -/
theorem harmful_comes_back {c : Copy} (hc : c ∈ s.copies) (hdirty : ¬ c.payload.Clean seq)
    (hharm : ¬ c.Harmless (s.isMessageRetracted seq)) :
    ∃ evs t, EventSystem.Run (Guarded Step Settled) s evs t ∧ ¬ KeepsOut seq s t := by
  obtain ⟨hunshielded, hlive⟩ := not_or.1 hharm
  obtain rfl : c.payload.seq = seq := seq_of_dirty hdirty
  have hnone : c.stage ≠ .checks → s.isMessageRetracted c.payload.seq = false :=
    fun hstage => Bool.eq_false_iff.2 fun h => hunshielded ⟨h, Or.inl hstage⟩
  rcases hstage : c.stage with _ | _ | _
  · obtain ⟨evs, t, p, hrun, hreq, hseq, hbody⟩ :=
      post_of_held hc hstage (hnone (by rw [hstage]; nofun))
    refine ⟨evs, t, hrun, not_keepsOut_of_post hreq fun hclean => hdirty fun _ => ?_⟩
    exact hbody ▸ hclean hseq
  · obtain ⟨t, hrun, hreq⟩ := post_of_checks hc hstage fun hdirected =>
      Bool.eq_false_iff.2 fun h => hunshielded ⟨h, Or.inr hdirected⟩
    exact ⟨_, t, hrun, not_keepsOut_of_post hreq hdirty⟩
  · obtain ⟨t, hrun, hrow⟩ := row_of_posting hc hstage hlive (hnone (by rw [hstage]; nofun))
    exact ⟨_, t, hrun, not_keepsOut_of_row hrow hdirty⟩

/-- A removed body stays out of the stored rows and of later POSTs in every continuation just
when the removal found only harmless copies of the message. -/
theorem removed_content_stays_out {evs : List Event} {e : Event} {m : Message}
    (h : EventSystem.Run Step initial evs s) (hs : Step s e s') (hm : m ∈ s.messages)
    (hr : e.removes m = true) :
    (∀ evs' t, EventSystem.Run (Guarded Step Settled) s' evs' t → KeepsOut m.seq s' t) ↔
      ∀ c ∈ s.copies, ¬ c.payload.Clean m.seq → c.Harmless (e.tombstone m) := by
  have hsound : Sound s := h.invariant (fun _ _ _ hi hstep => hi.step hstep) initial_sound
  obtain ⟨-, rfl⟩ := hs
  obtain ⟨-, hcopies, -, htomb, -, -⟩ := removal_leaves hsound hm hr
  constructor
  · intro hkeeps c hc hdirty
    by_contra hharm
    rw [← htomb] at hharm
    obtain ⟨evs', t, hrun, hback⟩ := harmful_comes_back (hcopies.symm ▸ hc) hdirty hharm
    exact hback (hkeeps evs' t hrun)
  · intro hharmless evs' t hrun
    exact ((Clear.of_removal hsound hm hr hharmless).run hrun).2

/-- So does a send that takes a tombstone with copies in flight that need it. -/
theorem tombstone_taken_comes_back {e : Event} {m : Message} {c : Copy} (hm : m ∈ s.messages)
    (htaken : s.trimmed e m = true) (hseqs : ∀ m' ∈ s.messages, m'.seq ≤ s.lastSeq)
    (hc : c ∈ s.copies) (hdirty : ¬ c.payload.Clean m.seq) (hlive : ¬ c.Spent) :
    ∃ evs t, EventSystem.Run (Guarded Step Settled) (s.next e) evs t ∧
      ¬ KeepsOut m.seq (s.next e) t := by
  cases e with
  | send sender body ts held =>
    refine harmful_comes_back (List.mem_append_left _ hc) hdirty (not_or.2 ⟨fun h => ?_, hlive⟩)
    obtain ⟨m', hm', hseq, -⟩ := isMessageRetracted_iff.1 h.1
    obtain ⟨hrow, hkept⟩ := mem_handleSend.1 hm'
    rcases hrow with hrow | ⟨rfl, -⟩
    · rw [Table.eq_of_key hrow hm hseq] at hkept
      exact absurd htaken (Bool.eq_false_iff.1 hkept)
    · have hnew : s.lastSeq + 1 = m.seq := hseq
      have hle := hseqs m hm
      omega
  | _ => cases htaken

/-- A message with one hook behind the directory's answer, and one whose loop has not come
to it. -/
def notifying : List Event :=
  [.send "alice" (some "plan") 0 [],
    .starts ⟨.notify, .held, "", ⟨1, "alice", some "plan", none⟩, 0⟩ [("ops", false)],
    .checked ⟨.notify, .checks, "ops", ⟨1, "alice", some "plan", none⟩, 0⟩ .passed]

theorem notifying_run :
    EventSystem.Run Step initial notifying (notifying.foldl next initial) :=
  EventSystem.run_of_ready (fun _ _ hready => ⟨hready, rfl⟩) (by decide)

theorem removed_content_stays_out_retracted : ∃ s s', EventSystem.Run Step initial notifying s ∧
    Step s (.retract 1) s' ∧
      ∀ evs' t, EventSystem.Run (Guarded Step Settled) s' evs' t → KeepsOut 1 s' t := by
  refine ⟨_, _, notifying_run, ⟨trivial, rfl⟩, ?_⟩
  have hm : (⟨1, "alice", 0, some "plan", false⟩ : Message) ∈
      (notifying.foldl next initial).messages := Table.mem_def.2 (by decide)
  refine (removed_content_stays_out (e := .retract 1) notifying_run ⟨trivial, rfl⟩ hm rfl).2 ?_
  intro c hc _
  obtain rfl := List.mem_singleton.1 hc
  exact Or.inl ⟨rfl, Or.inl (by decide)⟩

/-- `dispatchWebhooks` starts its POST behind the directory's answer without a second look. -/
theorem posted_after_retraction : ¬ ∀ evs e s s' m evs' t,
    EventSystem.Run Step initial evs s → Step s e s' → m ∈ s.messages → e.removes m = true →
      EventSystem.Run Step s' evs' t → KeepsOut m.seq s' t := by
  intro h
  have hrun : EventSystem.Run Step initial (notifying.take 2)
      ((notifying.take 2).foldl next initial) :=
    EventSystem.run_of_ready (fun _ _ hready => ⟨hready, rfl⟩) (by decide)
  have hposts : EventSystem.Run Step (((notifying.take 2).foldl next initial).next (.retract 1))
      (notifying.drop 2) _ :=
    EventSystem.run_of_ready (fun _ _ hready => ⟨hready, rfl⟩) (by decide)
  have hm : (⟨1, "alice", 0, some "plan", false⟩ : Message) ∈
      ((notifying.take 2).foldl next initial).messages := Table.mem_def.2 (by decide)
  refine not_keepsOut_of_post (p := ⟨1, "alice", some "plan", none⟩) rfl (fun hclean => ?_)
    (h _ (.retract 1) _ _ _ _ _ hrun ⟨trivial, rfl⟩ hm rfl hposts)
  exact absurd (hclean rfl) (by decide)

end State

end AgentParty.WebhookLoops
