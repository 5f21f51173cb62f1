import AgentParty.Decisions.Answers
import AgentParty.Proofs.Steps
import AgentParty.Proofs.Sweep

/-! A decision is answered once. What is not an answer lets a question stand as it was asked or
takes its decision columns, and makes no `owner_answer` delivery; an answer resolves a pending
question, and a resolved question is never pending again. -/

namespace AgentParty

open EventSystem

/-- The question stands as it was asked. -/
def Message.SameQuestion (m m' : Message) : Prop :=
  ∃ b rev, m' = { m with reviewPending := b, revSeq := rev }

/-- The question stands, or it has lost its decision columns. -/
def Message.Faded (m m' : Message) : Prop :=
  m.SameQuestion m' ∨
    (m'.decisionState = none ∧ m'.decisionRequest = none ∧ m'.decisionResponse = none)

theorem Message.SameQuestion.refl (m : Message) : m.SameQuestion m := ⟨_, _, rfl⟩

theorem Message.SameQuestion.trans {m m' m'' : Message} (h : m.SameQuestion m')
    (h' : m'.SameQuestion m'') : m.SameQuestion m'' := by
  obtain ⟨b, rev, rfl⟩ := h
  obtain ⟨b', rev', rfl⟩ := h'
  exact ⟨b', rev', rfl⟩

theorem Message.Faded.refl (m : Message) : m.Faded m := Or.inl (Message.SameQuestion.refl m)

theorem Message.Faded.trans {m m' m'' : Message} (h : m.Faded m') (h' : m'.Faded m'') :
    m.Faded m'' := by
  rcases h' with h' | h'
  · rcases h with h | ⟨hstate, hrequest, hresponse⟩
    · exact Or.inl (h.trans h')
    · obtain ⟨b, rev, rfl⟩ := h'
      exact Or.inr ⟨hstate, hrequest, hresponse⟩
  · exact Or.inr h'

theorem Message.Faded.of_pending {m m' : Message} (h : m.Faded m')
    (hpending : m'.decisionState = some .pending) : m.SameQuestion m' := by
  rcases h with h | ⟨hnone, -⟩
  · exact h
  · rw [hnone] at hpending
    cases hpending

namespace Ledger

variable {l l' l'' : Ledger}

/-- Every message is an old one that has faded. -/
def Fades (l l' : Ledger) : Prop :=
  ∀ m' ∈ l'.messages, ∃ m ∈ l.messages, m.seq = m'.seq ∧ m.Faded m'

theorem Fades.of_subset (h : ∀ m ∈ l'.messages, m ∈ l.messages) : Fades l l' :=
  fun m hm => ⟨m, h m hm, rfl, Message.Faded.refl m⟩

theorem Fades.refl (l : Ledger) : Fades l l := Fades.of_subset fun _ hm => hm

theorem Fades.trans (h : Fades l l') (h' : Fades l' l'') : Fades l l'' := by
  intro m'' hm''
  obtain ⟨m', hm', hseq', hfaded'⟩ := h' m'' hm''
  obtain ⟨m, hm, hseq, hfaded⟩ := h m' hm'
  exact ⟨m, hm, hseq.trans hseq', hfaded.trans hfaded'⟩

theorem Fades.update {p : Message → Bool} {f : Message → Message} (hf : ∀ m, (f m).seq = m.seq)
    (hfaded : ∀ m : Message, m.Faded (f m)) (hmessages : l'.messages = l.messages.update p f hf) :
    Fades l l' := by
  intro m' hm'
  rw [hmessages] at hm'
  obtain ⟨m, hm, rfl⟩ := (Table.mem_update hf).1 hm'
  refine ⟨m, hm, ?_⟩
  split_ifs
  · exact ⟨(hf m).symm, hfaded m⟩
  · exact ⟨rfl, Message.Faded.refl m⟩

theorem fades_failDeliveryTree (l : Ledger) (initial : List String) (now : Int)
    (failure : DeliveryFailure) : Fades l (l.failDeliveryTree initial now failure).1 := by
  obtain ⟨s, hs, -, hledger⟩ := failDeliveryTree_spec l initial now failure
  rw [← hledger]
  intro m' hm'
  obtain ⟨m, hm, hseq, hchange⟩ := hs.messages.backward hm'
  refine ⟨m, hm, hseq, ?_⟩
  rcases hchange with rfl | ⟨hrequest, hstate, hresponse⟩
  · exact Message.Faded.refl m'
  · exact Or.inr ⟨hstate, hrequest, hresponse⟩

theorem fades_retractMessage (l : Ledger) (seq : ℕ) (now : Int) :
    Fades l (l.retractMessage seq now) := by
  unfold retractMessage
  split
  · exact Fades.refl l
  · exact (Fades.update (retractedMessage_seq _ _) (fun _ => Or.inr ⟨rfl, rfl, rfl⟩) rfl).trans
      (fades_failDeliveryTree _ _ _ _)

theorem fades_deleteMessages (l : Ledger) (seqs : List ℕ) : Fades l (l.deleteMessages seqs) :=
  Fades.of_subset fun _ hm => (Table.mem_delete.1 hm).1

theorem fades_eraseIdentityData (l : Ledger) (name : String) :
    Fades l (l.eraseIdentityData name) :=
  Fades.update (erasedMessage_seq _) (fun _ => Or.inr ⟨rfl, rfl, rfl⟩) rfl

@[simp] theorem ensureDirectedDeliveries_messages (l : Ledger) (msg : Message)
    (targets : List DeliveryTarget) (causeOverride : Option DirectedDeliveryCause) (now : Int) :
    (l.ensureDirectedDeliveries msg targets causeOverride now).messages = l.messages := by
  have hfold : ∀ (ts : List DeliveryTarget) (l : Ledger),
      (ts.foldl (ensureOne msg causeOverride now) l).messages = l.messages := by
    intro ts
    induction ts with
    | nil => exact fun _ => rfl
    | cons t ts ih =>
      intro l
      rw [List.foldl_cons, ih, ensureOne]
      split_ifs <;> rfl
  unfold ensureDirectedDeliveries
  split_ifs
  · rfl
  · exact hfold _ l

/-- The completions of a message, from the ledger as it is. -/
theorem writes_links (l : Ledger) (identity : Identity) (msg : Message) (alsoResolves : List ℕ)
    (now : Int) : Writes (Completes l (linksTo identity (linkedSeqs msg alsoResolves))) [] l
      (l.linkWakeResume identity msg alsoResolves now) :=
  writes_linkWakeResume (Continues.refl Steady.refl l) (by simp) identity msg alsoResolves now

@[simp] theorem linkWakeResume_messages (l : Ledger) (identity : Identity) (msg : Message)
    (alsoResolves : List ℕ) (now : Int) :
    (l.linkWakeResume identity msg alsoResolves now).messages = l.messages :=
  (writes_links l identity msg alsoResolves now).completes_messages

theorem pruneByCount_subset (l : Ledger) (seq : ℕ) (now : Int) {m : Message}
    (hm : m ∈ (l.pruneByCount seq now).messages) : m ∈ l.messages := by
  unfold pruneByCount at hm
  split_ifs at hm
  · exact hm
  · exact (Table.mem_delete.1 hm).1

/-- A send adds its message and no other; only an agent's question is bound to work. -/
theorem mem_commitSend {c : SendCommit} {m : Message} (hm : m ∈ (l.commitSend c).messages) :
    m ∈ l.messages ∨ (m = sentMessage c (l.sendLineage c) ∧
      ((l.sendLineage c).isSome → c.identity.kind = .agent)) := by
  obtain ⟨-, hmessages, -⟩ := questionDelivery_spec l c
  have hagent : (l.sendLineage c).isSome → c.identity.kind = .agent := by
    unfold sendLineage questionDelivery
    intro hsome
    split at hsome
    · cases hsome
    · split_ifs at hsome with hkind
      · exact hkind
      · cases hsome
  unfold commitSend at hm
  change m ∈ (if questionRefused c (l.questionDelivery c).2 then (l.questionDelivery c).1
    else (l.questionDelivery c).1.storeSend c (l.sendLineage c)).messages at hm
  split_ifs at hm
  · exact Or.inl (hmessages ▸ hm)
  · obtain ⟨l₄, hl₄, hstored⟩ : ∃ l₄ : Ledger,
        l₄.messages = (l.questionDelivery c).1.messages.insert (sentMessage c (l.sendLineage c)) ∧
        (l.questionDelivery c).1.storeSend c (l.sendLineage c) =
          (l₄.linkWakeResume c.identity (sentMessage c (l.sendLineage c)) c.alsoResolves
            c.now).pruneByCount c.seq c.now := by
      unfold storeSend
      cases l.sendLineage c with
      | none => exact ⟨_, ensureDirectedDeliveries_messages .., rfl⟩
      | some bound =>
        dsimp only
        split_ifs
        · exact ⟨_, ensureDirectedDeliveries_messages .., rfl⟩
        · exact ⟨_, ensureDirectedDeliveries_messages .., rfl⟩
    rw [hstored] at hm
    have hin := pruneByCount_subset _ _ _ hm
    rw [linkWakeResume_messages, hl₄, hmessages] at hin
    rcases Table.mem_insert.1 hin with hold | ⟨rfl, -⟩
    · exact Or.inl hold
    · exact Or.inr ⟨rfl, hagent⟩

/-- Every `owner_answer` row was there before, for the same message. -/
def KeepsAnswers (l l' : Ledger) : Prop :=
  ∀ r' ∈ l'.deliveries, r'.cause = .ownerAnswer →
    ∃ r ∈ l.deliveries, r.id = r'.id ∧ r.messageSeq = r'.messageSeq ∧ r.cause = .ownerAnswer

theorem KeepsAnswers.refl (l : Ledger) : KeepsAnswers l l :=
  fun r hr hcause => ⟨r, hr, rfl, rfl, hcause⟩

theorem KeepsAnswers.trans (h : KeepsAnswers l l') (h' : KeepsAnswers l' l'') :
    KeepsAnswers l l'' := by
  intro r'' hr'' hcause''
  obtain ⟨r', hr', hid', hseq', hcause'⟩ := h' r'' hr'' hcause''
  obtain ⟨r, hr, hid, hseq, hcause⟩ := h r' hr' hcause'
  exact ⟨r, hr, hid.trans hid', hseq.trans hseq', hcause⟩

theorem Write.keepsAnswers {t : Tag} (h : Write l t l') (ht : ∀ id, t ≠ .answers id) :
    KeepsAnswers l l' := by
  intro r' hr' hcause
  rcases h.kept r' hr' with ⟨r, hr, hid, hkept⟩ | ⟨hcreated, -⟩
  · exact ⟨r, hr, hid, hkept.messageSeq.symm, hkept.cause.symm.trans hcause⟩
  · cases h with
    | enqueue r _ hne =>
      rcases mem_insertDelivery hr' with hold | rfl
      · exact ⟨r', hold, rfl, rfl, hcause⟩
      · exact absurd hcause hne
    | answer r => exact absurd rfl (ht r.id)
    | _ => simp [Tag.created] at hcreated

theorem Writes.keepsAnswers {P : Tag → Prop} {ids : List String} (h : Writes P ids l l')
    (hP : ∀ t, P t → ∀ id, t ≠ .answers id) : KeepsAnswers l l' := by
  obtain ⟨tags, hr, hp, -⟩ := h
  induction hr with
  | nil => exact KeepsAnswers.refl _
  | @snoc evs t t' e _ hw ih =>
    exact (ih fun t ht => hp t (List.mem_append_left _ ht)).trans
      (hw.keepsAnswers (hP e (hp e (by simp))))

section Commit

variable (l : Ledger) (a : DecisionAnswer) (request : DecisionRequest)
  (targets : List DeliveryTarget)

theorem commitAnswer_messages :
    (l.commitAnswer a request targets).messages = l.answeredMessages a request := by
  unfold commitAnswer
  simp only [ensureDirectedDeliveries_messages, linkWakeResume_messages]
  rfl

variable {l a request targets}

theorem mem_answeredMessages (hseq : ∀ m ∈ l.messages, m.seq < a.seq) {m' : Message} :
    m' ∈ l.answeredMessages a request ↔ m' = answerMessage a request ∨
      ∃ m ∈ l.messages, m' = if m.seq = a.questionSeq ∧ m.decisionState = some .pending then
        resolvedQuestion (l.revSeq + 1) m else m := by
  have hnew : ∀ m ∈ l.messages.update
      (fun m => m.seq = a.questionSeq && m.decisionState = some DecisionState.pending)
      (resolvedQuestion (l.revSeq + 1)) (resolvedQuestion_seq _), m.seq ≠ a.seq := by
    intro m hm
    obtain ⟨m₀, hm₀, rfl⟩ := (Table.mem_update (resolvedQuestion_seq _)).1 hm
    have hlt := hseq m₀ hm₀
    split_ifs
    · rw [resolvedQuestion_seq]
      exact hlt.ne
    · exact hlt.ne
  rw [answeredMessages, Table.mem_insert, Table.mem_update, or_comm]
  refine or_congr (and_iff_left hnew) ?_
  simp only [Bool.and_eq_true, decide_eq_true_eq]

/-- An answer makes at most the one delivery of its target, for the reply. -/
theorem commitAnswer_rows {id : String}
    (htargets : targets = [] ∨ ∃ t : DeliveryTarget, t.id.val = id ∧ targets = [t])
    {r' : Delivery} (hr' : r' ∈ (l.commitAnswer a request targets).deliveries) :
    (∃ r ∈ l.deliveries, r.id = r'.id ∧ r.messageSeq = r'.messageSeq ∧ r.cause = r'.cause) ∨
      (r'.id = id ∧ r'.messageSeq = a.seq) := by
  unfold commitAnswer at hr'
  set l₁ : Ledger := { l with
    revSeq := l.revSeq + 1
    messages := l.answeredMessages a request } with hl₁
  change r' ∈ ((l₁.linkWakeResume a.responder (answerMessage a request) []
    a.now).ensureDirectedDeliveries (answerMessage a request) targets none a.now).deliveries at hr'
  have hlink (r' : Delivery)
      (hr' : r' ∈ (l₁.linkWakeResume a.responder (answerMessage a request) [] a.now).deliveries) :
      ∃ r ∈ l.deliveries, r.id = r'.id ∧ r.messageSeq = r'.messageSeq ∧ r.cause = r'.cause := by
    rcases (writes_links l₁ a.responder (answerMessage a request) [] a.now).kept r' hr' with
      ⟨r, hr, hid, hkept⟩ | ⟨hnil, -⟩
    · exact ⟨r, hr, hid, hkept.messageSeq.symm, hkept.cause.symm⟩
    · cases hnil
  rcases htargets with rfl | ⟨t, rfl, rfl⟩
  · exact Or.inl (hlink r' hr')
  · unfold ensureDirectedDeliveries at hr'
    rw [if_neg (by simp [answerMessage])] at hr'
    cases hself : t.selfMention with
    | true =>
      simp only [List.filter_cons, hself, Bool.not_true, Bool.false_eq_true, if_false,
        List.filter_nil, List.foldl_nil] at hr'
      exact Or.inl (hlink r' hr')
    | false =>
      simp only [List.filter_cons, hself, Bool.not_false, if_true, List.filter_nil,
        List.foldl_cons, List.foldl_nil] at hr'
      unfold ensureOne at hr'
      split_ifs at hr'
      · exact Or.inl (hlink r' hr')
      · rcases mem_insertDelivery hr' with hold | rfl
        · exact Or.inl (hlink r' hold)
        · exact Or.inr ⟨rfl, rfl⟩

end Commit

end Ledger

namespace Answers

open Ledger

namespace Desk

variable {d d' : Desk} {e : Event}

/-- The row that a request has read is the question's, as long as it is pending. -/
structure AsRead (d : Desk) (t : Task) : Prop where
  seq : t.row.seq ≤ d.lastSeq
  request : t.row.decisionRequest.bind (·.parsed) = some t.request
  row : ∀ m ∈ d.ledger.messages, m.seq = t.row.seq → m.decisionState = some .pending →
    t.row.SameQuestion m
  unbound : ∀ choice, t.stage = .directory choice → t.request.lineage = none

/-- The books of a channel: what is stored is what was answered, once for each question. -/
structure Booked (d : Desk) : Prop where
  numbered : ∀ m ∈ d.ledger.messages, m.seq ≤ d.lastSeq
  bound : ∀ m ∈ d.ledger.messages, (Message.requestLineage m).isSome → m.senderKind = .agent
  once : (d.answered.map (·.question)).Nodup
  past : ∀ a ∈ d.answered, a.question ≤ d.lastSeq ∧ a.reply ≤ d.lastSeq
  closed : ∀ a ∈ d.answered, ∀ m ∈ d.ledger.messages, m.seq = a.question →
    m.decisionState ≠ some .pending
  replies : ∀ m ∈ d.ledger.messages, ∀ resp, m.decisionResponse = some resp →
    ∃ a ∈ d.answered, a.question = resp.requestSeq ∧ a.reply = m.seq ∧
      d.responses m.seq = some a.response
  resolved : ∀ m ∈ d.ledger.messages, m.decisionState = some .resolved →
    ∃ a ∈ d.answered, a.question = m.seq ∧ d.resolutions m.seq = some a.resolution
  agree : ∀ a ∈ d.answered, a.resolution.choice = a.response.choice ∧ a.works.length ≤ 1
  works : ∀ r ∈ d.ledger.deliveries, r.cause = .ownerAnswer →
    ∃ a ∈ d.answered, a.reply = r.messageSeq ∧ r.id ∈ a.works
  tasks : ∀ t ∈ d.tasks, d.AsRead t
  outcomes : ∀ shown, .ok shown ∈ d.outcomes → ∃ a ∈ d.answered,
    shown = ⟨a.question, a.reply, a.resolution, some a.response⟩

theorem Booked.initial : Booked initial where
  numbered m hm := absurd hm (Table.not_mem_empty m)
  bound m hm := absurd hm (Table.not_mem_empty m)
  once := List.nodup_nil
  past _ ha := absurd ha List.not_mem_nil
  closed _ ha := absurd ha List.not_mem_nil
  replies m hm := absurd hm (Table.not_mem_empty m)
  resolved m hm := absurd hm (Table.not_mem_empty m)
  agree _ ha := absurd ha List.not_mem_nil
  works r hr := absurd hr (Table.not_mem_empty r)
  tasks _ ht := absurd ht List.not_mem_nil
  outcomes _ h := absurd h List.not_mem_nil

/-- A write that is no answer: messages fade or come without an answer, and no answer's delivery
is made. -/
structure Passes (d d' : Desk) : Prop where
  lastSeq : d.lastSeq ≤ d'.lastSeq
  messages : ∀ m' ∈ d'.ledger.messages,
    (∃ m ∈ d.ledger.messages, m.seq = m'.seq ∧ m.Faded m') ∨
      (d.lastSeq < m'.seq ∧ m'.seq ≤ d'.lastSeq ∧ m'.decisionState ≠ some .resolved ∧
        m'.decisionResponse = none ∧ ((Message.requestLineage m').isSome → m'.senderKind = .agent))
  keeps : KeepsAnswers d.ledger d'.ledger
  resolutions : d'.resolutions = d.resolutions
  responses : d'.responses = d.responses
  answered : d'.answered = d.answered
  tasks : d'.tasks = d.tasks
  outcomes : d'.outcomes = d.outcomes

theorem Passes.withLedger {ledger : Ledger} (hfades : Fades d.ledger ledger)
    (hkeeps : KeepsAnswers d.ledger ledger) : Passes d (d.withLedger ledger) where
  lastSeq := le_rfl
  messages m' hm' := Or.inl (hfades m' hm')
  keeps := hkeeps
  resolutions := rfl
  responses := rfl
  answered := rfl
  tasks := rfl
  outcomes := rfl

theorem bound_of_faded {m m' : Message} (h : m.Faded m')
    (hsome : (Message.requestLineage m').isSome) :
    (Message.requestLineage m).isSome ∧ m'.senderKind = m.senderKind := by
  rcases h with ⟨b, rev, rfl⟩ | ⟨-, hnone, -⟩
  · exact ⟨hsome, rfl⟩
  · rw [Message.requestLineage, hnone] at hsome
    cases hsome

theorem Booked.passes (h : d.Booked) (hp : Passes d d') : d'.Booked := by
  have hold (q : ℕ) (hq : q ≤ d.lastSeq) (m' : Message) (hm' : m' ∈ d'.ledger.messages)
      (hseq : m'.seq = q) : ∃ m ∈ d.ledger.messages, m.seq = m'.seq ∧ m.Faded m' := by
    rcases hp.messages m' hm' with hold | ⟨hnew, -⟩
    · exact hold
    · omega
  refine ⟨fun m' hm' => ?_, fun m' hm' hsome => ?_, ?_, ?_, ?_, ?_, ?_, ?_, ?_, ?_, ?_⟩
  · rcases hp.messages m' hm' with ⟨m, hm, hseq, -⟩ | ⟨-, hle, -⟩
    · exact hseq ▸ (h.numbered m hm).trans hp.lastSeq
    · exact hle
  · rcases hp.messages m' hm' with ⟨m, hm, -, hfaded⟩ | ⟨-, -, -, -, hagent⟩
    · obtain ⟨hsome', hkind⟩ := bound_of_faded hfaded hsome
      exact hkind.trans (h.bound m hm hsome')
    · exact hagent hsome
  · rw [hp.answered]
    exact h.once
  · rw [hp.answered]
    exact fun a ha => ⟨(h.past a ha).1.trans hp.lastSeq, (h.past a ha).2.trans hp.lastSeq⟩
  · rw [hp.answered]
    intro a ha m' hm' hseq hpending
    obtain ⟨m, hm, hseq', hfaded⟩ := hold a.question (h.past a ha).1 m' hm' hseq
    obtain ⟨b, rev, rfl⟩ := hfaded.of_pending hpending
    exact h.closed a ha m hm (hseq'.trans hseq) hpending
  · rw [hp.answered, hp.responses]
    intro m' hm' resp hresp
    rcases hp.messages m' hm' with ⟨m, hm, hseq, hfaded⟩ | ⟨-, -, -, hnone, -⟩
    · rcases hfaded with ⟨b, rev, rfl⟩ | ⟨-, -, hnone⟩
      · exact h.replies m hm resp hresp
      · rw [hnone] at hresp
        cases hresp
    · rw [hnone] at hresp
      cases hresp
  · rw [hp.answered, hp.resolutions]
    intro m' hm' hresolved
    rcases hp.messages m' hm' with ⟨m, hm, hseq, hfaded⟩ | ⟨-, -, hne, -⟩
    · rcases hfaded with ⟨b, rev, rfl⟩ | ⟨hnone, -⟩
      · exact h.resolved m hm hresolved
      · rw [hnone] at hresolved
        cases hresolved
    · exact absurd hresolved hne
  · rw [hp.answered]
    exact h.agree
  · rw [hp.answered]
    intro r' hr' hcause
    obtain ⟨r, hr, hid, hseq, hcause'⟩ := hp.keeps r' hr' hcause
    rw [← hid, ← hseq]
    exact h.works r hr hcause'
  · rw [hp.tasks]
    intro t ht
    have hread := h.tasks t ht
    refine ⟨hread.seq.trans hp.lastSeq, hread.request, fun m' hm' hseq hpending => ?_,
      hread.unbound⟩
    obtain ⟨m, hm, hseq', hfaded⟩ := hold t.row.seq hread.seq m' hm' hseq
    have hsame := hfaded.of_pending hpending
    obtain ⟨b, rev, rfl⟩ := hfaded.of_pending hpending
    exact (hread.row m hm (hseq'.trans hseq) hpending).trans hsame
  · rw [hp.answered, hp.outcomes]
    exact h.outcomes

section Passes

theorem sweeps_keepsAnswers {l l' : Ledger} {ids : List String} (h : Writes Tag.sweeps ids l l') :
    KeepsAnswers l l' := by
  refine h.keepsAnswers fun t ht id => ?_
  rcases ht with rfl | rfl | rfl <;> simp

theorem prunes_keepsAnswers {l l' : Ledger} {ids : List String} (h : Writes Tag.prunes ids l l') :
    KeepsAnswers l l' := by
  refine h.keepsAnswers fun t ht id => ?_
  rcases ht with rfl | rfl <;> simp

theorem completes_ne {l : Ledger} {Q : Delivery → Prop} {t : Tag} (h : Completes l Q t)
    (id : String) : t ≠ .answers id := by
  obtain ⟨id', rfl, -⟩ := h
  simp

theorem passes_send (h : d.Booked) (c : SendCommit) (form : Form)
    (hready : d.Ready (.send c form)) : Passes d (d.send c form) := by
  obtain ⟨hseq, hfresh⟩ := hready
  have hnew : ∀ m ∈ d.ledger.messages, m.seq < c.seq := fun m hm => by
    have hle := h.numbered m hm
    omega
  refine ⟨by change d.lastSeq ≤ c.seq; omega, fun m' hm' => ?_, ?_, rfl, rfl, rfl, rfl, rfl⟩
  · rcases mem_commitSend hm' with hold | ⟨rfl, hagent⟩
    · exact Or.inl ⟨m', hold, rfl, Message.Faded.refl m'⟩
    · refine Or.inr ⟨by change d.lastSeq < c.seq; omega, le_rfl, ?_, rfl, fun hsome => ?_⟩
      · simp only [sentMessage]
        cases c.question with
        | none => simp
        | some q => cases hq : q.unattended <;> simp [hq]
      · obtain ⟨lineage, hlineage⟩ := Option.isSome_iff_exists.1 hsome
        exact hagent (Option.isSome_iff_exists.2 ⟨lineage, sentMessage_requestLineage hlineage⟩)
  · refine (writes_commitSend d.ledger c hnew hfresh).keepsAnswers fun t ht id => ?_
    rcases ht with (rfl | rfl) | ⟨id', rfl⟩ | ht
    · simp
    · simp
    · simp
    · exact completes_ne ht id

theorem passes_note (h : d.Booked) (m : Message) (author : Identity) (now : Int)
    (hready : d.Ready (.note m author now)) : Passes d (d.next (.note m author now)) := by
  obtain ⟨hseq, hstate, hrequest, hresponse⟩ := hready
  have hnew : ∀ m' ∈ d.ledger.messages, m'.seq < m.seq := fun m' hm' => by
    have hle := h.numbered m' hm'
    omega
  have hnone : m.decisionRequest = none := Option.isNone_iff_eq_none.1 hrequest
  refine ⟨by change d.lastSeq ≤ m.seq; omega, fun m' hm' => ?_, ?_, rfl, rfl, rfl, rfl, rfl⟩
  · have hmem : m' ∈ d.ledger.messages.insert m := by
      simpa only [next, linkWakeResume_messages, storeMessage] using hm'
    rcases Table.mem_insert.1 hmem with hold | ⟨rfl, -⟩
    · exact Or.inl ⟨m', hold, rfl, Message.Faded.refl m'⟩
    · refine Or.inr ⟨by omega, le_rfl, by simp [hstate], hresponse, fun hsome => ?_⟩
      rw [Message.requestLineage, hnone] at hsome
      cases hsome
  · refine (writes_note d.ledger m author now hnew hnone hresponse).keepsAnswers fun t ht id => ?_
    rcases ht with rfl | ht
    · simp
    · exact completes_ne ht id

theorem passes_stage (seq : ℕ) (edited : Bool) (targets : List DeliveryTarget) (now : Int)
    (hready : d.Ready (.stage seq edited targets now)) :
    Passes d (d.next (.stage seq edited targets now)) := by
  obtain ⟨m, hm, hseq, hedited⟩ := hready
  simp only [next]
  rw [← hseq, Table.get?_key hm]
  refine Passes.withLedger (Fades.of_subset fun m' hm' => ?_) ?_
  · simpa using hm'
  · refine (writes_ensure d.ledger hm targets _ now ?_).keepsAnswers fun t ht id => ?_
    · cases edited with
      | true => exact Or.inl rfl
      | false => exact Or.inr ⟨rfl, hedited.resolve_left (by simp)⟩
    · obtain ⟨id', rfl⟩ := ht
      simp

/-- The events that are none of a request. -/
def Event.writes : Event → Bool
  | .arrive _ _ _ _ | .body _ _ _ _ _ | .directory _ _ _ _ _ => false
  | _ => true

theorem passes_next (h : d.Booked) (hready : d.Ready e) (he : Event.writes e = true) :
    Passes d (d.next e) := by
  cases e with
  | arrive | body | directory => cases he
  | send c form => exact passes_send h c form hready
  | note m author now => exact passes_note h m author now hready
  | stage seq edited targets now => exact passes_stage seq edited targets now hready
  | retract seq now =>
    exact Passes.withLedger (fades_retractMessage _ seq now)
      (sweeps_keepsAnswers (writes_retractMessage _ now seq))
  | sourcesExpired roots failure now =>
    have hfinal : failure.terminalReason.final = true := by
      rcases hready with hreason | hreason | hreason <;> rw [hreason] <;> rfl
    exact Passes.withLedger (fades_failDeliveryTree _ roots now failure)
      (sweeps_keepsAnswers (writes_failDeliveryTree _ now roots hfinal))
  | deleteMessages seqs =>
    exact Passes.withLedger (fades_deleteMessages _ seqs)
      (prunes_keepsAnswers (writes_deleteMessages _ seqs))
  | pruneDeliveries now =>
    exact Passes.withLedger (Fades.of_subset fun _ hm => hm)
      (prunes_keepsAnswers (writes_pruneDirectedDeliveries _ now))
  | eraseIdentity name =>
    exact Passes.withLedger (fades_eraseIdentityData _ name)
      (prunes_keepsAnswers (writes_eraseIdentityData _ name))
  | reviewed seq reviewPending =>
    exact Passes.withLedger
      (Fades.update (withReviewPending_seq _) (fun m => Or.inl ⟨reviewPending, m.revSeq, rfl⟩) rfl)
      (KeepsAnswers.refl _)
  | moves deliveries leaseHistory =>
    refine Passes.withLedger (Fades.of_subset fun _ hm => hm) fun r hr hcause => ?_
    obtain ⟨r₀, hr₀, hid, hseq, hcause'⟩ := hready r hr
    exact ⟨r₀, hr₀, hid, hseq, hcause'.trans hcause⟩

end Passes

section Requests

variable {t : Task} {choice : Choice} {owner : Option String} {mint : Mint} {selfMention : Bool}
  {now : Int}

theorem Booked.told (h : d.Booked) {outcome : Except Refusal Shown}
    (hshown : ∀ shown, outcome = .ok shown → ∃ a ∈ d.answered,
      shown = ⟨a.question, a.reply, a.resolution, some a.response⟩) : (d.tell outcome).Booked := by
  refine { h with tasks := fun t ht => ?_, outcomes := fun shown hmem => ?_ }
  · have hread := h.tasks t ht
    exact ⟨hread.seq, hread.request, hread.row, hread.unbound⟩
  · rcases List.mem_append.1 hmem with hold | hnew
    · exact h.outcomes shown hold
    · exact hshown shown (List.mem_singleton.1 hnew).symm

theorem Booked.refused (h : d.Booked) (refusal : Refusal) : (d.tell (.error refusal)).Booked :=
  h.told fun _ hok => by cases hok

theorem Booked.withTasks (h : d.Booked) {tasks : List Task} (htasks : ∀ t ∈ tasks, d.AsRead t) :
    Booked { d with tasks } := by
  refine { h with tasks := fun t ht => ?_ }
  have hread := htasks t ht
  exact ⟨hread.seq, hread.request, hread.row, hread.unbound⟩

theorem Booked.without (h : d.Booked) (id : ℕ) : (d.without id).Booked :=
  h.withTasks fun t ht => h.tasks t (List.mem_filter.1 ht).1

/-- Two answers to one question are one. -/
theorem Booked.eq_of_question (h : d.Booked) {a b : Answered} (ha : a ∈ d.answered)
    (hb : b ∈ d.answered) (hq : a.question = b.question) : a = b :=
  List.inj_on_of_nodup_map h.once ha hb hq

theorem mem_originalReply {seq : ℕ} {reply : Message} (h : d.originalReply seq = some reply) :
    reply ∈ d.ledger.messages ∧ ∃ resp, reply.decisionResponse = some resp ∧
      resp.requestSeq = seq := by
  have hmem := (List.mem_insertionSort _).1 (List.mem_of_mem_head? h)
  obtain ⟨hreply, hresp⟩ := List.mem_filter.1 hmem
  obtain ⟨resp, hsome, hseq⟩ := (Option.any_eq_true _ _).1 hresp
  exact ⟨hreply, resp, hsome, of_decide_eq_true hseq⟩

/-- A retry is shown the pair that was stored. -/
theorem Booked.retry (h : d.Booked) {responder : Identity} {question : Message} {shown : Shown}
    (hmem : question ∈ d.ledger.messages)
    (hshown : d.resolvedRetryResponse responder question = some shown) :
    ∃ a ∈ d.answered, shown = ⟨a.question, a.reply, a.resolution, some a.response⟩ := by
  unfold resolvedRetryResponse resolutionOf at hshown
  by_cases hstate : question.decisionState = some .resolved
  · obtain ⟨a, ha, hquestion, hresolution⟩ := h.resolved question hmem hstate
    rw [if_pos hstate, hresolution] at hshown
    simp only at hshown
    split_ifs at hshown
    obtain ⟨reply, hreply, rfl⟩ := Option.map_eq_some_iff.1 hshown
    obtain ⟨hmem', resp, hresp, hseq⟩ := mem_originalReply hreply
    obtain ⟨b, hb, hquestion', hreply', hresponse⟩ := h.replies reply hmem' resp hresp
    obtain rfl := h.eq_of_question ha hb (hquestion.trans (hquestion'.trans hseq).symm)
    exact ⟨a, ha, by simp [responseOf, hresp, hresponse, hquestion, hreply']⟩
  · rw [if_neg hstate] at hshown
    cases hshown

theorem Booked.casLost_shown (h : d.Booked) {shown : Shown} (hok : d.casLost t = .ok shown) :
    ∃ a ∈ d.answered, shown = ⟨a.question, a.reply, a.resolution, some a.response⟩ := by
  unfold casLost at hok
  split at hok
  · cases hok
  · rename_i row hrow
    split at hok
    · rename_i shown' hretry
      obtain rfl := Except.ok.inj hok
      exact h.retry (Table.get?_eq_some.1 hrow).1 hretry
    · cases hok

theorem request_of_checkRow {row : Message} {responder : Identity} {moderator : Bool}
    {request : DecisionRequest} (h : checkRow row responder moderator = .ok request) :
    row.decisionRequest.bind (·.parsed) = some request := by
  unfold checkRow at h
  split at h
  · cases h
  · rename_i request' hparsed
    split_ifs at h
    obtain rfl := Except.ok.inj h
    exact hparsed

theorem Booked.arrive (h : d.Booked) (id : ℕ) (responder : Identity) (moderator : Bool)
    (seq : ℕ) : (d.arrive id responder moderator seq).Booked := by
  unfold Desk.arrive
  split
  · exact h.refused _
  · rename_i row hrow
    obtain ⟨hmem, rfl⟩ := Table.get?_eq_some.1 hrow
    split
    · exact h.refused _
    · rename_i request hcheck
      split
      · rename_i shown hretry
        exact h.told fun shown' hok => Except.ok.inj hok ▸ h.retry hmem hretry
      · split_ifs
        · exact h.refused _
        · refine h.withTasks fun t ht => ?_
          rcases List.mem_cons.1 ht with rfl | hold
          · refine ⟨h.numbered row hmem, ?_, fun m hm hseq _ => ?_, fun choice hstage => by
              cases hstage⟩
            · exact request_of_checkRow hcheck
            · rw [Table.eq_of_key hm hmem hseq]
              exact Message.SameQuestion.refl row
          · exact h.tasks t hold

theorem question_of_casWins {l : Ledger} (h : casWins l t = true) :
    ∃ m ∈ l.messages, m.seq = t.row.seq ∧ m.decisionState = some .pending := by
  obtain ⟨m, hm, hwins⟩ := (Option.any_eq_true _ _).1 h
  obtain ⟨hmem, hseq⟩ := Table.get?_eq_some.1 hm
  exact ⟨m, hmem, hseq, of_decide_eq_true (Bool.and_eq_true_iff.1 hwins).1⟩

theorem targetsOf_cases (t : Task) (owner : Option String) (mint : Mint) (selfMention : Bool) :
    targetsOf t owner mint selfMention = [] ∨ ∃ target : DeliveryTarget,
      target.id.val = mint.id.val ∧ targetsOf t owner mint selfMention = [target] := by
  cases owner with
  | none => exact Or.inl rfl
  | some owner => exact Or.inr ⟨_, rfl, rfl⟩

/-- What an answer leaves of a message that was there. -/
def afterAnswer (d : Desk) (t : Task) (m : Message) : Message :=
  if m.seq = t.row.seq ∧ m.decisionState = some .pending then
    resolvedQuestion (d.ledger.revSeq + 1) m
  else m

@[simp] theorem afterAnswer_seq (m : Message) : (d.afterAnswer t m).seq = m.seq := by
  unfold afterAnswer
  split_ifs <;> rfl

@[simp] theorem afterAnswer_decisionResponse (m : Message) :
    (d.afterAnswer t m).decisionResponse = m.decisionResponse := by
  unfold afterAnswer
  split_ifs <;> rfl

theorem afterAnswer_other {m : Message} (h : m.seq ≠ t.row.seq) : d.afterAnswer t m = m :=
  if_neg fun hm => h hm.1

theorem mem_resolve (h : d.Booked) {m' : Message} :
    m' ∈ (d.resolve t choice owner mint selfMention now).ledger.messages ↔
      m' = answerMessage (d.answerOf t mint now) t.request ∨
        ∃ m ∈ d.ledger.messages, m' = d.afterAnswer t m := by
  have hnew : ∀ m ∈ d.ledger.messages, m.seq < (d.answerOf t mint now).seq :=
    fun m hm => Nat.lt_succ_of_le (h.numbered m hm)
  change m' ∈ (d.ledger.commitAnswer _ _ _).messages ↔ _
  rw [commitAnswer_messages, mem_answeredMessages hnew]
  rfl

theorem newWorks_length {l l' : Ledger} {id : String}
    (h : ∀ r ∈ l'.deliveries, (∃ r₀ ∈ l.deliveries, r₀.id = r.id) ∨ r.id = id) :
    (newWorks l l').length ≤ 1 := by
  have hnodup : (newWorks l l').Nodup := l'.deliveries.nodup.sublist (List.filter_sublist.map _)
  have hsub : newWorks l l' ⊆ [id] := by
    intro k hk
    obtain ⟨r, hr, rfl⟩ := List.mem_map.1 hk
    obtain ⟨hmem, hfresh⟩ := List.mem_filter.1 hr
    rcases h r hmem with ⟨r₀, hr₀, hid⟩ | hid
    · have hnone := Option.isNone_iff_eq_none.1 (Bool.and_eq_true_iff.1 hfresh).2
      exact absurd hid (Table.get?_eq_none.1 hnone r₀ hr₀)
    · exact List.mem_singleton.2 hid
  exact (List.subperm_of_subset hnodup hsub).length_le

theorem Booked.resolve (h : d.Booked) (hread : d.AsRead t) (hwins : casWins d.ledger t = true)
    (hunused : ∀ r ∈ d.ledger.deliveries, r.id ≠ mint.id.val) :
    (d.resolve t choice owner mint selfMention now).Booked := by
  obtain ⟨question, hquestion, hqseq, hpending⟩ := question_of_casWins hwins
  have hrows (r : Delivery)
      (hr : r ∈ (d.resolve t choice owner mint selfMention now).ledger.deliveries) :=
    commitAnswer_rows (targetsOf_cases t owner mint selfMention) hr
  have hin {a : Answered} (ha : a ∈ d.answered) :
      a ∈ (d.resolve t choice owner mint selfMention now).answered := List.mem_append_left _ ha
  have hlast : ∃ a ∈ (d.resolve t choice owner mint selfMention now).answered,
      a = ⟨t.row.seq, d.lastSeq + 1, resolutionFor t choice now, responseFor t choice,
        newWorks d.ledger (d.resolve t choice owner mint selfMention now).ledger⟩ :=
    ⟨_, List.mem_append_right _ (List.mem_singleton_self _), rfl⟩
  obtain ⟨last, hlast, rfl⟩ := hlast
  constructor
  · intro m' hm'
    rcases (mem_resolve h).1 hm' with rfl | ⟨m, hm, rfl⟩
    · exact le_rfl
    · rw [afterAnswer_seq]
      exact (h.numbered m hm).trans (Nat.le_succ _)
  · intro m' hm' hsome
    rcases (mem_resolve h).1 hm' with rfl | ⟨m, hm, rfl⟩
    · simp [Message.requestLineage, answerMessage] at hsome
    · have hsame : Message.requestLineage (d.afterAnswer t m) = Message.requestLineage m ∧
          (d.afterAnswer t m).senderKind = m.senderKind := by
        unfold afterAnswer
        split_ifs <;> exact ⟨rfl, rfl⟩
      rw [hsame.2]
      exact h.bound m hm (hsame.1 ▸ hsome)
  · change ((d.answered ++ [(_ : Answered)]).map Answered.question).Nodup
    rw [List.map_append, List.map_singleton]
    refine List.nodup_append.2 ⟨h.once, List.nodup_singleton _, fun q hq q' hq' => ?_⟩
    obtain ⟨a, ha, rfl⟩ := List.mem_map.1 hq
    rw [List.mem_singleton.1 hq']
    exact fun heq => h.closed a ha question hquestion (hqseq.trans heq.symm) hpending
  · intro a ha
    rcases List.mem_append.1 ha with hold | hnew
    · obtain ⟨hq, hr⟩ := h.past a hold
      exact ⟨hq.trans (Nat.le_succ _), hr.trans (Nat.le_succ _)⟩
    · rw [List.mem_singleton.1 hnew]
      exact ⟨hread.seq.trans (Nat.le_succ _), le_rfl⟩
  · intro a ha m' hm' hseq hstate
    rcases (mem_resolve h).1 hm' with rfl | ⟨m, hm, rfl⟩
    · simp [answerMessage] at hstate
    · rw [afterAnswer_seq] at hseq
      by_cases hq : m.seq = t.row.seq
      · obtain rfl := Table.eq_of_key hm hquestion (hq.trans hqseq.symm)
        simp [afterAnswer, hq, hpending, resolvedQuestion] at hstate
      · rw [afterAnswer_other hq] at hstate
        rcases List.mem_append.1 ha with hold | hnew
        · exact h.closed a hold m hm hseq hstate
        · rw [List.mem_singleton.1 hnew] at hseq
          exact hq hseq
  · intro m' hm' resp hresp
    rcases (mem_resolve h).1 hm' with rfl | ⟨m, hm, rfl⟩
    · obtain rfl := Option.some.inj hresp
      exact ⟨_, hlast, rfl, rfl, Function.update_self _ _ _⟩
    · rw [afterAnswer_decisionResponse] at hresp
      obtain ⟨a, ha, hq, hr, hresponse⟩ := h.replies m hm resp hresp
      refine ⟨a, hin ha, hq, by rw [afterAnswer_seq, hr], ?_⟩
      rw [afterAnswer_seq]
      have hne : m.seq ≠ d.lastSeq + 1 := by
        have hle := h.numbered m hm
        omega
      exact (Function.update_of_ne hne _ _).trans hresponse
  · intro m' hm' hresolved
    rcases (mem_resolve h).1 hm' with rfl | ⟨m, hm, rfl⟩
    · simp [answerMessage] at hresolved
    · rw [afterAnswer_seq]
      by_cases hq : m.seq = t.row.seq
      · exact ⟨_, hlast, hq.symm, by rw [hq]; exact Function.update_self _ _ _⟩
      · rw [afterAnswer_other hq] at hresolved
        obtain ⟨a, ha, hquestion', hresolution⟩ := h.resolved m hm hresolved
        exact ⟨a, hin ha, hquestion', (Function.update_of_ne hq _ _).trans hresolution⟩
  · intro a ha
    rcases List.mem_append.1 ha with hold | hnew
    · exact h.agree a hold
    · rw [List.mem_singleton.1 hnew]
      have hmade : ∀ r ∈ (d.resolve t choice owner mint selfMention now).ledger.deliveries,
          (∃ r₀ ∈ d.ledger.deliveries, r₀.id = r.id) ∨ r.id = mint.id.val := fun r hr =>
        (hrows r hr).imp (fun hold => hold.imp fun _ hr₀ => ⟨hr₀.1, hr₀.2.1⟩) And.left
      exact ⟨rfl, newWorks_length hmade⟩
  · intro r hr hcause
    rcases hrows r hr with ⟨r₀, hr₀, hid, hseq, hcause'⟩ | ⟨hid, hseq⟩
    · obtain ⟨a, ha, hreply, hwork⟩ := h.works r₀ hr₀ (hcause'.trans hcause)
      exact ⟨a, hin ha, hreply.trans hseq, hid ▸ hwork⟩
    · refine ⟨_, hlast, hseq.symm, List.mem_map.2 ⟨r, List.mem_filter.2 ⟨hr, ?_⟩, rfl⟩⟩
      have hnone : d.ledger.directedDeliveryRow r.id = none :=
        Table.get?_eq_none.2 fun r₀ hr₀ heq => hunused r₀ hr₀ (heq.trans hid)
      simp [hcause, hnone]
  · intro t' ht'
    have hread' := h.tasks t' ht'
    refine ⟨hread'.seq.trans (Nat.le_succ _), hread'.request, fun m' hm' hseq hstate => ?_,
      hread'.unbound⟩
    rcases (mem_resolve h).1 hm' with rfl | ⟨m, hm, rfl⟩
    · simp [answerMessage] at hstate
    · rw [afterAnswer_seq] at hseq
      by_cases hq : m.seq = t.row.seq
      · obtain rfl := Table.eq_of_key hm hquestion (hq.trans hqseq.symm)
        simp [afterAnswer, hq, hpending, resolvedQuestion] at hstate
      · rw [afterAnswer_other hq] at hstate ⊢
        exact hread'.row m hm hseq hstate
  · intro shown hmem
    rcases List.mem_append.1 hmem with hold | hnew
    · obtain ⟨a, ha, hshown⟩ := h.outcomes shown hold
      exact ⟨a, hin ha, hshown⟩
    · obtain rfl := Except.ok.inj (List.mem_singleton.1 hnew)
      exact ⟨_, hlast, rfl⟩

theorem AsRead.without (hread : d.AsRead t) (id : ℕ) : (d.without id).AsRead t :=
  ⟨hread.seq, hread.request, hread.row, hread.unbound⟩

theorem Booked.commit (h : d.Booked) (hread : d.AsRead t)
    (hunused : ∀ r ∈ d.ledger.deliveries, r.id ≠ mint.id.val) :
    (d.commit t choice owner mint selfMention now).Booked := by
  unfold Desk.commit
  simp only
  split_ifs with hwins
  · exact (h.without t.id).resolve (hread.without t.id) hwins hunused
  · exact (h.without t.id).told fun shown hok => (h.without t.id).casLost_shown hok

theorem mem_task {id : ℕ} (h : d.task id = some t) : t ∈ d.tasks := List.mem_of_find?_eq_some h

theorem binding_directory {l : Ledger} {row : Message} {request : DecisionRequest}
    (h : binding l row request = .ok .directory) : request.lineage = none := by
  cases hlineage : request.lineage with
  | none => rfl
  | some lineage =>
    simp only [binding, hlineage] at h
    split_ifs at h
    · cases h
    · split at h
      · cases h
      · split_ifs at h
        cases h

theorem Booked.onBody (h : d.Booked) (hread : d.AsRead t) (body : Body)
    (hunused : ∀ r ∈ d.ledger.deliveries, r.id ≠ mint.id.val) :
    (d.onBody t body mint selfMention now).Booked := by
  unfold Desk.onBody
  split
  · exact (h.without t.id).refused _
  · split
    · exact (h.without t.id).refused _
    · exact h.commit hread hunused
    · exact h.commit hread hunused
    · rename_i hbinding
      refine h.withTasks fun t' ht' => ?_
      rcases List.mem_cons.1 ht' with rfl | hold
      · exact ⟨hread.seq, hread.request, hread.row, fun _ _ => binding_directory hbinding⟩
      · exact h.tasks t' (List.mem_filter.1 hold).1

theorem Booked.onDirectory (h : d.Booked) (hread : d.AsRead t)
    (hunused : ∀ r ∈ d.ledger.deliveries, r.id ≠ mint.id.val) :
    (d.onDirectory t choice owner mint selfMention now).Booked := by
  unfold Desk.onDirectory
  split
  · exact (h.without t.id).refused _
  · exact h.commit hread hunused

end Requests

theorem Booked.next (h : d.Booked) (hready : d.Ready e) : (d.next e).Booked := by
  cases e with
  | arrive id responder moderator seq => exact h.arrive id responder moderator seq
  | body id body mint selfMention now =>
    simp only [Desk.next]
    split
    · rename_i t htask
      split
      · exact h.onBody (h.tasks t (mem_task htask)) body hready
      · exact h
    · exact h
  | directory id owner mint selfMention now =>
    simp only [Desk.next]
    split
    · rename_i t htask
      split
      · exact h.onDirectory (h.tasks t (mem_task htask)) hready
      · exact h
    · exact h
  | _ => exact h.passes (passes_next h hready rfl)

theorem run_booked {evs : List Event} (h : Run Step initial evs d) : d.Booked := by
  refine h.invariant (fun d e d' hd hstep => ?_) Booked.initial
  obtain ⟨hready, rfl⟩ := hstep
  exact hd.next hready

/-- The transaction that stored an answer. The question was pending, its parked work was waiting
for the owner, and the resolution and the reply came together. -/
structure Accepts (d : Desk) (a : Answered) (d' : Desk) : Prop where
  question : ∃ m ∈ d.ledger.messages, m.seq = a.question ∧ m.decisionState = some .pending ∧
    ∀ lineage, Message.requestLineage m = some lineage →
      ∃ request source, m.decisionRequest.bind (·.parsed) = some request ∧
        d.ledger.exactDecisionSource m request = some source ∧ source.state = .waitingOwner
  resolved : ∃ m ∈ d'.ledger.messages, m.seq = a.question ∧ m.decisionState = some .resolved ∧
    d'.resolutionOf m = some a.resolution
  reply : d.lastSeq < a.reply ∧ ∃ m ∈ d'.ledger.messages, m.seq = a.reply ∧
    m.decisionResponse.map (·.requestSeq) = some a.question ∧ d'.responseOf m = some a.response
  works : a.works = newWorks d.ledger d'.ledger

/-- No pending question is resolved. -/
def Rests (d d' : Desk) : Prop :=
  ∀ m ∈ d.ledger.messages, ∀ m' ∈ d'.ledger.messages, m'.seq = m.seq →
    m.decisionState = some .pending → m'.decisionState ≠ some .resolved

/-- What a step does to the questions: none becomes pending again, and none is resolved but by
an answer. -/
structure Advances (d d' : Desk) : Prop where
  lastSeq : d.lastSeq ≤ d'.lastSeq
  pending : ∀ m' ∈ d'.ledger.messages, m'.seq ≤ d.lastSeq → m'.decisionState = some .pending →
    ∃ m ∈ d.ledger.messages, m.seq = m'.seq ∧ m.decisionState = some .pending
  answered : (d'.answered = d.answered ∧ Rests d d') ∨
    ∃ a, d'.answered = d.answered ++ [a] ∧ Accepts d a d'

theorem Advances.of_ledger (hledger : d'.ledger = d.ledger) (hlast : d'.lastSeq = d.lastSeq)
    (hanswered : d'.answered = d.answered) : Advances d d' := by
  refine ⟨hlast.ge, fun m' hm' _ hpending => ⟨m', hledger ▸ hm', rfl, hpending⟩,
    Or.inl ⟨hanswered, fun m hm m' hm' hseq hpending => ?_⟩⟩
  rw [hledger] at hm'
  rw [Table.eq_of_key hm' hm hseq, hpending]
  simp

theorem Passes.advances (h : d.Booked) (hp : Passes d d') : Advances d d' := by
  refine ⟨hp.lastSeq, fun m' hm' hle hpending => ?_,
    Or.inl ⟨hp.answered, fun m hm m' hm' hseq hpending hresolved => ?_⟩⟩
  · rcases hp.messages m' hm' with ⟨m, hm, hseq, hfaded⟩ | ⟨hnew, -⟩
    · obtain ⟨b, rev, rfl⟩ := hfaded.of_pending hpending
      exact ⟨m, hm, hseq, hpending⟩
    · omega
  · rcases hp.messages m' hm' with ⟨m₀, hm₀, hseq₀, hfaded⟩ | ⟨hnew, -⟩
    · obtain rfl := Table.eq_of_key hm₀ hm (hseq₀.trans hseq)
      rcases hfaded with ⟨b, rev, rfl⟩ | ⟨hnone, -⟩
      · rw [show m₀.decisionState = some .resolved from hresolved] at hpending
        cases hpending
      · rw [hnone] at hresolved
        cases hresolved
    · have hle := h.numbered m hm
      omega

section Requests

variable {t : Task} {choice : Choice} {owner : Option String} {mint : Mint} {selfMention : Bool}
  {now : Int}

/-- The work that the question parked waits for its owner. -/
def Sourced (l : Ledger) (t : Task) : Prop :=
  t.row.senderKind = .agent → ∀ lineage, t.request.lineage = some lineage →
    ∃ source, l.exactDecisionSource t.row t.request = some source ∧ source.state = .waitingOwner

theorem sourced_of_binding {l : Ledger} {b : Binding}
    (h : binding l t.row t.request = .ok b) : Sourced l t := by
  intro hkind lineage hlineage
  simp only [binding, hkind, ne_eq, not_true_eq_false, if_false, hlineage] at h
  split at h
  · cases h
  · rename_i source hsource
    split_ifs at h with hstate
    exact ⟨source, hsource, hstate⟩

theorem accepts_resolve (h : d.Booked) (hread : d.AsRead t) (hwins : casWins d.ledger t = true)
    (hsourced : Sourced d.ledger t) :
    ∃ a, (d.resolve t choice owner mint selfMention now).answered = d.answered ++ [a] ∧
      Accepts d a (d.resolve t choice owner mint selfMention now) := by
  obtain ⟨question, hquestion, hqseq, hpending⟩ := question_of_casWins hwins
  obtain ⟨b, rev, hsame⟩ := hread.row question hquestion hqseq hpending
  refine ⟨_, rfl, ⟨question, hquestion, hqseq, hpending, fun lineage hlineage => ?_⟩,
    ⟨d.afterAnswer t question, (mem_resolve h).2 (Or.inr ⟨question, hquestion, rfl⟩), ?_, ?_, ?_⟩,
    ⟨Nat.lt_succ_self _, _, (mem_resolve h).2 (Or.inl rfl), rfl, rfl, ?_⟩, rfl⟩
  · have hagent := h.bound question hquestion (Option.isSome_iff_exists.2 ⟨lineage, hlineage⟩)
    have hrequest : question.decisionRequest.bind (·.parsed) = some t.request := by
      rw [hsame]
      exact hread.request
    have hlineage' : t.request.lineage = some lineage := by
      rw [Message.requestLineage, hrequest] at hlineage
      exact hlineage
    obtain ⟨source, hsource, hstate⟩ := hsourced (by rw [hsame] at hagent; exact hagent) lineage
      hlineage'
    refine ⟨t.request, source, hrequest, ?_, hstate⟩
    rw [hsame]
    exact hsource
  · rw [afterAnswer_seq, hqseq]
  · simp [afterAnswer, hqseq, hpending, resolvedQuestion]
  · have hresolved : (d.afterAnswer t question).decisionState = some .resolved := by
      simp [afterAnswer, hqseq, hpending, resolvedQuestion]
    rw [resolutionOf, if_pos hresolved, afterAnswer_seq, hqseq]
    exact Function.update_self _ _ _
  · exact Function.update_self _ _ _

theorem advances_resolve (h : d.Booked) (hread : d.AsRead t) (hwins : casWins d.ledger t = true)
    (hsourced : Sourced d.ledger t) :
    Advances d (d.resolve t choice owner mint selfMention now) := by
  refine ⟨Nat.le_succ _, fun m' hm' hle hpending => ?_, Or.inr (accepts_resolve h hread hwins hsourced)⟩
  rcases (mem_resolve h).1 hm' with rfl | ⟨m, hm, rfl⟩
  · cases hpending
  · refine ⟨m, hm, by rw [afterAnswer_seq], ?_⟩
    unfold afterAnswer at hpending
    split_ifs at hpending with hq
    · exact hq.2
    · exact hpending

theorem advances_commit (h : d.Booked) (hread : d.AsRead t) (hsourced : Sourced d.ledger t) :
    Advances d (d.commit t choice owner mint selfMention now) := by
  unfold commit
  simp only
  split_ifs with hwins
  · have hadvances : Advances (d.without t.id)
        ((d.without t.id).resolve t choice owner mint selfMention now) :=
      advances_resolve (h.without t.id) (hread.without t.id) hwins hsourced
    refine ⟨hadvances.lastSeq, hadvances.pending, hadvances.answered.imp id ?_⟩
    rintro ⟨a, happend, haccepts⟩
    exact ⟨a, happend, haccepts.question, haccepts.resolved, haccepts.reply, haccepts.works⟩
  · exact Advances.of_ledger rfl rfl rfl

theorem advances_onBody (h : d.Booked) (hread : d.AsRead t) (body : Body) :
    Advances d (d.onBody t body mint selfMention now) := by
  unfold onBody
  split
  · exact Advances.of_ledger rfl rfl rfl
  · split
    · exact Advances.of_ledger rfl rfl rfl
    · exact advances_commit h hread (sourced_of_binding ‹_›)
    · exact advances_commit h hread (sourced_of_binding ‹_›)
    · exact Advances.of_ledger rfl rfl rfl

theorem advances_onDirectory (h : d.Booked) (hread : d.AsRead t)
    (hstage : t.stage = .directory choice) :
    Advances d (d.onDirectory t choice owner mint selfMention now) := by
  unfold onDirectory
  split
  · exact Advances.of_ledger rfl rfl rfl
  · refine advances_commit h hread fun _ lineage hlineage => ?_
    rw [hread.unbound choice hstage] at hlineage
    cases hlineage

end Requests

theorem advances_arrive (id : ℕ) (responder : Identity) (moderator : Bool) (seq : ℕ) :
    Advances d (d.arrive id responder moderator seq) := by
  unfold arrive
  split
  · exact Advances.of_ledger rfl rfl rfl
  · split
    · exact Advances.of_ledger rfl rfl rfl
    · split
      · exact Advances.of_ledger rfl rfl rfl
      · split_ifs <;> exact Advances.of_ledger rfl rfl rfl

theorem advances_next (h : d.Booked) (hready : d.Ready e) : Advances d (d.next e) := by
  cases e with
  | arrive id responder moderator seq => exact advances_arrive id responder moderator seq
  | body id body mint selfMention now =>
    simp only [Desk.next]
    split
    · rename_i t htask
      split
      · exact advances_onBody h (h.tasks t (mem_task htask)) body
      · exact Advances.of_ledger rfl rfl rfl
    · exact Advances.of_ledger rfl rfl rfl
  | directory id owner mint selfMention now =>
    simp only [Desk.next]
    split
    · rename_i t htask
      split
      · exact advances_onDirectory h (h.tasks t (mem_task htask)) ‹_›
      · exact Advances.of_ledger rfl rfl rfl
    · exact Advances.of_ledger rfl rfl rfl
  | _ => exact (passes_next h hready rfl).advances h

/-- Where no row of a known number is a pending question, none will be answered. -/
theorem closed_stays {evs : List Event} {q : ℕ} (h : d.Booked) (hq : q ≤ d.lastSeq)
    (hclosed : ∀ m ∈ d.ledger.messages, m.seq = q → m.decisionState ≠ some .pending)
    (hrun : Run Step d evs d') : ∀ a ∈ d'.answered, a.question = q → a ∈ d.answered := by
  let I (u : Desk) : Prop := u.Booked ∧ q ≤ u.lastSeq ∧
    (∀ m ∈ u.ledger.messages, m.seq = q → m.decisionState ≠ some .pending) ∧
      ∀ a ∈ u.answered, a.question = q → a ∈ d.answered
  have hinvariant : I d' := by
    refine hrun.invariant (fun u e u' hu hstep => ?_) ⟨h, hq, hclosed, fun a ha _ => ha⟩
    obtain ⟨hready, rfl⟩ := hstep
    obtain ⟨hbooked, hle, hnone, hold⟩ := hu
    have hadvances := advances_next hbooked hready
    refine ⟨hbooked.next hready, hle.trans hadvances.lastSeq, fun m' hm' hseq hpending => ?_, ?_⟩
    · obtain ⟨m, hm, hseq', hpending'⟩ := hadvances.pending m' hm' (hseq.trans_le hle) hpending
      exact hnone m hm (hseq'.trans hseq) hpending'
    · rcases hadvances.answered with ⟨hsame, -⟩ | ⟨a, happend, haccepts⟩
      · rw [hsame]
        exact hold
      · rw [happend]
        intro b hb hbq
        rcases List.mem_append.1 hb with hmem | hnew
        · exact hold b hmem hbq
        · obtain ⟨m, hm, hseq, hpending, -⟩ := haccepts.question
          rw [List.mem_singleton.1 hnew] at hbq
          exact absurd hpending (hnone m hm (hseq.trans hbq))
  exact hinvariant.2.2.2

/-- In every run, a decision is answered once: the stored replies, resolutions, deliveries and
outcomes are those of the answers, and a step resolves a question by storing its answer only. -/
theorem decision_answered_once {evs : List Event} (h : Run Step initial evs d) :
    (d.answered.map (·.question)).Nodup ∧
      (∀ m ∈ d.ledger.messages, ∀ resp, m.decisionResponse = some resp → ∃ a ∈ d.answered,
        a.question = resp.requestSeq ∧ a.reply = m.seq ∧ d.responseOf m = some a.response) ∧
      (∀ m ∈ d.ledger.messages, m.decisionState = some .resolved → ∃ a ∈ d.answered,
        a.question = m.seq ∧ d.resolutionOf m = some a.resolution) ∧
      (∀ a ∈ d.answered, a.resolution.choice = a.response.choice ∧ a.works.length ≤ 1) ∧
      (∀ r ∈ d.ledger.deliveries, r.cause = .ownerAnswer → ∃ a ∈ d.answered,
        a.reply = r.messageSeq ∧ r.id ∈ a.works) ∧
      (∀ shown, .ok shown ∈ d.outcomes → ∃ a ∈ d.answered,
        shown = ⟨a.question, a.reply, a.resolution, some a.response⟩) ∧
      (∀ e d', Step d e d' → (d'.answered = d.answered ∧ Rests d d') ∨
        ∃ a, d'.answered = d.answered ++ [a] ∧ Accepts d a d') ∧
      ∀ evs' d', Run Step d evs' d' → ∀ q ≤ d.lastSeq,
        (∀ m ∈ d.ledger.messages, m.seq = q → m.decisionState ≠ some .pending) →
          ∀ a ∈ d'.answered, a.question = q → a ∈ d.answered := by
  have hbooked := run_booked h
  refine ⟨hbooked.once, fun m hm resp hresp => ?_, fun m hm hresolved => ?_, hbooked.agree,
    hbooked.works, hbooked.outcomes, fun e d' hstep => ?_,
    fun evs' d' hrun q hq hclosed => closed_stays hbooked hq hclosed hrun⟩
  · obtain ⟨a, ha, hq, hr, hresponse⟩ := hbooked.replies m hm resp hresp
    exact ⟨a, ha, hq, hr, by simp [responseOf, hresp, hresponse]⟩
  · obtain ⟨a, ha, hq, hresolution⟩ := hbooked.resolved m hm hresolved
    exact ⟨a, ha, hq, by simp [resolutionOf, hresolved, hresolution]⟩
  · obtain ⟨hready, rfl⟩ := hstep
    exact (advances_next hbooked hready).answered

instance (d : Desk) (r : Delivery) : Decidable (d.continuesRow r) := by
  unfold continuesRow
  infer_instance

instance (d : Desk) (e : Event) : Decidable (d.Ready e) := by
  cases e <;> unfold Ready <;> infer_instance

def uuid : Fin 6 → Uuid
  | 0 => ⟨"00000000-0000-4000-8000-000000000000", by decide⟩
  | 1 => ⟨"00000000-0000-4000-8000-000000000001", by decide⟩
  | 2 => ⟨"00000000-0000-4000-8000-000000000002", by decide⟩
  | 3 => ⟨"00000000-0000-4000-8000-000000000003", by decide⟩
  | 4 => ⟨"00000000-0000-4000-8000-000000000004", by decide⟩
  | 5 => ⟨"00000000-0000-4000-8000-000000000005", by decide⟩

def person (name : String) : Identity := ⟨name, .human, none, ""⟩

def messageOf (identity : Identity) (seq : ℕ) (hseq : 0 < seq) (question : Option Question)
    (targets : List DeliveryTarget) : SendCommit :=
  ⟨identity, seq, hseq, .message, none, none, [], false, question, targets, 0⟩

def assigned : Event :=
  .send (messageOf (person "lead") 1 Nat.one_pos none
    [⟨"bot", some "acct", false, uuid 0, uuid 1, uuid 2⟩]) ⟨false, "", []⟩

def started (r : Delivery) : Delivery := { r with state := .running }

def running : Event :=
  .moves ((initial.next assigned).ledger.deliveries.update (fun _ => true) started fun _ => rfl) []

/-- The agent asks on its running work, which is parked. -/
def asks : Event :=
  .send (messageOf ⟨"bot", .agent, some "acct", ""⟩ 2 Nat.two_pos
    (some ⟨none, false, none, uuid 3, uuid 4⟩) []) ⟨false, "which?", ["left", "right"]⟩

/-- Two people answer at a time, and the first one asks again. -/
def raced : List Event :=
  [assigned, running, asks, .arrive 0 (person "ann") false 2, .arrive 1 (person "joe") false 2,
    .body 0 ⟨.index 0, ""⟩ ⟨uuid 5, uuid 3, uuid 4⟩ false 1,
    .body 1 ⟨.index 1, ""⟩ ⟨uuid 4, uuid 3, uuid 2⟩ false 2, .arrive 2 (person "ann") false 2]

theorem decision_answered_once_raced : ∃ d, Run Step initial raced d ∧
    d.answered.map (·.reply) = [3] ∧ d.outcomes.length = 3 ∧
    (d.answered.map (·.question)).Nodup ∧ ∀ shown, .ok shown ∈ d.outcomes → shown.reply = 3 := by
  have hready : AllReady Ready next initial raced := by decide
  have hrun : Run Step initial raced _ := run_of_ready (fun _ _ h => ⟨h, rfl⟩) hready
  have hreply : (raced.foldl next initial).answered.map (·.reply) = [3] := by decide
  obtain ⟨honce, -, -, -, -, hshown, -⟩ := decision_answered_once hrun
  refine ⟨_, hrun, hreply, by decide, honce, fun shown hok => ?_⟩
  obtain ⟨a, ha, rfl⟩ := hshown shown hok
  have hmem : a.reply ∈ (raced.foldl next initial).answered.map (·.reply) := List.mem_map_of_mem ha
  rw [hreply] at hmem
  exact List.mem_singleton.1 hmem

end Desk
end Answers
end AgentParty
