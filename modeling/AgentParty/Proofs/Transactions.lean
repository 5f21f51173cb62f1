import AgentParty.Delivery.Machine
import AgentParty.Proofs.Operations

/-! The transactions of the room as sequences of writes: sweeps and deletions,
sends, decision responses. -/

namespace AgentParty
namespace Ledger

/-- A sweep: failures, scrubs and edits of the parked questions. -/
def Tag.sweeps (t : Tag) : Prop := t = .plain ∨ t = .closes ∨ t = .purges

/-- A deletion of rows or messages. -/
def Tag.prunes (t : Tag) : Prop := t = .plain ∨ t = .forgets

/-- The completions of an operation, by what they say of the rows at its start. -/
def Completes (l : Ledger) (Q : Delivery → Prop) (t : Tag) : Prop :=
  ∃ id, t = .completes id ∧ ∀ r ∈ l.deliveries, r.id = id → Q r

theorem MessageEdit.refl (m : Message) : MessageEdit m m := ⟨Or.inl rfl, Or.inl rfl⟩

theorem messageEdit_update {messages : Messages} {p : Message → Bool} {f : Message → Message}
    (hf : ∀ m, (f m).seq = m.seq) (h : ∀ m, MessageEdit m (f m)) :
    Table.Pointwise MessageEdit messages (messages.update p f hf) := by
  refine Table.pointwise_update hf fun m _ => ?_
  split_ifs
  · exact h m
  · exact MessageEdit.refl m

section Sweep

variable (l : Ledger) (now : Int)

theorem writes_invalidateQuestions (id : String) :
    Writes Tag.sweeps [] l (l.invalidateQuestions id) :=
  Writes.foldl (fun _ _ _ => Writes.single (Write.edit _ _
    (messageEdit_update (invalidatedQuestion_seq _) fun _ => ⟨Or.inr rfl, Or.inr rfl⟩))
    (Or.inl rfl)) l

theorem writes_failOne (row : Delivery) {failure : DeliveryFailure}
    (hf : failure.terminalReason.final = true) :
    Writes Tag.sweeps [] l (l.failOne row now failure) := by
  have hscrub : ∀ l : Ledger, Writes Tag.sweeps [] l
      (l.updateDelivery row.id (fun _ => true) scrubbedRow scrubbedRow_id) := fun l =>
    Writes.single (Write.purge _ _ _ _ fun _ _ _ _ => Purge.scrubs) (Or.inr (Or.inr rfl))
  unfold failOne
  dsimp only
  split_ifs with hu hs
  · refine (writes_invalidateQuestions l row.id).seq (Writes.seq ?_ (hscrub _))
    refine writes_close (Or.inr (Or.inl rfl)) _ _ now _ ?_ fun _ => hf
    intro hr
    have hs : row.state = .replied := by simpa [eq_comm] using hr
    simp [Delivery.unfinished, hs] at hu
  · refine (writes_invalidateQuestions l row.id).seq (Writes.seq ?_ (hscrub _))
    refine Writes.single (Write.purge _ _ _ _ fun r _ _ hg => ?_) (Or.inr (Or.inr rfl))
    exact Purge.reclassifies failure now (by simpa using hg) hf
  · exact (writes_invalidateQuestions l row.id).trans (hscrub _)

theorem writes_failDeliveryTree (initial : List String) {failure : DeliveryFailure}
    (hf : failure.terminalReason.final = true) :
    Writes Tag.sweeps [] l (l.failDeliveryTree initial now failure).1 := by
  unfold failDeliveryTree failDeliveryTreeWithin
  cases hr : WhileLoop.run (sweepStep now failure) (l.sweepFuel initial) ⟨l, initial, [], []⟩ with
  | none => exact Writes.refl l
  | some b =>
    refine WhileLoop.run_invariant (I := fun s => Writes Tag.sweeps [] l s.ledger)
      (Q := fun b => Writes Tag.sweeps [] l b.1) ?_ ?_ (Writes.refl l) hr
    · intro s s' hs h
      unfold sweepStep at h
      split at h
      · cases h
      · split at h
        · obtain rfl := Sum.inl.inj h
          exact hs
        · split at h
          · obtain rfl := Sum.inl.inj h
            exact hs
          · obtain rfl := Sum.inl.inj h
            exact hs.trans (writes_failOne s.ledger now _ hf)
    · intro s b hs h
      unfold sweepStep at h
      split at h
      · obtain rfl := Sum.inr.inj h
        exact hs
      · split at h
        · cases h
        · split at h <;> cases h

theorem writes_retractMessage (seq : ℕ) : Writes Tag.sweeps [] l (l.retractMessage seq now) := by
  unfold retractMessage
  split
  · exact Writes.refl l
  · have hedit : Table.Pointwise MessageEdit l.messages
        (l.messages.update (fun m => m.seq = seq) (retractedMessage now (l.revSeq + 1))
          (retractedMessage_seq _ _)) :=
      messageEdit_update (retractedMessage_seq _ _) fun _ => ⟨Or.inr rfl, Or.inr rfl⟩
    exact Writes.seq (Writes.single (Write.edit _ (l.revSeq + 1) hedit) (Or.inl rfl))
      (writes_failDeliveryTree _ now _ rfl)

theorem writes_failStaleQueued (cs : Connections) (webhooks : List AgentWebhook)
    (paused : List String) :
    Writes Tag.sweeps [] l (l.failStaleQueuedDeliveries cs webhooks paused now) :=
  writes_failDeliveryTree l now _ rfl

theorem mem_deleteDeliveries {p : Delivery → Bool} {r : Delivery} :
    r ∈ (l.deleteDeliveries p).deliveries ↔ r ∈ l.deliveries ∧ p r = false :=
  Table.mem_delete

theorem writes_deleteMessages (seqs : List ℕ) :
    Writes Tag.prunes [] l (l.deleteMessages seqs) := by
  refine Writes.seq (Writes.single (Write.forget fun r => seqs.contains r.messageSeq) (Or.inr rfl))
    (Writes.single (Write.drop _ ?_) (Or.inl rfl))
  intro m _ hm r hr hseq
  have := ((mem_deleteDeliveries l).1 hr).2
  rw [hseq] at this
  exact absurd hm (by simpa using this)

theorem writes_pruneDirectedDeliveries :
    Writes Tag.prunes [] l (l.pruneDirectedDeliveries now) :=
  Writes.single (Write.forget _) (Or.inr rfl)

theorem writes_eraseIdentityData (name : String) :
    Writes Tag.prunes [] l (l.eraseIdentityData name) := by
  have hedit : Table.Pointwise MessageEdit l.messages
      (l.messages.update (fun m => m.senderName = name) (erasedMessage (l.revSeq + 1))
        (erasedMessage_seq _)) :=
    messageEdit_update (erasedMessage_seq _) fun _ => ⟨Or.inr rfl, Or.inr rfl⟩
  exact Writes.seq (Writes.single (Write.edit _ (l.revSeq + 1) hedit) (Or.inl rfl))
    (Writes.single (Write.forget fun r => r.targetName = name) (Or.inr rfl))

end Sweep

section Send

variable (l : Ledger)

/-- The rows of `ensureDirectedDeliveries` for anything but an owner's decision. -/
theorem writes_ensure {msg : Message} (hm : msg ∈ l.messages) (targets : List DeliveryTarget)
    (causeOverride : Option DirectedDeliveryCause) (now : Int)
    (hc : causeOverride = some .mentionEdit ∨
      (causeOverride = none ∧ msg.decisionResponse = none)) :
    Writes (fun t => ∃ id, t = .enqueues id) (targets.map (·.id.val)) l
      (l.ensureDirectedDeliveries msg targets causeOverride now) := by
  have hfold : ∀ (ts : List DeliveryTarget) (l : Ledger), msg ∈ l.messages →
      Writes (fun t => ∃ id, t = .enqueues id) (ts.map (·.id.val)) l
        (ts.foldl (ensureOne msg causeOverride now) l) := by
    intro ts
    induction ts with
    | nil => exact fun l _ => Writes.refl l
    | cons t ts ih =>
      intro l hm
      rw [List.foldl_cons, List.map_cons]
      unfold ensureOne
      split_ifs
      · exact (ih l hm).ids_mono (List.sublist_cons_self _ _)
      · have hone : Writes (fun t => ∃ id, t = .enqueues id) [t.id.val] l
            { l with deliveries := l.deliveries.insert (l.newDelivery msg causeOverride now t) } := by
          refine Writes.single (Write.enqueue (l.newDelivery msg causeOverride now t) rfl ?_ rfl
            ⟨msg, hm, rfl⟩ ?_) ⟨_, rfl⟩
          · rcases hc with rfl | ⟨rfl, hresp⟩
            · simp [newDelivery]
            · simp only [newDelivery, Option.getD_none, directedDeliveryCause, hresp]
              split
              · simp at *
              · split
                · simp
                · split_ifs <;> simp
          · intro p hp
            simp only [newDelivery, Option.map_eq_some_iff] at hp
            obtain ⟨lineage, hlin, rfl⟩ := hp
            exact Or.inr ⟨msg, hm, lineage, Or.inr hlin, rfl⟩
        exact hone.trans (ih _ hm)
  unfold ensureDirectedDeliveries
  split_ifs
  · exact (Writes.refl l).ids_mono (List.nil_sublist _)
  · exact (hfold _ l hm).ids_mono (List.filter_sublist.map _)

theorem keepOrMint_usable {stored : Option String} {limit : ℕ} (minted : Uuid)
    (h : Usable limit stored) : (keepOrMint stored limit minted).val = text stored := by
  unfold keepOrMint
  exact congrArg Subtype.val (dif_pos h)

theorem keepOrMint_length (stored : Option String) (minted : Uuid) {limit : ℕ} (hl : 36 ≤ limit) :
    jsLength (keepOrMint stored limit minted).val ≤ limit := by
  unfold keepOrMint
  split_ifs with h
  · exact h.2
  · simpa [minted.length_eq] using hl

/-- What `activeDecisionDelivery` answers about the ledger it leaves. -/
structure Bound (l : Ledger) (lineage : DecisionLineage) : Prop where
  row : ∃ r ∈ l.deliveries, r.id = lineage.deliveryId
  workId : jsLength lineage.workId ≤ DELIVERY_WORK_ID_LIMIT
  continuationRef : jsLength lineage.continuationRef ≤ DELIVERY_CONTINUATION_REF_LIMIT

theorem activeDecisionDelivery_spec (identity : Identity) (workId continuationRef : Uuid) :
    let result := l.activeDecisionDelivery identity workId continuationRef
    Writes Tag.isPlain [] l result.1 ∧ result.1.messages = l.messages ∧
      ∀ lineage ∈ result.2.lineage?, Bound result.1 lineage := by
  unfold activeDecisionDelivery
  split
  · exact ⟨Writes.refl l, rfl, by simp [ActiveDecision.lineage?]⟩
  · rename_i row hrows
    have hmem : row ∈ l.deliveries ∧ row.active = true := by
      have : row ∈ l.deliveries.rows.filter fun r => identity.boundTo r && r.active := by
        rw [hrows]
        exact List.mem_singleton_self row
      simpa [Table.mem_def] using (List.mem_filter.1 this).imp_right fun h =>
        (Bool.and_eq_true_iff.1 h).2
    dsimp only
    have hw36 : 36 ≤ DELIVERY_WORK_ID_LIMIT := by decide
    have hc36 : 36 ≤ DELIVERY_CONTINUATION_REF_LIMIT := by decide
    have hwork := keepOrMint_length row.workId workId hw36
    have hcont := keepOrMint_length row.continuationRef continuationRef hc36
    split_ifs with hg
    · refine ⟨writes_rewrite (P := Tag.isPlain) rfl fun r hr hid _ => ?_, rfl, ?_⟩
      · obtain rfl := Table.eq_of_key hr hmem.1 hid
        exact Rewrite.mints _ _ hmem.2 (keepOrMint_usable workId)
          (keepOrMint_usable continuationRef)
      · simp only [ActiveDecision.lineage?, Option.mem_def, Option.some.injEq, forall_eq']
        exact ⟨⟨_, mem_updateDelivery.2 ⟨row, hmem.1, rfl⟩, by simp⟩, hwork, hcont⟩
    · refine ⟨Writes.refl l, rfl, ?_⟩
      simp only [ActiveDecision.lineage?, Option.mem_def, Option.some.injEq, forall_eq']
      exact ⟨⟨row, hmem.1, rfl⟩, hwork, hcont⟩
  · exact ⟨Writes.refl l, rfl, by simp [ActiveDecision.lineage?]⟩

/-- The rows that a message of `identity` answers. -/
def linksTo (identity : Identity) (seqs : List ℕ) (r : Delivery) : Prop :=
  r.messageSeq ∈ seqs ∧ r.targetName = identity.name ∧
    identity.identityMatchesDeliveryTarget r = true ∧ r.completable = true

theorem writes_completeDirectedDelivery (identity : Identity) (messageSeq replySeq : ℕ)
    (now : Int) :
    Writes (fun t => ∃ r ∈ l.deliveries, t = .completes r.id ∧ linksTo identity [messageSeq] r) [] l
      (l.completeDirectedDelivery identity messageSeq replySeq now) := by
  unfold completeDirectedDelivery
  split
  · exact Writes.refl l
  · rename_i row hrow
    have hmem : row ∈ l.deliveries := List.mem_of_find?_eq_some hrow
    have hkey := List.find?_some hrow
    simp only [Bool.and_eq_true, decide_eq_true_eq] at hkey
    split_ifs with h1 h2 h3
    · exact Writes.refl l
    · exact Writes.refl l
    · exact Writes.refl l
    · have hc : row.completable = true := by
        rw [Delivery.completable]
        cases hs : row.state <;> simp [hs] at h2 h3 ⊢
        exact h3
      refine Writes.single (Write.complete _ _ _ ?_)
        ⟨row, hmem, rfl, by simp [hkey.1], hkey.2, by simpa using h1, hc⟩
      intro hw
      have hs : row.state = .waitingOwner := by simpa [eq_comm] using hw
      simp [Delivery.completable, hs] at hc

theorem linksTo_of_steady {identity : Identity} {seqs : List ℕ} {r r' : Delivery}
    (h : Steady r r') (hl : linksTo identity seqs r') : linksTo identity seqs r := by
  obtain ⟨hseq, hname, hmatch, hc⟩ := hl
  have ht := h.target
  simp only [Delivery.target, Prod.mk.injEq] at ht
  refine ⟨h.messageSeq ▸ hseq, ht.1 ▸ hname, ?_, h.completable hc⟩
  simpa only [Identity.identityMatchesDeliveryTarget, Delivery.principal, ht.1, ht.2] using hmatch

/-- The completions of a later ledger are completions of the rows it continues. -/
theorem Completes.of_continues {l l' : Ledger} {ids : List String}
    (h : Continues Steady ids l l') (hfresh : ∀ r ∈ l.deliveries, r.id ∉ ids)
    {identity : Identity} {seqs : List ℕ} {r' : Delivery} (hr' : r' ∈ l'.deliveries)
    (hl : linksTo identity seqs r') :
    Completes l (linksTo identity seqs) (.completes r'.id) := by
  refine ⟨r'.id, rfl, fun r hr hid => ?_⟩
  rcases h r' hr' with ⟨r0, hr0, hid0, hst⟩ | ⟨hmem, -⟩
  · obtain rfl := Table.eq_of_key hr0 hr (hid0.trans hid.symm)
    exact linksTo_of_steady hst hl
  · exact absurd (hid ▸ hmem) (hfresh r hr)

theorem steady_trans (a b c : Delivery) : Steady a b → Steady b c → Steady a c := Steady.trans

/-- Linked completions, seen from a ledger that the current one continues. -/
theorem writes_linkWakeResume {l₀ l : Ledger} {ids : List String}
    (h : Continues Steady ids l₀ l) (hfresh : ∀ r ∈ l₀.deliveries, r.id ∉ ids)
    (identity : Identity) (msg : Message) (alsoResolves : List ℕ) (now : Int) :
    Writes (Completes l₀ (linksTo identity (linkedSeqs msg alsoResolves))) [] l
      (l.linkWakeResume identity msg alsoResolves now) := by
  have hfold : ∀ (seqs : List ℕ), seqs ⊆ linkedSeqs msg alsoResolves → ∀ l : Ledger,
      Continues Steady ids l₀ l →
      Writes (Completes l₀ (linksTo identity (linkedSeqs msg alsoResolves))) [] l
        (seqs.foldl (fun l seq => l.completeDirectedDelivery identity seq msg.seq now) l) := by
    intro seqs
    induction seqs with
    | nil => exact fun _ l _ => Writes.refl l
    | cons seq seqs ih =>
      intro hsub l hl
      have hone := writes_completeDirectedDelivery l identity seq msg.seq now
      have hsteady : Continues Steady [] l (l.completeDirectedDelivery identity seq msg.seq now) :=
        hone.steady fun t ⟨r, _, ht, _⟩ => by simp [ht, Tag.steady]
      have hnext : Continues Steady ids l₀ (l.completeDirectedDelivery identity seq msg.seq now) := by
        simpa using hl.trans steady_trans hsteady
      rw [List.foldl_cons]
      refine (hone.mono ?_).seq (ih (fun _ h => hsub (List.mem_cons_of_mem _ h)) _ hnext)
      rintro t ⟨r', hr', rfl, hlink⟩
      refine Completes.of_continues hl hfresh hr' ⟨?_, hlink.2⟩
      rw [List.mem_singleton.1 hlink.1]
      exact hsub List.mem_cons_self
  exact hfold _ (List.Subset.refl _) l h

theorem writes_pruneByCount (seq : ℕ) (now : Int) :
    Writes Tag.prunes [] l (l.pruneByCount seq now) := by
  unfold pruneByCount
  split_ifs
  · exact Writes.refl l
  · refine Writes.seq (Writes.single (Write.forget _) (Or.inr rfl))
      (Writes.single (Write.drop _ ?_) (Or.inl rfl))
    intro m _ hm r hr hseq
    simp only [Bool.and_eq_true, Bool.not_eq_true', List.any_eq_false, decide_eq_true_eq] at hm
    exact hm.2 r hr hseq

/-- The lineage that a send stores with its question. -/
def sendLineage (c : SendCommit) : Option DecisionLineage := (l.questionDelivery c).2.lineage?

/-- The seqs that a send settles for its sender. -/
def sendLinks (c : SendCommit) : List ℕ :=
  linkedSeqs (sentMessage c (l.sendLineage c)) c.alsoResolves

/-- Rows of plain writes, new work, and completions. -/
def Tag.sends (l : Ledger) (Q : Delivery → Prop) (t : Tag) : Prop :=
  t.prunes ∨ (∃ id, t = .enqueues id) ∨ Completes l Q t

theorem questionDelivery_spec (c : SendCommit) :
    Writes Tag.isPlain [] l (l.questionDelivery c).1 ∧
      (l.questionDelivery c).1.messages = l.messages ∧
      ∀ lineage ∈ l.sendLineage c, Bound (l.questionDelivery c).1 lineage := by
  unfold sendLineage questionDelivery
  cases c.question with
  | none => exact ⟨Writes.refl l, rfl, by simp [ActiveDecision.lineage?]⟩
  | some q =>
    dsimp only
    split_ifs
    · exact activeDecisionDelivery_spec l _ _ _
    · exact ⟨Writes.refl l, rfl, by simp [ActiveDecision.lineage?]⟩

theorem sentMessage_requestLineage {c : SendCommit} {lineage : Option DecisionLineage}
    {bound : DecisionLineage} (h : Message.requestLineage (sentMessage c lineage) = some bound) :
    lineage = some bound := by
  simp only [Message.requestLineage, sentMessage, requestColumn] at h
  cases hq : c.question <;> simp [hq] at h
  exact h

theorem writes_park (identity : Identity) (lineage : DecisionLineage) (now : Int) :
    Writes Tag.isPlain [] l (l.parkDelivery identity lineage now) := by
  refine Writes.single (Write.rewrite _ _ _ _ fun r _ _ hg => Rewrite.parks now ?_) rfl
  simp only [Bool.and_eq_true] at hg
  exact hg.2

theorem Tag.isPlain.steady {t : Tag} (h : t.isPlain) : t.steady = true := by
  simp [show t = .plain from h, Tag.steady]

/-- A send stores its message and the deliveries, and may park the work it asks about. -/
theorem writes_storeSend_park (l : Ledger) (c : SendCommit) (lineage : Option DecisionLineage) :
    ∃ l', Writes Tag.isPlain []
        (({ l with messages := l.messages.insert (sentMessage c lineage) } :
          Ledger).ensureDirectedDeliveries (sentMessage c lineage) c.targets none c.now) l' ∧
      l.storeSend c lineage = (l'.linkWakeResume c.identity (sentMessage c lineage) c.alsoResolves
        c.now).pruneByCount c.seq c.now := by
  unfold storeSend
  cases lineage with
  | none => exact ⟨_, Writes.refl _, rfl⟩
  | some bound =>
    dsimp only
    split_ifs
    · exact ⟨_, writes_park _ _ _ _, rfl⟩
    · exact ⟨_, Writes.refl _, rfl⟩

/-- The rows of a send, whose keys are those of its targets. -/
theorem writes_commitSend (c : SendCommit) (hseq : ∀ m ∈ l.messages, m.seq < c.seq)
    (hfresh : ∀ r ∈ l.deliveries, r.id ∉ c.targets.map (·.id.val)) :
    Writes (Tag.sends l (linksTo c.identity (l.sendLinks c))) (c.targets.map (·.id.val)) l
      (l.commitSend c) := by
  obtain ⟨hq, hmsgs, hbound⟩ := questionDelivery_spec l c
  unfold commitSend
  change Writes _ _ l (if questionRefused c (l.questionDelivery c).2 then (l.questionDelivery c).1
    else (l.questionDelivery c).1.storeSend c (l.sendLineage c))
  set l₁ := (l.questionDelivery c).1
  split_ifs
  · exact (hq.mono fun _ ht => Or.inl (Or.inl ht)).ids_mono (List.nil_sublist _)
  set msg := sentMessage c (l.sendLineage c) with hmsg
  -- the message
  have hstore : Writes Tag.isPlain [] l₁ { l₁ with messages := l₁.messages.insert msg } := by
    refine Writes.single (Write.store msg (by rw [hmsgs]; exact hseq) ?_ ?_) rfl
    · rintro lineage (hlin | hlin)
      · obtain ⟨r, hr, hid⟩ := (hbound _ (sentMessage_requestLineage hlin)).row
        exact Or.inl ⟨r, hr, Or.inl hid⟩
      · simp [Message.responseLineage, hmsg, sentMessage] at hlin
    · intro lineage hlin
      have hb := hbound _ (sentMessage_requestLineage hlin)
      exact ⟨hb.workId, hb.continuationRef⟩
  have hmem : msg ∈ ({ l₁ with messages := l₁.messages.insert msg } : Ledger).messages :=
    Table.mem_insert.2 (Or.inr ⟨rfl, fun m hm => (hseq m (hmsgs ▸ hm)).ne⟩)
  -- its deliveries, and the parked work
  have hensure := writes_ensure _ hmem c.targets none c.now (Or.inr ⟨rfl, rfl⟩)
  set l₃ := ({ l₁ with messages := l₁.messages.insert msg } : Ledger).ensureDirectedDeliveries msg
    c.targets none c.now
  obtain ⟨l₄, hpark, hstored⟩ := writes_storeSend_park l₁ c (l.sendLineage c)
  rw [hstored]
  -- the linked completions, as completions of rows that were there at the start
  have hcont : Continues Steady (c.targets.map (·.id.val)) l l₄ := by
    have h1 := (hq.seq hstore).steady fun _ => Tag.isPlain.steady
    have h2 := hensure.steady (by
      rintro t ⟨id, rfl⟩
      simp [Tag.steady])
    have h3 := hpark.steady fun _ => Tag.isPlain.steady
    simpa using (h1.trans steady_trans h2).trans steady_trans h3
  have hlink := writes_linkWakeResume hcont hfresh c.identity msg c.alsoResolves c.now
  have hprune := writes_pruneByCount (l₄.linkWakeResume c.identity msg c.alsoResolves c.now) c.seq
    c.now
  set Q := linksTo c.identity (l.sendLinks c)
  have hplain : ∀ t, Tag.isPlain t → Tag.sends l Q t := fun _ ht => Or.inl (Or.inl ht)
  have h12 := ((hq.seq hstore).mono hplain).seq
    (hensure.mono fun _ ht => Or.inr (Or.inl ht))
  have h34 := (hpark.mono hplain).seq
    ((hlink.mono fun _ ht => Or.inr (Or.inr ht)).seq (hprune.mono fun _ => Or.inl))
  have h := h12.trans h34
  rw [List.append_nil] at h
  exact h

end Send

section Respond

variable (l : Ledger)

/-- Rows of plain writes, an answer's work, and completions. -/
def Tag.responds (l : Ledger) (Q : Delivery → Prop) (t : Tag) : Prop :=
  t.isPlain ∨ (∃ id, t = .answers id) ∨ Completes l Q t

theorem Write.completes_messages {l l' : Ledger} {id : String} (h : Write l (.completes id) l') :
    l'.messages = l.messages := by
  generalize ht : Tag.completes id = t at h
  cases h <;> cases ht
  exact (transition_spec l id .replied _ _).1

theorem Writes.completes_messages {l₀ l l' : Ledger} {Q : Delivery → Prop} {ids : List String}
    (h : Writes (Completes l₀ Q) ids l l') : l'.messages = l.messages := by
  obtain ⟨tags, hr, hp, -⟩ := h
  induction hr with
  | nil => rfl
  | @snoc evs t t' e _ hw ih =>
    obtain ⟨id, rfl, -⟩ := hp e (by simp)
    exact hw.completes_messages.trans (ih fun t ht => hp t (List.mem_append_left _ ht))

/-- The work an answer resumes, as the response found it. -/
def Resumes (l : Ledger) (request : DecisionRequest) : Prop :=
  ∀ lineage, request.lineage = some lineage → ∃ source ∈ l.deliveries,
    source.id = lineage.deliveryId ∧ source.state = .waitingOwner ∧
      source.messageSeq = lineage.originSeq

theorem resumes_of_answerPrincipal {question : Message} {request : DecisionRequest}
    {directoryOwner : Option String} {principal : String}
    (h : l.answerPrincipal question request directoryOwner = some principal) :
    Resumes l request := by
  intro lineage hlin
  simp only [answerPrincipal, hlin] at h
  cases hs : l.exactDecisionSource question request with
  | none => simp [hs] at h
  | some source =>
    simp only [hs] at h
    split_ifs at h with hw
    simp only [exactDecisionSource, hlin, Option.filter_eq_some_iff, Bool.and_eq_true,
      decide_eq_true_eq] at hs
    obtain ⟨hrow, hs⟩ := hs
    exact ⟨source, (row_eq_some.1 hrow).1, (row_eq_some.1 hrow).2, hw, hs.1.1.1.2⟩

/-- The request lineages that messages carry have usable values. -/
def UsableRequests (l : Ledger) : Prop :=
  ∀ m ∈ l.messages, ∀ lineage, Message.requestLineage m = some lineage →
    jsLength lineage.workId ≤ DELIVERY_WORK_ID_LIMIT ∧
      jsLength lineage.continuationRef ≤ DELIVERY_CONTINUATION_REF_LIMIT

theorem writes_commitAnswer (a : DecisionAnswer) {question : Message} {request : DecisionRequest}
    (hq : l.messages.get? a.questionSeq = some question)
    (hreq : question.decisionRequest.bind (·.parsed) = some request)
    (hu : UsableRequests l) (hseq : ∀ m ∈ l.messages, m.seq < a.seq) {targets : List DeliveryTarget}
    (htargets : targets = [] ∨ ∃ name owner, Resumes l request ∧
      targets = [⟨name, owner, false, a.id, a.workId, a.continuationRef⟩]) :
    Writes (Tag.responds l (linksTo a.responder [a.questionSeq])) [a.id.val] l
      (l.commitAnswer a request targets) := by
  set Q := linksTo a.responder [a.questionSeq]
  set edited := l.messages.update
    (fun m => m.seq = a.questionSeq && m.decisionState = some DecisionState.pending)
    (resolvedQuestion (l.revSeq + 1)) (resolvedQuestion_seq _) with hedited
  set msg := answerMessage a request with hmsg
  have hlineage : Message.requestLineage question = request.lineage := by
    rw [Message.requestLineage, hreq]
    rfl
  -- the question is settled, the reply stored
  have hedit : Writes Tag.isPlain [] l { l with messages := edited, revSeq := l.revSeq + 1 } :=
    Writes.single (Write.edit _ _ (messageEdit_update (resolvedQuestion_seq _)
      fun _ => ⟨Or.inl rfl, Or.inl rfl⟩)) rfl
  have hfresh : ∀ m ∈ edited, m.seq < a.seq := by
    intro m hm
    obtain ⟨m0, hm0, rfl⟩ := (Table.mem_update (resolvedQuestion_seq _)).1 hm
    split_ifs
    · exact hseq m0 hm0
    · exact hseq m0 hm0
  set l₁ : Ledger :=
    { l with messages := edited.insert msg, revSeq := l.revSeq + 1 } with hl₁
  have hstore : Writes Tag.isPlain [] { l with messages := edited, revSeq := l.revSeq + 1 } l₁ := by
    refine Writes.single (Write.store msg hfresh ?_ ?_) rfl
    · rintro lineage (hlin | hlin)
      · simp [Message.requestLineage, hmsg, answerMessage] at hlin
      · obtain ⟨hqm, -⟩ := Table.get?_eq_some.1 hq
        have hlin' : request.lineage = some lineage := hlin
        refine Or.inr ⟨_, (Table.mem_update (resolvedQuestion_seq _)).2 ⟨question, hqm, rfl⟩,
          lineage, Or.inl ?_, rfl⟩
        split_ifs
        · exact hlineage.trans hlin'
        · exact hlineage.trans hlin'
    · intro lineage hlin
      simp [Message.requestLineage, hmsg, answerMessage] at hlin
  have hmem : msg ∈ l₁.messages :=
    Table.mem_insert.2 (Or.inr ⟨rfl, fun m hm => (hfresh m hm).ne⟩)
  -- the completions of the responder
  have hcont := (hedit.seq hstore).steady fun _ => Tag.isPlain.steady
  have hlink := writes_linkWakeResume hcont (by simp) a.responder msg [] a.now
  set l₂ := l₁.linkWakeResume a.responder msg [] a.now with hl₂
  have hcont₂ : Continues Steady [] l l₂ :=
    hcont.trans steady_trans (hlink.steady fun t ⟨id, ht, _⟩ => by simp [ht, Tag.steady])
  have hmsgs : l₂.messages = l₁.messages := hlink.completes_messages
  have hbefore : Writes (Tag.responds l Q) [] l l₂ :=
    ((hedit.seq hstore).mono (Q := Tag.responds l Q) fun _ => Or.inl).seq
      (hlink.mono fun _ ht => Or.inr (Or.inr ht))
  -- the work item
  change Writes _ _ l (l₂.ensureDirectedDeliveries msg targets none a.now)
  rcases htargets with rfl | ⟨name, owner, hres, rfl⟩
  · exact hbefore.ids_mono (List.nil_sublist _)
  · set t : DeliveryTarget := ⟨name, owner, false, a.id, a.workId, a.continuationRef⟩
    change Writes _ _ l (l₂.ensureOne msg none a.now t)
    unfold ensureOne
    split_ifs
    · exact hbefore.ids_mono (List.nil_sublist _)
    refine hbefore.seq (Writes.single (Write.answer (l₂.newDelivery msg none a.now t) rfl ?_ rfl
      ⟨msg, hmsgs ▸ hmem, rfl⟩ ?_) (Or.inr (Or.inl ⟨_, rfl⟩)))
    · refine ⟨rfl, ⟨a.questionSeq, request.lineage⟩, ?_, ?_⟩
      · have hget : l₂.messages.get? a.seq = some msg := by
          rw [hmsgs]
          exact Table.get?_eq_some.2 ⟨hmem, rfl⟩
        change (l₂.messages.get? a.seq).bind (·.decisionResponse) = _
        rw [hget]
        rfl
      · cases hlin : request.lineage with
        | none => simp [newDelivery, hmsg, answerMessage, hlin]
        | some lineage =>
          have hrl : msg.decisionResponse.bind (·.lineage) = some lineage := hlin
          obtain ⟨hqm, -⟩ := Table.get?_eq_some.1 hq
          obtain ⟨hwl, hcl⟩ := hu question hqm lineage (hlineage.trans hlin)
          dsimp only [newDelivery]
          simp only [hrl, Option.map_some, Option.getD_some, true_and]
          refine ⟨⟨lineage.workId_ne, hwl⟩, ⟨lineage.continuationRef_ne, hcl⟩, ?_⟩
          intro p hp hid
          obtain ⟨source, hsrc, hsid, hw, horigin⟩ := hres lineage hlin
          rcases hcont₂ p hp with ⟨r, hr, hrid, hst⟩ | ⟨hnil, -⟩
          · obtain rfl := Table.eq_of_key hr hsrc (hrid.trans (hid.trans hsid.symm))
            exact ⟨hst.released (by simp [Delivery.released, hw]), hst.messageSeq.trans horigin⟩
          · simp at hnil
    · intro p hp
      simp only [newDelivery, Option.map_eq_some_iff] at hp
      obtain ⟨lineage, hlin, rfl⟩ := hp
      exact Or.inr ⟨msg, hmsgs ▸ hmem, lineage, Or.inr hlin, rfl⟩

theorem writes_respondDecision (a : DecisionAnswer) (hu : UsableRequests l)
    (hseq : ∀ m ∈ l.messages, m.seq < a.seq) :
    Writes (Tag.responds l (linksTo a.responder [a.questionSeq])) [a.id.val] l
      (l.respondDecision a) := by
  have hrefl : Writes (Tag.responds l (linksTo a.responder [a.questionSeq])) [a.id.val] l l :=
    (Writes.refl l).ids_mono (List.nil_sublist _)
  unfold respondDecision
  split
  · exact hrefl
  rename_i question hq
  split
  · exact hrefl
  rename_i request hreq
  split_ifs
  · exact hrefl
  · exact writes_commitAnswer l a hq hreq hu hseq (Or.inl rfl)
  · split
    · exact hrefl
    · rename_i principal hp
      exact writes_commitAnswer l a hq hreq hu hseq
        (Or.inr ⟨_, _, resumes_of_answerPrincipal l hp, rfl⟩)

/-- A message without decision columns, and the debt it settles. -/
theorem writes_note (m : Message) (author : Identity) (now : Int)
    (hseq : ∀ m' ∈ l.messages, m'.seq < m.seq) (hreq : m.decisionRequest = none)
    (hresp : m.decisionResponse = none) :
    Writes (fun t => t.isPlain ∨ Completes l (linksTo author (linkedSeqs m [])) t) [] l
      ((l.storeMessage m).linkWakeResume author m [] now) := by
  have hnone : ∀ lineage, ¬ (Message.requestLineage m = some lineage ∨
      Message.responseLineage m = some lineage) := by
    rintro lineage (h | h) <;> simp [Message.requestLineage, Message.responseLineage, hreq, hresp] at h
  have hstore : Writes Tag.isPlain [] l (l.storeMessage m) :=
    Writes.single (Write.store m hseq (fun lineage h => absurd h (hnone lineage))
      fun lineage h => absurd (Or.inl h) (hnone lineage)) rfl
  have hlink := writes_linkWakeResume (hstore.steady fun _ => Tag.isPlain.steady) (by simp) author m
    [] now
  exact (hstore.mono fun _ => Or.inl).seq (hlink.mono fun _ => Or.inr)

end Respond

end Ledger
end AgentParty
