import AgentParty.Proofs.Leasing

/-! Every step of the room is a sequence of writes of the kinds its event permits,
and what all of them keep: known keys, usable lineages, tails that work on the
queue of their own target. -/

namespace AgentParty
open Ledger

namespace Room

/-- The primary keys an event may create. -/
def creates : Event → List String
  | .send c => c.targets.map (·.id.val)
  | .stage _ _ targets _ => targets.map (·.id.val)
  | .respond a => [a.id.val]
  | _ => []

theorem map_sublist_flatMap (targets : List DeliveryTarget) :
    (targets.map (·.id.val)).Sublist
      (targets.flatMap fun t => [t.id.val, t.workId.val, t.continuationRef.val]) := by
  induction targets with
  | nil => exact List.nil_sublist _
  | cons t ts ih =>
    simp only [List.map_cons, List.flatMap_cons, List.cons_append, List.nil_append]
    exact (ih.cons _ |>.cons _).cons_cons _

theorem creates_sublist (e : Event) : (creates e).Sublist (mints e) := by
  cases e with
  | send c => exact (map_sublist_flatMap c.targets).trans (List.sublist_append_right _ _)
  | stage _ _ targets _ => exact map_sublist_flatMap targets
  | respond a => simp [creates, mints]
  | _ => exact List.nil_sublist _

/-- The writes an event permits. -/
def permits (r : Room) : Event → Tag → Prop
  | .send c => Tag.sends r.ledger (linksTo c.identity (r.ledger.sendLinks c))
  | .stage _ _ _ _ => fun t => ∃ id, t = .enqueues id
  | .note m author _ => fun t => t.isPlain ∨ Completes r.ledger (linksTo author (linkedSeqs m [])) t
  | .respond a => Tag.responds r.ledger (linksTo a.responder [a.questionSeq])
  | .dispatchPrincipal _ _ _ _ => fun t => t.settles ∨ ∃ id, t = .takes id
  | .recover _ _ f _ _ => Tag.recoversWith f
  | .update identity connectionId u _ => fun t => t.settles ∨
      Completes r.ledger (reportsReply r.ledger r.sockets.connections identity connectionId u) t
  | .acknowledge identity deliveryId _ => Completes r.ledger (acknowledges identity deliveryId)
  | .redeliveryStarts item _ => (· = .reclaims item.payload.deliveryId)
  | .retract _ _ | .staleQueued _ | .sourcesExpired _ _ _ => Tag.sweeps
  | .deleteMessages _ | .pruneDeliveries _ | .eraseIdentity _ => Tag.prunes
  | _ => Tag.settles

/-- The row a tail has selected. -/
def selected : DispatchStage → Option Delivery
  | .top => none
  | .removalCheck queued => some queued
  | .principalCheck queued => some queued

/-- What every reachable room keeps. -/
structure Sound (r : Room) : Prop where
  known : ∀ id, r.ledger.Mentions id → id ∈ r.minted
  usable : UsableRequests r.ledger
  tails : ∀ t ∈ r.tails, ∀ queued, selected t.2 = some queued → queued.id ∈ r.minted ∧
    ∀ row ∈ r.ledger.deliveries, row.id = queued.id → row.targetName = t.1.targetName

theorem completes_of_mem {l : Ledger} {Q : Delivery → Prop} {t : Tag}
    (h : ∃ r ∈ l.deliveries, t = .completes r.id ∧ Q r) : Completes l Q t := by
  obtain ⟨r, hr, rfl, hq⟩ := h
  refine ⟨r.id, rfl, fun r' hr' hid => ?_⟩
  rwa [Table.eq_of_key hr' hr hid]

section Writes

variable {r : Room}

theorem withHandoff_ledger (r : Room) (handoff : Option Handoff) :
    (r.withHandoff handoff).ledger = r.ledger := by
  cases handoff with
  | none => rfl
  | some h => cases h <;> rfl

theorem withTail_ledger (r : Room) (task : DispatchTask) (next : DispatchNext) :
    (r.withTail task next).ledger = r.ledger := by
  cases next <;> rfl

theorem writes_dispatchPrincipal (h : r.Sound) (targetName : String) (isCurrent : Bool)
    (token : Uuid) (now : Int) :
    Ledger.Writes (fun t => t.settles ∨ ∃ id, t = .takes id) [] r.ledger
      (r.apply (.dispatchPrincipal targetName isCurrent token now)).ledger := by
  unfold apply dispatchStep
  dsimp only
  split
  · exact Writes.refl _
  rename_i task stage htail
  have hmem : (task, stage) ∈ r.tails := List.mem_of_find?_eq_some htail
  unfold applyDispatchPrincipal
  split
  · rename_i queued
    have hq := (h.tails _ hmem queued rfl).2
    split
    · exact Writes.refl _
    · split_ifs
      · rw [withTail_ledger]
        exact (writes_removeParticipantRows _ now _ _).mono fun _ => Or.inl
      · rw [withHandoff_ledger, withTail_ledger]
        exact (writes_dispatchDecide _ now hq _ token).mono
          fun _ ht => ht.imp_right fun h => ⟨_, h⟩
  · exact Writes.refl _

/-- The check of a handoff leaves connections and tails alone and at most removes an adapter. -/
structure Aside (r r' : Room) : Prop where
  sockets : r'.sockets = r.sockets
  tails : r'.tails = r.tails
  writes : Ledger.Writes Tag.settles [] r.ledger r'.ledger

theorem aside_handoffRemoval (item : WebhookItem) (isRemoved : Bool) (now : Int) :
    Aside r (r.applyHandoffRemoval item isRemoved now) := by
  unfold applyHandoffRemoval
  dsimp only
  split_ifs
  · exact ⟨rfl, rfl, writes_removeParticipantRows r.ledger now _ _⟩
  · exact ⟨rfl, rfl, Writes.refl _⟩

theorem aside_handoffPrincipal (item : WebhookItem) (isCurrent : Bool) (now : Int) :
    Aside r (r.applyHandoffPrincipal item isCurrent now) := by
  unfold applyHandoffPrincipal
  dsimp only
  split
  · exact ⟨rfl, rfl, Writes.refl _⟩
  · split_ifs
    · exact ⟨rfl, rfl, writes_removeParticipantRows r.ledger now _ _⟩
    · exact ⟨rfl, rfl, Writes.refl _⟩

/-- A step writes the ledger by the writes its event permits. -/
theorem step_writes (h : r.Sound) {e : Event} {r' : Room} (hs : Step r e r') :
    Ledger.Writes (r.permits e) (creates e) r.ledger r'.ledger := by
  obtain ⟨⟨-, hfresh, hen⟩, rfl⟩ := hs
  change Ledger.Writes (r.permits e) (creates e) r.ledger (r.apply e).ledger
  have hnew : ∀ row ∈ r.ledger.deliveries, row.id ∉ creates e := fun row hrow hid =>
    hfresh _ ((creates_sublist e).subset hid)
      (h.known _ (Or.inl ⟨row, hrow, Or.inl rfl⟩))
  have hnone : ∀ {t : Tag → Prop}, Ledger.Writes t [] r.ledger r.ledger := Writes.refl _
  cases e with
  | send c => exact writes_commitSend r.ledger c hen hnew
  | stage seq edited targets now =>
    simp only [apply]
    split
    · exact hnone.ids_mono (List.nil_sublist _)
    · rename_i msg hmsg
      obtain ⟨hm, hseq⟩ := Table.get?_eq_some.1 hmsg
      refine writes_ensure _ hm targets _ now ?_
      obtain ⟨m, hm', hmseq, he⟩ := hen
      obtain rfl := Table.eq_of_key hm' hm (hmseq.trans hseq.symm)
      by_cases hedit : edited = true
      · exact Or.inl (by simp [hedit])
      · exact Or.inr ⟨by simp [hedit], he.resolve_left hedit⟩
  | note m author now =>
    exact writes_note r.ledger m author now hen.1 (by simpa using hen.2.2.1) hen.2.2.2
  | respond a => exact writes_respondDecision r.ledger a h.usable hen
  | dispatchStart targetName excludeId =>
    simp only [apply]
    split_ifs <;> exact hnone
  | dispatchTop targetName now =>
    simp only [apply, dispatchStep]
    split
    · exact hnone
    · split
      · rw [withTail_ledger]
        exact writes_dispatchTop r.ledger now _
      · exact hnone
  | dispatchRemoval targetName isRemoved now =>
    simp only [apply, dispatchStep]
    split
    · exact hnone
    · split
      · split_ifs
        · rw [withTail_ledger]
          exact writes_removeParticipantRows r.ledger now _ _
        · rw [withTail_ledger]
          exact hnone
      · exact hnone
  | dispatchPrincipal targetName isCurrent token now =>
    exact writes_dispatchPrincipal h targetName isCurrent token now
  | recover identity connectionId f lingering now =>
    exact writes_recoverDirectedDelivery r.ledger _ lingering identity connectionId f now
  | update identity connectionId u now =>
    exact (writes_update r.ledger now _ identity connectionId u).mono
      fun _ ht => ht.imp_right completes_of_mem
  | heartbeat identity connectionId currentTask now =>
    exact writes_heartbeat r.ledger now identity connectionId currentTask
  | acknowledge identity deliveryId now =>
    exact (writes_acknowledge r.ledger now identity deliveryId).mono fun _ => completes_of_mem
  | socketLost connectionId now => exact writes_socketLost r.ledger now connectionId
  | leaseExpired lingering now => exact writes_leaseExpired r.ledger now
  | staleQueued now => exact writes_failStaleQueued r.ledger now _ _ _
  | retract seq now => exact writes_retractMessage r.ledger now seq
  | sourcesExpired roots failure now =>
    refine writes_failDeliveryTree r.ledger now roots ?_
    rcases hen.2 with hf | hf <;> rw [hf] <;> rfl
  | deleteMessages seqs => exact writes_deleteMessages r.ledger seqs
  | pruneDeliveries now => exact writes_pruneDirectedDeliveries r.ledger now
  | eraseIdentity name => exact writes_eraseIdentityData r.ledger name
  | reviewed seq reviewPending =>
    exact Writes.single (Write.edit _ _ (messageEdit_update (withReviewPending_seq _)
      fun _ => ⟨Or.inl rfl, Or.inl rfl⟩)) (Or.inl rfl)
  | removeParticipant name now => exact writes_removeParticipantRows r.ledger now _ _
  | removeStalePrincipal name principal now => exact writes_removeParticipantRows r.ledger now _ _
  | deleteWebhook hook now => exact writes_deleteWebhook r.ledger r.hooks now hook
  | handoffRemoval item isRemoved now => exact (aside_handoffRemoval item isRemoved now).writes
  | handoffPrincipal item isCurrent now => exact (aside_handoffPrincipal item isCurrent now).writes
  | dispatchPosted item ok now => exact writes_dispatchPosted r.ledger r.hooks now item ok
  | retryStarts item now => exact writes_retryStarts r.ledger r.hooks now item
  | retryPosted item ok now => exact writes_retryPosted r.ledger r.hooks now item ok
  | redeliveryStarts item now => exact writes_redeliveryStarts r.ledger r.hooks now item
  | redeliveryPosted item ok now => exact writes_redeliveryPosted r.ledger r.hooks now item ok
  | restoreParticipant | pause | resume | registerWebhook | scrubWebhookItems | socket =>
    exact hnone

end Writes

end Room

/-- What a row keeps under every write. -/
structure Kept (r r' : Delivery) : Prop where
  messageSeq : r'.messageSeq = r.messageSeq
  target : r'.target = r.target
  cause : r'.cause = r.cause
  parent : r'.parentDeliveryId = r.parentDeliveryId ∨ r'.parentDeliveryId = none
  attempt : r.attempt ≤ r'.attempt

theorem Kept.refl (r : Delivery) : Kept r r := ⟨rfl, rfl, rfl, Or.inl rfl, le_rfl⟩

theorem Kept.trans {a b c : Delivery} (h : Kept a b) (h' : Kept b c) : Kept a c where
  messageSeq := h'.messageSeq.trans h.messageSeq
  target := h'.target.trans h.target
  cause := h'.cause.trans h.cause
  parent := h'.parent.elim (fun e => e ▸ h.parent) Or.inr
  attempt := h.attempt.trans h'.attempt

namespace Ledger

theorem kept_rewrite {r r' : Delivery} (h : Rewrite r r') : Kept r r' := by
  cases h <;> exact ⟨rfl, rfl, rfl, Or.inl rfl, le_rfl⟩

theorem kept_purge {r r' : Delivery} (h : Purge r r') : Kept r r' := by
  cases h with
  | reclassifies => exact ⟨rfl, rfl, rfl, Or.inl rfl, le_rfl⟩
  | scrubs => exact ⟨rfl, rfl, rfl, Or.inr rfl, le_rfl⟩

theorem kept_takeover {l : Ledger} {f : DeliveryRecoverFrame} {r r' : Delivery}
    (h : Takeover l f r r') : Kept r r' := by
  cases h <;> exact ⟨rfl, rfl, rfl, Or.inl rfl, le_rfl⟩

theorem kept_gate (l : Ledger) (id : String) (st : TerminalState) (now : Int)
    (o : TerminalOptions) :
    Continues Kept [] l (l.transitionDirectedDeliveryTerminal id st now o).1 := by
  refine Continues.of_pointwise ((transition_spec l id st now o).2.2.2.mono ?_)
  rintro r - r' (⟨rfl, -⟩ | ⟨-, -, -, -, -, rfl⟩ | ⟨-, -, -, _, _, rfl⟩)
  · exact Kept.refl _
  · exact ⟨rfl, rfl, rfl, Or.inl rfl, le_rfl⟩
  · cases st <;> exact ⟨rfl, rfl, rfl, Or.inl rfl, le_rfl⟩

theorem continues_insert {R : Delivery → Delivery → Prop} (hR : ∀ r, R r r) {l : Ledger}
    {r : Delivery} (hs : r.state = .queued) (ht : r.leaseToken = none) :
    Continues R [r.id] l { l with deliveries := l.deliveries.insert r } := by
  intro r' hr'
  rcases mem_insertDelivery hr' with hr' | rfl
  · exact Or.inl ⟨r', hr', rfl, hR r'⟩
  · exact Or.inr ⟨List.mem_singleton_self _, r', hs, ht, hR r'⟩

/-- One case per write: what all of them do to the rows. -/
theorem Write.kept {l l' : Ledger} {t : Tag} (h : Write l t l') :
    Continues Kept t.created.toList l l' := by
  cases h with
  | rewrite id g f hf h =>
    exact continues_updateDelivery Kept.refl fun r hr hid hg => kept_rewrite (h r hr hid hg)
  | purge id g f hf h =>
    exact continues_updateDelivery Kept.refl fun r hr hid hg => kept_purge (h r hr hid hg)
  | close | complete => exact kept_gate _ _ _ _ _
  | enqueue r hs _ ht => exact continues_insert Kept.refl hs ht
  | answer r hs _ ht => exact continues_insert Kept.refl hs ht
  | forget p => exact fun r' hr' => Or.inl ⟨r', (Table.mem_delete.1 hr').1, rfl, Kept.refl r'⟩
  | record h =>
    unfold recordLease
    split_ifs <;> exact Continues.refl Kept.refl l
  | store | edit | drop => exact Continues.refl Kept.refl l
  | take id g state adapter token holderId leaseUntil now h =>
    exact continues_updateDelivery Kept.refl fun r _ _ _ =>
      ⟨rfl, rfl, rfl, Or.inl rfl, Nat.le_succ _⟩
  | recover f g u hu h =>
    exact continues_updateDelivery Kept.refl fun r hr hid hg => kept_takeover (h r hr hid hg).1
  | reclaim id g holder leaseUntil now h =>
    exact continues_updateDelivery Kept.refl fun r _ _ _ =>
      ⟨rfl, rfl, rfl, Or.inl rfl, Nat.le_succ _⟩

/-- What a write does to the messages: it edits, adds or deletes. -/
theorem Write.messages {l l' : Ledger} {t : Tag} (h : Write l t l') :
    ∀ m' ∈ l'.messages, (∃ m ∈ l.messages, m.seq = m'.seq ∧ MessageEdit m m') ∨
      ((∀ lineage, Message.requestLineage m' = some lineage ∨
          Message.responseLineage m' = some lineage → l.Mentions lineage.deliveryId) ∧
        ∀ lineage, Message.requestLineage m' = some lineage →
          jsLength lineage.workId ≤ DELIVERY_WORK_ID_LIMIT ∧
            jsLength lineage.continuationRef ≤ DELIVERY_CONTINUATION_REF_LIMIT) := by
  have hsame : ∀ m' ∈ l.messages, ∃ m ∈ l.messages, m.seq = m'.seq ∧ MessageEdit m m' :=
    fun m' hm' => ⟨m', hm', rfl, MessageEdit.refl m'⟩
  cases h with
  | close id now o =>
    rw [(transition_spec l id .failed now o).1]
    exact fun m' hm' => Or.inl (hsame m' hm')
  | complete id now o =>
    rw [(transition_spec l id .replied now o).1]
    exact fun m' hm' => Or.inl (hsame m' hm')
  | record h =>
    rw [recordLease_messages]
    exact fun m' hm' => Or.inl (hsame m' hm')
  | store m hm hl hu =>
    intro m' hm'
    rcases Table.mem_insert.1 hm' with hm' | ⟨rfl, -⟩
    · exact Or.inl (hsame m' hm')
    · exact Or.inr ⟨hl, hu⟩
  | edit messages revSeq h => exact fun m' hm' => Or.inl (h.backward hm')
  | drop p h => exact fun m' hm' => Or.inl (hsame m' (Table.mem_delete.1 hm').1)
  | rewrite | purge | enqueue | answer | forget | take | recover | reclaim =>
    exact fun m' hm' => Or.inl (hsame m' hm')

theorem MessageEdit.requestLineage {m m' : Message} (h : MessageEdit m m')
    {lineage : DecisionLineage} (hl : Message.requestLineage m' = some lineage) :
    Message.requestLineage m = some lineage := by
  rcases h.decisionRequest with h | h <;> simp only [Message.requestLineage, h] at hl ⊢
  · exact hl
  · cases hl

theorem MessageEdit.responseLineage {m m' : Message} (h : MessageEdit m m')
    {lineage : DecisionLineage} (hl : Message.responseLineage m' = some lineage) :
    Message.responseLineage m = some lineage := by
  rcases h.decisionResponse with h | h <;> simp only [Message.responseLineage, h] at hl ⊢
  · exact hl
  · cases hl

/-- A write mentions nothing but what was mentioned and what it creates. -/
theorem Write.mentions {l l' : Ledger} {t : Tag} (h : Write l t l') {id : String}
    (hm : l'.Mentions id) : l.Mentions id ∨ t.created = some id := by
  rcases hm with ⟨r', hr', hid⟩ | ⟨m', hm', lineage, hlin, hid⟩
  · rcases h.kept r' hr' with ⟨r, hr, hrid, hk⟩ | ⟨hc, -⟩
    · refine Or.inl (Or.inl ⟨r, hr, ?_⟩)
      rcases hid with rfl | hp
      · exact Or.inl hrid
      · exact Or.inr (hk.parent.elim (fun e => e ▸ hp) fun e => by simp [e] at hp)
    · rcases hid with rfl | hp
      · exact Or.inr (by simpa using hc)
      · cases h with
        | enqueue r _ _ _ _ hpar =>
          rcases mem_insertDelivery hr' with hr' | rfl
          · exact Or.inl (Or.inl ⟨r', hr', Or.inr hp⟩)
          · exact Or.inl (hpar id hp)
        | answer r _ _ _ _ hpar =>
          rcases mem_insertDelivery hr' with hr' | rfl
          · exact Or.inl (Or.inl ⟨r', hr', Or.inr hp⟩)
          · exact Or.inl (hpar id hp)
        | _ => simp [Tag.created] at hc
  · rcases h.messages m' hm' with ⟨m, hmem, -, he⟩ | ⟨hnew, -⟩
    · refine Or.inl (Or.inr ⟨m, hmem, lineage, ?_, hid⟩)
      exact hlin.imp he.requestLineage he.responseLineage
    · exact Or.inl (hid ▸ hnew lineage hlin)

theorem Write.usable {l l' : Ledger} {t : Tag} (h : Write l t l') (hu : UsableRequests l) :
    UsableRequests l' := by
  intro m' hm' lineage hlin
  rcases h.messages m' hm' with ⟨m, hmem, -, he⟩ | ⟨-, hnew⟩
  · exact hu m hmem lineage (he.requestLineage hlin)
  · exact hnew lineage hlin

theorem Writes.kept {P : Tag → Prop} {ids : List String} {l l' : Ledger}
    (h : Writes P ids l l') : Continues Kept ids l l' := by
  have htrans : ∀ a b c, Kept a b → Kept b c → Kept a c := fun _ _ _ => Kept.trans
  obtain ⟨tags, hr, -, hs⟩ := h
  have hmain : Continues Kept (tags.filterMap Tag.created) l l' := by
    clear hs
    induction hr with
    | nil => exact Continues.refl Kept.refl l
    | @snoc evs t t' e _ hw ih =>
      rw [List.filterMap_append]
      have hlast : List.filterMap Tag.created [e] = e.created.toList := by
        cases hc : e.created <;> simp [hc]
      rw [hlast]
      exact ih.trans htrans hw.kept
  intro r' hr'
  exact (hmain r' hr').imp_right fun ⟨hid, h⟩ => ⟨hs.subset hid, h⟩

end Ledger

namespace Room

theorem firstByMessage_mem {rows : List Delivery} {r : Delivery}
    (h : firstByMessage rows = some r) : r ∈ rows := by
  refine List.foldlRecOn rows _ (motive := fun best => ∀ r, best = some r → r ∈ rows) ?_ ?_ r h
  · intro r h
    cases h
  · intro best hbest x hx r h
    cases best with
    | none =>
      obtain rfl := Option.some.inj h
      exact hx
    | some b =>
      dsimp only at h
      split_ifs at h
      · exact hbest r h
      · obtain rfl := Option.some.inj h
        exact hx

theorem nextQueued_mem {l : Ledger} {targetName : String} {r : Delivery}
    (h : l.nextQueued targetName = some r) : r ∈ l.deliveries ∧ r.targetName = targetName := by
  have := List.mem_filter.1 (firstByMessage_mem h)
  simp only [Bool.and_eq_true, decide_eq_true_eq] at this
  exact ⟨this.1, this.2.1⟩

theorem mem_withTail {r : Room} {task : DispatchTask} {next : DispatchNext}
    {t : DispatchTask × DispatchStage} (h : t ∈ (r.withTail task next).tails) :
    t ∈ r.tails ∨ ∃ stage, next = .awaiting stage ∧ t = (task, stage) := by
  cases next with
  | finished => exact Or.inl (List.mem_filter.1 h).1
  | awaiting stage =>
    rcases List.mem_cons.1 h with h | h
    · exact Or.inr ⟨stage, rfl, h⟩
    · exact Or.inl (List.mem_filter.1 h).1

/-- The head of the loop goes on with a row of the ledger, or starts over. -/
theorem dispatchTop_selects {l : Ledger} {task : DispatchTask} {now : Int} {stage : DispatchStage}
    (h : (l.dispatchTop task now).2 = .awaiting stage) {queued : Delivery}
    (hq : selected stage = some queued) :
    queued ∈ l.deliveries ∧ queued.targetName = task.targetName := by
  unfold dispatchTop at h
  split at h
  · cases h
  · rename_i row hrow
    split at h
    · cases h
      cases hq
    · split_ifs at h
      · cases h
        cases hq
        exact nextQueued_mem hrow

theorem dispatchDecide_restarts {l : Ledger} {cs : Connections} {task : DispatchTask}
    {queued : Delivery} {principal : String} {token : Uuid} {now : Int} {stage : DispatchStage}
    (h : (l.dispatchDecide cs task queued principal token now).2.1 = .awaiting stage) :
    stage = .top := by
  unfold dispatchDecide at h
  dsimp only at h
  split_ifs at h
  · cases h
    rfl
  · split at h
    · split at h
      · cases h
      · split_ifs at h
        unfold claimFor at h
        dsimp only at h
        split at h
        · cases h
        · split_ifs at h
          split at h <;> cases h
          rfl
    · split at h <;> cases h

theorem withHandoff_tails (r : Room) (handoff : Option Handoff) :
    (r.withHandoff handoff).tails = r.tails := by
  cases handoff with
  | none => rfl
  | some h => cases h <;> rfl

/-- The tails after an event: as before, at the head of their loop, on the row they
had selected, or on a row of the ledger. -/
theorem tails_apply (r : Room) (e : Event) {t : DispatchTask × DispatchStage}
    (ht : t ∈ (r.apply e).tails) {queued : Delivery} (hq : selected t.2 = some queued) :
    (∃ t₀ ∈ r.tails, t₀.1.targetName = t.1.targetName ∧ selected t₀.2 = some queued) ∨
      (queued ∈ r.ledger.deliveries ∧ queued.targetName = t.1.targetName) := by
  have hkeep : t ∈ r.tails →
      (∃ t₀ ∈ r.tails, t₀.1.targetName = t.1.targetName ∧ selected t₀.2 = some queued) ∨
        (queued ∈ r.ledger.deliveries ∧ queued.targetName = t.1.targetName) :=
    fun h => Or.inl ⟨t, h, rfl, hq⟩
  cases e with
  | dispatchStart targetName excludeId =>
    simp only [apply] at ht
    split_ifs at ht
    · exact hkeep ht
    · rcases List.mem_cons.1 ht with rfl | ht
      · cases hq
      · exact hkeep ht
  | dispatchTop targetName now =>
    simp only [apply, dispatchStep] at ht
    split at ht
    · exact hkeep ht
    · split at ht
      · rcases mem_withTail ht with ht | ⟨stage, hnext, rfl⟩
        · exact hkeep ht
        · exact Or.inr (dispatchTop_selects hnext hq)
      · exact hkeep ht
  | dispatchRemoval targetName isRemoved now =>
    simp only [apply, dispatchStep] at ht
    split at ht
    · exact hkeep ht
    · rename_i task stage htail
      have hmem := List.mem_of_find?_eq_some htail
      split at ht
      · split_ifs at ht
        · rcases mem_withTail ht with ht | ⟨stage, hnext, -⟩
          · exact hkeep ht
          · cases hnext
        · rcases mem_withTail ht with ht | ⟨stage, hnext, rfl⟩
          · exact hkeep ht
          · cases hnext
            exact Or.inl ⟨_, hmem, rfl, hq⟩
      · exact hkeep ht
  | dispatchPrincipal targetName isCurrent token now =>
    simp only [apply, dispatchStep] at ht
    split at ht
    · exact hkeep ht
    · simp only [applyDispatchPrincipal] at ht
      split at ht
      · split at ht
        · exact hkeep ht
        · split_ifs at ht
          · rcases mem_withTail ht with ht | ⟨stage, hnext, rfl⟩
            · exact hkeep ht
            · cases hnext
              cases hq
          · rw [withHandoff_tails] at ht
            rcases mem_withTail ht with ht | ⟨stage, hnext, rfl⟩
            · exact hkeep ht
            · rw [dispatchDecide_restarts hnext] at hq
              cases hq
      · exact hkeep ht
  | stage seq edited targets now =>
    simp only [apply] at ht
    split at ht <;> exact hkeep ht
  | handoffRemoval item isRemoved now =>
    exact hkeep ((aside_handoffRemoval item isRemoved now).tails ▸ ht)
  | handoffPrincipal item isCurrent now =>
    exact hkeep ((aside_handoffPrincipal item isCurrent now).tails ▸ ht)
  | _ => exact hkeep ht

theorem Sound.step {r r' : Room} {e : Event} (h : r.Sound) (hs : Step r e r') : r'.Sound := by
  have hw := step_writes h hs
  obtain ⟨⟨hnodup, hfresh, -⟩, rfl⟩ := hs
  have hfresh' : ∀ id ∈ creates e, id ∉ r.minted := fun id hid =>
    hfresh id ((creates_sublist e).subset hid)
  refine ⟨fun id hid => ?_, ?_, fun t ht queued hq => ?_⟩
  · have hknown : ∀ id, (r.apply e).ledger.Mentions id → id ∈ r.minted ++ creates e :=
      hw.invariant (I := fun seen l => ∀ id, l.Mentions id → id ∈ seen)
        (fun hsub hi id hid => hsub (hi id hid))
        (fun hi _ hwr _ id hid => by
          rcases hwr.mentions hid with h | h
          · exact List.mem_append_left _ (hi id h)
          · exact List.mem_append_right _ (by simp [h]))
        h.known ((creates_sublist e).nodup hnodup) hfresh'
    exact (List.mem_append.1 (hknown id hid)).elim (List.mem_append_left _)
      fun h => List.mem_append_right _ ((creates_sublist e).subset h)
  · exact hw.invariant (I := fun _ l => UsableRequests l) (fun _ hi => hi)
      (fun hi _ hwr _ => hwr.usable hi) h.usable ((creates_sublist e).nodup hnodup) hfresh'
  · have hrow : queued.id ∈ r.minted ∧ ∀ row ∈ r.ledger.deliveries, row.id = queued.id →
        row.targetName = t.1.targetName := by
      rcases tails_apply r e ht hq with ⟨t₀, ht₀, hname, hq₀⟩ | ⟨hmem, hname⟩
      · rw [← hname]
        exact h.tails t₀ ht₀ queued hq₀
      · refine ⟨h.known _ (Or.inl ⟨queued, hmem, Or.inl rfl⟩), fun row hr hid => ?_⟩
        rw [Table.eq_of_key hr hmem hid, hname]
    refine ⟨List.mem_append_left _ hrow.1, fun row' hr' hid => ?_⟩
    rcases hw.kept row' hr' with ⟨row, hr, hrid, hk⟩ | ⟨hc, -⟩
    · have ht := hk.target
      simp only [Delivery.target, Prod.mk.injEq] at ht
      rw [ht.1]
      exact hrow.2 row hr (hrid.trans hid)
    · exact absurd (hid ▸ hrow.1) (hfresh' _ hc)

/-- The rule for what a step does to one row: an invariant that every permitted write
keeps, as long as none creates the row anew. -/
theorem step_preserves {I : Ledger → Prop} {r r' : Room} {e : Event} {id : String} (h : r.Sound)
    (hk : id ∈ r.minted)
    (hwrite : ∀ {l l' : Ledger} {t : Tag}, I l → r.permits e t → Write l t l' →
      t.created ≠ some id → I l')
    (hi : I r.ledger) (hs : Step r e r') : I r'.ledger := by
  have hw := step_writes h hs
  obtain ⟨⟨hnodup, hfresh, -⟩, -⟩ := hs
  have hstep : ∀ {seen : List String} {l l' : Ledger} {t : Tag}, id ∈ seen ∧ I l →
      r.permits e t → Write l t l' → (∀ i ∈ t.created, i ∉ seen) →
      id ∈ seen ++ t.created.toList ∧ I l' := fun hi hp hwr hnew =>
    ⟨List.mem_append_left _ hi.1, hwrite hi.2 hp hwr fun hc => hnew id hc hi.1⟩
  exact (hw.invariant (I := fun seen l => id ∈ seen ∧ I l) (fun hsub hi => ⟨hsub hi.1, hi.2⟩)
    hstep ⟨hk, hi⟩ ((creates_sublist e).nodup hnodup)
    fun i hin => hfresh i ((creates_sublist e).subset hin)).2

theorem initial_sound : initial.Sound where
  known := by
    rintro id (⟨r, hr, -⟩ | ⟨m, hm, -⟩)
    · exact absurd hr (Table.not_mem_empty r)
    · exact absurd hm (Table.not_mem_empty m)
  usable := fun m hm => absurd hm (Table.not_mem_empty m)
  tails := by simp [initial]

theorem Reachable.sound {r : Room} (h : Reachable r) : r.Sound := by
  obtain ⟨evs, hrun⟩ := h
  exact hrun.invariant (fun _ _ _ hi hs => hi.step hs) initial_sound

end Room
end AgentParty
