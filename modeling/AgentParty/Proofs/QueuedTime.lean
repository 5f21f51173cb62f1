import AgentParty.Proofs.Exclusive
import AgentParty.Proofs.Sweep

/-! The time a delivery waits in the queue. A row enters it with a fresh `updated_at`, which
nothing changes until it leaves; the alarm that fails stale rows looks at `created_at`. -/

namespace AgentParty

/-- `terminal_reason = 'undelivered_timeout'` of a failed row. -/
def Delivery.undelivered (r : Delivery) : Bool :=
  r.state = .failed && r.terminalReason = some .undeliveredTimeout

/-- The row does not enter the queue. -/
structure Leaves (r r' : Delivery) : Prop where
  queued : r'.state = .queued → r.state = .queued ∧ r'.updatedAt = r.updatedAt
  undelivered : r'.undelivered = true → r.undelivered = true

/-- The row does not leave the queue; if it enters, it is stamped. -/
structure Enters (now : Int) (r r' : Delivery) : Prop where
  stays : r.state = .queued → r'.state = .queued ∧ r'.updatedAt = r.updatedAt
  enters : r'.state = .queued → r.state = .queued ∨ r'.updatedAt = now
  undelivered : r'.undelivered = true → r.undelivered = true

theorem Leaves.refl (r : Delivery) : Leaves r r := ⟨fun h => ⟨h, rfl⟩, id⟩

theorem Leaves.trans {a b c : Delivery} (h : Leaves a b) (h' : Leaves b c) : Leaves a c where
  queued := fun hc =>
    have hb := h'.queued hc
    have ha := h.queued hb.1
    ⟨ha.1, hb.2.trans ha.2⟩
  undelivered := fun hc => h.undelivered (h'.undelivered hc)

/-- The row is in another state. -/
theorem leaves_of_state {r r' : Delivery} (hq : r'.state ≠ .queued) (hf : r'.state ≠ .failed) :
    Leaves r r' :=
  ⟨fun h => absurd h hq, fun h => by simp [Delivery.undelivered, hf] at h⟩

theorem leaves_to {r r' : Delivery} (s : DeliveryState) (h : r'.state = s)
    (hs : s ≠ .queued ∧ s ≠ .failed) : Leaves r r' :=
  leaves_of_state (by rw [h]; exact hs.1) (by rw [h]; exact hs.2)

theorem Enters.refl (now : Int) (r : Delivery) : Enters now r r :=
  ⟨fun h => ⟨h, rfl⟩, Or.inl, id⟩

theorem Enters.trans {now : Int} {a b c : Delivery} (h : Enters now a b) (h' : Enters now b c) :
    Enters now a c where
  stays := fun ha =>
    have hb := h.stays ha
    have hc := h'.stays hb.1
    ⟨hc.1, hc.2.trans hb.2⟩
  enters := fun hc => by
    rcases h'.enters hc with hb | hnow
    · exact (h.enters hb).imp_right fun hnow => (h'.stays hb).2.trans hnow
    · exact Or.inr hnow
  undelivered := fun hc => h.undelivered (h'.undelivered hc)

theorem enters_of_state {now : Int} {r r' : Delivery} (hr : r.state ≠ .queued)
    (hq : r'.state = .queued → r'.updatedAt = now) (hf : r'.undelivered = false) :
    Enters now r r' :=
  ⟨fun h => absurd h hr, fun h => Or.inr (hq h), fun h => by rw [hf] at h; cases h⟩

namespace Ledger

abbrev Leaving (l l' : Ledger) : Prop := Table.Evolves Leaves l.deliveries l'.deliveries

abbrev Entering (now : Int) (l l' : Ledger) : Prop :=
  Table.Evolves (Enters now) l.deliveries l'.deliveries

theorem Leaving.refl (l : Ledger) : Leaving l l := Table.Evolves.refl Leaves.refl _

theorem Leaving.trans {l l' l'' : Ledger} (h : Leaving l l') (h' : Leaving l' l'') :
    Leaving l l'' :=
  Table.Evolves.trans (fun _ _ _ hab hbc => hab.trans hbc) h h'

theorem Leaving.foldl {α : Type*} {f : Ledger → α → Ledger} (h : ∀ l a, Leaving l (f l a))
    (as : List α) (l : Ledger) : Leaving l (as.foldl f l) := by
  induction as generalizing l with
  | nil => exact Leaving.refl l
  | cons a as ih => exact (h l a).trans (ih (f l a))

theorem Entering.refl (now : Int) (l : Ledger) : Entering now l l :=
  Table.Evolves.refl (Enters.refl now) _

theorem Entering.foldl {α : Type*} {now : Int} {f : Ledger → α → Ledger}
    (h : ∀ l a, Entering now l (f l a)) (as : List α) (l : Ledger) :
    Entering now l (as.foldl f l) := by
  induction as generalizing l with
  | nil => exact Entering.refl now l
  | cons a as ih => exact (h l a).trans (fun _ _ _ hab hbc => hab.trans hbc) (ih (f l a))

theorem leaving_update {l : Ledger} {id : String} {g : Delivery → Bool} {f : Delivery → Delivery}
    {hf : ∀ r, (f r).id = r.id} (h : ∀ r, g r = true → Leaves r (f r)) :
    Leaving l (l.updateDelivery id g f hf) := fun _ hr =>
  (pointwise_updateDelivery Leaves.refl fun r _ _ hg => h r hg).backward hr

theorem entering_update {l : Ledger} {now : Int} {id : String} {g : Delivery → Bool}
    {f : Delivery → Delivery} {hf : ∀ r, (f r).id = r.id}
    (h : ∀ r, g r = true → Enters now r (f r)) :
    Entering now l (l.updateDelivery id g f hf) := fun _ hr =>
  (pointwise_updateDelivery (Enters.refl now) fun r _ _ hg => h r hg).backward hr

theorem leaving_delete (l : Ledger) (p : Delivery → Bool) : Leaving l (l.deleteDeliveries p) :=
  Table.evolves_delete Leaves.refl _ p

theorem undelivered_settledRow (st : TerminalState) (replySeq : Option ℕ) (error : Option String)
    (now : Int) (r : Delivery) : (settledRow st replySeq error now r).undelivered = false := by
  cases st <;> rfl

theorem settledRow_not_queued (st : TerminalState) (replySeq : Option ℕ) (error : Option String)
    (now : Int) (r : Delivery) : (settledRow st replySeq error now r).state ≠ .queued := by
  cases st <;> exact nofun

theorem undelivered_terminalRow {o : TerminalOptions} (ho : o.terminalReason ≠ some .undeliveredTimeout)
    (st : TerminalState) (now : Int) (r : Delivery) :
    (terminalRow st now o r).undelivered = false := by
  cases st with
  | replied => rfl
  | failed =>
    rw [Delivery.undelivered, terminalRow, TerminalOptions.storedReason]
    cases hreason : o.terminalReason with
    | none => simp
    | some reason =>
      rw [hreason] at ho
      simp [show reason ≠ .undeliveredTimeout from fun h => ho (h ▸ rfl)]

theorem terminalRow_not_queued (st : TerminalState) (now : Int) (o : TerminalOptions)
    (r : Delivery) : (terminalRow st now o r).state ≠ .queued := by
  cases st <;> exact nofun

section Gate

variable {l : Ledger} {id : String} {st : TerminalState} {now : Int} {o : TerminalOptions}

theorem leaving_transition (l : Ledger) (id : String) (st : TerminalState) (now : Int)
    (ho : o.terminalReason ≠ some .undeliveredTimeout) :
    Leaving l (l.transitionDirectedDeliveryTerminal id st now o).1 := by
  intro r' hr'
  obtain ⟨r, hr, hid, hchange⟩ := (transition_spec l id st now o).2.2.2.backward hr'
  refine ⟨r, hr, hid, ?_⟩
  rcases hchange with ⟨rfl, -⟩ | ⟨-, -, -, -, -, rfl⟩ | ⟨-, -, -, replySeq, error, rfl⟩
  · exact Leaves.refl r'
  · exact ⟨fun h => absurd h (terminalRow_not_queued st now o r),
      fun h => by rw [undelivered_terminalRow ho] at h; cases h⟩
  · exact ⟨fun h => absurd h (settledRow_not_queued st replySeq error now r),
      fun h => by rw [undelivered_settledRow] at h; cases h⟩

theorem entering_transition (l : Ledger) (id : String) (st : TerminalState) (now : Int)
    (ho : o.terminalReason ≠ some .undeliveredTimeout)
    (hq : DeliveryState.queued ∉ o.expectedStates) :
    Entering now l (l.transitionDirectedDeliveryTerminal id st now o).1 := by
  intro r' hr'
  obtain ⟨r, hr, hid, hchange⟩ := (transition_spec l id st now o).2.2.2.backward hr'
  refine ⟨r, hr, hid, ?_⟩
  rcases hchange with ⟨rfl, -⟩ | ⟨-, -, hexp, -, -, rfl⟩ | ⟨-, hw, -, replySeq, error, rfl⟩
  · exact Enters.refl now r'
  · exact enters_of_state (fun h => hq (h ▸ hexp))
      (fun h => absurd h (terminalRow_not_queued st now o r)) (undelivered_terminalRow ho st now r)
  · exact enters_of_state (by rw [hw]; exact nofun)
      (fun h => absurd h (settledRow_not_queued st replySeq error now r))
      (undelivered_settledRow st replySeq error now r)

end Gate

section Sweep

variable (l : Ledger) (initial : List String) (now : Int)

/-- A sweep for another reason. -/
theorem leaving_failDeliveryTree {failure : DeliveryFailure}
    (hf : failure.terminalReason ≠ .undeliveredTimeout) :
    Leaving l (l.failDeliveryTree initial now failure).1 := by
  obtain ⟨s, hs, -, hl⟩ := failDeliveryTree_spec l initial now failure
  rw [← hl]
  intro r' hr'
  obtain ⟨r, hr, hid, hchange⟩ := hs.rows.backward hr'
  refine ⟨r, hr, hid, ?_⟩
  split_ifs at hchange
  · rcases hchange.closed with hst | ⟨hst, hreason⟩
    · exact leaves_of_state (by rw [hst]; exact nofun) (by rw [hst]; exact nofun)
    · refine ⟨fun h => ?_, fun h => ?_⟩
      · rw [hst] at h
        cases h
      · simp [Delivery.undelivered, hreason, hf] at h
  · rcases hchange with rfl | ⟨-, -, replySeq, error, rfl⟩
    · exact Leaves.refl r'
    · exact ⟨fun h => absurd h (settledRow_not_queued _ replySeq error now r),
        fun h => by rw [undelivered_settledRow] at h; cases h⟩

theorem leaving_retractMessage (seq : ℕ) : Leaving l (l.retractMessage seq now) := by
  unfold retractMessage
  split
  · exact Leaving.refl l
  · exact leaving_failDeliveryTree _ _ now (by simp)

end Sweep

/-- An answer is neither taken back nor given. -/
def SameAnswer (r r' : Delivery) : Prop := r'.state = .replied ↔ r.state = .replied

theorem sameAnswer_of_state {r r' : Delivery} (h : r.state ≠ .replied) (h' : r'.state ≠ .replied) :
    SameAnswer r r' :=
  iff_of_false h' h

theorem sameAnswer_rewrite {r r' : Delivery} (h : Rewrite r r') : SameAnswer r r' := by
  cases h with
  | starts leaseUntil now h | parks now h =>
    rcases Delivery.active_iff.1 h with hs | hs <;>
      exact sameAnswer_of_state (by rw [hs]; exact nofun) nofun
  | heartbeats | renews | mints => exact Iff.rfl
  | requeues now h => exact sameAnswer_of_state (by rw [h]; exact nofun) nofun

theorem sameAnswer_purge {r r' : Delivery} (h : Purge r r') : SameAnswer r r' := by
  cases h <;> exact Iff.rfl

theorem Write.sameAnswer {l l' : Ledger} {t : Tag} (h : Write l t l') (ht : t.sweeps) :
    Table.Evolves SameAnswer l.deliveries l'.deliveries := by
  have hrefl : ∀ r, SameAnswer r r := fun _ => Iff.rfl
  cases h with
  | rewrite id g f hf h =>
    exact fun _ hr => (pointwise_updateDelivery hrefl fun r hr hid hg =>
      sameAnswer_rewrite (h r hr hid hg)).backward hr
  | purge id g f hf h =>
    exact fun _ hr => (pointwise_updateDelivery hrefl fun r hr hid hg =>
      sameAnswer_purge (h r hr hid hg)).backward hr
  | close id now o hs hw =>
    intro r' hr'
    obtain ⟨r, hr, hid, hchange⟩ := (transition_spec l id .failed now o).2.2.2.backward hr'
    refine ⟨r, hr, hid, ?_⟩
    rcases hchange with ⟨rfl, -⟩ | ⟨-, -, hexp, -, -, rfl⟩ | ⟨-, hw, -, replySeq, error, rfl⟩
    · exact hrefl r'
    · exact sameAnswer_of_state (fun h => hs (h ▸ hexp)) nofun
    · exact sameAnswer_of_state (by rw [hw]; exact nofun) nofun
  | record h =>
    rw [recordLease_deliveries]
    exact Table.Evolves.refl hrefl _
  | store | edit | drop => exact Table.Evolves.refl hrefl _
  | complete | enqueue | answer | forget | take | recover | reclaim => simp [Tag.sweeps] at ht

theorem sameAnswer_sweep {l l' : Ledger} {ids : List String} (h : Writes Tag.sweeps ids l l') :
    Table.Evolves SameAnswer l.deliveries l'.deliveries := by
  obtain ⟨tags, hrun, hp, -⟩ := h
  induction hrun with
  | nil => exact Table.Evolves.refl (R := SameAnswer) (fun _ => Iff.rfl) _
  | @snoc evs t t' e _ hw ih =>
    exact (ih fun t ht => hp t (List.mem_append_left _ ht)).trans
      (fun _ _ _ hab hbc => hbc.trans hab) (hw.sameAnswer (hp e (by simp)))

section Runner

variable (l : Ledger) (now : Int)

theorem leaving_heartbeat (identity : Identity) (connectionId : String) (currentTask : Option ℕ) :
    Leaving l (l.applyDirectedDeliveryHeartbeat identity connectionId currentTask now) := by
  unfold applyDirectedDeliveryHeartbeat
  cases currentTask with
  | none => exact Leaving.refl l
  | some seq =>
    dsimp only
    split
    · exact Leaving.refl l
    · refine leaving_update fun r hg => ?_
      have hrunning : r.state = .running := by simpa using (Bool.and_eq_true_iff.1 hg).2
      exact leaves_of_state (by simp [heartbeatRow, hrunning]) (by simp [heartbeatRow, hrunning])

theorem leaving_acknowledge (identity : Identity) (deliveryId : String) :
    Leaving l (l.acknowledgeDelivery identity deliveryId now) := by
  unfold acknowledgeDelivery
  split
  · exact Leaving.refl l
  · split_ifs
    · exact Leaving.refl l
    · exact Leaving.refl l
    · exact leaving_transition l _ _ now (by simp)

theorem leaving_ownedUpdate (identity : ConnState) (connectionId : String)
    (u : DeliveryUpdateFrame) (row : Delivery) :
    Leaving l (l.applyOwnedUpdate identity connectionId u row now).1 := by
  unfold applyOwnedUpdate
  generalize (if row.state = .failed then none else some connectionId) = holder
  split_ifs
  · exact Leaving.refl l
  · exact Leaving.refl l
  · exact leaving_transition l _ _ now (by simp)
  · exact Leaving.refl l
  · cases u.state with
    | running => exact leaving_update fun r _ => leaves_to .running rfl (by decide)
    | replied => exact leaving_transition l _ _ now (by simp)
    | failed => exact leaving_transition l _ _ now (by simp)
    | waitingOwner => exact Leaving.refl l

theorem leaving_ite {c : Prop} [Decidable c] {a b : Ledger × Bool} (ha : Leaving l a.1)
    (hb : Leaving l b.1) : Leaving l (if c then a else b).1 := by
  by_cases hc : c
  · rwa [if_pos hc]
  · rwa [if_neg hc]

theorem leaving_update_frame (cs : Connections) (identity : ConnState) (connectionId : String)
    (u : DeliveryUpdateFrame) :
    Leaving l (l.applyDirectedDeliveryUpdate cs identity connectionId u now).1 := by
  unfold applyDirectedDeliveryUpdate
  split
  · exact Leaving.refl l
  · -- ten checks that leave the ledger alone, then the update of the owner
    iterate 10 refine leaving_ite l (Leaving.refl l) ?_
    exact leaving_ownedUpdate l now _ _ _ _

theorem leaving_removeParticipantRows (p : Delivery → Bool) (error : String) :
    Leaving l (l.removeParticipantRows p error now) :=
  Leaving.foldl (fun l _ => leaving_transition l _ _ now (by simp)) _ l

end Runner

section Loss

variable (l : Ledger) (now : Int)

theorem enters_requeued {r : Delivery} (h : r.state = .claimed) :
    Enters now r (requeuedRow now r) :=
  enters_of_state (by rw [h]; exact nofun) (fun _ => rfl) rfl

theorem entering_socketLost (connectionId : String) :
    Entering now l (l.requeueDirectedDeliveriesForConnection connectionId now) := by
  refine Entering.foldl (fun l row => ?_) _ l
  unfold requeueOne
  split_ifs
  · exact Entering.refl now l
  · exact entering_transition l _ _ now (by simp) (by simp)
  · exact entering_update fun r hg =>
      enters_requeued now (by simpa using (Bool.and_eq_true_iff.1 hg).2)

theorem entering_leaseExpired : Entering now l (l.requeueExpired now) := by
  refine Entering.foldl (fun l row => ?_) _ l
  unfold expireOne
  split_ifs
  · exact entering_update fun r hg =>
      enters_requeued now (by simpa using (Bool.and_eq_true_iff.1 hg).1)
  · exact entering_transition l _ _ now (by simp) (by simp)

variable (cs : Connections) (lingering : List String) (identity : ConnState)
  (connectionId : String) (f : DeliveryRecoverFrame)

theorem entering_deferReplay : Entering now l (deferReplay l cs f now).ledger := by
  have hdefer : Entering now l (l.updateDelivery f.deliveryId
      (fun r => r.state = .failed && r.terminalReason = some .unknownOutcome && assignmentOf f r)
      (deferredRow now) (deferredRow_id now)) := by
    refine entering_update fun r hg => ?_
    simp only [Bool.and_eq_true, decide_eq_true_eq] at hg
    exact enters_of_state (by rw [hg.1.1]; exact nofun) (fun _ => rfl) rfl
  unfold deferReplay
  dsimp only
  split
  · exact hdefer
  · split_ifs <;> exact hdefer

theorem entering_reviveReplay (row : Delivery) :
    Entering now l (reviveReplay l cs lingering identity connectionId f now row).ledger := by
  have hrevive : Entering now l (l.updateDelivery f.deliveryId
      (fun r => identity.toIdentity.boundTo r && assignmentOf f r &&
        ((r.state = .running && r.leaseExpired now) ||
          (r.state = .failed && r.terminalReason = some .unknownOutcome)))
      (revivedRow connectionId row.recoveryAdapter f.nextLeaseToken now)
      (revivedRow_id _ _ _ _)) := by
    refine entering_update fun r hg => enters_of_state (fun hq => ?_) nofun rfl
    simp [hq] at hg
  unfold reviveReplay
  dsimp only
  split
  · exact hrevive
  · split_ifs <;> exact hrevive

theorem entering_expireRunning (row : Delivery) :
    Entering now l (expireRunning l cs lingering identity connectionId f now row).ledger := by
  have hexpire := entering_transition (o :=
    { error := some "runner ownership lost after task start; outcome unknown, not auto-retried",
      terminalReason := some .unknownOutcome, expectedStates := [.running] }) l f.deliveryId .failed
    now (by simp) (by simp)
  unfold expireRunning
  dsimp only
  split
  · exact hexpire
  · split_ifs <;> exact hexpire

theorem entering_rotateLease (row : Delivery) :
    Entering now l (rotateLease l cs lingering identity connectionId f now row).ledger := by
  have hrotate : Entering now l (l.updateDelivery f.deliveryId
      (fun r => identity.toIdentity.boundTo r && (r.state = .claimed || r.state = .running) &&
        assignmentOf f r && r.leaseUntil.any fun u => now < u)
      (rotatedRow connectionId f.nextLeaseToken now) (rotatedRow_id _ _ _)) := by
    refine entering_update fun r hg => ?_
    simp only [Bool.and_eq_true, Bool.or_eq_true, decide_eq_true_eq] at hg
    rcases hg.1.1.2 with hs | hs <;>
      exact enters_of_state (by simp [hs]) (fun h => by simp [rotatedRow, hs] at h)
        (by simp [Delivery.undelivered, rotatedRow, hs])
  unfold rotateLease
  dsimp only
  split
  · exact hrotate
  · split_ifs <;> exact hrotate

theorem entering_recover :
    Entering now l
      (l.recoverDirectedDelivery cs lingering identity connectionId f now).ledger := by
  have hrecord : ∀ row, (recordCurrentLease l f row).deliveries = l.deliveries :=
    recordCurrentLease_deliveries l f
  have hunsettled : ∀ row, Entering now (recordCurrentLease l f row)
      (recoverUnsettled l cs lingering identity connectionId f now row).ledger := by
    intro row
    unfold recoverUnsettled
    generalize recordCurrentLease l f row = l'
    dsimp only
    split_ifs
    · exact Entering.refl now l'
    · exact entering_deferReplay l' now cs f
    · exact entering_reviveReplay l' now cs lingering identity connectionId f row
    all_goals first
      | exact entering_expireRunning l' now cs lingering identity connectionId f row
      | exact entering_rotateLease l' now cs lingering identity connectionId f row
      | exact Entering.refl now l'
  unfold recoverDirectedDelivery
  split
  · exact Entering.refl now l
  · rename_i row _
    have hrow := hunsettled row
    rw [Entering, hrecord row] at hrow
    split_ifs
    · exact Entering.refl now l
    · exact Entering.refl now l
    · exact Entering.refl now l
    · exact hrow

end Loss

section Webhooks

variable (l : Ledger) (w : WebhookState) (now : Int)

theorem leaving_accept (item : WebhookItem) (leaseUntil : Int) :
    Leaving l (l.acceptDirectedWebhookDelivery item leaseUntil now).1 := by
  unfold acceptDirectedWebhookDelivery
  split
  · exact Leaving.refl l
  · split_ifs
    · exact Leaving.refl l
    · exact leaving_update fun r _ => leaves_to .running rfl (by decide)

theorem leaving_renew (item : WebhookItem) (leaseUntil : Int) :
    Leaving l (l.renewDirectedWebhookLease item leaseUntil now) := by
  refine leaving_update fun r hg => ?_
  have hclaimed := claimedBy_state hg
  exact leaves_of_state (by simp [renewedRow, hclaimed]) (by simp [renewedRow, hclaimed])

theorem leaving_failWebhook (item : WebhookItem) (error : String) :
    Leaving l (l.failDirectedWebhookDelivery item error now) := by
  unfold failDirectedWebhookDelivery
  split
  · exact Leaving.refl l
  · dsimp only
    split_ifs
    · exact Leaving.refl l
    · exact leaving_transition l _ _ now (by simp)

theorem leaving_failMismatchedRetry (item : WebhookItem) :
    Leaving l (l.failMismatchedRetry item now) := by
  unfold failMismatchedRetry
  split
  · exact Leaving.refl l
  · dsimp only
    split_ifs
    · exact leaving_transition l _ _ now (by simp)
    · exact Leaving.refl l

theorem leaving_dispatchPosted (item : WebhookItem) (ok : Bool) :
    Leaving l (w.finishDispatchPost l item ok now).1 := by
  unfold WebhookState.finishDispatchPost
  dsimp only
  split_ifs
  · exact Leaving.refl l
  · exact leaving_accept l now _ _
  · exact leaving_failWebhook l now _ _
  · exact leaving_failWebhook l now _ _
  · exact leaving_renew l now _ _

theorem leaving_retryStarts (item : WebhookItem) : Leaving l (w.startRetry l item now).1 := by
  unfold WebhookState.startRetry
  dsimp only
  split_ifs
  · exact leaving_failWebhook l now _ _
  · exact leaving_failMismatchedRetry l now _
  · exact Leaving.refl l
  · exact Leaving.refl l

theorem leaving_retryPosted (item : WebhookItem) (ok : Bool) :
    Leaving l (w.finishRetryPost l item ok now).1 := by
  unfold WebhookState.finishRetryPost
  dsimp only
  split_ifs
  · exact leaving_accept l now _ _
  · exact leaving_failWebhook l now _ _
  · exact leaving_renew l now _ _

theorem leaving_redeliveryPosted (item : WebhookItem) (ok : Bool) :
    Leaving l (w.finishRedelivery l item ok now).1 := by
  unfold WebhookState.finishRedelivery
  dsimp only
  split_ifs
  · exact leaving_accept l now _ _
  · exact leaving_accept l now _ _
  · exact leaving_failWebhook l now _ _

theorem leaving_reclaim (item : WebhookItem) :
    Leaving l (l.reclaimDirectedWebhookDeadLetter item now).1 := by
  unfold reclaimDirectedWebhookDeadLetter
  split
  · exact Leaving.refl l
  · split_ifs
    · exact Leaving.refl l
    · exact leaving_update fun r _ => leaves_to .claimed rfl (by decide)

theorem leaving_redeliveryStarts (item : WebhookItem) :
    Leaving l (w.startRedelivery l item now).1 := by
  have hreclaim := leaving_reclaim l now item
  unfold WebhookState.startRedelivery
  split_ifs
  · exact Leaving.refl l
  · split <;> rename_i heq <;> rw [heq] at hreclaim <;> exact hreclaim

theorem leaving_deleteWebhook (hook : AgentWebhook) :
    Leaving l (w.deleteWebhook l hook now).1 :=
  (Leaving.foldl (fun l i => leaving_failWebhook l now i _) _ l).trans
    (Leaving.foldl (fun l _ => leaving_transition l _ _ now (by simp)) _ _)

end Webhooks

section Dispatch

variable (l : Ledger) (now : Int) {task : DispatchTask} {queued : Delivery} {principal : String}

theorem leaving_dispatchTop (task : DispatchTask) : Leaving l (l.dispatchTop task now).1 := by
  unfold dispatchTop
  split
  · exact Leaving.refl l
  · split
    · exact leaving_transition l _ _ now (by simp)
    · split_ifs <;> exact Leaving.refl l

theorem leaving_claimFor (adapter : LeaseAdapter) (holder : Connection ⊕ AgentWebhook)
    (token : Uuid) : Leaving l (l.claimFor queued principal adapter holder token now).1 := by
  have hclaim : Leaving l (l.updateDelivery queued.id
      (fun r => r.targetOwner = some principal && r.state = .queued)
      (claimedRow .claimed adapter (claimToken token holder) (holderOf holder)
        (now + leaseMs adapter) now) (claimedRow_id _ _ _ _ _ _)) :=
    leaving_update fun r _ => leaves_to .claimed rfl (by decide)
  unfold claimFor
  dsimp only
  split
  · exact hclaim
  · split_ifs
    · exact hclaim
    · split
      · exact hclaim.trans (leaving_transition _ _ _ now (by simp))
      · exact hclaim

theorem leaving_dispatchDecide (cs : Connections) (token : Uuid) :
    Leaving l (l.dispatchDecide cs task queued principal token now).1 := by
  have hrecord : Leaving l (l.recordQueuedLease queued) := by
    rw [Leaving, recordQueuedLease_deliveries]
    exact Leaving.refl l
  unfold dispatchDecide
  dsimp only
  split_ifs
  · exact Leaving.refl l
  · exact Leaving.refl l
  · exact Leaving.refl l
  · exact leaving_transition l _ _ now (by simp)
  · exact Leaving.refl l
  split
  · split
    · exact hrecord
    · split_ifs
      · exact hrecord.trans (leaving_claimFor _ now _ _ token)
      · exact hrecord
  · split
    · exact hrecord
    · exact hrecord.trans (leaving_update fun r _ => leaves_to .running rfl (by decide))

end Dispatch

/-- A send brings in rows with these keys; they are stamped. -/
def Sending (ids : List String) (now : Int) (l l' : Ledger) : Prop :=
  ∀ r' ∈ l'.deliveries, (∃ r ∈ l.deliveries, r.id = r'.id ∧ Leaves r r') ∨
    (r'.id ∈ ids ∧ (r'.state = .queued → r'.updatedAt = now) ∧ r'.undelivered = false)

theorem Leaving.sending {l l' : Ledger} (h : Leaving l l') (ids : List String) (now : Int) :
    Sending ids now l l' :=
  fun r' hr' => Or.inl (h r' hr')

theorem Sending.trans {ids : List String} {now : Int} {l l' l'' : Ledger}
    (h : Sending ids now l l') (h' : Sending ids now l' l'') : Sending ids now l l'' := by
  intro c hc
  rcases h' c hc with ⟨b, hb, hbc, hleaves⟩ | hnew
  · rcases h b hb with ⟨a, ha, hab, hleaves'⟩ | ⟨hid, hstamp, hund⟩
    · exact Or.inl ⟨a, ha, hab.trans hbc, hleaves'.trans hleaves⟩
    · refine Or.inr ⟨hbc ▸ hid, fun hq => ?_, ?_⟩
      · exact (hleaves.queued hq).2.trans (hstamp (hleaves.queued hq).1)
      · by_contra hne
        exact absurd (hleaves.undelivered (by simpa using hne)) (by simp [hund])
  · exact Or.inr hnew

section Send

variable (l : Ledger) (now : Int)

theorem sending_ensure (msg : Message) (targets : List DeliveryTarget)
    (causeOverride : Option DirectedDeliveryCause) :
    Sending (targets.map (·.id.val)) now l
      (l.ensureDirectedDeliveries msg targets causeOverride now) := by
  have hfold : ∀ (ts : List DeliveryTarget) (l : Ledger), ts ⊆ targets →
      Sending (targets.map (·.id.val)) now l (ts.foldl (ensureOne msg causeOverride now) l) := by
    intro ts
    induction ts with
    | nil => exact fun l _ => (Leaving.refl l).sending _ now
    | cons t ts ih =>
      intro l hsub
      refine Sending.trans ?_ (ih _ fun _ h => hsub (List.mem_cons_of_mem _ h))
      unfold ensureOne
      split_ifs
      · exact (Leaving.refl l).sending _ now
      · intro r' hr'
        rcases mem_insertDelivery hr' with hr' | rfl
        · exact Or.inl ⟨r', hr', rfl, Leaves.refl r'⟩
        · exact Or.inr ⟨List.mem_map.2 ⟨t, hsub List.mem_cons_self, rfl⟩, fun _ => rfl, rfl⟩
  unfold ensureDirectedDeliveries
  split_ifs
  · exact (Leaving.refl l).sending _ now
  · exact hfold _ l (List.filter_sublist.subset)

theorem leaving_completeDirectedDelivery (identity : Identity) (messageSeq replySeq : ℕ) :
    Leaving l (l.completeDirectedDelivery identity messageSeq replySeq now) := by
  unfold completeDirectedDelivery
  split
  · exact Leaving.refl l
  · split_ifs
    · exact Leaving.refl l
    · exact Leaving.refl l
    · exact Leaving.refl l
    · exact leaving_transition l _ _ now (by simp)

theorem leaving_linkWakeResume (identity : Identity) (msg : Message) (alsoResolves : List ℕ) :
    Leaving l (l.linkWakeResume identity msg alsoResolves now) :=
  Leaving.foldl (fun l seq => leaving_completeDirectedDelivery l now identity seq msg.seq) _ l

theorem leaving_questionDelivery (c : SendCommit) : Leaving l (l.questionDelivery c).1 := by
  unfold questionDelivery
  cases c.question with
  | none => exact Leaving.refl l
  | some q =>
    dsimp only
    split_ifs
    · unfold activeDecisionDelivery
      split
      · exact Leaving.refl l
      · dsimp only
        split_ifs
        · exact leaving_update fun r _ => ⟨fun h => ⟨h, rfl⟩, id⟩
        · exact Leaving.refl l
      · exact Leaving.refl l
    · exact Leaving.refl l

theorem leaving_pruneByCount (seq : ℕ) : Leaving l (l.pruneByCount seq now) := by
  unfold pruneByCount
  split_ifs
  · exact Leaving.refl l
  · exact leaving_delete l _

theorem sending_commitSend (c : SendCommit) :
    Sending (c.targets.map (·.id.val)) c.now l (l.commitSend c) := by
  have hquestion := leaving_questionDelivery l c
  unfold commitSend
  generalize l.questionDelivery c = result at hquestion
  obtain ⟨l₁, active⟩ := result
  dsimp only at hquestion ⊢
  split_ifs
  · exact hquestion.sending _ c.now
  refine (hquestion.sending _ c.now).trans ?_
  unfold storeSend
  set msg := sentMessage c active.lineage?
  have hensure := sending_ensure { l₁ with messages := l₁.messages.insert msg } c.now msg c.targets
    none
  set l₂ := ({ l₁ with messages := l₁.messages.insert msg } : Ledger).ensureDirectedDeliveries msg
    c.targets none c.now
  have hend : ∀ l₃, Leaving l₂ l₃ → Sending (c.targets.map (·.id.val)) c.now l₁
      ((l₃.linkWakeResume c.identity msg c.alsoResolves c.now).pruneByCount c.seq c.now) :=
    fun l₃ h => hensure.trans ((h.trans ((leaving_linkWakeResume l₃ c.now c.identity msg
      c.alsoResolves).trans (leaving_pruneByCount _ c.now c.seq))).sending _ c.now)
  cases active.lineage? with
  | none => exact hend l₂ (Leaving.refl l₂)
  | some bound =>
    dsimp only
    split_ifs
    · exact hend _ (leaving_update fun r _ => leaves_to .waitingOwner rfl (by decide))
    · exact hend l₂ (Leaving.refl l₂)

theorem sending_respondDecision (a : DecisionAnswer) :
    Sending [a.id.val] a.now l (l.respondDecision a) := by
  have hrefl := (Leaving.refl l).sending [a.id.val] a.now
  have hcommit : ∀ request targets, targets.map (·.id.val) ⊆ [a.id.val] →
      Sending [a.id.val] a.now l (l.commitAnswer a request targets) := by
    intro request targets hsub
    have hlink := leaving_linkWakeResume { l with
      revSeq := l.revSeq + 1
      messages := (l.messages.update
        (fun m => m.seq = a.questionSeq && m.decisionState = some DecisionState.pending)
        (resolvedQuestion (l.revSeq + 1)) (resolvedQuestion_seq _)).insert
          (answerMessage a request) } a.now a.responder (answerMessage a request) []
    refine (hlink.sending [a.id.val] a.now).trans fun r' hr' => ?_
    exact (sending_ensure _ a.now (answerMessage a request) targets none r' hr').imp_right
      fun h => ⟨hsub h.1, h.2⟩
  unfold respondDecision
  split
  · exact hrefl
  split
  · exact hrefl
  split_ifs
  · exact hrefl
  · exact hcommit _ _ (List.nil_subset _)
  · split
    · exact hrefl
    · exact hcommit _ _ (List.Subset.refl _)

end Send

/-- What a step of this clock does to the queue. -/
structure Passes (clock : Option Int) (l l' : Ledger) : Prop where
  queued : ∀ r' ∈ l'.deliveries, r'.state = .queued →
    (∃ r ∈ l.deliveries, r.id = r'.id ∧ r.state = .queued ∧ r'.updatedAt = r.updatedAt) ∨
      ((∀ r ∈ l.deliveries, r.id = r'.id → r.state ≠ .queued) ∧ clock = some r'.updatedAt)
  undelivered : ∀ r' ∈ l'.deliveries, r'.undelivered = true →
    ∃ r ∈ l.deliveries, r.id = r'.id ∧ r.undelivered = true

theorem Leaving.passes {l l' : Ledger} (h : Leaving l l') (clock : Option Int) :
    Passes clock l l' where
  queued := fun r' hr' hq => by
    obtain ⟨r, hr, hid, hleaves⟩ := h r' hr'
    exact Or.inl ⟨r, hr, hid, hleaves.queued hq⟩
  undelivered := fun r' hr' hund => by
    obtain ⟨r, hr, hid, hleaves⟩ := h r' hr'
    exact ⟨r, hr, hid, hleaves.undelivered hund⟩

theorem Entering.passes {now : Int} {l l' : Ledger} (h : Entering now l l') :
    Passes (some now) l l' where
  queued := fun r' hr' hq => by
    obtain ⟨r, hr, hid, henters⟩ := h r' hr'
    by_cases hbefore : r.state = .queued
    · exact Or.inl ⟨r, hr, hid, hbefore, (henters.stays hbefore).2⟩
    · refine Or.inr ⟨fun r₀ hr₀ hid₀ => ?_, ?_⟩
      · rwa [Table.eq_of_key hr₀ hr (hid₀.trans hid.symm)]
      · rw [(henters.enters hq).resolve_left hbefore]
  undelivered := fun r' hr' hund => by
    obtain ⟨r, hr, hid, henters⟩ := h r' hr'
    exact ⟨r, hr, hid, henters.undelivered hund⟩

theorem Sending.passes {ids : List String} {now : Int} {l l' : Ledger} (h : Sending ids now l l')
    (hfresh : ∀ r ∈ l.deliveries, r.id ∉ ids) : Passes (some now) l l' where
  queued := fun r' hr' hq => by
    rcases h r' hr' with ⟨r, hr, hid, hleaves⟩ | ⟨hid, hstamp, -⟩
    · exact Or.inl ⟨r, hr, hid, hleaves.queued hq⟩
    · exact Or.inr ⟨fun r hr hrid => absurd (hrid ▸ hid) (hfresh r hr), by rw [hstamp hq]⟩
  undelivered := fun r' hr' hund => by
    rcases h r' hr' with ⟨r, hr, hid, hleaves⟩ | ⟨-, -, hnot⟩
    · exact ⟨r, hr, hid, hleaves.undelivered hund⟩
    · rw [hnot] at hund
      cases hund

end Ledger

/-- The time the event reads. -/
def Event.clock : Event → Option Int
  | .send c => some c.now
  | .respond a => some a.now
  | .stage _ _ _ now | .note _ _ now | .dispatchTop _ now | .dispatchRemoval _ _ now
  | .dispatchPrincipal _ _ _ now | .recover _ _ _ _ now | .update _ _ _ now
  | .heartbeat _ _ _ now | .acknowledge _ _ now | .socketLost _ now | .leaseExpired _ now
  | .staleQueued now | .retract _ now | .sourcesExpired _ _ now | .pruneDeliveries now
  | .removeParticipant _ now | .removeStalePrincipal _ _ now | .deleteWebhook _ now
  | .handoffRemoval _ _ now | .handoffPrincipal _ _ now | .dispatchPosted _ _ now
  | .retryStarts _ now | .retryPosted _ _ now | .redeliveryStarts _ now
  | .redeliveryPosted _ _ now => some now
  | .dispatchStart _ _ | .deleteMessages _ | .eraseIdentity _ | .reviewed _ _
  | .restoreParticipant _ | .pause _ | .resume _ | .registerWebhook _ | .scrubWebhookItems _
  | .socket _ => none

namespace Room

variable {r r' : Room} {e : Event}

theorem leaving_dispatchPrincipal (targetName : String) (isCurrent : Bool) (token : Uuid)
    (now : Int) :
    Ledger.Leaving r.ledger (r.apply (.dispatchPrincipal targetName isCurrent token now)).ledger := by
  unfold apply dispatchStep
  dsimp only
  split
  · exact Ledger.Leaving.refl _
  unfold applyDispatchPrincipal
  split
  · split
    · exact Ledger.Leaving.refl _
    · split_ifs
      · rw [withTail_ledger]
        exact Ledger.leaving_removeParticipantRows _ now _ _
      · rw [withHandoff_ledger, withTail_ledger]
        exact Ledger.leaving_dispatchDecide _ now _ token
  · exact Ledger.Leaving.refl _

theorem leaving_handoffRemoval (item : WebhookItem) (isRemoved : Bool) (now : Int) :
    Ledger.Leaving r.ledger (r.applyHandoffRemoval item isRemoved now).ledger := by
  unfold applyHandoffRemoval
  dsimp only
  split_ifs
  · exact Ledger.leaving_removeParticipantRows r.ledger now _ _
  · exact Ledger.Leaving.refl _

theorem leaving_handoffPrincipal (item : WebhookItem) (isCurrent : Bool) (now : Int) :
    Ledger.Leaving r.ledger (r.applyHandoffPrincipal item isCurrent now).ledger := by
  unfold applyHandoffPrincipal
  dsimp only
  split
  · exact Ledger.Leaving.refl _
  · split_ifs
    · exact Ledger.leaving_removeParticipantRows r.ledger now _ _
    · exact Ledger.Leaving.refl _

/-- Every step but the alarm of the stale rows. -/
theorem step_passes (h : r.Sound) (hs : Step r e r') (hstale : ∀ now, e ≠ .staleQueued now) :
    Ledger.Passes e.clock r.ledger r'.ledger := by
  obtain ⟨⟨-, hfresh, hen⟩, rfl⟩ := hs
  change Ledger.Passes e.clock r.ledger (r.apply e).ledger
  have hnew : ∀ row ∈ r.ledger.deliveries, row.id ∉ creates e := fun row hrow hid =>
    hfresh _ ((creates_sublist e).subset hid) (h.known _ (Or.inl ⟨row, hrow, Or.inl rfl⟩))
  have hnone : Ledger.Passes e.clock r.ledger r.ledger :=
    (Ledger.Leaving.refl r.ledger).passes _
  cases e with
  | send c => exact (Ledger.sending_commitSend r.ledger c).passes hnew
  | stage seq edited targets now =>
    simp only [apply]
    split
    · exact hnone
    · exact (Ledger.sending_ensure _ now _ targets _).passes hnew
  | note m author now =>
    have hnote : Ledger.Leaving r.ledger (r.apply (.note m author now)).ledger :=
      Ledger.leaving_linkWakeResume (r.ledger.storeMessage m) now author m []
    exact hnote.passes _
  | respond a => exact (Ledger.sending_respondDecision r.ledger a).passes hnew
  | dispatchStart targetName excludeId =>
    simp only [apply]
    split_ifs <;> exact hnone
  | dispatchTop targetName now =>
    simp only [apply, dispatchStep]
    split
    · exact hnone
    · split
      · rw [withTail_ledger]
        exact (Ledger.leaving_dispatchTop r.ledger now _).passes _
      · exact hnone
  | dispatchRemoval targetName isRemoved now =>
    simp only [apply, dispatchStep]
    split
    · exact hnone
    · split
      · split_ifs <;> rw [withTail_ledger]
        · exact (Ledger.leaving_removeParticipantRows r.ledger now _ _).passes _
        · exact hnone
      · exact hnone
  | dispatchPrincipal targetName isCurrent token now =>
    exact (leaving_dispatchPrincipal targetName isCurrent token now).passes _
  | recover identity connectionId f lingering now =>
    exact (Ledger.entering_recover r.ledger now _ lingering identity connectionId f).passes
  | update identity connectionId u now =>
    exact (Ledger.leaving_update_frame r.ledger now _ identity connectionId u).passes _
  | heartbeat identity connectionId currentTask now =>
    exact (Ledger.leaving_heartbeat r.ledger now identity connectionId currentTask).passes _
  | acknowledge identity deliveryId now =>
    exact (Ledger.leaving_acknowledge r.ledger now identity deliveryId).passes _
  | socketLost connectionId now =>
    exact (Ledger.entering_socketLost r.ledger now connectionId).passes
  | leaseExpired lingering now => exact (Ledger.entering_leaseExpired r.ledger now).passes
  | staleQueued now => exact absurd rfl (hstale now)
  | retract seq now => exact (Ledger.leaving_retractMessage r.ledger now seq).passes _
  | sourcesExpired roots failure now =>
    refine (Ledger.leaving_failDeliveryTree r.ledger roots now ?_).passes _
    rcases hen.2 with hf | hf <;> simp [hf]
  | deleteMessages seqs =>
    have hdelete : Ledger.Leaving r.ledger (r.apply (.deleteMessages seqs)).ledger :=
      Ledger.leaving_delete r.ledger _
    exact hdelete.passes _
  | pruneDeliveries now => exact (Ledger.leaving_delete r.ledger _).passes _
  | eraseIdentity name =>
    have herase : Ledger.Leaving r.ledger (r.apply (.eraseIdentity name)).ledger :=
      Ledger.leaving_delete r.ledger fun row => row.targetName = name
    exact herase.passes _
  | reviewed seq reviewPending =>
    have hreview : Ledger.Leaving r.ledger (r.apply (.reviewed seq reviewPending)).ledger :=
      Ledger.Leaving.refl r.ledger
    exact hreview.passes _
  | removeParticipant name now =>
    exact (Ledger.leaving_removeParticipantRows r.ledger now _ _).passes _
  | removeStalePrincipal name principal now =>
    exact (Ledger.leaving_removeParticipantRows r.ledger now _ _).passes _
  | deleteWebhook hook now => exact (Ledger.leaving_deleteWebhook r.ledger r.hooks now hook).passes _
  | handoffRemoval item isRemoved now =>
    exact (leaving_handoffRemoval item isRemoved now).passes _
  | handoffPrincipal item isCurrent now =>
    exact (leaving_handoffPrincipal item isCurrent now).passes _
  | dispatchPosted item ok now =>
    exact (Ledger.leaving_dispatchPosted r.ledger r.hooks now item ok).passes _
  | retryStarts item now => exact (Ledger.leaving_retryStarts r.ledger r.hooks now item).passes _
  | retryPosted item ok now =>
    exact (Ledger.leaving_retryPosted r.ledger r.hooks now item ok).passes _
  | redeliveryStarts item now =>
    exact (Ledger.leaving_redeliveryStarts r.ledger r.hooks now item).passes _
  | redeliveryPosted item ok now =>
    exact (Ledger.leaving_redeliveryPosted r.ledger r.hooks now item ok).passes _
  | restoreParticipant | pause | resume | registerWebhook | scrubWebhookItems | socket =>
    exact hnone

/-- What the alarm of the stale rows does to a row. -/
theorem stale_row {now : Int} {row' : Delivery}
    (h : row' ∈ (r.apply (.staleQueued now)).ledger.deliveries) :
    ∃ row ∈ r.ledger.deliveries, row.id = row'.id ∧ Ledger.SameAnswer row row' ∧
      ((Ledger.Below r.ledger (r.ledger.staleQueuedRoots r.sockets.connections r.hooks.webhooks
            r.paused now) row.id ∧ (row'.state = .replied ∨ row'.undelivered = true)) ∨
        (¬ Ledger.Below r.ledger (r.ledger.staleQueuedRoots r.sockets.connections r.hooks.webhooks
            r.paused now) row.id ∧ Leaves row row')) := by
  set roots := r.ledger.staleQueuedRoots r.sockets.connections r.hooks.webhooks r.paused now
  obtain ⟨s, hs, hpending, hl⟩ := Ledger.failDeliveryTree_spec r.ledger roots now
    ⟨"no live wake channel for target after queued timeout; @ undelivered", .undeliveredTimeout⟩
  have hmem : row' ∈ s.ledger.deliveries := by
    rw [hl]
    exact h
  obtain ⟨row, hrow, hid, hchange⟩ := hs.rows.backward hmem
  have hanswer : Ledger.SameAnswer row row' := by
    obtain ⟨row₀, hrow₀, hid₀, hsame⟩ := Ledger.sameAnswer_sweep
      (Ledger.writes_failStaleQueued r.ledger now r.sockets.connections r.hooks.webhooks r.paused)
      row' h
    rwa [← Table.eq_of_key hrow₀ hrow (hid₀.trans hid.symm)]
  refine ⟨row, hrow, hid, hanswer, ?_⟩
  split_ifs at hchange with hvisited
  · refine Or.inl ⟨hs.below row hrow hvisited, hchange.closed.imp_right fun hfailed => ?_⟩
    simp [Delivery.undelivered, hfailed.1, hfailed.2]
  · refine Or.inr ⟨fun hbelow => hvisited (hs.visited_of_below hpending hbelow), ?_⟩
    rcases hchange with rfl | ⟨-, -, replySeq, error, rfl⟩
    · exact Leaves.refl row'
    · exact ⟨fun h => absurd h (Ledger.settledRow_not_queued _ replySeq error now row),
        fun h => by rw [Ledger.undelivered_settledRow] at h; cases h⟩

theorem stale_kept {now : Int} {row : Delivery} (h : row ∈ r.ledger.deliveries) :
    ∃ row' ∈ (r.apply (.staleQueued now)).ledger.deliveries, row'.id = row.id := by
  obtain ⟨s, hs, -, hl⟩ := Ledger.failDeliveryTree_spec r.ledger
    (r.ledger.staleQueuedRoots r.sockets.connections r.hooks.webhooks r.paused now) now
    ⟨"no live wake channel for target after queued timeout; @ undelivered", .undeliveredTimeout⟩
  obtain ⟨row', hrow', hid, -⟩ := hs.rows.forward h
  rw [hl] at hrow'
  exact ⟨row', hrow', hid⟩

/-- The row is in the queue. -/
def isQueued (r : Room) (id : String) : Bool :=
  (r.ledger.directedDeliveryRow id).any (·.state = .queued)

theorem isQueued_iff {id : String} :
    r.isQueued id = true ↔ ∃ row ∈ r.ledger.deliveries, row.id = id ∧ row.state = .queued := by
  rw [isQueued, Option.any_eq_true]
  constructor
  · rintro ⟨row, hrow, hq⟩
    obtain ⟨hmem, hid⟩ := Ledger.row_eq_some.1 hrow
    exact ⟨row, hmem, hid, of_decide_eq_true hq⟩
  · rintro ⟨row, hmem, hid, hq⟩
    exact ⟨row, Ledger.row_eq_some.2 ⟨hmem, hid⟩, decide_eq_true hq⟩

theorem step_queued (h : r.Sound) (hs : Step r e r') {row' : Delivery}
    (hmem : row' ∈ r'.ledger.deliveries) (hq : row'.state = .queued) :
    (∃ row ∈ r.ledger.deliveries, row.id = row'.id ∧ row.state = .queued ∧
        row'.updatedAt = row.updatedAt) ∨
      (r.isQueued row'.id = false ∧ e.clock = some row'.updatedAt) := by
  by_cases hstale : ∃ now, e = .staleQueued now
  · obtain ⟨now, rfl⟩ := hstale
    obtain ⟨-, rfl⟩ := hs
    obtain ⟨row, hrow, hid, -, ⟨-, hfinal⟩ | ⟨-, hleaves⟩⟩ := stale_row hmem
    · rcases hfinal with hst | hund
      · rw [hq] at hst
        cases hst
      · simp [Delivery.undelivered, hq] at hund
    · exact Or.inl ⟨row, hrow, hid, hleaves.queued hq⟩
  · have hpasses := step_passes h hs fun now heq => hstale ⟨now, heq⟩
    rcases hpasses.queued row' hmem hq with hold | ⟨hnot, hclock⟩
    · exact Or.inl hold
    · refine Or.inr ⟨?_, hclock⟩
      by_contra hne
      obtain ⟨row, hrow, hid, hrq⟩ := isQueued_iff.1 (by simpa using hne)
      exact hnot row hrow hid hrq

/-- The room with the time since which each delivery has been in the queue. -/
structure Watch where
  room : Room
  since : String → Option Int

namespace Watch

def next (w : Watch) (e : Event) : Watch where
  room := w.room.next e
  since id :=
    if !(w.room.next e).isQueued id then none
    else if w.room.isQueued id then w.since id
    else e.clock

def Step (w : Watch) (e : Event) (w' : Watch) : Prop := w.room.Ready e ∧ w' = w.next e

def initial : Watch := ⟨Room.initial, fun _ => none⟩

/-- Every delivery that the event moves to `failed` as undelivered has waited for the timeout. -/
def Waits (w : Watch) (e : Event) : Prop :=
  ∀ row' ∈ (w.next e).room.ledger.deliveries, row'.undelivered = true →
    (∃ row ∈ w.room.ledger.deliveries, row.id = row'.id ∧ row.undelivered = true) ∨
      ∃ t ∈ w.since row'.id, ∃ now ∈ e.clock, t + DIRECTED_DELIVERY_QUEUED_TIMEOUT_MS ≤ now

/-- What the alarm reaches is in the queue with an `updated_at` that is old enough. -/
def Punctual (w : Watch) : Event → Prop
  | .staleQueued now => ∀ row ∈ w.room.ledger.deliveries,
    Ledger.Below w.room.ledger (w.room.ledger.staleQueuedRoots w.room.sockets.connections
        w.room.hooks.webhooks w.room.paused now) row.id →
      row.state = .replied ∨ row.undelivered = true ∨
        (row.state = .queued ∧ row.updatedAt + DIRECTED_DELIVERY_QUEUED_TIMEOUT_MS ≤ now)
  | _ => True

variable {w w' : Watch} {evs : List Event}

/-- The clock of a queued row is its `updated_at`; no other row has one. -/
structure Dated (w : Watch) : Prop where
  queued : ∀ row ∈ w.room.ledger.deliveries, row.state = .queued →
    w.since row.id = some row.updatedAt
  others : ∀ id, w.room.isQueued id = false → w.since id = none

theorem Dated.step (h : w.Dated) (hsound : w.room.Sound) (hs : Step w e w') : w'.Dated := by
  obtain ⟨hready, rfl⟩ := hs
  refine ⟨fun row' hmem hq => ?_, fun id hnot => by simp [next, show
    (w.room.next e).isQueued id = false from hnot]⟩
  have hafter : (w.room.next e).isQueued row'.id = true := isQueued_iff.2 ⟨row', hmem, rfl, hq⟩
  rw [next]
  dsimp only
  rw [hafter, Bool.not_true, if_neg Bool.false_ne_true]
  rcases step_queued hsound ⟨hready, rfl⟩ hmem hq with ⟨row, hrow, hid, hrq, hsame⟩ | ⟨hnot, hclock⟩
  · rw [if_pos (isQueued_iff.2 ⟨row, hrow, hid, hrq⟩), ← hid, h.queued row hrow hrq, hsame]
  · rw [hnot, if_neg Bool.false_ne_true, hclock]

theorem run_room (h : EventSystem.Run Step initial evs w) : Room.Run Room.initial evs w.room := by
  induction h with
  | nil => exact EventSystem.Run.nil
  | snoc _ hs ih => exact EventSystem.Run.snoc ih ⟨hs.1, by rw [hs.2]; rfl⟩

theorem dated_of_run (h : EventSystem.Run Step initial evs w) : w.Dated := by
  induction h with
  | nil => exact ⟨fun row hrow => absurd hrow (Table.not_mem_empty row), fun _ _ => rfl⟩
  | snoc hrun hs ih => exact ih.step (Reachable.sound ⟨_, run_room hrun⟩) hs

/-- In every run, the deliveries that a step fails as undelivered have waited for the timeout if
and only if the rows its alarm reaches were last put into the queue that long ago. -/
theorem undelivered_waited_iff (h : EventSystem.Run Step initial evs w) (hs : Step w e w') :
    w.Waits e ↔ w.Punctual e := by
  have hsound : w.room.Sound := Reachable.sound ⟨evs, run_room h⟩
  have hdated : w.Dated := dated_of_run h
  by_cases hstale : ∃ now, e = .staleQueued now
  swap
  · have hpasses := step_passes hsound ⟨hs.1, rfl⟩ fun now heq => hstale ⟨now, heq⟩
    refine iff_of_true (fun row' hmem hund => Or.inl (hpasses.undelivered row' hmem hund)) ?_
    cases e <;> first | exact trivial | exact absurd ⟨_, rfl⟩ hstale
  obtain ⟨now, rfl⟩ := hstale
  constructor
  · intro hwaits row hrow hbelow
    by_cases hreplied : row.state = .replied
    · exact Or.inl hreplied
    by_cases hbefore : row.undelivered = true
    · exact Or.inr (Or.inl hbefore)
    obtain ⟨row', hmem, hid⟩ := stale_kept hrow
    obtain ⟨row₀, hrow₀, hid₀, hanswer, hcase⟩ := stale_row hmem
    obtain rfl := Table.eq_of_key hrow₀ hrow (hid₀.trans hid)
    have hund : row'.undelivered = true := by
      rcases hcase with ⟨-, hfinal⟩ | ⟨hnot, -⟩
      · exact hfinal.resolve_left fun h => hreplied (hanswer.1 h)
      · exact absurd hbelow hnot
    rcases hwaits row' hmem hund with ⟨row₁, hrow₁, hid₁, hund₁⟩ | ⟨t, ht, now', hnow, hle⟩
    · obtain rfl := Table.eq_of_key hrow₁ hrow (hid₁.trans hid)
      exact absurd hund₁ hbefore
    · obtain rfl : now = now' := by simpa [Event.clock] using hnow
      have hqueued : row₀.state = .queued := by
        by_contra hne
        have hnot : w.room.isQueued row'.id = false := by
          by_contra h
          obtain ⟨row₁, hrow₁, hid₁, hq⟩ := isQueued_iff.1 (by simpa using h)
          exact hne (Table.eq_of_key hrow₁ hrow (hid₁.trans hid) ▸ hq)
        rw [hdated.others _ hnot] at ht
        cases ht
      rw [← hid₀, hdated.queued row₀ hrow hqueued, Option.mem_some_iff] at ht
      exact Or.inr (Or.inr ⟨hqueued, ht ▸ hle⟩)
  · intro hpunctual row' hmem hund
    obtain ⟨row, hrow, hid, hanswer, ⟨hbelow, -⟩ | ⟨-, hleaves⟩⟩ := stale_row hmem
    · rcases hpunctual row hrow hbelow with hreplied | hbefore | ⟨hq, hold⟩
      · simp [Delivery.undelivered, hanswer.2 hreplied] at hund
      · exact Or.inl ⟨row, hrow, hid, hbefore⟩
      · refine Or.inr ⟨row.updatedAt, ?_, now, rfl, hold⟩
        rw [← hid]
        exact hdated.queued row hrow hq
    · exact Or.inl ⟨row, hrow, hid, hleaves.undelivered hund⟩

/-- `bot` is mentioned at 0 and stays away. -/
def unclaimed : List Event := [.send mentionBot]

theorem unclaimed_fails_after_timeout : ∃ w, EventSystem.Run Step initial unclaimed w ∧
    (∃ row ∈ (w.next (.staleQueued 600000)).room.ledger.deliveries, row.undelivered = true) ∧
      w.Waits (.staleQueued 600000) := by
  have hrun : EventSystem.Run Step initial unclaimed (initial.next (.send mentionBot)) :=
    EventSystem.Run.single ⟨by decide, rfl⟩
  refine ⟨_, hrun, by decide, (undelivered_waited_iff hrun ⟨by decide, rfl⟩).2 ?_⟩
  have hold : ∀ row ∈ (initial.next (.send mentionBot)).room.ledger.deliveries,
      row.state = .queued ∧ row.updatedAt + DIRECTED_DELIVERY_QUEUED_TIMEOUT_MS ≤ 600000 := by
    decide
  exact fun row hrow _ => Or.inr (Or.inr (hold row hrow))

/-- `bot` claims its mention at 590 s, its socket closes at 600 s, and the alarm runs. -/
def requeued : List Event :=
  serveEvents "c1" false ++ [Event.send mentionBot] ++ dispatchEvents tokenUuid 590000 ++
    [Event.socket (.closeBegins "c1"), .socket (.closeHandled "c1" []), .socketLost "c1" 600000]

theorem requeued_fails_at_once : ¬ ∀ evs w e w', EventSystem.Run Step initial evs w →
    Step w e w' → w.Waits e := by
  intro h
  have hready : EventSystem.AllReady (fun w e => w.room.Ready e) next initial requeued := by
    decide
  have hrun := @EventSystem.run_of_ready _ _ Step _ _ (fun w e hready => ⟨hready, rfl⟩) _ _ hready
  have hwaits := h _ _ (.staleQueued 600000) _ hrun ⟨by decide, rfl⟩
  obtain ⟨row, hrow, hund, hsince⟩ :
      ∃ row ∈ ((requeued.foldl next initial).next (.staleQueued 600000)).room.ledger.deliveries,
        row.undelivered = true ∧ (requeued.foldl next initial).since row.id = some 600000 := by
    decide
  have hbefore : ∀ row ∈ (requeued.foldl next initial).room.ledger.deliveries,
      row.undelivered = false := by decide
  rcases hwaits row hrow hund with ⟨row₀, hrow₀, -, hund₀⟩ | ⟨t, ht, now, hnow, hle⟩
  · rw [hbefore row₀ hrow₀] at hund₀
    cases hund₀
  · rw [hsince, Option.mem_some_iff] at ht
    obtain rfl : (600000 : Int) = now := by simpa [Event.clock] using hnow
    subst ht
    exact absurd hle (by decide)

end Watch
end Room
end AgentParty
