import AgentParty.Proofs.Transactions

/-! Dispatch and recovery as sequences of writes: the only operations besides an
operator's redelivery that hand a lease out or move one. -/

namespace AgentParty
namespace Ledger

/-- Settling writes and the claim of row `id`. -/
def Tag.claims (id : String) (t : Tag) : Prop := t.settles ∨ t = .takes id

section Dispatch

variable (l : Ledger) (now : Int)

theorem writes_dispatchTop (task : DispatchTask) :
    Writes Tag.settles [] l (l.dispatchTop task now).1 := by
  unfold dispatchTop
  split
  · exact Writes.refl l
  · split
    · exact writes_close (Or.inr rfl) l _ now _ (by simp) (by simp)
    · split_ifs <;> exact Writes.refl l

theorem recordLease_deliveries (h : LeaseHistory) :
    (l.recordLease h).deliveries = l.deliveries := by
  unfold recordLease
  split_ifs <;> rfl

theorem recordLease_messages (h : LeaseHistory) : (l.recordLease h).messages = l.messages := by
  unfold recordLease
  split_ifs <;> rfl

theorem mem_recordLease {h h' : LeaseHistory} :
    h' ∈ (l.recordLease h).leaseHistory ↔ h' ∈ l.leaseHistory ∨ h' = h := by
  unfold recordLease
  split_ifs with hc
  · simp only [List.contains_iff_mem] at hc
    exact ⟨Or.inl, fun h => h.elim id fun he => he ▸ hc⟩
  · simp

theorem recordQueuedLease_deliveries (queued : Delivery) :
    (l.recordQueuedLease queued).deliveries = l.deliveries := by
  unfold recordQueuedLease
  split_ifs
  · exact recordLease_deliveries l _
  · rfl

theorem writes_recordQueuedLease (queued : Delivery) :
    Writes (Tag.claims queued.id) [] l (l.recordQueuedLease queued) := by
  unfold recordQueuedLease
  split_ifs
  · exact Writes.single (Write.record _) (Or.inl (Or.inl rfl))
  · exact Writes.refl l

/-- The queue of the principal has no active row. -/
def Idle (targetName principal : String) : Prop :=
  ∀ r ∈ l.deliveries, r.active = true → r.target ≠ (targetName, some principal)

theorem idle_of_activeFor {targetName principal : String}
    (h : l.activeFor targetName principal = false) : l.Idle targetName principal := by
  intro r hr ha ht
  simp only [activeFor, List.any_eq_false, Bool.and_eq_true, decide_eq_true_eq, not_and] at h
  simp only [Delivery.target, Prod.mk.injEq] at ht
  exact h r hr ⟨ht.1, ht.2⟩ ha

variable {task : DispatchTask} {queued : Delivery} {principal : String}

/-- The claim of a queued row of an idle principal. -/
theorem write_take (hq : ∀ r ∈ l.deliveries, r.id = queued.id → r.targetName = task.targetName)
    (hi : l.Idle task.targetName principal) (state : DeliveryState) (adapter : LeaseAdapter)
    (token : Option String) (holderId : String) (leaseUntil : Int) :
    Writes (Tag.claims queued.id) [] l (l.updateDelivery queued.id
      (fun r => r.targetOwner = some principal && r.state = .queued)
      (claimedRow state adapter token holderId leaseUntil now) (claimedRow_id _ _ _ _ _ _)) := by
  refine Writes.single (Write.take _ _ _ _ _ _ _ _ fun r hr hid hg => ?_) (Or.inr rfl)
  simp only [Bool.and_eq_true, decide_eq_true_eq] at hg
  refine ⟨hg.2, fun r' hr' ha ht => hi r' hr' ha ?_⟩
  rw [ht, Delivery.target, hq r hr hid, hg.1]

theorem writes_claimFor (hq : ∀ r ∈ l.deliveries, r.id = queued.id → r.targetName = task.targetName)
    (hi : l.Idle task.targetName principal) (adapter : LeaseAdapter)
    (holder : Connection ⊕ AgentWebhook) (token : Uuid) :
    Writes (Tag.claims queued.id) [] l (l.claimFor queued principal adapter holder token now).1 := by
  have htake := write_take l now hq hi .claimed adapter (claimToken token holder) (holderOf holder)
    (now + leaseMs adapter)
  unfold claimFor
  dsimp only
  split
  · exact htake
  · split_ifs
    · exact htake
    · split
      · exact htake.seq (writes_close (Or.inl (Or.inr rfl)) _ _ now _ (by simp) (by simp))
      · exact htake

theorem writes_dispatchDecide
    (hq : ∀ r ∈ l.deliveries, r.id = queued.id → r.targetName = task.targetName)
    (cs : Connections) (token : Uuid) :
    Writes (Tag.claims queued.id) [] l
      (l.dispatchDecide cs task queued principal token now).1 := by
  unfold dispatchDecide
  dsimp only
  split_ifs with h1 h2 h3 h4 h5
  · exact Writes.refl l
  · exact Writes.refl l
  · exact Writes.refl l
  · exact writes_close (Or.inl (Or.inr rfl)) l _ now _ (by simp) (by simp)
  · exact Writes.refl l
  have hrec := writes_recordQueuedLease l queued
  have hq' : ∀ r ∈ (l.recordQueuedLease queued).deliveries, r.id = queued.id →
      r.targetName = task.targetName := by
    rw [recordQueuedLease_deliveries]
    exact hq
  have hi' : (l.recordQueuedLease queued).Idle task.targetName principal := by
    unfold Idle
    rw [recordQueuedLease_deliveries]
    exact idle_of_activeFor l (by simpa using h5)
  split
  · split
    · exact hrec
    · split_ifs
      · exact hrec.seq (writes_claimFor _ now hq' hi' _ _ token)
      · exact hrec
  · split
    · exact hrec
    · exact hrec.seq (write_take _ now hq' hi' _ _ _ _ _)

end Dispatch

section Recover

/-- Settling writes, and the moves of the lease that frame `f` presents. -/
def Tag.recoversWith (f : DeliveryRecoverFrame) (t : Tag) : Prop := t.settles ∨ t = .recovers f

variable (l : Ledger) (cs : Connections) (lingering : List String) (identity : ConnState)
  (connectionId : String) (f : DeliveryRecoverFrame) (now : Int)

theorem matchesCurrent_iff {row : Delivery} : f.matchesCurrent row = true ↔
    row.attempt = f.attempt ∧ row.leaseEpoch = f.leaseEpoch ∧
      (row.leaseToken = some f.leaseToken ∨ row.leaseToken = some f.nextLeaseToken) := by
  have hpresents : ∀ token : Option String, f.presents (text token) = true ↔
      token = some f.leaseToken ∨ token = some f.nextLeaseToken := by
    intro token
    cases token with
    | none =>
      change f.presents "" = true ↔ _
      simp [DeliveryRecoverFrame.presents, f.leaseToken_ne.symm, f.nextLeaseToken_ne.symm]
    | some t =>
      change f.presents t = true ↔ _
      simp [DeliveryRecoverFrame.presents]
  simp only [DeliveryRecoverFrame.matchesCurrent, Bool.and_eq_true, decide_eq_true_eq, hpresents,
    and_assoc]

theorem assignmentOf_iff {row : Delivery} :
    assignmentOf f row = true ↔ f.matchesCurrent row = true := by
  rw [matchesCurrent_iff]
  cases ht : row.leaseToken <;>
    simp [assignmentOf, ht, DeliveryRecoverFrame.presents, and_assoc]

/-- The token of a matching row is in the history before the row changes. -/
theorem recorded_of_matches {row : Delivery} (hm : f.matchesCurrent row = true) :
    ⟨f.deliveryId, f.attempt, f.leaseEpoch, text row.leaseToken⟩ ∈
      (recordCurrentLease l f row).leaseHistory := by
  have hne : text row.leaseToken ≠ "" := by
    rcases ((matchesCurrent_iff f).1 hm).2.2 with h | h <;> rw [h]
    · exact f.leaseToken_ne
    · exact f.nextLeaseToken_ne
  unfold recordCurrentLease
  rw [if_pos (by simp [hm, hne])]
  exact (mem_recordLease l).2 (Or.inr rfl)

theorem recordCurrentLease_deliveries (row : Delivery) :
    (recordCurrentLease l f row).deliveries = l.deliveries := by
  unfold recordCurrentLease
  split_ifs
  · exact recordLease_deliveries l _
  · rfl

theorem writes_recordCurrentLease (row : Delivery) :
    Writes (Tag.recoversWith f) [] l (recordCurrentLease l f row) := by
  unfold recordCurrentLease
  split_ifs
  · exact Writes.single (Write.record _) (Or.inl (Or.inl rfl))
  · exact Writes.refl l

variable {row : Delivery}

/-- What the recovery branches know of the row they were reached with. -/
structure Presented (l : Ledger) (f : DeliveryRecoverFrame) (row : Delivery) : Prop where
  mem : row ∈ l.deliveries
  id : row.id = f.deliveryId
  recorded : f.matchesCurrent row = true →
    ⟨f.deliveryId, f.attempt, f.leaseEpoch, text row.leaseToken⟩ ∈ l.leaseHistory

theorem write_recover (hp : Presented l f row) {g : Delivery → Bool} {u : Delivery → Delivery}
    {hu : ∀ r, (u r).id = r.id} (ha : g row = true → f.matchesCurrent row = true)
    (ht : g row = true → Takeover l f row (u row)) :
    Writes (Tag.recoversWith f) [] l (l.updateDelivery f.deliveryId g u hu) := by
  refine Writes.single (Write.recover f g u hu fun r hr hid hg => ?_) (Or.inr rfl)
  obtain rfl := Table.eq_of_key hr hp.mem (hid.trans hp.id.symm)
  exact ⟨ht hg, (assignmentOf_iff f).2 (ha hg), hp.recorded (ha hg)⟩

theorem writes_deferReplay (hp : Presented l f row) (hf : f.replaySafe = true) :
    Writes (Tag.recoversWith f) [] l (deferReplay l cs f now).ledger := by
  have hw : Writes (Tag.recoversWith f) [] l (l.updateDelivery f.deliveryId
      (fun r => r.state = .failed && r.terminalReason = some .unknownOutcome && assignmentOf f r)
      (deferredRow now) (deferredRow_id now)) := by
    refine write_recover l f hp (fun hg => ?_) fun hg => ?_
    all_goals simp only [Bool.and_eq_true, decide_eq_true_eq] at hg
    · exact (assignmentOf_iff f).1 hg.2
    · exact Takeover.defers now hf hg.1.1 hg.1.2
  unfold deferReplay
  dsimp only
  split
  · exact hw
  · split_ifs <;> exact hw

theorem writes_reviveReplay (hp : Presented l f row) (hf : f.replaySafe = true)
    (hx : row.state = .failed → l.successor identity.toIdentity f.deliveryId = none) :
    Writes (Tag.recoversWith f) [] l
      (reviveReplay l cs lingering identity connectionId f now row).ledger := by
  have hw : Writes (Tag.recoversWith f) [] l (l.updateDelivery f.deliveryId
      (fun r => identity.toIdentity.boundTo r && assignmentOf f r &&
        ((r.state = .running && r.leaseExpired now) ||
          (r.state = .failed && r.terminalReason = some .unknownOutcome)))
      (revivedRow connectionId row.recoveryAdapter f.nextLeaseToken now)
      (revivedRow_id _ _ _ _)) := by
    refine write_recover l f hp (fun hg => ?_) fun hg => ?_
    all_goals simp only [Bool.and_eq_true, Bool.or_eq_true, decide_eq_true_eq] at hg
    · exact (assignmentOf_iff f).1 hg.1.2
    · refine Takeover.revives _ _ now hf (hg.2.imp And.left id) ?_
      intro hs r' hr' ha ht
      by_contra hne
      have hnone := List.find?_eq_none.1 (hx hs) r' hr'
      simp only [Delivery.target, Prod.mk.injEq] at ht
      have hb := hg.1.1
      simp only [Identity.boundTo, ← ht.1, ← ht.2] at hb
      rw [hp.id] at hne
      exact hnone (by simpa [Identity.boundTo, ha, hne] using hb)
  unfold reviveReplay
  dsimp only
  split
  · exact hw
  · split_ifs <;> exact hw

theorem writes_expireRunning :
    Writes (Tag.recoversWith f) [] l
      (expireRunning l cs lingering identity connectionId f now row).ledger := by
  have hw := writes_close (P := Tag.recoversWith f) (Or.inl (Or.inr rfl)) l f.deliveryId now
    { error := some "runner ownership lost after task start; outcome unknown, not auto-retried",
      terminalReason := some .unknownOutcome, expectedStates := [.running] } (by simp) (by simp)
  unfold expireRunning
  dsimp only
  split
  · exact hw
  · split_ifs <;> exact hw

theorem writes_rotateLease (hp : Presented l f row) :
    Writes (Tag.recoversWith f) [] l
      (rotateLease l cs lingering identity connectionId f now row).ledger := by
  have hw : Writes (Tag.recoversWith f) [] l (l.updateDelivery f.deliveryId
      (fun r => identity.toIdentity.boundTo r && (r.state = .claimed || r.state = .running) &&
        assignmentOf f r && r.leaseUntil.any fun u => now < u)
      (rotatedRow connectionId f.nextLeaseToken now) (rotatedRow_id _ _ _)) := by
    refine write_recover l f hp (fun hg => ?_) fun hg => ?_
    all_goals simp only [Bool.and_eq_true] at hg
    · exact (assignmentOf_iff f).1 hg.1.2
    · exact Takeover.rotates _ now hg.1.1.2
  unfold rotateLease
  dsimp only
  split
  · exact hw
  · split_ifs <;> exact hw

theorem writes_recoverUnsettled (hmem : row ∈ l.deliveries) (hid : row.id = f.deliveryId) :
    Writes (Tag.recoversWith f) [] l
      (recoverUnsettled l cs lingering identity connectionId f now row).ledger := by
  have hrec := writes_recordCurrentLease l f row
  have hp : Presented (recordCurrentLease l f row) f row :=
    ⟨(recordCurrentLease_deliveries l f row).symm ▸ hmem, hid, recorded_of_matches l f⟩
  unfold recoverUnsettled
  dsimp only
  split_ifs with h1 h2 h3 h4 h5 h6
  · exact hrec
  · simp only [replaySafeUnknown, Bool.and_eq_true] at h1
    exact hrec.seq (writes_deferReplay _ cs f now hp h1.1.1)
  · simp only [replaySafeUnknown, Bool.and_eq_true] at h1
    refine hrec.seq (writes_reviveReplay _ cs lingering identity connectionId f now hp h1.1.1 ?_)
    intro hs
    simpa [hs] using h3
  all_goals first
    | exact hrec
    | exact hrec.seq (writes_expireRunning _ cs lingering identity connectionId f now)
    | exact hrec.seq (writes_rotateLease _ cs lingering identity connectionId f now hp)

theorem writes_recoverDirectedDelivery :
    Writes (Tag.recoversWith f) [] l
      (l.recoverDirectedDelivery cs lingering identity connectionId f now).ledger := by
  unfold recoverDirectedDelivery
  split
  · exact Writes.refl l
  · rename_i row hrow
    obtain ⟨hmem, hid⟩ := row_eq_some.1 hrow
    split_ifs
    · exact Writes.refl l
    · exact Writes.refl l
    · exact Writes.refl l
    · exact writes_recoverUnsettled l cs lingering identity connectionId f now hmem hid

end Recover

end Ledger
end AgentParty
