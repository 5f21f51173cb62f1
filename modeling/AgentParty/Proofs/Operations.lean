import AgentParty.Proofs.Steady

/-! The operations of the ledger as sequences of writes: what runners, sockets,
alarms and webhooks do to the rows. -/

namespace AgentParty
namespace Ledger

/-- Row updates and failures, nothing that completes, claims or creates. -/
def Tag.settles (t : Tag) : Prop := t = .plain ∨ t = .closes

theorem writes_rewrite {P : Tag → Prop} (hP : P .plain) {l : Ledger} {id : String}
    {g : Delivery → Bool} {f : Delivery → Delivery} {hf : ∀ r, (f r).id = r.id}
    (h : ∀ r ∈ l.deliveries, r.id = id → g r = true → Rewrite r (f r)) :
    Writes P [] l (l.updateDelivery id g f hf) :=
  Writes.single (Write.rewrite id g f hf h) hP

theorem writes_close {P : Tag → Prop} (hP : P .closes) (l : Ledger) (id : String) (now : Int)
    (o : TerminalOptions) (hs : DeliveryState.replied ∉ o.expectedStates)
    (hw : DeliveryState.waitingOwner ∈ o.expectedStates →
      (o.terminalReason.getD .deliveryFailed).final = true) :
    Writes P [] l (l.transitionDirectedDeliveryTerminal id .failed now o).1 :=
  Writes.single (Write.close id now o hs hw) hP

/-- An early return that leaves the ledger alone. -/
theorem writes_refusal {P : Tag → Prop} {l : Ledger} {β : Type*} {c : Prop} [Decidable c] {b : β}
    {result : Ledger × β} (h : ¬c → Writes P [] l result.1) :
    Writes P [] l (if c then (l, b) else result).1 := by
  split_ifs with hc
  · exact Writes.refl l
  · exact h hc

section Runner

variable (l : Ledger) (now : Int)

theorem writes_heartbeat (identity : Identity) (connectionId : String) (currentTask : Option ℕ) :
    Writes Tag.settles [] l
      (l.applyDirectedDeliveryHeartbeat identity connectionId currentTask now) := by
  unfold applyDirectedDeliveryHeartbeat
  cases currentTask with
  | none => exact Writes.refl l
  | some seq =>
    dsimp only
    split
    · exact Writes.refl l
    · refine writes_rewrite (Or.inl rfl) fun r _ _ hg => Rewrite.heartbeats _ _ ?_
      simp only [Bool.and_eq_true, decide_eq_true_eq] at hg
      exact hg.2

/-- The rows an explicit acknowledgement answers. -/
def acknowledges (identity : Identity) (deliveryId : String) (r : Delivery) : Prop :=
  r.id = deliveryId ∧ identity.identityMatchesDeliveryTarget r = true ∧
    (r.state = .queued ∨ r.state = .claimed ∨ r.state = .running)

theorem writes_acknowledge (identity : Identity) (deliveryId : String) :
    Writes (fun t => ∃ r ∈ l.deliveries, t = .completes r.id ∧
        acknowledges identity deliveryId r) [] l
      (l.acknowledgeDelivery identity deliveryId now) := by
  unfold acknowledgeDelivery
  split
  · exact Writes.refl l
  · rename_i row hrow
    obtain ⟨hmem, hid⟩ := row_eq_some.1 hrow
    split_ifs with hi hs
    · exact Writes.refl l
    · exact Writes.refl l
    · have hstate : row.state = .queued ∨ row.state = .claimed ∨ row.state = .running := by
        by_contra hne
        simp only [not_or] at hne
        exact hs (by simp [hne])
      refine Writes.single (Write.complete _ _ _ ?_) ⟨row, hmem, rfl, hid, by simpa using hi, hstate⟩
      rcases hstate with h | h | h <;> simp [h]

/-- The rows that a runner's success report settles: its own live lease, or a
revivable failure of a lease it held, with a reply that answers the row. -/
def reportsReply (l : Ledger) (cs : Connections) (identity : ConnState) (connectionId : String)
    (u : DeliveryUpdateFrame) (r : Delivery) : Prop :=
  r.id = u.deliveryId ∧ u.state = .replied ∧ u.replySeq.isSome = true ∧
    identity.toIdentity.identityMatchesDeliveryTarget r = true ∧ u.matchesRow r = true ∧
    electedHolder cs identity connectionId = true ∧ u.replyLinked l identity.toIdentity r = true ∧
    ((r.active = true ∧ text r.leaseConnectionId = connectionId) ∨
      (r.isFailedDeliveryRevivable = true ∧
        (text r.leaseConnectionId = connectionId ∨ text r.lastLeaseConnectionId = connectionId)))

/-- Behind the ownership checks: `hown` says what they leave of a failed row. -/
theorem writes_ownedUpdate (identity : ConnState) (connectionId : String)
    (u : DeliveryUpdateFrame) {row : Delivery} (hid : row.id = u.deliveryId)
    (hw : row.state ≠ .waitingOwner) (hr : row.state ≠ .replied)
    (hf : row.state = .failed → u.state = .replied) :
    Writes (fun t => t.settles ∨ (t = .completes row.id ∧ u.state = .replied ∧
        u.replySeq.isSome = true ∧ u.replyLinked l identity.toIdentity row = true ∧
        (row.active = true ∨ row.state = .failed))) [] l
      (l.applyOwnedUpdate identity connectionId u row now).1 := by
  unfold applyOwnedUpdate
  generalize (if row.state = .failed then none else some connectionId) = holder
  split_ifs with h1 h2 h3 h4 <;> try exact Writes.refl l
  · -- success without a reply fails the row
    refine writes_close (Or.inl (Or.inr rfl)) l _ now _ ?_ ?_ <;>
      simp only [List.mem_singleton] <;> intro hs
    · exact hr hs.symm
    · exact absurd hs.symm hw
  · cases hu : u.state with
    | running =>
      refine writes_rewrite (Or.inl (Or.inl rfl)) fun r _ _ hg => Rewrite.starts _ _ ?_
      simp only [Bool.and_eq_true] at hg
      exact hg.2
    | replied =>
      refine Writes.single (Write.complete _ _ _ ?_) (Or.inr ⟨by rw [hid], rfl, ?_, ?_, ?_⟩)
      · simpa using fun h => hw h.symm
      · simpa [hu, Option.isSome_iff_ne_none] using h2
      · simpa using h4
      · rw [Delivery.active_iff]
        cases hs : row.state <;> simp [hs, hu] at h1 hw hr ⊢
    | failed =>
      have hnf : row.state ≠ .failed := fun h => by simp [hf h] at hu
      refine writes_close (Or.inl (Or.inr rfl)) l _ now _ ?_ ?_ <;>
        simp only [List.mem_singleton] <;> intro hs
      · exact hr hs.symm
      · exact absurd hs.symm hw
    | waitingOwner => exact Writes.refl l

theorem writes_update (cs : Connections) (identity : ConnState) (connectionId : String)
    (u : DeliveryUpdateFrame) :
    Writes (fun t => t.settles ∨ ∃ r ∈ l.deliveries, t = .completes r.id ∧
        reportsReply l cs identity connectionId u r) [] l
      (l.applyDirectedDeliveryUpdate cs identity connectionId u now).1 := by
  unfold applyDirectedDeliveryUpdate
  split
  · exact Writes.refl l
  rename_i row hrow
  obtain ⟨hmem, hid⟩ := row_eq_some.1 hrow
  dsimp only
  -- the ten refusals of the source, in its order
  refine writes_refusal fun h1 => writes_refusal fun h2 => writes_refusal fun h3 =>
    writes_refusal fun h4 => writes_refusal fun h5 => writes_refusal fun h6 =>
    writes_refusal fun h7 => writes_refusal fun h8 => writes_refusal fun h9 =>
    writes_refusal fun h10 => ?_
  have hfail : row.state = .failed → u.state = .replied := fun hf => by simpa [hf] using h7
  refine (writes_ownedUpdate l now identity connectionId u hid h3 h4 hfail).mono fun t ht => ?_
  rcases ht with ht | ⟨rfl, hu, hseq, hlinked, hstate⟩
  · exact Or.inl ht
  refine Or.inr ⟨row, hmem, rfl, hid, hu, hseq, by simpa using h1, by simpa using h2,
    by simpa using h10, hlinked, ?_⟩
  by_cases hf : row.state = .failed
  · refine Or.inr ⟨by simpa [hf] using h8, ?_⟩
    simpa [hf, Classical.or_iff_not_imp_left] using h6
  · exact Or.inl ⟨hstate.resolve_right hf, by simpa [hf] using h9⟩

end Runner

section Loss

variable (l : Ledger) (now : Int)

theorem writes_socketLost (connectionId : String) :
    Writes Tag.settles [] l (l.requeueDirectedDeliveriesForConnection connectionId now) := by
  refine Writes.foldl (fun l row _ => ?_) l
  unfold requeueOne
  split_ifs with h1 h2
  · exact Writes.refl l
  · exact writes_close (Or.inr rfl) l _ now _ (by simp) (by simp)
  · refine writes_rewrite (Or.inl rfl) fun r _ _ hg => Rewrite.requeues _ ?_
    simp only [Bool.and_eq_true, decide_eq_true_eq] at hg
    exact hg.2

theorem writes_leaseExpired : Writes Tag.settles [] l (l.requeueExpired now) := by
  refine Writes.foldl (fun l row _ => ?_) l
  unfold expireOne
  split_ifs with h1
  · refine writes_rewrite (Or.inl rfl) fun r _ _ hg => Rewrite.requeues _ ?_
    simp only [Bool.and_eq_true, decide_eq_true_eq] at hg
    exact hg.1
  · exact writes_close (Or.inr rfl) l _ now _ (by simp) (by simp)

/-- A participant that is gone fails every unfinished row for good. -/
theorem writes_removeParticipantRows (p : Delivery → Bool) (error : String) :
    Writes Tag.settles [] l (l.removeParticipantRows p error now) := by
  refine Writes.foldl (fun l row hrow => ?_) l
  have hu : row.unfinished = true := by
    have := (List.mem_filter.1 hrow).2
    simp only [Bool.and_eq_true] at this
    exact this.2
  refine writes_close (Or.inr rfl) l _ now _ ?_ fun _ => rfl
  intro hr
  have hs : row.state = .replied := by simpa [eq_comm] using hr
  simp [Delivery.unfinished, hs] at hu

end Loss

section Webhooks

variable (l : Ledger) (w : WebhookState) (now : Int)

theorem claimedBy_state {binding : AgentWebhook} {r : Delivery} (h : claimedBy binding r = true) :
    r.state = .claimed := by
  simp only [claimedBy, Bool.and_eq_true, decide_eq_true_eq] at h
  exact h.1.1.1.1

theorem writes_accept (item : WebhookItem) (leaseUntil : Int) :
    Writes Tag.settles [] l (l.acceptDirectedWebhookDelivery item leaseUntil now).1 := by
  unfold acceptDirectedWebhookDelivery
  split
  · exact Writes.refl l
  · split_ifs
    · exact Writes.refl l
    · exact writes_rewrite (Or.inl rfl) fun r _ _ hg =>
        Rewrite.starts _ _ (Delivery.active_iff.2 (Or.inl (claimedBy_state hg)))

theorem writes_renew (item : WebhookItem) (leaseUntil : Int) :
    Writes Tag.settles [] l (l.renewDirectedWebhookLease item leaseUntil now) :=
  writes_rewrite (Or.inl rfl) fun _ _ _ hg => Rewrite.renews _ _ (claimedBy_state hg)

theorem writes_failWebhook (item : WebhookItem) (error : String) :
    Writes Tag.settles [] l (l.failDirectedWebhookDelivery item error now) := by
  unfold failDirectedWebhookDelivery
  split
  · exact Writes.refl l
  · dsimp only
    split_ifs
    · exact Writes.refl l
    · exact writes_close (Or.inr rfl) l _ now _ (by simp) (by simp)

theorem writes_failMismatchedRetry (item : WebhookItem) :
    Writes Tag.settles [] l (l.failMismatchedRetry item now) := by
  unfold failMismatchedRetry
  split
  · exact Writes.refl l
  · dsimp only
    split_ifs
    · exact writes_close (Or.inr rfl) l _ now _ (by simp) (by simp)
    · exact Writes.refl l

theorem writes_failRemovedWebhook (registrationId : String) (rows : List Delivery)
    (ha : ∀ r ∈ rows, r.active = true) :
    Writes Tag.settles [] l (l.failRemovedWebhook registrationId rows now) := by
  refine Writes.foldl (fun l row hrow => ?_) l
  refine writes_close (Or.inr rfl) l _ now _ ?_ ?_ <;>
    rcases Delivery.active_iff.1 (ha row hrow) with h | h <;> simp [h]

theorem writes_dispatchPosted (item : WebhookItem) (ok : Bool) :
    Writes Tag.settles [] l (w.finishDispatchPost l item ok now).1 := by
  unfold WebhookState.finishDispatchPost
  dsimp only
  split_ifs
  · exact Writes.refl l
  · exact writes_accept l now _ _
  · exact writes_failWebhook l now _ _
  · exact writes_failWebhook l now _ _
  · exact writes_renew l now _ _

theorem writes_retryStarts (item : WebhookItem) :
    Writes Tag.settles [] l (w.startRetry l item now).1 := by
  unfold WebhookState.startRetry
  dsimp only
  split_ifs
  · exact writes_failWebhook l now _ _
  · exact writes_failMismatchedRetry l now _
  · exact Writes.refl l
  · exact Writes.refl l

theorem writes_retryPosted (item : WebhookItem) (ok : Bool) :
    Writes Tag.settles [] l (w.finishRetryPost l item ok now).1 := by
  unfold WebhookState.finishRetryPost
  dsimp only
  split_ifs
  · exact writes_accept l now _ _
  · exact writes_failWebhook l now _ _
  · exact writes_renew l now _ _

theorem writes_redeliveryPosted (item : WebhookItem) (ok : Bool) :
    Writes Tag.settles [] l (w.finishRedelivery l item ok now).1 := by
  unfold WebhookState.finishRedelivery
  dsimp only
  split_ifs
  · exact writes_accept l now _ _
  · exact writes_accept l now _ _
  · exact writes_failWebhook l now _ _

theorem writes_reclaim (item : WebhookItem) :
    Writes (· = .reclaims item.payload.deliveryId) [] l
      (l.reclaimDirectedWebhookDeadLetter item now).1 := by
  unfold reclaimDirectedWebhookDeadLetter
  split
  · exact Writes.refl l
  · split_ifs
    · exact Writes.refl l
    · refine Writes.single (Write.reclaim _ _ _ _ _ fun r _ _ hg => ?_) rfl
      simp only [Bool.and_eq_true, decide_eq_true_eq] at hg
      exact hg.1.1.1

theorem writes_redeliveryStarts (item : WebhookItem) :
    Writes (· = .reclaims item.payload.deliveryId) [] l (w.startRedelivery l item now).1 := by
  have h := writes_reclaim l now item
  unfold WebhookState.startRedelivery
  split_ifs
  · exact Writes.refl l
  · split <;> rename_i heq <;> rw [heq] at h <;> exact h

theorem writes_deleteWebhook (hook : AgentWebhook) :
    Writes Tag.settles [] l (w.deleteWebhook l hook now).1 := by
  refine (Writes.foldl (fun l i _ => writes_failWebhook l now i _) l).trans
    (writes_failRemovedWebhook _ now _ _ fun r hr => ?_)
  have := (List.mem_filter.1 hr).2
  simp only [Bool.and_eq_true] at this
  exact this.2

end Webhooks

end Ledger
end AgentParty
