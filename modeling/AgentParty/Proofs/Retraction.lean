import AgentParty.Proofs.Leasing
import AgentParty.Proofs.Sweep

/-! Retraction closes a whole tree: what `failDeliveryTree` leaves of the rows below
the initial ones, and that no late receipt changes a row it failed. -/

namespace AgentParty
namespace Ledger

/-- A receipt or a recovery that arrives after the sweep. -/
inductive Receipt
  | complete (identity : Identity) (messageSeq replySeq : ℕ) (now : Int)
  | update (cs : Connections) (identity : ConnState) (connectionId : String)
      (u : DeliveryUpdateFrame) (now : Int)
  | recover (cs : Connections) (lingering : List String) (identity : ConnState)
      (connectionId : String) (f : DeliveryRecoverFrame) (now : Int)

def Receipt.apply (l : Ledger) : Receipt → Ledger
  | .complete identity messageSeq replySeq now =>
    l.completeDirectedDelivery identity messageSeq replySeq now
  | .update cs identity connectionId u now =>
    (l.applyDirectedDeliveryUpdate cs identity connectionId u now).1
  | .recover cs lingering identity connectionId f now =>
    (l.recoverDirectedDelivery cs lingering identity connectionId f now).ledger

/-- The writes that a receipt may consist of. -/
def Tag.receives : Tag → Bool
  | .plain | .closes | .completes _ | .recovers _ => true
  | _ => false

/-- A failed row that is not revivable outlives every receipt as it is. -/
theorem Write.keeps_failed {l l' : Ledger} {t : Tag} (h : Write l t l') (ht : t.receives = true)
    {r : Delivery} (hr : r ∈ l.deliveries) (hs : r.state = .failed)
    (hn : r.isFailedDeliveryRevivable = false) : r ∈ l'.deliveries := by
  have hreason : r.terminalReason ≠ some .unknownOutcome := by
    intro hu
    rw [Delivery.revivable_iff.2 ⟨hs, Or.inr hu⟩] at hn
    cases hn
  have hgate : ∀ {id : String} {st : TerminalState} {now : Int} {o : TerminalOptions},
      r ∈ (l.transitionDirectedDeliveryTerminal id st now o).1.deliveries := by
    intro id st now o
    obtain ⟨r', hr', -, hc⟩ := (transition_spec l id st now o).2.2.2.forward hr
    rcases hc with ⟨rfl, -⟩ | ⟨-, hne, -, -, hrev, -⟩ | ⟨-, hw, -⟩
    · exact hr'
    · cases st with
      | replied =>
        rw [hrev hs rfl] at hn
        cases hn
      | failed => exact absurd hs hne
    · simp [hs] at hw
  have hupdate : ∀ {id : String} {g : Delivery → Bool} {f : Delivery → Delivery}
      {hf : ∀ r, (f r).id = r.id}, (r.id = id → g r ≠ true) →
      r ∈ (l.updateDelivery id g f hf).deliveries := by
    intro id g f hf hg
    exact mem_updateDelivery.2 ⟨r, hr, by rw [if_neg fun h => hg h.1 h.2]⟩
  cases h with
  | rewrite id g f hf h =>
    refine hupdate fun hid hg => ?_
    have ha := (h r hr hid hg).active
    simp [Delivery.active, hs] at ha
  | close | complete => exact hgate
  | recover f g u hu h =>
    refine hupdate fun hid hg => ?_
    rcases (h r hr hid hg).1.state with ha | ⟨-, hu⟩
    · simp [Delivery.active, hs] at ha
    · exact hreason hu
  | store | edit | drop => exact hr
  | record h =>
    rw [recordLease_deliveries]
    exact hr
  | forget | purge | enqueue | answer | take | reclaim => simp [Tag.receives] at ht

theorem Writes.keeps_failed {P : Tag → Prop} (hP : ∀ t, P t → t.receives = true)
    {ids : List String} {l l' : Ledger} (h : Writes P ids l l') {r : Delivery}
    (hr : r ∈ l.deliveries) (hs : r.state = .failed) (hn : r.isFailedDeliveryRevivable = false) :
    r ∈ l'.deliveries := by
  obtain ⟨tags, hrun, hp, -⟩ := h
  induction hrun with
  | nil => exact hr
  | @snoc evs t t' e _ hw ih =>
    exact hw.keeps_failed (hP e (hp e (by simp)))
      (ih fun t ht => hp t (List.mem_append_left _ ht)) hs hn

theorem Receipt.keeps_failed {l : Ledger} (receipt : Receipt) {r : Delivery}
    (hr : r ∈ l.deliveries) (hs : r.state = .failed) (hn : r.isFailedDeliveryRevivable = false) :
    r ∈ (receipt.apply l).deliveries := by
  have hsettles : ∀ t : Tag, t.settles → t.receives = true := by
    rintro t (rfl | rfl) <;> rfl
  cases receipt with
  | complete identity messageSeq replySeq now =>
    refine (writes_completeDirectedDelivery l identity messageSeq replySeq now).keeps_failed ?_ hr
      hs hn
    rintro t ⟨r', -, rfl, -⟩
    rfl
  | update cs identity connectionId u now =>
    refine (writes_update l now cs identity connectionId u).keeps_failed ?_ hr hs hn
    rintro t (ht | ⟨r', -, rfl, -⟩)
    · exact hsettles t ht
    · rfl
  | recover cs lingering identity connectionId f now =>
    refine (writes_recoverDirectedDelivery l cs lingering identity connectionId f
      now).keeps_failed ?_ hr hs hn
    rintro t (ht | rfl)
    · exact hsettles t ht
    · rfl

theorem receipts_keep_failed {l : Ledger} (receipts : List Receipt) {r : Delivery}
    (hr : r ∈ l.deliveries) (hs : r.state = .failed) (hn : r.isFailedDeliveryRevivable = false) :
    r ∈ (receipts.foldl Receipt.apply l).deliveries := by
  induction receipts generalizing l with
  | nil => exact hr
  | cons receipt receipts ih => exact ih (receipt.keeps_failed hr hs hn)

/-- What a sweep leaves of a row below the initial ones: closed, without lineage,
without a holder, and out of the reach of receipts. -/
structure Retracted (l : Ledger) (reason : DeliveryTerminalReason) (r : Delivery) : Prop where
  swept : Swept reason r
  questions : ∀ m ∈ l.messages, m.pendingFor r.id = false
  sealed : r.state = .failed → ∀ receipts : List Receipt,
    r ∈ (receipts.foldl Receipt.apply l).deliveries

theorem below_row {l : Ledger} {initial : List String} {id : String} (h : Below l initial id) :
    ∃ r ∈ l.deliveries, r.id = id := by
  cases h with
  | root hr _ => exact ⟨_, hr, rfl⟩
  | child _ hr _ => exact ⟨_, hr, rfl⟩

/-- The worklist ends, every row below the initial ones is retracted, and a row
that is neither below them nor a waiting ancestor of an initial answer stays. -/
theorem failDeliveryTree_retracts (l : Ledger) (initial : List String) (now : Int)
    (failure : DeliveryFailure)
    (hfinal : REVIVABLE_DELIVERY_FAILURES.contains failure.terminalReason = false) :
    ∃ result : Ledger × List ℕ,
      (∀ fuel, l.sweepFuel initial ≤ fuel →
        l.failDeliveryTreeWithin fuel initial now failure = some result) ∧
      (∀ id, Below l initial id → ∃ r ∈ result.1.deliveries, r.id = id ∧
        Retracted result.1 failure.terminalReason r) ∧
      ∀ r ∈ l.deliveries, ¬ Below l initial r.id →
        ¬ (r.state = .waitingOwner ∧ AnswerAncestor l initial r.id) → r ∈ result.1.deliveries := by
  obtain ⟨result, hr⟩ := failDeliveryTree_terminates l initial now failure
  obtain ⟨s, hs, hp, hl⟩ := failDeliveryTree_spec l initial now failure
  rw [failDeliveryTree, hr, Option.getD_some] at hl
  refine ⟨result, fun fuel hfuel => WhileLoop.run_mono hfuel hr, ?_, ?_⟩
  · intro id hb
    obtain ⟨r, hmem, rfl⟩ := below_row hb
    have hv := hs.visited_of_below hp hb
    obtain ⟨r', hr', hid, hc⟩ := hs.rows.forward hmem
    rw [if_pos hv] at hc
    rw [hl] at hr'
    refine ⟨r', hr', hid, hc, ?_, fun hf receipts => receipts_keep_failed receipts hr' hf ?_⟩
    · rw [hid, ← hl]
      exact hs.questions r hmem hv
    · have hreason : r'.terminalReason = some failure.terminalReason := by
        rcases hc.closed with h | ⟨-, h⟩
        · simp [hf] at h
        · exact h
      simp [Delivery.isFailedDeliveryRevivable, hf, hreason] at hfinal ⊢
      exact hfinal
  · intro r hmem hb hw
    obtain ⟨r', hr', -, hc⟩ := hs.rows.forward hmem
    rw [if_neg fun hv => hb (hs.below r hmem hv)] at hc
    rw [hl] at hr'
    rcases hc with rfl | ⟨hwait, hanc, -⟩
    · exact hr'
    · exact absurd ⟨hwait, hanc⟩ hw

/-- A claimed delivery with a reconnect token. -/
def leasedRow : Delivery where
  id := "d"
  id_ne := by decide
  messageSeq := 1
  messageSeq_pos := Nat.one_pos
  targetName := "runner"
  targetOwner := some "owner"
  cause := .mention
  state := .claimed
  attempt := 1
  leaseEpoch := 1
  leaseToken := some "token"
  previousLeaseEpoch := none
  previousLeaseAttempt := none
  previousLeaseToken := none
  leaseConnectionId := some "connection"
  lastLeaseConnectionId := some "connection"
  leaseAdapter := some .serve
  lastLeaseAdapter := none
  leaseUntil := some 90000
  workId := some "work"
  continuationRef := some "continuation"
  parentDeliveryId := none
  replySeq := none
  lastError := none
  terminalReason := none
  acknowledgedBy := none
  acknowledgedAt := none
  createdAt := 0
  updatedAt := 0

def leasedLedger : Ledger where
  deliveries := Table.empty.insert leasedRow
  leaseHistory := []
  messages := Table.empty
  revSeq := 0

theorem leasedRow_mem : leasedRow ∈ leasedLedger.deliveries :=
  Table.mem_insert.2 (Or.inr ⟨rfl, fun _ h => absurd h (Table.not_mem_empty _)⟩)

theorem failDeliveryTree_retracts_leased :
    ∃ result : Ledger × List ℕ,
      (∀ fuel, leasedLedger.sweepFuel ["d"] ≤ fuel → leasedLedger.failDeliveryTreeWithin fuel ["d"] 0
        ⟨"source retracted, no retry", .sourceRetracted⟩ = some result) ∧
      ∃ r ∈ result.1.deliveries, r.id = "d" ∧ Retracted result.1 .sourceRetracted r := by
  obtain ⟨result, hrun, hbelow, -⟩ := failDeliveryTree_retracts leasedLedger ["d"] 0
    ⟨"source retracted, no retry", .sourceRetracted⟩ (by decide)
  exact ⟨result, hrun, hbelow "d" (Below.root leasedRow_mem (List.mem_singleton_self _))⟩

/-- Every lease column that can be NULL is. -/
def LeaseCleared (r : Delivery) : Prop :=
  r.leaseToken = none ∧ r.leaseConnectionId = none ∧ r.lastLeaseConnectionId = none ∧
    r.leaseAdapter = none ∧ r.lastLeaseAdapter = none ∧ r.leaseUntil = none

/-- The sweep keeps the token of the assignment it failed. -/
theorem failDeliveryTree_keeps_token :
    ¬ ∀ (l : Ledger) (initial : List String) (now : Int) (failure : DeliveryFailure),
      REVIVABLE_DELIVERY_FAILURES.contains failure.terminalReason = false →
      ∀ r ∈ (l.failDeliveryTree initial now failure).1.deliveries, Below l initial r.id →
        LeaseCleared r := by
  intro h
  have hrow : (leasedLedger.failDeliveryTree ["d"] 0
      ⟨"source retracted, no retry", .sourceRetracted⟩).1.deliveries.rows.any
        (fun r => r.id = "d" && r.leaseToken = some "token") = true := by decide
  obtain ⟨r, hr, hk⟩ := List.any_eq_true.1 hrow
  simp only [Bool.and_eq_true, decide_eq_true_eq] at hk
  have hb : Below leasedLedger ["d"] r.id := by
    rw [hk.1]
    exact Below.root leasedRow_mem (List.mem_singleton_self _)
  have hc := (h leasedLedger ["d"] 0 ⟨"source retracted, no retry", .sourceRetracted⟩ (by decide) r
    hr hb).1
  rw [hk.2] at hc
  cases hc

end Ledger
end AgentParty
