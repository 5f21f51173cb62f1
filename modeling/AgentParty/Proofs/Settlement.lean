import AgentParty.Delivery.Terminal
import Mathlib.Logic.Relation

/-! What the terminal gate can do to the ledger. The settlement closes waiting
rows along the hops of the answer's lineage and leaves everything else alone;
the gate rewrites one row and then settles. -/

namespace AgentParty
namespace Ledger

open Relation

theorem row_eq_some {l : Ledger} {id : String} {r : Delivery} :
    l.directedDeliveryRow id = some r ↔ r ∈ l.deliveries ∧ r.id = id :=
  Table.get?_eq_some

theorem row_of_mem {l : Ledger} {r : Delivery} (h : r ∈ l.deliveries) :
    l.directedDeliveryRow r.id = some r :=
  Table.get?_key h

@[simp] theorem updateDelivery_messages (l : Ledger) (id : String) (g : Delivery → Bool)
    (f : Delivery → Delivery) (hf : ∀ r, (f r).id = r.id) :
    (l.updateDelivery id g f hf).messages = l.messages := rfl

@[simp] theorem updateDelivery_leaseHistory (l : Ledger) (id : String) (g : Delivery → Bool)
    (f : Delivery → Delivery) (hf : ∀ r, (f r).id = r.id) :
    (l.updateDelivery id g f hf).leaseHistory = l.leaseHistory := rfl

@[simp] theorem updateDelivery_revSeq (l : Ledger) (id : String) (g : Delivery → Bool)
    (f : Delivery → Delivery) (hf : ∀ r, (f r).id = r.id) :
    (l.updateDelivery id g f hf).revSeq = l.revSeq := rfl

theorem row_updateDelivery {l : Ledger} {id : String} {g : Delivery → Bool}
    {f : Delivery → Delivery} {hf : ∀ r, (f r).id = r.id} (k : String) :
    (l.updateDelivery id g f hf).directedDeliveryRow k =
      (l.directedDeliveryRow k).map fun r => if r.id = id ∧ g r then f r else r := by
  simp only [updateDelivery, directedDeliveryRow, Table.get?_update, Bool.and_eq_true,
    decide_eq_true_eq]

theorem mem_updateDelivery {l : Ledger} {id : String} {g : Delivery → Bool}
    {f : Delivery → Delivery} {hf : ∀ r, (f r).id = r.id} {r' : Delivery} :
    r' ∈ (l.updateDelivery id g f hf).deliveries ↔
      ∃ r ∈ l.deliveries, r' = if r.id = id ∧ g r then f r else r := by
  simp only [updateDelivery, Table.mem_update, Bool.and_eq_true, decide_eq_true_eq]

theorem pointwise_updateDelivery {R : Delivery → Delivery → Prop} {l : Ledger} {id : String}
    {g : Delivery → Bool} {f : Delivery → Delivery} {hf : ∀ r, (f r).id = r.id}
    (hrefl : ∀ r, R r r) (h : ∀ r ∈ l.deliveries, r.id = id → g r = true → R r (f r)) :
    Table.Pointwise R l.deliveries (l.updateDelivery id g f hf).deliveries := by
  refine Table.pointwise_update hf fun r hr => ?_
  by_cases hg : (decide (r.id = id) && g r) = true
  · rw [if_pos hg]
    simp only [Bool.and_eq_true, decide_eq_true_eq] at hg
    exact h r hr hg.1 hg.2
  · rw [if_neg hg]
    exact hrefl r

/-- The columns the settlement walks by; no settlement writes them. -/
def lineageColumns (r : Delivery) :=
  (r.id, r.messageSeq, r.targetName, r.targetOwner, r.cause, r.workId, r.continuationRef,
    r.parentDeliveryId)

@[simp] theorem lineageColumns_settledRow (st : TerminalState) (replySeq : Option ℕ)
    (error : Option String) (now : Int) (r : Delivery) :
    lineageColumns (settledRow st replySeq error now r) = lineageColumns r := by
  cases st <;> rfl

@[simp] theorem settledRow_state (st : TerminalState) (replySeq : Option ℕ)
    (error : Option String) (now : Int) (r : Delivery) :
    (settledRow st replySeq error now r).state = st.toState := by
  cases st <;> rfl

theorem settlementSource_eq_some {l : Ledger} {a p : Delivery} :
    l.settlementSource a = some p ↔
      answerParentId a (l.storedResponse a.messageSeq) = some p.id ∧ p.id ≠ a.id ∧
      responseMatchesAnswer (l.storedResponse a.messageSeq) p.id a = true ∧ p ∈ l.deliveries ∧
      sourceMatchesAnswer (l.storedResponse a.messageSeq) p a = true := by
  unfold settlementSource
  constructor
  · intro h
    cases hp : answerParentId a (l.storedResponse a.messageSeq) with
    | none => simp [hp] at h
    | some q =>
      simp only [hp] at h
      split_ifs at h with hne hresp
      obtain ⟨hrow, hsrc⟩ := Option.filter_eq_some_iff.1 h
      obtain ⟨hmem, rfl⟩ := row_eq_some.1 hrow
      exact ⟨rfl, hne, hresp, hmem, hsrc⟩
  · rintro ⟨hp, hne, hresp, hmem, hsrc⟩
    simp only [hp, if_neg hne, if_pos hresp]
    exact Option.filter_eq_some_iff.2 ⟨row_of_mem hmem, hsrc⟩

/-- A hop of the settlement, by row ids. -/
def Hop (l : Ledger) (i j : String) : Prop :=
  ∃ a ∈ l.deliveries, a.id = i ∧ a.cause = .ownerAnswer ∧
    ∃ p, l.settlementSource a = some p ∧ p.id = j

/-- A later ledger with the same messages and lineage columns has the same hops. -/
theorem Hop.of_pointwise {l l' : Ledger} (hm : l'.messages = l.messages)
    (hp : Table.Pointwise (fun r r' => lineageColumns r' = lineageColumns r) l.deliveries
      l'.deliveries) {i j : String} (h : l'.Hop i j) : l.Hop i j := by
  obtain ⟨a', ha', rfl, hc, p', hs, rfl⟩ := h
  obtain ⟨a, ha, hai, hla⟩ := hp.backward ha'
  obtain ⟨hpar, hne, hresp, hmem, hsrc⟩ := settlementSource_eq_some.1 hs
  obtain ⟨p, hpm, hpi, hlp⟩ := hp.backward hmem
  have hst : l'.storedResponse a'.messageSeq = l.storedResponse a'.messageSeq := by
    simp only [storedResponse, hm]
  simp only [lineageColumns, Prod.mk.injEq] at hla hlp
  obtain ⟨-, hams, hatn, hato, hac, haw, hacr, hapd⟩ := hla
  obtain ⟨-, hpms, hptn, hpto, hpc, hpw, hpcr, hppd⟩ := hlp
  refine ⟨a, ha, hai, hac ▸ hc, p, settlementSource_eq_some.2 ⟨?_, ?_, ?_, hpm, ?_⟩, hpi⟩
  · rw [← hams, ← hst, hpi]
    simpa only [answerParentId, hapd] using hpar
  · rw [hpi, hai]
    exact hne
  · rw [← hams, ← hst, hpi]
    simpa only [responseMatchesAnswer, haw, hacr] using hresp
  · rw [← hams, ← hst]
    simpa only [sourceMatchesAnswer, hatn, hato, haw, hacr, hptn, hpto, hpw, hpcr, hpms] using hsrc

/-- What a settlement that starts at row `i` of `l` does to a row. -/
def SettledFrom (l : Ledger) (i : String) (st : TerminalState) (now : Int) (r r' : Delivery) :
    Prop :=
  r' = r ∨ (r.state = .waitingOwner ∧ TransGen l.Hop i r.id ∧
    ∃ replySeq error, r' = settledRow st replySeq error now r)

theorem SettledFrom.lineageColumns {l : Ledger} {i : String} {st : TerminalState} {now : Int}
    {r r' : Delivery} (h : SettledFrom l i st now r r') :
    lineageColumns r' = lineageColumns r := by
  rcases h with rfl | ⟨-, -, replySeq, error, rfl⟩
  · rfl
  · exact lineageColumns_settledRow _ _ _ _ _

/-- The loop invariant of the settlement. -/
structure Settling (l : Ledger) (i : String) (st : TerminalState) (now : Int) (s : Settlement) :
    Prop where
  messages : s.ledger.messages = l.messages
  leaseHistory : s.ledger.leaseHistory = l.leaseHistory
  revSeq : s.ledger.revSeq = l.revSeq
  rows : Table.Pointwise (SettledFrom l i st now) l.deliveries s.ledger.deliveries
  answer_mem : s.answer ∈ s.ledger.deliveries
  reached : ReflTransGen l.Hop i s.answer.id

theorem settleAncestor_inl {st : TerminalState} {replySeq : Option ℕ} {error : Option String}
    {now : Int} {s s' : Settlement}
    (h : settleAncestor st replySeq error now s = .inl s') :
    s.answer.cause = .ownerAnswer ∧ s.answer.id ∉ s.visited ∧
      s'.visited = s.answer.id :: s.visited ∧
      ∃ source, s.ledger.settlementSource s.answer = some source ∧
        ((source.state = st.toState ∧ s'.ledger = s.ledger ∧ s'.answer = source) ∨
          (source.state = .waitingOwner ∧
            s'.ledger = s.ledger.updateDelivery source.id (fun r => r.state = .waitingOwner)
              (settledRow st replySeq error now) (settledRow_id _ _ _ _) ∧
            s'.answer = settledRow st replySeq error now source)) := by
  unfold settleAncestor at h
  split_ifs at h with hc hv
  simp only [ne_eq, not_not] at hc
  refine ⟨hc, by simpa using hv, ?_⟩
  cases hs : s.ledger.settlementSource s.answer with
  | none => simp [hs] at h
  | some source =>
    simp only [hs] at h
    split_ifs at h with h1 h2
    · obtain rfl := Sum.inl.inj h
      exact ⟨rfl, source, rfl, Or.inl ⟨h1, rfl, rfl⟩⟩
    · obtain rfl := Sum.inl.inj h
      exact ⟨rfl, source, rfl, Or.inr ⟨h2, rfl, rfl⟩⟩

theorem settleAncestor_inr {st : TerminalState} {replySeq : Option ℕ} {error : Option String}
    {now : Int} {s : Settlement} {l' : Ledger}
    (h : settleAncestor st replySeq error now s = .inr l') :
    l' = s.ledger ∧ (s.answer.cause ≠ .ownerAnswer ∨ s.answer.id ∈ s.visited ∨
      ∀ source, s.ledger.settlementSource s.answer = some source →
        source.state ≠ st.toState ∧ source.state ≠ .waitingOwner) := by
  unfold settleAncestor at h
  split_ifs at h with hc hv
  · exact ⟨(Sum.inr.inj h).symm, Or.inl hc⟩
  · exact ⟨(Sum.inr.inj h).symm, Or.inr (Or.inl (by simpa using hv))⟩
  · cases hs : s.ledger.settlementSource s.answer with
    | none =>
      simp only [hs] at h
      exact ⟨(Sum.inr.inj h).symm, Or.inr (Or.inr (by simp))⟩
    | some source =>
      simp only [hs] at h
      split_ifs at h with h1 h2
      refine ⟨(Sum.inr.inj h).symm, Or.inr (Or.inr ?_)⟩
      intro source' hs'
      obtain rfl := Option.some.inj hs'
      exact ⟨h1, h2⟩

theorem Settling.step {l : Ledger} {i : String} {st : TerminalState} {replySeq : Option ℕ}
    {error : Option String} {now : Int} {s s' : Settlement} (hi : Settling l i st now s)
    (h : settleAncestor st replySeq error now s = .inl s') : Settling l i st now s' := by
  obtain ⟨hc, -, -, source, hs, hcase⟩ := settleAncestor_inl h
  obtain ⟨-, -, -, hsm, -⟩ := settlementSource_eq_some.1 hs
  have hhop : l.Hop s.answer.id source.id :=
    Hop.of_pointwise hi.messages (hi.rows.mono fun _ _ _ hr => hr.lineageColumns)
      ⟨s.answer, hi.answer_mem, rfl, hc, source, hs, rfl⟩
  have hreach : TransGen l.Hop i source.id := TransGen.tail' hi.reached hhop
  rcases hcase with ⟨-, hl, ha⟩ | ⟨hw, hl, ha⟩
  · refine ⟨hl ▸ hi.messages, hl ▸ hi.leaseHistory, hl ▸ hi.revSeq, hl ▸ hi.rows, ?_, ?_⟩
    · rw [hl, ha]
      exact hsm
    · rw [ha]
      exact hreach.to_reflTransGen
  · refine ⟨by rw [hl]; exact hi.messages, by rw [hl]; exact hi.leaseHistory,
      by rw [hl]; exact hi.revSeq, ?_, ?_, ?_⟩
    · intro k
      have hk := hi.rows k
      change Option.Rel _ _ (s'.ledger.directedDeliveryRow k)
      rw [hl, row_updateDelivery]
      change Option.Rel _ _ (s.ledger.directedDeliveryRow k) at hk
      generalize hx : l.deliveries.get? k = x at hk
      generalize hy : s.ledger.directedDeliveryRow k = y at hk
      cases hk with
      | none => exact .none
      | some hr =>
        rename_i r r'
        refine .some ?_
        dsimp only
        split_ifs with hg
        · simp only [decide_eq_true_eq] at hg
          rcases hr with rfl | ⟨-, -, _, _, rfl⟩
          · exact Or.inr ⟨hg.2, hg.1 ▸ hreach, _, _, rfl⟩
          · rw [settledRow_state] at hg
            cases st <;> exact absurd hg.2 (by decide)
        · exact hr
    · rw [hl, ha]
      exact mem_updateDelivery.2 ⟨source, hsm, by simp [hw]⟩
    · rw [ha, settledRow_id]
      exact hreach.to_reflTransGen

/-- The settlement: only waiting rows along the lineage change, and they close. -/
theorem settle_spec {l : Ledger} {a : Delivery} (ha : a ∈ l.deliveries) (st : TerminalState)
    (replySeq : Option ℕ) (error : Option String) (now : Int) :
    ∃ s, Settling l a.id st now s ∧ s.ledger = l.settleWaitingOwnerAncestors a st replySeq error now := by
  have h0 : Settling l a.id st now ⟨l, a, []⟩ :=
    ⟨rfl, rfl, rfl, Table.Pointwise.refl fun _ _ => Or.inl rfl, ha, ReflTransGen.refl⟩
  unfold settleWaitingOwnerAncestors
  cases hr : WhileLoop.run (settleAncestor st replySeq error now) l.settlementFuel ⟨l, a, []⟩ with
  | none => exact ⟨⟨l, a, []⟩, h0, rfl⟩
  | some l' =>
    refine WhileLoop.run_invariant (Q := fun l' => ∃ s, Settling l a.id st now s ∧ s.ledger = l')
      (fun s s' hi hs => hi.step hs) ?_ h0 hr
    intro s b hi hs
    exact ⟨s, hi, (settleAncestor_inr hs).1.symm⟩

theorem settlement_terminates {l : Ledger} {a : Delivery} (ha : a ∈ l.deliveries)
    (st : TerminalState) (replySeq : Option ℕ) (error : Option String) (now : Int) :
    ∃ l', WhileLoop.run (settleAncestor st replySeq error now) l.settlementFuel ⟨l, a, []⟩ =
      some l' := by
  refine WhileLoop.run_terminates
    (I := fun s => Settling l a.id st now s ∧ s.visited.Nodup ∧
      s.visited ⊆ l.deliveries.rows.map Delivery.id)
    (μ := fun s => l.deliveries.rows.length - s.visited.length) ?_ ?_ ?_
  · rintro s s' ⟨hi, hn, hsub⟩ h
    obtain ⟨-, hv, hvis, -⟩ := settleAncestor_inl h
    have hn' : s'.visited.Nodup := by
      rw [hvis]
      exact List.nodup_cons.2 ⟨hv, hn⟩
    have hsub' : s'.visited ⊆ l.deliveries.rows.map Delivery.id := by
      rw [hvis]
      obtain ⟨r, hr, hk, -⟩ := hi.rows.backward hi.answer_mem
      exact List.cons_subset.2 ⟨List.mem_map.2 ⟨r, hr, hk⟩, hsub⟩
    refine ⟨⟨hi.step h, hn', hsub'⟩, ?_⟩
    have hlen := (List.subperm_of_subset hn' hsub').length_le
    rw [hvis, List.length_cons, List.length_map] at hlen
    simp only [hvis, List.length_cons]
    omega
  · exact ⟨⟨rfl, rfl, rfl, Table.Pointwise.refl fun _ _ => Or.inl rfl, ha, ReflTransGen.refl⟩,
      List.nodup_nil, List.nil_subset _⟩
  · simp only [settlementFuel]
    omega

@[simp] theorem terminalRow_state (st : TerminalState) (now : Int) (o : TerminalOptions)
    (r : Delivery) : (terminalRow st now o r).state = st.toState := rfl

@[simp] theorem lineageColumns_terminalRow (st : TerminalState) (now : Int) (o : TerminalOptions)
    (r : Delivery) : lineageColumns (terminalRow st now o r) = lineageColumns r := rfl

/-- The gate turns the row down. -/
def GateRefuses (st : TerminalState) (o : TerminalOptions) (r : Delivery) : Prop :=
  (r.state = .failed ∧ st = .replied ∧ r.isFailedDeliveryRevivable = false) ∨
    r.state ∉ o.expectedStates ∨ o.admits r = false

/-- The branches of the gate: refused, already there, or rewritten; the last two
run the lineage hook. -/
theorem transition_cases (l : Ledger) (id : String) (st : TerminalState) (now : Int)
    (o : TerminalOptions) :
    (l.transitionDirectedDeliveryTerminal id st now o = (l, none) ∧
      ∀ before ∈ l.deliveries, before.id = id → GateRefuses st o before) ∨
    ∃ before ∈ l.deliveries, before.id = id ∧
      ((before.state = st.toState ∧ ∃ replySeq error,
          l.transitionDirectedDeliveryTerminal id st now o =
            (l.settleAnswer before st replySeq error now, some before)) ∨
        (before.state ≠ st.toState ∧ before.state ∈ o.expectedStates ∧ o.admits before = true ∧
          (before.state = .failed → st = .replied → before.isFailedDeliveryRevivable = true) ∧
          ∃ replySeq error,
            l.transitionDirectedDeliveryTerminal id st now o =
              ((l.updateDelivery id (fun r => r.state = before.state && o.admits r)
                  (terminalRow st now o) (terminalRow_id _ _ _)).settleAnswer (terminalRow st now o before) st replySeq
                  error now,
                some (terminalRow st now o before)))) := by
  unfold transitionDirectedDeliveryTerminal
  cases hrow : l.directedDeliveryRow id with
  | none => exact Or.inl ⟨rfl, fun b hb hid => absurd hid (Table.get?_eq_none.1 hrow b hb)⟩
  | some before =>
    obtain ⟨hmem, hid⟩ := row_eq_some.1 hrow
    have honly : ∀ b ∈ l.deliveries, b.id = id → b = before := fun b hb hbid =>
      Table.eq_of_key hb hmem (hbid.trans hid.symm)
    dsimp only
    split_ifs with h1 h2 h3 h4
    · refine Or.inl ⟨rfl, fun b hb hbid => Or.inl ?_⟩
      rw [honly b hb hbid]
      simpa [and_assoc] using h1
    · exact Or.inr ⟨before, hmem, hid, Or.inl ⟨h2, _, _, rfl⟩⟩
    · refine Or.inl ⟨rfl, fun b hb hbid => Or.inr (Or.inl ?_)⟩
      rw [honly b hb hbid]
      simpa using h3
    · refine Or.inl ⟨rfl, fun b hb hbid => Or.inr (Or.inr ?_)⟩
      rw [honly b hb hbid]
      simpa using h4
    · simp only [Bool.not_eq_true, Bool.not_eq_false'] at h3 h4
      have hadm : o.admits before = true := by simpa using h4
      refine Or.inr ⟨before, hmem, hid, Or.inr ⟨h2, by simpa using h3, hadm, ?_, o.replySeq,
        o.storedError st, ?_⟩⟩
      · intro hf hr
        by_contra hn
        exact h1 (by simp [hf, hr, hn])
      · rw [row_updateDelivery, hrow]
        simp [hid, hadm]

/-- A row across one call of the terminal gate for row `id`. -/
def GateChange (l : Ledger) (id : String) (st : TerminalState) (now : Int) (o : TerminalOptions)
    (r r' : Delivery) : Prop :=
  (r' = r ∧ (r.id = id → r.state = st.toState ∨ GateRefuses st o r)) ∨
  (r.id = id ∧ r.state ≠ st.toState ∧ r.state ∈ o.expectedStates ∧ o.admits r = true ∧
    (r.state = .failed → st = .replied → r.isFailedDeliveryRevivable = true) ∧
    r' = terminalRow st now o r) ∨
  (r.id ≠ id ∧ r.state = .waitingOwner ∧ TransGen l.Hop id r.id ∧
    ∃ replySeq error, r' = settledRow st replySeq error now r)

theorem settleAnswer_spec {l : Ledger} {a : Delivery} (ha : a ∈ l.deliveries) (st : TerminalState)
    (replySeq : Option ℕ) (error : Option String) (now : Int) :
    ∃ s, Settling l a.id st now s ∧ s.ledger = l.settleAnswer a st replySeq error now := by
  unfold settleAnswer
  split_ifs
  · exact settle_spec ha st replySeq error now
  · exact ⟨⟨l, a, []⟩, ⟨rfl, rfl, rfl, Table.Pointwise.refl fun _ _ => Or.inl rfl, ha,
      ReflTransGen.refl⟩, rfl⟩

/-- The gate writes deliveries only, each row by `GateChange`. -/
theorem transition_spec (l : Ledger) (id : String) (st : TerminalState) (now : Int)
    (o : TerminalOptions) :
    let l' := (l.transitionDirectedDeliveryTerminal id st now o).1
    l'.messages = l.messages ∧ l'.leaseHistory = l.leaseHistory ∧ l'.revSeq = l.revSeq ∧
      Table.Pointwise (GateChange l id st now o) l.deliveries l'.deliveries := by
  rcases transition_cases l id st now o with ⟨h, href⟩ | ⟨before, hmem, hid, ⟨hst, rs, e, h⟩ |
    ⟨hne, hexp, hadm, hrev, rs, e, h⟩⟩ <;> rw [h] <;> dsimp only
  · exact ⟨rfl, rfl, rfl, Table.Pointwise.refl fun r hr => Or.inl ⟨rfl, fun hid =>
      Or.inr (href r hr hid)⟩⟩
  · obtain ⟨s, hs, hl⟩ := settleAnswer_spec hmem st rs e now
    rw [← hl]
    refine ⟨hs.messages, hs.leaseHistory, hs.revSeq, hs.rows.mono fun r hr _ hc => ?_⟩
    have hid_st : r.id = id → r.state = st.toState := fun hrid => by
      rw [Table.eq_of_key hr hmem (hrid.trans hid.symm), hst]
    rcases hc with hc | ⟨hw, hh, hc⟩
    · exact Or.inl ⟨hc, fun hrid => Or.inl (hid_st hrid)⟩
    · refine Or.inr (Or.inr ⟨fun hrid => ?_, hw, hid ▸ hh, hc⟩)
      rw [hid_st hrid] at hw
      cases st <;> exact absurd hw (by decide)
  · set u := l.updateDelivery id (fun r => r.state = before.state && o.admits r)
      (terminalRow st now o) (terminalRow_id _ _ _) with hu
    have hlin : Table.Pointwise (fun r r' => lineageColumns r' = lineageColumns r) l.deliveries
        u.deliveries := pointwise_updateDelivery (fun _ => rfl) fun _ _ _ _ => rfl
    have hb : terminalRow st now o before ∈ u.deliveries := by
      rw [hu]
      exact mem_updateDelivery.2 ⟨before, hmem, by simp [hid, hadm]⟩
    obtain ⟨s, hs, hl⟩ := settleAnswer_spec hb st rs e now
    rw [← hl]
    refine ⟨hs.messages, hs.leaseHistory, hs.revSeq, fun k => ?_⟩
    have hk := hs.rows k
    change Option.Rel _ (u.directedDeliveryRow k) _ at hk
    rw [hu, row_updateDelivery] at hk
    change Option.Rel _ (l.directedDeliveryRow k) _
    generalize hx : l.directedDeliveryRow k = x at hk
    generalize s.ledger.deliveries.get? k = y at hk
    cases x with
    | none =>
      cases hk
      exact .none
    | some r =>
      rw [Option.map_some] at hk
      cases hk with
      | some hr =>
        rename_i r'
        refine .some ?_
        by_cases hg : r.id = id ∧ (decide (r.state = before.state) && o.admits r) = true
        · rw [if_pos hg] at hr
          have hrb : r = before := Table.eq_of_key (row_eq_some.1 hx).1 hmem (hg.1.trans hid.symm)
          subst hrb
          rcases hr with rfl | ⟨hw, -⟩
          · exact Or.inr (Or.inl ⟨hid, hne, hexp, hadm, hrev, rfl⟩)
          · rw [terminalRow_state] at hw
            cases st <;> exact absurd hw (by decide)
        · rw [if_neg hg] at hr
          have hrid : r.id ≠ id := by
            intro hrid
            obtain rfl := Table.eq_of_key (row_eq_some.1 hx).1 hmem (hrid.trans hid.symm)
            exact hg ⟨hrid, by simp [hadm]⟩
          rcases hr with rfl | ⟨hw, hh, hr⟩
          · exact Or.inl ⟨rfl, fun h => absurd h hrid⟩
          · refine Or.inr (Or.inr ⟨hrid, hw, ?_, hr⟩)
            rw [terminalRow_id, hid] at hh
            have hum : u.messages = l.messages := rfl
            have hsub : u.Hop ≤ l.Hop := fun _ _ hhop => Hop.of_pointwise hum hlin hhop
            exact TransGen.mono hsub _ _ hh

end Ledger
end AgentParty
