import AgentParty.Delivery.Tree
import AgentParty.Proofs.Settlement

/-! The worklist of `failDeliveryTree`. `Sweeping` is its loop invariant: visited
rows are swept, the other rows are as before except waiting ancestors of an
initial answer, and every child of a visited row is visited or still pending. -/

namespace AgentParty
namespace Ledger

open Relation

/-- The rows below the initial ones along `parent_delivery_id`. -/
inductive Below (l : Ledger) (initial : List String) : String → Prop
  | root {r : Delivery} (hr : r ∈ l.deliveries) (hi : r.id ∈ initial) : Below l initial r.id
  | child {p : String} {r : Delivery} (hp : Below l initial p) (hr : r ∈ l.deliveries)
      (hpar : r.parentDeliveryId = some p) : Below l initial r.id

/-- One step from an answer row to the row it resumes, whatever its lineage says. -/
def ParentHop (l : Ledger) (i j : String) : Prop :=
  ∃ a ∈ l.deliveries, a.id = i ∧ answerParentId a (l.storedResponse a.messageSeq) = some j

/-- The ancestors of an initial row of cause `owner_answer`. -/
def AnswerAncestor (l : Ledger) (initial : List String) (id : String) : Prop :=
  ∃ x ∈ l.deliveries, x.id ∈ initial ∧ x.cause = .ownerAnswer ∧ TransGen l.ParentHop x.id id

/-- What a visited row looks like. -/
structure Swept (reason : DeliveryTerminalReason) (r : Delivery) : Prop where
  closed : r.state = .replied ∨ (r.state = .failed ∧ r.terminalReason = some reason)
  workId : r.workId = none
  continuationRef : r.continuationRef = none
  parentDeliveryId : r.parentDeliveryId = none
  leaseConnectionId : r.leaseConnectionId = none
  lastLeaseConnectionId : r.lastLeaseConnectionId = none
  leaseAdapter : r.leaseAdapter = none
  leaseUntil : r.leaseUntil = none

theorem Swept.not_waiting {reason : DeliveryTerminalReason} {r : Delivery} (h : Swept reason r) :
    r.state ≠ .waitingOwner := by
  rcases h.closed with hs | ⟨hs, -⟩ <;> simp [hs]

/-- No hop leaves a swept row: its own columns are gone and a stored response no
longer matches them. -/
theorem Swept.no_hop {reason : DeliveryTerminalReason} {l : Ledger} {r : Delivery}
    (hr : r ∈ l.deliveries) (h : Swept reason r) (j : String) : ¬ l.Hop r.id j := by
  rintro ⟨a, ha, hai, -, p, hs, -⟩
  obtain rfl := Table.eq_of_key ha hr hai
  obtain ⟨hpar, -, hresp, -, -⟩ := settlementSource_eq_some.1 hs
  simp only [answerParentId, h.parentDeliveryId, Option.filter_none, Option.bind_eq_some_iff] at hpar
  obtain ⟨resp, hst, hmap⟩ := hpar
  obtain ⟨lineage, hlin, -⟩ := Option.map_eq_some_iff.1 hmap
  simp only [responseMatchesAnswer, hst, hlin, h.workId, text, Option.getD_none, Bool.and_eq_true,
    decide_eq_true_eq] at hresp
  exact lineage.workId_ne hresp.1.2

/-- A question message across an invalidation. -/
def QuestionChange (m m' : Message) : Prop :=
  m' = m ∨ (m'.decisionRequest = none ∧ m'.decisionState = none ∧ m'.decisionResponse = none)

theorem QuestionChange.trans {m m' m'' : Message} (h : QuestionChange m m')
    (h' : QuestionChange m' m'') : QuestionChange m m'' := by
  rcases h' with rfl | h'
  · exact h
  · exact Or.inr h'

theorem QuestionChange.of_pendingFor {m m' : Message} (h : QuestionChange m m') {id : String}
    (hp : m'.pendingFor id = true) : m' = m := by
  rcases h with h | ⟨-, hs, -⟩
  · exact h
  · simp [Message.pendingFor, hs] at hp

@[simp] theorem invalidateQuestion_deliveries (l : Ledger) (q : ℕ) :
    (l.invalidateQuestion q).deliveries = l.deliveries := rfl

@[simp] theorem invalidateQuestion_leaseHistory (l : Ledger) (q : ℕ) :
    (l.invalidateQuestion q).leaseHistory = l.leaseHistory := rfl

theorem foldl_invalidateQuestion (l : Ledger) (qs : List ℕ) :
    let l' := qs.foldl invalidateQuestion l
    l'.deliveries = l.deliveries ∧ l'.leaseHistory = l.leaseHistory ∧
      Table.Pointwise QuestionChange l.messages l'.messages ∧
      ∀ m ∈ l'.messages, m.seq ∈ qs → m.decisionState ≠ some .pending := by
  induction qs generalizing l with
  | nil => exact ⟨rfl, rfl, Table.Pointwise.refl fun _ _ => Or.inl rfl, by simp⟩
  | cons q qs ih =>
    obtain ⟨hd, hh, hm, hq⟩ := ih (l.invalidateQuestion q)
    have hstep : Table.Pointwise QuestionChange l.messages (l.invalidateQuestion q).messages := by
      refine Table.pointwise_update (invalidatedQuestion_seq _) fun m _ => ?_
      split_ifs
      · exact Or.inr ⟨rfl, rfl, rfl⟩
      · exact Or.inl rfl
    have htrans : ∀ a b c : Message, QuestionChange a b → QuestionChange b c → QuestionChange a c :=
      fun _ _ _ => QuestionChange.trans
    refine ⟨hd.trans (invalidateQuestion_deliveries l q),
      hh.trans (invalidateQuestion_leaseHistory l q), hstep.trans htrans hm, ?_⟩
    intro m hmem hseq
    rcases List.mem_cons.1 hseq with hseq | hseq
    · obtain ⟨m1, hm1, hk1, hc⟩ := hm.backward hmem
      obtain ⟨m0, hm0, hm1'⟩ := (Table.mem_update (invalidatedQuestion_seq _)).1 hm1
      rcases hc with hc | ⟨-, hc, -⟩
      · intro hp
        rw [hc] at hseq hp
        split_ifs at hm1' with hg
        · rw [hm1'] at hp
          simp [invalidatedQuestion] at hp
        · subst hm1'
          exact hg (by simp [hseq, hp])
      · simp [hc]
    · exact hq m hmem hseq

theorem invalidateQuestions_spec (l : Ledger) (id : String) :
    (l.invalidateQuestions id).deliveries = l.deliveries ∧
      (l.invalidateQuestions id).leaseHistory = l.leaseHistory ∧
      Table.Pointwise QuestionChange l.messages (l.invalidateQuestions id).messages ∧
      ∀ m ∈ (l.invalidateQuestions id).messages, m.pendingFor id = false := by
  obtain ⟨hd, hh, hm, hq⟩ := foldl_invalidateQuestion l (l.pendingQuestions id)
  refine ⟨hd, hh, hm, fun m hmem => ?_⟩
  obtain ⟨m0, hm0, -, hc⟩ := hm.backward hmem
  by_contra hp
  rw [Bool.not_eq_false] at hp
  obtain rfl := hc.of_pendingFor hp
  refine hq m hmem (List.mem_map.2 ⟨m, List.mem_filter.2 ⟨hm0, hp⟩, rfl⟩) ?_
  simp only [Message.pendingFor, Bool.and_eq_true, decide_eq_true_eq] at hp
  exact hp.1

/-- A stored response survives an invalidation only as it was. -/
theorem storedResponse_of_questionChange {l l' : Ledger}
    (h : Table.Pointwise QuestionChange l.messages l'.messages) {q : ℕ} {resp : DecisionResponse}
    (hr : l'.storedResponse q = some resp) : l.storedResponse q = some resp := by
  obtain ⟨m', hm', hresp⟩ := Option.bind_eq_some_iff.1 hr
  obtain ⟨hmem, hseq⟩ := Table.get?_eq_some.1 hm'
  obtain ⟨m, hm, hk, hc⟩ := h.backward hmem
  rcases hc with hc | ⟨-, -, hc⟩
  · subst hc
    exact Option.bind_eq_some_iff.2 ⟨m', Table.get?_eq_some.2 ⟨hm, hseq⟩, hresp⟩
  · rw [hc] at hresp
    exact absurd hresp (by simp)

/-- One pass over a row that is there: the row is swept, its questions are gone,
and any other row changes only by the settlement of the pass. -/
theorem failOne_spec {l : Ledger} {row : Delivery} (hrow : row ∈ l.deliveries) (now : Int)
    (failure : DeliveryFailure) :
    let l' := l.failOne row now failure
    Table.Pointwise QuestionChange l.messages l'.messages ∧ l'.leaseHistory = l.leaseHistory ∧
      (∀ m ∈ l'.messages, m.pendingFor row.id = false) ∧
      Table.Pointwise (fun r r' =>
        if r.id = row.id then Swept failure.terminalReason r'
        else SettledFrom (l.invalidateQuestions row.id) row.id .failed now r r')
        l.deliveries l'.deliveries := by
  obtain ⟨hd, hh, hm, hq⟩ := invalidateQuestions_spec l row.id
  set l1 := l.invalidateQuestions row.id with hl1
  have hrow1 : row ∈ l1.deliveries := by rw [hd]; exact hrow
  -- before the scrub the row is closed and the others settle at most
  have hbefore : ∃ l2 : Ledger, l.failOne row now failure =
      l2.updateDelivery row.id (fun _ => true) scrubbedRow scrubbedRow_id ∧
      l2.messages = l1.messages ∧ l2.leaseHistory = l1.leaseHistory ∧
      Table.Pointwise (fun r r' =>
        if r.id = row.id then
          r'.state = .replied ∨
            (r'.state = .failed ∧ r'.terminalReason = some failure.terminalReason)
        else SettledFrom l1 row.id .failed now r r') l1.deliveries l2.deliveries := by
    refine ⟨_, rfl, ?_⟩
    split_ifs with hunf hfail
    · obtain ⟨hmt, hht, -, hpt⟩ := transition_spec l1 row.id .failed now
        { error := some failure.error, terminalReason := some failure.terminalReason,
          expectedStates := [row.state] }
      refine ⟨hmt, hht, hpt.mono fun r hr r' hc => ?_⟩
      by_cases hid : r.id = row.id
      · obtain rfl := Table.eq_of_key hr hrow1 hid
        rw [if_pos rfl]
        rcases hc with ⟨-, hc⟩ | ⟨-, -, -, -, -, rfl⟩ | ⟨hne, -⟩
        · rcases hc rfl with hc | ⟨-, hc, -⟩ | hc | hc
          · simp [Delivery.unfinished, hc, TerminalState.toState] at hunf
          · cases hc
          · simp at hc
          · simp [TerminalOptions.admits] at hc
        · exact Or.inr ⟨rfl, rfl⟩
        · exact absurd rfl hne
      · rw [if_neg hid]
        rcases hc with ⟨rfl, -⟩ | ⟨hid', -⟩ | ⟨-, hc⟩
        · exact Or.inl rfl
        · exact absurd hid' hid
        · exact Or.inr hc
    · refine ⟨rfl, rfl, Table.pointwise_update (reclassifiedRow_id _ _) fun r hr => ?_⟩
      by_cases hid : r.id = row.id
      · obtain rfl := Table.eq_of_key hr hrow1 hid
        simp [hfail, reclassifiedRow]
      · simp [hid, SettledFrom]
    · refine ⟨rfl, rfl, Table.Pointwise.refl fun r hr => ?_⟩
      by_cases hid : r.id = row.id
      · obtain rfl := Table.eq_of_key hr hrow1 hid
        rw [if_pos rfl]
        cases hst : r.state <;> simp [Delivery.unfinished, hst] at hunf hfail ⊢
      · rw [if_neg hid]
        exact Or.inl rfl
  obtain ⟨l2, hl2, hm2, hh2, hp2⟩ := hbefore
  intro l'
  have hl' : l' = l2.updateDelivery row.id (fun _ => true) scrubbedRow scrubbedRow_id := hl2
  rw [hl']
  refine ⟨?_, hh2.trans hh, ?_, ?_⟩
  · rw [updateDelivery_messages, hm2]
    exact hm
  · rw [updateDelivery_messages, hm2]
    exact hq
  · rw [← hd]
    intro k
    change Option.Rel _ (l1.directedDeliveryRow k) (Ledger.directedDeliveryRow _ k)
    rw [row_updateDelivery]
    have hk := hp2 k
    change Option.Rel _ (l1.directedDeliveryRow k) (l2.directedDeliveryRow k) at hk
    generalize hx : l1.directedDeliveryRow k = x at hk
    generalize hy : l2.directedDeliveryRow k = y at hk
    cases hk with
    | none => exact .none
    | some hc =>
      rename_i r r'
      refine .some ?_
      have hrr' : r'.id = r.id := (row_eq_some.1 hy).2.trans (row_eq_some.1 hx).2.symm
      dsimp only
      by_cases hid : r.id = row.id
      · rw [if_pos hid] at hc
        rw [if_pos hid, if_pos ⟨hrr'.trans hid, rfl⟩]
        exact ⟨hc, rfl, rfl, rfl, rfl, rfl, rfl, rfl⟩
      · rw [if_neg hid] at hc
        rw [if_neg hid, if_neg fun h => hid (hrr'.symm.trans h.1)]
        exact hc

/-- A row that no pass has visited: untouched, or a settled waiting ancestor. -/
def Spared (l : Ledger) (initial : List String) (now : Int) (r r' : Delivery) : Prop :=
  r' = r ∨ (r.state = .waitingOwner ∧ AnswerAncestor l initial r.id ∧
    ∃ replySeq error, r' = settledRow .failed replySeq error now r)

theorem Spared.lineageColumns {l : Ledger} {initial : List String} {now : Int}
    {r r' : Delivery} (h : Spared l initial now r r') : lineageColumns r' = lineageColumns r := by
  rcases h with rfl | ⟨-, -, _, _, rfl⟩
  · rfl
  · exact lineageColumns_settledRow _ _ _ _ _

/-- The loop invariant of `failDeliveryTree`. -/
structure Sweeping (l : Ledger) (initial : List String) (reason : DeliveryTerminalReason)
    (now : Int) (s : TreeSweep) : Prop where
  messages : Table.Pointwise QuestionChange l.messages s.ledger.messages
  leaseHistory : s.ledger.leaseHistory = l.leaseHistory
  rows : Table.Pointwise (fun r r' =>
    if r.id ∈ s.visited then Swept reason r' else Spared l initial now r r')
    l.deliveries s.ledger.deliveries
  questions : ∀ r ∈ l.deliveries, r.id ∈ s.visited →
    ∀ m ∈ s.ledger.messages, m.pendingFor r.id = false
  nodup : s.visited.Nodup
  below : ∀ r ∈ l.deliveries, r.id ∈ s.visited → Below l initial r.id
  origin : ∀ id ∈ s.pending, id ∈ initial ∨ ∃ r ∈ l.deliveries, r.id = id ∧
    ∃ p ∈ l.deliveries, p.id ∈ s.visited ∧ r.parentDeliveryId = some p.id
  covered : ∀ id ∈ initial, id ∈ s.visited ∨ id ∈ s.pending
  children : ∀ r ∈ l.deliveries, ∀ p ∈ l.deliveries, p.id ∈ s.visited →
    r.parentDeliveryId = some p.id → r.id ∈ s.visited ∨ r.id ∈ s.pending
  known : s.visited ⊆ initial ++ l.deliveries.rows.map Delivery.id

theorem Sweeping.start (l : Ledger) (initial : List String) (reason : DeliveryTerminalReason)
    (now : Int) : Sweeping l initial reason now ⟨l, initial, [], []⟩ where
  messages := Table.Pointwise.refl fun _ _ => Or.inl rfl
  leaseHistory := rfl
  rows := Table.Pointwise.refl fun _ _ => by
    rw [if_neg List.not_mem_nil]
    exact Or.inl rfl
  questions := by simp
  nodup := List.nodup_nil
  below := by simp
  origin := fun _ hid => Or.inl hid
  covered := fun _ hid => Or.inr hid
  children := by simp
  known := List.nil_subset _

section Pass

variable {l : Ledger} {initial : List String} {reason : DeliveryTerminalReason} {now : Int}
  {s : TreeSweep}

/-- During a sweep the settlement walks only hops of the initial ledger, and only
out of rows that no pass has visited. -/
theorem Sweeping.hop (hs : Sweeping l initial reason now s) {id i j : String}
    (h : (s.ledger.invalidateQuestions id).Hop i j) :
    i ∉ s.visited ∧ l.ParentHop i j ∧ ∃ a ∈ l.deliveries, a.id = i ∧ a.cause = .ownerAnswer := by
  obtain ⟨hd, -, hm, -⟩ := invalidateQuestions_spec s.ledger id
  have hi : i ∉ s.visited := by
    intro hi
    have hh := h
    obtain ⟨a', ha', rfl, -⟩ := hh
    obtain ⟨a, ha, hai, hrel⟩ := hs.rows.backward (hd ▸ ha')
    rw [if_pos (hai ▸ hi)] at hrel
    exact Swept.no_hop ha' hrel j h
  obtain ⟨a', ha', rfl, hc, p, hsrc, rfl⟩ := h
  rw [hd] at ha'
  obtain ⟨a, ha, hai, hrel⟩ := hs.rows.backward ha'
  rw [if_neg (hai ▸ hi)] at hrel
  have hlin := hrel.lineageColumns
  simp only [lineageColumns, Prod.mk.injEq] at hlin
  obtain ⟨-, hseq, -, -, hcause, -, -, hpd⟩ := hlin
  obtain ⟨hpar, -⟩ := settlementSource_eq_some.1 hsrc
  refine ⟨hi, ⟨a, ha, hai, ?_⟩, a, ha, hai, hcause ▸ hc⟩
  rw [answerParentId, hpd, hseq] at hpar
  rw [answerParentId]
  split at hpar
  · exact hpar
  · obtain ⟨resp, hr, hmap⟩ := Option.bind_eq_some_iff.1 hpar
    exact Option.bind_eq_some_iff.2 ⟨resp,
      storedResponse_of_questionChange hs.messages (storedResponse_of_questionChange hm hr), hmap⟩

theorem Sweeping.ancestors (hs : Sweeping l initial reason now s) {id i j : String}
    (h : TransGen (s.ledger.invalidateQuestions id).Hop i j) : TransGen l.ParentHop i j := by
  induction h with
  | single h => exact TransGen.single (hs.hop h).2.1
  | tail _ h ih => exact ih.tail (hs.hop h).2.1

/-- The settlement of a pass over `i` reaches a waiting row only from an initial
row: from any other pending row the first hop is the visited parent. -/
theorem Sweeping.settled (hs : Sweeping l initial reason now s) {i : String}
    (hi : i ∈ initial ∨ ∃ r ∈ l.deliveries, r.id = i ∧
      ∃ p ∈ l.deliveries, p.id ∈ s.visited ∧ r.parentDeliveryId = some p.id)
    {r r' : Delivery} (hr' : r' ∈ s.ledger.deliveries) (hid : r'.id = r.id)
    (hw : r'.state = .waitingOwner) (h : TransGen (s.ledger.invalidateQuestions i).Hop i r.id) :
    AnswerAncestor l initial r.id := by
  obtain ⟨hd, -⟩ := invalidateQuestions_spec s.ledger i
  obtain ⟨j, hfirst, hrest⟩ := TransGen.head'_iff.1 h
  obtain ⟨hiv, -, a, ha, hai, hac⟩ := hs.hop hfirst
  rcases hi with hi | ⟨x, hx, hxi, p, hp, hpv, hxp⟩
  · exact ⟨a, ha, hai ▸ hi, hac, hai ▸ hs.ancestors h⟩
  · exfalso
    -- the first hop follows the parent column to the visited parent
    have hjp : j = p.id := by
      obtain ⟨a', ha', ha'i, -, q, hsrc, rfl⟩ := hfirst
      rw [hd] at ha'
      obtain ⟨b, hb, hbi, hrel⟩ := hs.rows.backward ha'
      rw [if_neg (by rw [hbi, ha'i]; exact hiv)] at hrel
      obtain rfl : b = x := Table.eq_of_key hb hx (hbi.trans (ha'i.trans hxi.symm))
      have hlin := hrel.lineageColumns
      simp only [lineageColumns, Prod.mk.injEq] at hlin
      obtain ⟨-, -, -, -, -, -, -, hpd⟩ := hlin
      obtain ⟨hpar, -⟩ := settlementSource_eq_some.1 hsrc
      rw [answerParentId, hpd, hxp, Option.filter_some_pos (by simpa using p.id_ne)] at hpar
      exact (Option.some.inj hpar).symm
    subst hjp
    rcases ReflTransGen.cases_head hrest with hrid | ⟨k, hk, -⟩
    · obtain ⟨b, hb, hbi, hrel⟩ := hs.rows.backward hr'
      rw [if_pos (by rw [hbi, hid, ← hrid]; exact hpv)] at hrel
      exact hrel.not_waiting hw
    · exact (hs.hop hk).1 hpv

theorem mem_children {l : Ledger} {p i : String} :
    i ∈ l.children p ↔ ∃ r ∈ l.deliveries, r.id = i ∧ r.parentDeliveryId = some p := by
  simp only [children, List.mem_map, List.mem_insertionSort, List.mem_filter, decide_eq_true_eq,
    ← Table.mem_def]
  constructor
  · rintro ⟨r, ⟨hr, hp⟩, hi⟩
    exact ⟨r, hr, hi, hp⟩
  · rintro ⟨r, hr, hi, hp⟩
    exact ⟨r, ⟨hr, hp⟩, hi⟩

theorem children_length_le (l : Ledger) (p : String) :
    (l.children p).length ≤ l.deliveries.rows.length := by
  rw [children, List.length_map, List.length_insertionSort]
  exact List.length_filter_le _ _

theorem sweepStep_inl {failure : DeliveryFailure} {s' : TreeSweep}
    (h : sweepStep now failure s = .inl s') :
    ∃ id pending, s.pending = id :: pending ∧
      ((id ∈ s.visited ∧ s' = { s with pending := pending }) ∨
        (id ∉ s.visited ∧ s.ledger.directedDeliveryRow id = none ∧
          s' = { s with pending := pending, visited := id :: s.visited }) ∨
        (id ∉ s.visited ∧ ∃ row ∈ s.ledger.deliveries, row.id = id ∧
          s'.ledger = s.ledger.failOne row now failure ∧
          s'.pending = pending ++ s.ledger.children id ∧ s'.visited = id :: s.visited)) := by
  unfold sweepStep at h
  cases hp : s.pending with
  | nil => simp [hp] at h
  | cons id pending =>
    refine ⟨id, pending, rfl, ?_⟩
    simp only [hp] at h
    split_ifs at h with hv
    · exact Or.inl ⟨by simpa using hv, (Sum.inl.inj h).symm⟩
    · have hv' : id ∉ s.visited := by simpa using hv
      cases hrow : s.ledger.directedDeliveryRow id with
      | none =>
        simp only [hrow] at h
        exact Or.inr (Or.inl ⟨hv', rfl, (Sum.inl.inj h).symm⟩)
      | some row =>
        simp only [hrow] at h
        obtain rfl := Sum.inl.inj h
        exact Or.inr (Or.inr ⟨hv', row, (row_eq_some.1 hrow).1, (row_eq_some.1 hrow).2, rfl, rfl,
          rfl⟩)

theorem Sweeping.skip (hs : Sweeping l initial reason now s) {id : String}
    {pending : List String} (hp : s.pending = id :: pending) (hv : id ∈ s.visited) :
    Sweeping l initial reason now { s with pending := pending } := by
  have hleft : ∀ i, i ∈ s.visited ∨ i ∈ s.pending → i ∈ s.visited ∨ i ∈ pending := by
    intro i hi
    rw [hp, List.mem_cons] at hi
    rcases hi with hi | rfl | hi
    · exact Or.inl hi
    · exact Or.inl hv
    · exact Or.inr hi
  exact ⟨hs.messages, hs.leaseHistory, hs.rows, hs.questions, hs.nodup, hs.below,
    fun i hi => hs.origin i (by rw [hp]; exact List.mem_cons_of_mem _ hi),
    fun i hi => hleft i (hs.covered i hi), fun r hr p hpd hpv hrp => hleft _ (hs.children r hr p hpd hpv hrp),
    hs.known⟩

/-- A pending id is below the initial rows as soon as it is a row. -/
theorem Sweeping.pending_below (hs : Sweeping l initial reason now s) {r : Delivery}
    (hr : r ∈ l.deliveries) (hp : r.id ∈ s.pending) : Below l initial r.id := by
  rcases hs.origin r.id hp with hi | ⟨x, hx, hxi, p, hpd, hpv, hxp⟩
  · exact Below.root hr hi
  · obtain rfl := Table.eq_of_key hx hr hxi
    exact Below.child (hs.below p hpd hpv) hr hxp

theorem Sweeping.known_of_pending (hs : Sweeping l initial reason now s) {id : String}
    (hp : id ∈ s.pending) : id ∈ initial ++ l.deliveries.rows.map Delivery.id := by
  rcases hs.origin id hp with hi | ⟨x, hx, rfl, -⟩
  · exact List.mem_append_left _ hi
  · exact List.mem_append_right _ (List.mem_map.2 ⟨x, hx, rfl⟩)

theorem Sweeping.miss (hs : Sweeping l initial reason now s) {id : String}
    {pending : List String} (hp : s.pending = id :: pending) (hv : id ∉ s.visited)
    (hrow : s.ledger.directedDeliveryRow id = none) :
    Sweeping l initial reason now { s with pending := pending, visited := id :: s.visited } := by
  have hid : id ∈ s.pending := by rw [hp]; exact List.mem_cons_self
  have habs : ∀ r ∈ l.deliveries, r.id ≠ id := by
    intro r hr hrid
    obtain ⟨r', hr', hk, -⟩ := hs.rows.forward hr
    exact Table.get?_eq_none.1 hrow r' hr' (hk.trans hrid)
  have hold : ∀ r ∈ l.deliveries, r.id ∈ id :: s.visited → r.id ∈ s.visited := by
    intro r hr h
    rcases List.mem_cons.1 h with h | h
    · exact absurd h (habs r hr)
    · exact h
  have hleft : ∀ i, i ∈ s.visited ∨ i ∈ s.pending → i ∈ id :: s.visited ∨ i ∈ pending := by
    intro i hi
    rw [hp, List.mem_cons] at hi
    rcases hi with hi | rfl | hi
    · exact Or.inl (List.mem_cons_of_mem _ hi)
    · exact Or.inl List.mem_cons_self
    · exact Or.inr hi
  refine ⟨hs.messages, hs.leaseHistory, hs.rows.mono fun r hr r' h => ?_,
    fun r hr h => hs.questions r hr (hold r hr h), List.nodup_cons.2 ⟨hv, hs.nodup⟩,
    fun r hr h => hs.below r hr (hold r hr h), fun i hi => ?_, fun i hi => hleft i (hs.covered i hi),
    fun r hr p hpd hpv hrp => hleft _ (hs.children r hr p hpd (hold p hpd hpv) hrp),
    List.cons_subset.2 ⟨hs.known_of_pending hid, hs.known⟩⟩
  · by_cases hrv : r.id ∈ s.visited
    · rw [if_pos hrv] at h
      rw [if_pos (List.mem_cons_of_mem _ hrv)]
      exact h
    · rw [if_neg hrv] at h
      rw [if_neg fun hm => hrv (hold r hr hm)]
      exact h
  · rcases hs.origin i (by rw [hp]; exact List.mem_cons_of_mem _ hi) with h | ⟨r, hr, hri, p, hpd, hpv,
      hrp⟩
    · exact Or.inl h
    · exact Or.inr ⟨r, hr, hri, p, hpd, List.mem_cons_of_mem _ hpv, hrp⟩

/-- The pass over a row that is there. -/
theorem Sweeping.visit {failure : DeliveryFailure}
    (hs : Sweeping l initial failure.terminalReason now s) {pending : List String} {row : Delivery}
    (hp : s.pending = row.id :: pending) (hv : row.id ∉ s.visited)
    (hrow : row ∈ s.ledger.deliveries) {s' : TreeSweep}
    (hl : s'.ledger = s.ledger.failOne row now failure)
    (hpend : s'.pending = pending ++ s.ledger.children row.id)
    (hvis : s'.visited = row.id :: s.visited) :
    Sweeping l initial failure.terminalReason now s' := by
  obtain ⟨hm, hh, hq, hr⟩ := failOne_spec hrow now failure
  have hid : row.id ∈ s.pending := by rw [hp]; exact List.mem_cons_self
  obtain ⟨row0, hrow0, hrow0id, -⟩ := hs.rows.backward hrow
  have hbelow : Below l initial row.id := hrow0id ▸ hs.pending_below hrow0 (hrow0id ▸ hid)
  -- the children of the pass are the unvisited rows that named it at the start
  have hchild : ∀ i, i ∈ s.ledger.children row.id ↔ i ∉ s.visited ∧
      ∃ r ∈ l.deliveries, r.id = i ∧ r.parentDeliveryId = some row.id := by
    intro i
    rw [mem_children]
    constructor
    · rintro ⟨r', hr', rfl, hpar⟩
      obtain ⟨r, hrl, hk, hc⟩ := hs.rows.backward hr'
      split_ifs at hc with hrv
      · rw [hc.parentDeliveryId] at hpar
        cases hpar
      · have hlin := hc.lineageColumns
        simp only [lineageColumns, Prod.mk.injEq] at hlin
        exact ⟨hk ▸ hrv, r, hrl, hk, by rw [← hpar, hlin.2.2.2.2.2.2.2]⟩
    · rintro ⟨hiv, r, hrl, rfl, hpar⟩
      obtain ⟨r', hr', hk, hc⟩ := hs.rows.forward hrl
      rw [if_neg hiv] at hc
      have hlin := hc.lineageColumns
      simp only [lineageColumns, Prod.mk.injEq] at hlin
      exact ⟨r', hr', hk, by rw [hlin.2.2.2.2.2.2.2, hpar]⟩
  have hleft : ∀ i, i ∈ s.visited ∨ i ∈ s.pending → i ∈ s'.visited ∨ i ∈ s'.pending := by
    intro i hi
    rw [hvis, hpend]
    rw [hp, List.mem_cons] at hi
    rcases hi with hi | rfl | hi
    · exact Or.inl (List.mem_cons_of_mem _ hi)
    · exact Or.inl List.mem_cons_self
    · exact Or.inr (List.mem_append_left _ hi)
  refine ⟨hl ▸ hs.messages.trans (fun _ _ _ => QuestionChange.trans) hm,
    by rw [hl]; exact hh.trans hs.leaseHistory, ?_, ?_, by rw [hvis]; exact List.nodup_cons.2 ⟨hv, hs.nodup⟩,
    ?_, ?_, fun i hi => hleft i (hs.covered i hi), ?_,
    by rw [hvis]; exact List.cons_subset.2 ⟨hs.known_of_pending hid, hs.known⟩⟩
  · rw [hl]
    intro k
    have h1 := hs.rows k
    have h2 := hr k
    generalize hx : l.deliveries.get? k = x at h1
    generalize hy : s.ledger.deliveries.get? k = y at h1 h2
    generalize (s.ledger.failOne row now failure).deliveries.get? k = z at h2
    cases h1 with
    | none =>
      cases h2
      exact .none
    | some h1 =>
      cases h2 with
      | some h2 =>
        rename_i r r' r''
        refine .some ?_
        obtain ⟨hrl, rfl⟩ := Table.get?_eq_some.1 hx
        obtain ⟨hr'm, hr'id⟩ := Table.get?_eq_some.1 hy
        rw [hvis]
        by_cases hrid : r.id = row.id
        · rw [if_pos (hr'id.trans hrid)] at h2
          rw [if_pos (hrid ▸ List.mem_cons_self)]
          exact h2
        · rw [if_neg fun h => hrid (hr'id.symm.trans h)] at h2
          by_cases hrv : r.id ∈ s.visited
          · rw [if_pos hrv] at h1
            rw [if_pos (List.mem_cons_of_mem _ hrv)]
            rcases h2 with rfl | ⟨hw, -⟩
            · exact h1
            · exact absurd hw h1.not_waiting
          · rw [if_neg hrv] at h1
            rw [if_neg fun h => (List.mem_cons.1 h).elim hrid hrv]
            rcases h2 with rfl | ⟨hw, hhop, rs, e, rfl⟩
            · exact h1
            · have hanc := hs.settled (hs.origin _ hid) hr'm hr'id hw (hr'id ▸ hhop)
              rcases h1 with rfl | ⟨-, -, _, _, rfl⟩
              · exact Or.inr ⟨hw, hanc, rs, e, rfl⟩
              · rw [settledRow_state] at hw
                exact absurd hw (by decide)
  · intro r hrl hrv m hmem
    rw [hl] at hmem
    rw [hvis] at hrv
    rcases List.mem_cons.1 hrv with hrv | hrv
    · rw [hrv]
      exact hq m hmem
    · obtain ⟨m0, hm0, -, hc⟩ := hm.backward hmem
      by_contra hpf
      rw [Bool.not_eq_false] at hpf
      obtain rfl := hc.of_pendingFor hpf
      rw [hs.questions r hrl hrv m hm0] at hpf
      cases hpf
  · intro r hrl hrv
    rw [hvis] at hrv
    rcases List.mem_cons.1 hrv with hrv | hrv
    · rw [hrv]
      exact hbelow
    · exact hs.below r hrl hrv
  · intro i hi
    rw [hpend, List.mem_append] at hi
    rw [hvis]
    rcases hi with hi | hi
    · rcases hs.origin i (by rw [hp]; exact List.mem_cons_of_mem _ hi) with h | ⟨r, hrl, hri, p, hpd,
        hpv, hrp⟩
      · exact Or.inl h
      · exact Or.inr ⟨r, hrl, hri, p, hpd, List.mem_cons_of_mem _ hpv, hrp⟩
    · obtain ⟨-, r, hrl, hri, hrp⟩ := (hchild i).1 hi
      exact Or.inr ⟨r, hrl, hri, row0, hrow0, hrow0id ▸ List.mem_cons_self, by rw [hrp, hrow0id]⟩
  · intro r hrl p hpd hpv hrp
    rw [hvis] at hpv
    rcases List.mem_cons.1 hpv with hpv | hpv
    · by_cases hrv : r.id ∈ s.visited
      · exact hleft _ (Or.inl hrv)
      · refine Or.inr ?_
        rw [hpend]
        exact List.mem_append_right _ ((hchild r.id).2 ⟨hrv, r, hrl, rfl, hpv ▸ hrp⟩)
    · exact hleft _ (hs.children r hrl p hpd hpv hrp)

theorem Sweeping.step {failure : DeliveryFailure}
    (hs : Sweeping l initial failure.terminalReason now s) {s' : TreeSweep}
    (h : sweepStep now failure s = .inl s') :
    Sweeping l initial failure.terminalReason now s' := by
  obtain ⟨id, pending, hp, ⟨hv, rfl⟩ | ⟨hv, hrow, rfl⟩ | ⟨hv, row, hrow, rfl, hl, hpend, hvis⟩⟩ :=
    sweepStep_inl h
  · exact hs.skip hp hv
  · exact hs.miss hp hv hrow
  · exact hs.visit hp hv hrow hl hpend hvis

/-- Each pass takes an id off the list and adds children only for a new visit. -/
def sweepMeasure (l : Ledger) (initial : List String) (s : TreeSweep) : ℕ :=
  (initial.length + l.deliveries.rows.length - s.visited.length) *
    (l.deliveries.rows.length + 1) + s.pending.length

theorem Sweeping.measure_lt {failure : DeliveryFailure}
    (hs : Sweeping l initial failure.terminalReason now s) {s' : TreeSweep}
    (h : sweepStep now failure s = .inl s') :
    sweepMeasure l initial s' < sweepMeasure l initial s := by
  have hs' := hs.step h
  have hlen := (List.subperm_of_subset hs'.nodup hs'.known).length_le
  rw [List.length_append, List.length_map] at hlen
  obtain ⟨id, pending, hp, ⟨hv, rfl⟩ | ⟨hv, hrow, rfl⟩ | ⟨hv, row, hrow, rfl, hl, hpend, hvis⟩⟩ :=
    sweepStep_inl h
  · simp only [sweepMeasure, hp, List.length_cons]
    omega
  · simp only [List.length_cons] at hlen
    simp only [sweepMeasure, hp, List.length_cons]
    have hle : initial.length + l.deliveries.rows.length - (s.visited.length + 1) ≤
        initial.length + l.deliveries.rows.length - s.visited.length := by omega
    have := Nat.mul_le_mul_right (l.deliveries.rows.length + 1) hle
    omega
  · rw [hvis, List.length_cons] at hlen
    have hch := children_length_le s.ledger row.id
    rw [hs.rows.length_eq] at hch
    simp only [sweepMeasure, hp, hpend, hvis, List.length_cons, List.length_append]
    obtain ⟨d, hd⟩ : ∃ d, initial.length + l.deliveries.rows.length - s.visited.length = d + 1 :=
      ⟨initial.length + l.deliveries.rows.length - s.visited.length - 1, by omega⟩
    have hd' : initial.length + l.deliveries.rows.length - (s.visited.length + 1) = d := by omega
    rw [hd, hd', Nat.succ_mul]
    omega

end Pass

/-- The worklist of `failDeliveryTree` ends within its fuel, on every graph. -/
theorem failDeliveryTree_terminates (l : Ledger) (initial : List String) (now : Int)
    (failure : DeliveryFailure) :
    ∃ result, l.failDeliveryTreeWithin (l.sweepFuel initial) initial now failure = some result := by
  refine WhileLoop.run_terminates (I := Sweeping l initial failure.terminalReason now)
    (μ := sweepMeasure l initial) (fun s s' hs h => ⟨hs.step h, hs.measure_lt h⟩)
    (Sweeping.start l initial _ now) ?_
  simp only [sweepMeasure, sweepFuel, List.length_nil, Nat.sub_zero]
  omega

/-- The invariant at the exit of the worklist, with nothing left pending. -/
theorem failDeliveryTree_spec (l : Ledger) (initial : List String) (now : Int)
    (failure : DeliveryFailure) :
    ∃ s, Sweeping l initial failure.terminalReason now s ∧ s.pending = [] ∧
      s.ledger = (l.failDeliveryTree initial now failure).1 := by
  obtain ⟨result, hr⟩ := failDeliveryTree_terminates l initial now failure
  rw [failDeliveryTree, hr, Option.getD_some]
  refine WhileLoop.run_invariant (Q := fun b => ∃ s,
    Sweeping l initial failure.terminalReason now s ∧ s.pending = [] ∧ s.ledger = b.1)
    (fun s s' hs h => hs.step h) (fun s b hs h => ?_) (Sweeping.start l initial _ now) hr
  unfold sweepStep at h
  cases hp : s.pending with
  | nil =>
    simp only [hp] at h
    obtain rfl := Sum.inr.inj h
    exact ⟨s, hs, hp, rfl⟩
  | cons id pending =>
    simp only [hp] at h
    split at h
    · cases h
    · split at h <;> cases h

/-- At the exit everything below the initial rows is visited. -/
theorem Sweeping.visited_of_below {l : Ledger} {initial : List String}
    {reason : DeliveryTerminalReason} {now : Int} {s : TreeSweep}
    (hs : Sweeping l initial reason now s) (hp : s.pending = []) {id : String}
    (h : Below l initial id) : id ∈ s.visited := by
  have hnone : ∀ i, i ∈ s.visited ∨ i ∈ s.pending → i ∈ s.visited := by
    intro i hi
    rw [hp] at hi
    exact hi.resolve_right List.not_mem_nil
  induction h with
  | root hr hi => exact hnone _ (hs.covered _ hi)
  | child hpb hr hpar ih =>
    rename_i p r
    have hprow : ∃ x ∈ l.deliveries, x.id = p := by
      cases hpb with
      | root hx _ => exact ⟨_, hx, rfl⟩
      | child _ hx _ => exact ⟨_, hx, rfl⟩
    obtain ⟨x, hx, rfl⟩ := hprow
    exact hnone _ (hs.children r hr x hx ih hpar)

end Ledger
end AgentParty
