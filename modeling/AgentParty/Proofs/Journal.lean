import AgentParty.Codex.Machine

/-! What one journal entry does to the journal: the entry is written, and old terminal
entries may leave with a mark. -/

namespace AgentParty
namespace Codex
namespace Arbiter

variable {a a' : Arbiter} {clientId : String}

/-- Ids pinned to the active turn are accepted, and none of them is up for eviction. -/
structure Tidy (a : Arbiter) : Prop where
  pinned : ∀ id ∈ a.activeTurnAcceptedClientIds, a.journal id = some .accepted
  apart : ∀ id ∈ a.terminalJournalOrder, id ∉ a.activeTurnAcceptedClientIds

/-- The terminal order holds each terminal entry of the journal, but for the pinned ones and those
of `out`. -/
structure OrderedBut (out : String → Prop) (a : Arbiter) : Prop where
  nodup : a.terminalJournalOrder.Nodup
  listed : ∀ id, id ∈ a.terminalJournalOrder ↔
    (a.journal id).any (·.terminal) = true ∧ id ∉ a.activeTurnAcceptedClientIds ∧ ¬ out id

abbrev Ordered (a : Arbiter) : Prop := a.OrderedBut fun _ => False

theorem OrderedBut.congr {out out' : String → Prop} (ha : a.OrderedBut out)
    (h : ∀ id, out' id ↔ out id) : a.OrderedBut out' :=
  ⟨ha.nodup, fun id => by rw [ha.listed, h]⟩

/-- A terminal entry has left the journal, and is marked. -/
def Left (a a' : Arbiter) (id : String) : Prop :=
  (a.journal id).any (·.terminal) = true ∧ a'.journal id = none ∧ id ∈ a'.evicted

/-- `a'` is `a` with the entry `state` for `clientId`. -/
structure Noted (clientId : String) (state : Option JournalState) (a a' : Arbiter) : Prop where
  options : a'.options = a.options
  queue : a'.queue = a.queue
  uncertain : a'.uncertainInputs = a.uncertainInputs
  debts : a'.rollbackDebts = a.rollbackDebts
  overflow : a'.activeTurnJournalOverflowed = a.activeTurnJournalOverflowed
  evicted : ∀ id ∈ a.evicted, id ∈ a'.evicted
  tidy : a.Tidy → a'.Tidy
  ordered : a.Tidy → a.Ordered → a'.Ordered
  entry : a'.journal clientId = state ∨
    (state.any (·.terminal) = true ∧ a'.journal clientId = none ∧ clientId ∈ a'.evicted)
  others : ∀ id, id ≠ clientId → a'.journal id = a.journal id ∨ Left a a' id

/-- The eviction loop over the oldest of the entries `order`. -/
structure Evicts (order : List String) (a a' : Arbiter) : Prop where
  options : a'.options = a.options
  queue : a'.queue = a.queue
  uncertain : a'.uncertainInputs = a.uncertainInputs
  debts : a'.rollbackDebts = a.rollbackDebts
  overflow : a'.activeTurnJournalOverflowed = a.activeTurnJournalOverflowed
  active : a'.activeTurnAcceptedClientIds = a.activeTurnAcceptedClientIds
  evicted : ∀ id ∈ a.evicted, id ∈ a'.evicted
  kept : ∀ id ∈ a'.terminalJournalOrder, id ∈ order
  journal : ∀ id, a'.journal id = a.journal id ∨ (id ∈ order ∧ Left a a' id)

theorem evict_journal (a : Arbiter) (oldest id : String) :
    (a.evict oldest).journal id = a.journal id ∨ (id = oldest ∧ Left a (a.evict oldest) id) := by
  unfold evict
  split_ifs with h
  · by_cases hid : id = oldest
    · subst hid
      exact Or.inr ⟨rfl, h, by simp, by simp⟩
    · exact Or.inl (by simp [hid])
  · exact Or.inl rfl

theorem evict_evicted (a : Arbiter) (oldest id : String) (h : id ∈ a.evicted) :
    id ∈ (a.evict oldest).evicted := by
  unfold evict
  split_ifs
  · exact List.mem_cons_of_mem _ h
  · exact h

theorem evictOldest_evicts (a : Arbiter) (order : List String) :
    Evicts order a (a.evictOldest order) := by
  induction order generalizing a with
  | nil => exact ⟨rfl, rfl, rfl, rfl, rfl, rfl, fun _ h => h, by simp [evictOldest], by simp [evictOldest]⟩
  | cons oldest rest ih =>
    rw [evictOldest]
    split_ifs
    · have hone : (a.evict oldest).options = a.options ∧ (a.evict oldest).queue = a.queue ∧
          (a.evict oldest).uncertainInputs = a.uncertainInputs ∧
          (a.evict oldest).rollbackDebts = a.rollbackDebts ∧
          (a.evict oldest).activeTurnJournalOverflowed = a.activeTurnJournalOverflowed ∧
          (a.evict oldest).activeTurnAcceptedClientIds = a.activeTurnAcceptedClientIds := by
        unfold evict
        split_ifs <;> exact ⟨rfl, rfl, rfl, rfl, rfl, rfl⟩
      obtain ⟨h1, h2, h3, h4, h5, h6⟩ := hone
      have hrest := ih (a.evict oldest)
      refine ⟨hrest.options.trans h1, hrest.queue.trans h2, hrest.uncertain.trans h3,
        hrest.debts.trans h4, hrest.overflow.trans h5, hrest.active.trans h6,
        fun id h => hrest.evicted id (evict_evicted a oldest id h),
        fun id h => List.mem_cons_of_mem _ (hrest.kept id h), fun id => ?_⟩
      rcases hrest.journal id with hj | ⟨hmem, hl⟩
      · rcases evict_journal a oldest id with he | ⟨rfl, he⟩
        · exact Or.inl (hj.trans he)
        · exact Or.inr ⟨by simp, he.1, hj.trans he.2.1, hrest.evicted _ he.2.2⟩
      · rcases evict_journal a oldest id with he | ⟨rfl, he⟩
        · exact Or.inr ⟨List.mem_cons_of_mem _ hmem, he ▸ hl.1, hl.2⟩
        · exact Or.inr ⟨by simp, he.1, hl.2⟩
    · exact ⟨rfl, rfl, rfl, rfl, rfl, rfl, fun _ h => h, fun _ h => h, fun _ => Or.inl rfl⟩

/-- Where the entries are terminal, the eviction takes each that leaves the order out of the
journal. -/
theorem evictOldest_order (a : Arbiter) {order : List String} (hnodup : order.Nodup)
    (hterminal : ∀ id ∈ order, (a.journal id).any (·.terminal) = true) :
    (a.evictOldest order).terminalJournalOrder <:+ order ∧
      ∀ id, (a.evictOldest order).journal id =
        if id ∈ order ∧ id ∉ (a.evictOldest order).terminalJournalOrder then none
        else a.journal id := by
  induction order generalizing a with
  | nil => exact ⟨List.suffix_refl _, fun id => by simp [evictOldest]⟩
  | cons oldest rest ih =>
    obtain ⟨hnew, hrest⟩ := List.nodup_cons.1 hnodup
    rw [evictOldest]
    split_ifs
    · have hevict : ∀ id, (a.evict oldest).journal id = Function.update a.journal oldest none id := by
        intro id
        rw [evict, if_pos (hterminal oldest List.mem_cons_self)]
      obtain ⟨hsuffix, hjournal⟩ := ih (a.evict oldest) hrest fun id hid => by
        have hne : id ≠ oldest := fun he => hnew (he ▸ hid)
        rw [hevict, Function.update_of_ne hne]
        exact hterminal id (List.mem_cons_of_mem _ hid)
      refine ⟨hsuffix.trans (List.suffix_cons _ _), fun id => ?_⟩
      rw [hjournal, hevict]
      by_cases hid : id = oldest
      · have hgone : id ∉ ((a.evict oldest).evictOldest rest).terminalJournalOrder :=
          fun h => hnew (hid ▸ hsuffix.subset h)
        subst hid
        simp [hnew, hgone]
      · simp [hid]
    · exact ⟨List.suffix_refl _, fun id => (if_neg fun h => h.2 h.1).symm⟩

theorem setJournalState_ordered {out : String → Prop} (ha : a.OrderedBut out) (clientId : String)
    (state : JournalState) :
    (a.setJournalState clientId state).OrderedBut fun id => out id ∧ id ≠ clientId := by
  have hnodup := ha.nodup.filter (· ≠ clientId)
  unfold setJournalState
  split_ifs with hterminal
  · have hnew : (a.terminalJournalOrder.filter (· ≠ clientId) ++ [clientId]).Nodup :=
      hnodup.append (List.nodup_singleton _) (by simp)
    have hevict := evictOldest_order { a with
      activeTurnAcceptedClientIds := a.activeTurnAcceptedClientIds.filter (· ≠ clientId)
      terminalJournalOrder := a.terminalJournalOrder.filter (· ≠ clientId)
      journal := Function.update a.journal clientId (some state) } hnew fun id hid => by
        by_cases he : id = clientId
        · simpa [he] using hterminal
        · simpa [he] using ((ha.listed id).1 (by simpa [he] using hid)).1
    have hactive := (evictOldest_evicts { a with
      activeTurnAcceptedClientIds := a.activeTurnAcceptedClientIds.filter (· ≠ clientId)
      terminalJournalOrder := a.terminalJournalOrder.filter (· ≠ clientId)
      journal := Function.update a.journal clientId (some state) }
      (a.terminalJournalOrder.filter (· ≠ clientId) ++ [clientId])).active
    obtain ⟨hsuffix, hjournal⟩ := hevict
    refine ⟨hsuffix.sublist.nodup hnew, fun id => ?_⟩
    rw [hactive, hjournal]
    by_cases hin : id ∈ (Arbiter.evictOldest { a with
        activeTurnAcceptedClientIds := a.activeTurnAcceptedClientIds.filter (· ≠ clientId)
        terminalJournalOrder := a.terminalJournalOrder.filter (· ≠ clientId)
        journal := Function.update a.journal clientId (some state) }
        (a.terminalJournalOrder.filter (· ≠ clientId) ++ [clientId])).terminalJournalOrder
    · rw [if_neg fun h => h.2 hin]
      refine iff_of_true hin ?_
      by_cases he : id = clientId
      · simpa [he] using hterminal
      · have hold := (ha.listed id).1 (by simpa [he] using hsuffix.subset hin)
        simpa [he] using hold
    · refine iff_of_false hin fun h => ?_
      by_cases hnoted : id ∈ a.terminalJournalOrder.filter (· ≠ clientId) ++ [clientId]
      · rw [if_pos ⟨hnoted, hin⟩] at h
        nomatch h.1
      · obtain ⟨hold, he⟩ : id ∉ a.terminalJournalOrder ∧ id ≠ clientId := by
          by_cases he : id = clientId
          · simp [he] at hnoted
          · exact ⟨by simpa [he] using hnoted, he⟩
        rw [if_neg fun h => hnoted h.1] at h
        exact hold ((ha.listed id).2 (by simpa [he] using h))
  · refine ⟨hnodup, fun id => ?_⟩
    by_cases he : id = clientId
    · simp [he, hterminal]
    · simpa [he] using ha.listed id

theorem setJournalState_noted (a : Arbiter) (clientId : String) (state : JournalState) :
    Noted clientId (some state) a (a.setJournalState clientId state) := by
  have hordered (ho : a.Ordered) : (a.setJournalState clientId state).Ordered :=
    (setJournalState_ordered ho clientId state).congr fun id => (and_iff_left_of_imp nofun).symm
  unfold setJournalState at hordered ⊢
  split_ifs at hordered ⊢ with hterminal
  · have he := evictOldest_evicts { a with
      activeTurnAcceptedClientIds := a.activeTurnAcceptedClientIds.filter (· ≠ clientId)
      terminalJournalOrder := a.terminalJournalOrder.filter (· ≠ clientId)
      journal := Function.update a.journal clientId (some state) }
      (a.terminalJournalOrder.filter (· ≠ clientId) ++ [clientId])
    refine ⟨he.options, he.queue, he.uncertain, he.debts, he.overflow, he.evicted, fun ht => ?_,
      fun _ => hordered, ?_, fun id hid => ?_⟩
    · have hapart : ∀ id ∈ a.terminalJournalOrder.filter (· ≠ clientId) ++ [clientId],
          id ∉ a.activeTurnAcceptedClientIds.filter (· ≠ clientId) := by
        intro id hid hact
        rw [List.mem_filter] at hact
        rcases List.mem_append.1 hid with h | h
        · exact ht.apart id (List.mem_filter.1 h).1 hact.1
        · exact absurd (List.mem_singleton.1 h) (by simpa using hact.2)
      refine ⟨fun id hid => ?_, fun id hid => ?_⟩
      · rw [he.active] at hid
        obtain ⟨hmem, hne⟩ := List.mem_filter.1 hid
        rcases he.journal id with hj | ⟨hord, -⟩
        · rw [hj]
          simpa [show id ≠ clientId by simpa using hne] using ht.pinned id hmem
        · exact absurd hid (hapart id hord)
      · rw [he.active]
        exact hapart id (he.kept id hid)
    · rcases he.journal clientId with hj | ⟨-, hl⟩
      · exact Or.inl (by simpa using hj)
      · exact Or.inr ⟨by simpa using hterminal, hl.2⟩
    · rcases he.journal id with hj | ⟨-, hl⟩
      · exact Or.inl (by simpa [hid] using hj)
      · exact Or.inr ⟨by simpa [hid] using hl.1, hl.2⟩
  · refine ⟨rfl, rfl, rfl, rfl, rfl, fun _ h => h, fun ht => ⟨fun id hid => ?_, fun id hid hact => ?_⟩,
      fun _ => hordered, Or.inl (by simp), fun id hid => Or.inl (by simp [hid])⟩
    · obtain ⟨hmem, hne⟩ := List.mem_filter.1 hid
      simpa [show id ≠ clientId by simpa using hne] using ht.pinned id hmem
    · exact ht.apart id (List.mem_filter.1 hid).1 (List.mem_filter.1 hact).1

theorem deleteJournalState_ordered (ha : a.Ordered) (clientId : String) :
    (a.deleteJournalState clientId).Ordered := by
  refine ⟨ha.nodup.filter _, fun id => ?_⟩
  by_cases he : id = clientId
  · simp [deleteJournalState, he]
  · simpa [deleteJournalState, he] using ha.listed id

theorem deleteJournalState_noted (a : Arbiter) (clientId : String) :
    Noted clientId none a (a.deleteJournalState clientId) := by
  refine ⟨rfl, rfl, rfl, rfl, rfl, fun _ h => h, fun ht => ⟨fun id hid => ?_, fun id hid hact => ?_⟩,
    fun _ ho => deleteJournalState_ordered ho clientId, Or.inl (by simp [deleteJournalState]), fun id hid => Or.inl (by simp [deleteJournalState, hid])⟩
  · obtain ⟨hmem, hne⟩ := List.mem_filter.1 hid
    simpa [deleteJournalState, show id ≠ clientId by simpa using hne] using ht.pinned id hmem
  · exact ht.apart id (List.mem_filter.1 hid).1 (List.mem_filter.1 hact).1

/-- An accepted id is pinned. -/
theorem pin_ordered (ha : a.Ordered) (clientId : String) :
    Ordered { a with
      terminalJournalOrder := a.terminalJournalOrder.filter (· ≠ clientId)
      journal := Function.update a.journal clientId (some .accepted)
      activeTurnAcceptedClientIds :=
        if a.activeTurnAcceptedClientIds.contains clientId then a.activeTurnAcceptedClientIds
        else a.activeTurnAcceptedClientIds ++ [clientId] } := by
  refine ⟨ha.nodup.filter _, fun id => ?_⟩
  have hlisted := ha.listed id
  dsimp only
  by_cases he : id = clientId
  · subst he
    split_ifs with hpinned
    · simp only [List.contains_iff_mem] at hpinned
      simp [hpinned]
    · simp
  · split_ifs <;> simpa [he] using hlisted

/-- An accepted id is noted, or the journal of the active turn is full for good. -/
theorem setAcceptedJournalState_noted (a : Arbiter) (clientId : String) (turnId : Option String) :
    Noted clientId (some .accepted) a (a.setAcceptedJournalState clientId turnId) ∨
      a.setAcceptedJournalState clientId turnId =
        { a with activeTurnJournalOverflowed := true } := by
  unfold setAcceptedJournalState
  by_cases h1 : (turnId.isSome && turnId = a.activeTurnId) = true
  swap
  · rw [if_neg h1]
    exact Or.inl (setJournalState_noted a clientId .accepted)
  rw [if_pos h1]
  by_cases h2 : (!a.activeTurnAcceptedClientIds.contains clientId &&
      a.options.maxActiveTurnJournalEntries ≤ a.activeTurnAcceptedClientIds.length) = true
  · rw [if_pos h2]
    exact Or.inr rfl
  · rw [if_neg h2]
    left
    refine ⟨rfl, rfl, rfl, rfl, rfl, fun _ h => h, fun ht => ⟨fun id hid => ?_, fun id hid => ?_⟩,
      fun _ ho => pin_ordered ho clientId, Or.inl (by simp), fun id hid => Or.inl (by simp [hid])⟩
    · by_cases hid' : id = clientId
      · simp [hid']
      · have hmem : id ∈ a.activeTurnAcceptedClientIds := by
          dsimp only at hid
          split_ifs at hid
          · exact hid
          · simpa [hid'] using hid
        simpa [hid'] using ht.pinned id hmem
    · obtain ⟨hmem, hne⟩ := List.mem_filter.1 hid
      have hne' : id ≠ clientId := by simpa using hne
      have hout := ht.apart id hmem
      dsimp only
      split_ifs
      · exact hout
      · simp [hout, hne']

/-- The journal without some of its terminal entries, no more ids pinned. -/
structure Sheds (a a' : Arbiter) : Prop where
  options : a'.options = a.options
  queue : a'.queue = a.queue
  uncertain : a'.uncertainInputs = a.uncertainInputs
  debts : a'.rollbackDebts = a.rollbackDebts
  overflow : a'.activeTurnJournalOverflowed = a.activeTurnJournalOverflowed
  evicted : ∀ id ∈ a.evicted, id ∈ a'.evicted
  tidy : a'.Tidy
  journal : ∀ id, a'.journal id = a.journal id ∨ Left a a' id

theorem Left.mono {b : Arbiter} {id : String} (h : Left a a' id) (hj : b.journal id = a'.journal id)
    (he : ∀ id ∈ a'.evicted, id ∈ b.evicted) : Left a b id :=
  ⟨h.1, hj.trans h.2.1, he _ h.2.2⟩

/-- Noting an id as accepted that was accepted. -/
theorem Sheds.note (h : Sheds a a') (hid : a.journal clientId = some .accepted) :
    Sheds a (a'.setJournalState clientId .accepted) := by
  have hn := setJournalState_noted a' clientId .accepted
  refine ⟨hn.options.trans h.options, hn.queue.trans h.queue, hn.uncertain.trans h.uncertain,
    hn.debts.trans h.debts, hn.overflow.trans h.overflow, fun id hi => hn.evicted id (h.evicted id hi),
    hn.tidy h.tidy, fun id => ?_⟩
  by_cases hne : id = clientId
  · subst hne
    rcases hn.entry with he | ⟨-, he, hev⟩
    · exact Or.inl (he.trans hid.symm)
    · exact Or.inr ⟨by simp [hid, JournalState.terminal], he, hev⟩
  · rcases hn.others id hne with hj | hl
    · rcases h.journal id with hj' | hl'
      · exact Or.inl (hj.trans hj')
      · exact Or.inr (hl'.mono hj hn.evicted)
    · rcases h.journal id with hj' | hl'
      · exact Or.inr ⟨hj' ▸ hl.1, hl.2⟩
      · exact absurd hl.1 (by simp [hl'.2.1])

theorem Sheds.notes (h : Sheds a a') {ids : List String}
    (hids : ∀ id ∈ ids, a.journal id = some .accepted) :
    Sheds a (ids.foldl (fun a id => a.setJournalState id .accepted) a') := by
  induction ids generalizing a' with
  | nil => exact h
  | cons id ids ih =>
    exact ih (h.note (hids id (by simp))) fun id hid => hids id (List.mem_cons_of_mem _ hid)

/-- The active turn changes nothing but the journal. -/
theorem setActiveTurn_frame (a : Arbiter) (turnId : Option String) :
    (a.setActiveTurn turnId).options = a.options ∧ (a.setActiveTurn turnId).queue = a.queue ∧
      (a.setActiveTurn turnId).uncertainInputs = a.uncertainInputs ∧
      (a.setActiveTurn turnId).activeTurnJournalOverflowed = a.activeTurnJournalOverflowed := by
  have hfold : ∀ (ids : List String) (b : Arbiter),
      let b' := ids.foldl (fun a id => a.setJournalState id .accepted) b
      b'.options = b.options ∧ b'.queue = b.queue ∧ b'.uncertainInputs = b.uncertainInputs ∧
        b'.activeTurnJournalOverflowed = b.activeTurnJournalOverflowed := by
    intro ids
    induction ids with
    | nil => exact fun b => ⟨rfl, rfl, rfl, rfl⟩
    | cons id ids ih =>
      intro b
      have hn := setJournalState_noted b id .accepted
      obtain ⟨h1, h2, h3, h4⟩ := ih (b.setJournalState id .accepted)
      exact ⟨h1.trans hn.options, h2.trans hn.queue, h3.trans hn.uncertain, h4.trans hn.overflow⟩
  unfold setActiveTurn
  split_ifs
  · exact ⟨rfl, rfl, rfl, rfl⟩
  · exact hfold _ _

theorem setActiveTurn_sheds (ha : a.Tidy) (turnId : Option String) :
    Sheds a (a.setActiveTurn turnId) := by
  unfold setActiveTurn
  split_ifs
  · exact ⟨rfl, rfl, rfl, rfl, rfl, fun _ h => h, ha, fun _ => Or.inl rfl⟩
  · refine Sheds.notes ?_ ha.pinned
    exact ⟨rfl, rfl, rfl, rfl, rfl, fun _ h => h, ⟨by simp, by simp⟩, fun _ => Or.inl rfl⟩

/-- The ids that a completed turn had pinned enter the order. -/
theorem setActiveTurn_ordered (ha : a.Ordered) (turnId : Option String) :
    (a.setActiveTurn turnId).Ordered := by
  have hfold : ∀ (ids : List String) (out : String → Prop) (b : Arbiter), b.OrderedBut out →
      (ids.foldl (fun a id => a.setJournalState id .accepted) b).OrderedBut
        fun id => out id ∧ id ∉ ids := by
    intro ids
    induction ids with
    | nil => exact fun out b hb => hb.congr fun id => and_iff_left (List.not_mem_nil)
    | cons clientId ids ih =>
      intro out b hb
      refine (ih _ _ (setJournalState_ordered hb clientId .accepted)).congr fun id => ?_
      rw [List.mem_cons, not_or, and_assoc]
  unfold setActiveTurn
  split_ifs
  · exact ha
  · refine OrderedBut.congr (hfold _ (· ∈ a.activeTurnAcceptedClientIds) _ ⟨ha.nodup, fun id => ?_⟩)
      fun id => ⟨False.elim, fun h => h.2 h.1⟩
    rw [ha.listed]
    simp

end Arbiter
end Codex
end AgentParty
