import AgentParty.Proofs.LaneOps
import Mathlib.Data.List.InsertIdx
import Mathlib.Data.List.Nodup

/-! The books of the lane: its queue, its journal, the uncertain inputs and the rollback
debts agree with each other and with what is in hand, at every move. -/

namespace AgentParty
namespace Codex

namespace Arbiter

/-- The two records of uncertainty, the queue, the debts and the input in hand agree. -/
structure Books (h : Hand) (a : Arbiter) : Prop where
  tidy : a.Tidy
  nodup : a.queuedIds.Nodup
  queued : ∀ id ∈ a.queuedIds, a.journal id = some .queued
  uncertain : ∀ i ∈ a.uncertainInputs, a.journal i.clientUserMessageId = some .uncertain
  known : ∀ id, a.journal id = some .uncertain →
    a.activeTurnJournalOverflowed = true ∨ ∃ i ∈ a.uncertainInputs, i.clientUserMessageId = id
  owed : ∀ id, a.owes id → id ∈ a.queuedIds ∨ h = .held id
  free : ∀ id, h.clientId = some id → a.journal id = none
  calm : h.calm = true → a.Clear

variable {h h' : Hand} {a a' : Arbiter} {clientId : String}

theorem Books.not_queued (hb : Books h a) (hid : h.clientId = some clientId) :
    clientId ∉ a.queuedIds := fun hq => by
  have := hb.queued clientId hq
  rw [hb.free clientId hid] at this
  cases this

/-- In a clear state no journal entry is uncertain. -/
theorem Books.certain (hb : Books h a) (hc : a.Clear) (id : String) :
    a.journal id ≠ some .uncertain := fun hj => by
  obtain ⟨hnone, hover⟩ := clear_iff.1 hc
  rcases hb.known id hj with ho | ⟨i, hi, -⟩
  · rw [hover] at ho
    cases ho
  · exact hnone i hi

/-- A change to the journal that leaves the other books alone keeps them, if it takes
nothing out of the journal but terminal entries. -/
theorem Books.sheds (hb : Books h a) (hs : Sheds a a') : Books h a' where
  tidy := hs.tidy
  nodup := by
    rw [queuedIds, hs.queue]
    exact hb.nodup
  queued := fun id hid => by
    rw [queuedIds, hs.queue] at hid
    rcases hs.journal id with hj | hl
    · exact hj.trans (hb.queued id hid)
    · have := hl.1
      rw [hb.queued id hid] at this
      cases this
  uncertain := fun i hi => by
    rw [hs.uncertain] at hi
    rcases hs.journal i.clientUserMessageId with hj | hl
    · exact hj.trans (hb.uncertain i hi)
    · have := hl.1
      rw [hb.uncertain i hi] at this
      cases this
  known := fun id hid => by
    rw [hs.overflow, hs.uncertain]
    rcases hs.journal id with hj | hl
    · exact hb.known id (hj ▸ hid)
    · rw [hl.2.1] at hid
      cases hid
  owed := fun id hid => by
    rw [queuedIds, hs.queue]
    rw [owes, hs.debts] at hid
    exact hb.owed id hid
  free := fun id hid => by
    rcases hs.journal id with hj | hl
    · exact hj.trans (hb.free id hid)
    · exact hl.2.1
  calm := fun hc => by
    rw [clear_iff, hs.uncertain, hs.overflow, ← clear_iff]
    exact hb.calm hc

/-- One entry of the journal is written, and the books follow it. -/
theorem Books.note {state : Option JournalState} (hb : Books h a) (tidy : a'.Tidy)
    (entry : a'.journal clientId = state ∨ a'.journal clientId = none)
    (others : ∀ id, id ≠ clientId → a'.journal id = a.journal id ∨ Left a a' id)
    (overflow : a'.activeTurnJournalOverflowed = a.activeTurnJournalOverflowed)
    (nodup : a'.queuedIds.Nodup)
    (queued : ∀ id ∈ a'.queuedIds,
      id = clientId ∧ a'.journal clientId = some .queued ∨ id ≠ clientId ∧ id ∈ a.queuedIds)
    (uncertain : ∀ i ∈ a'.uncertainInputs,
      i.clientUserMessageId = clientId ∧ a'.journal clientId = some .uncertain ∨
        i.clientUserMessageId ≠ clientId ∧ i ∈ a.uncertainInputs)
    (known : ∀ i ∈ a.uncertainInputs, i.clientUserMessageId ≠ clientId → i ∈ a'.uncertainInputs)
    (knownHere : state = some .uncertain →
      ∃ i ∈ a'.uncertainInputs, i.clientUserMessageId = clientId)
    (owed : ∀ id, a'.owes id → id ∈ a'.queuedIds ∨ h' = .held id)
    (free : ∀ id, h'.clientId = some id → a'.journal id = none)
    (calm : h'.calm = true → a'.Clear) : Books h' a' where
  tidy := tidy
  nodup := nodup
  queued := fun id hid => by
    rcases queued id hid with ⟨rfl, hj⟩ | ⟨hne, hq⟩
    · exact hj
    · have hj := hb.queued id hq
      rcases others id hne with ho | hl
      · exact ho.trans hj
      · exact absurd hl.1 (by simp [hj, JournalState.terminal])
  uncertain := fun i hi => by
    rcases uncertain i hi with ⟨hid, hj⟩ | ⟨hne, hu⟩
    · rw [hid]
      exact hj
    · have hj := hb.uncertain i hu
      rcases others _ hne with ho | hl
      · exact ho.trans hj
      · exact absurd hl.1 (by simp [hj, JournalState.terminal])
  known := fun id hid => by
    by_cases hne : id = clientId
    · subst hne
      rcases entry with he | he
      · exact Or.inr (knownHere (he.symm.trans hid))
      · rw [he] at hid
        cases hid
    · rcases others id hne with ho | hl
      · rw [overflow]
        rcases hb.known id (ho ▸ hid) with hover | ⟨i, hi, rfl⟩
        · exact Or.inl hover
        · exact Or.inr ⟨i, known i hi hne, rfl⟩
      · rw [hl.2.1] at hid
        cases hid
  owed := owed
  free := free
  calm := calm

/-- The fate of an id that was not queued becomes known. -/
theorem Books.closes {state : Option JournalState} (hb : Books h a)
    (hc : Closes clientId state a a') (hq : clientId ∉ a.queuedIds)
    (hstate : state ≠ some .uncertain) (hheld : ∀ id, h ≠ .held id) : Books .empty a' := by
  have howed : ∀ id, a'.owes id → id ∈ a'.queuedIds ∨ Hand.empty = .held id := fun id ho => by
    rw [owes, hc.debts] at ho
    rw [queuedIds, hc.queue]
    exact Or.inl ((hb.owed id ho).resolve_right (hheld id))
  have hqueued : ∀ id ∈ a'.queuedIds, id ≠ clientId ∧ id ∈ a.queuedIds := fun id hid => by
    rw [queuedIds, hc.queue] at hid
    exact ⟨fun he => hq (he ▸ hid), hid⟩
  have hnodup : a'.queuedIds.Nodup := by
    rw [queuedIds, hc.queue]
    exact hb.nodup
  have hfree : ∀ id, Hand.empty.clientId = some id → a'.journal id = none := by
    intro id h
    cases h
  have hcalm : Hand.empty.calm = true → a'.Clear := by
    intro h
    cases h
  rcases hc.journal with ⟨hover, hentry, hothers⟩ | ⟨hover, hj⟩
  · exact hb.note (hc.tidy hb.tidy) (hentry.imp_right fun h => h.2.1) hothers hover hnodup
      (fun id hid => Or.inr (hqueued id hid))
      (fun i hi => Or.inr ((hc.uncertain i).1 hi).symm)
      (fun i hi hne => (hc.uncertain i).2 ⟨hi, hne⟩) (fun h => absurd h hstate) howed
      hfree hcalm
  · refine ⟨hc.tidy hb.tidy, hnodup, fun id hid => ?_, fun i hi => ?_, fun id hid => Or.inl hover,
      howed, hfree, hcalm⟩
    · exact (hj id).trans (hb.queued id (hqueued id hid).2)
    · exact (hj _).trans (hb.uncertain i ((hc.uncertain i).1 hi).1)

theorem new_books (options : ArbiterOptions) : Books .empty (Arbiter.new options) where
  tidy := ⟨by simp [Arbiter.new], by simp [Arbiter.new]⟩
  nodup := List.nodup_nil
  queued := by simp [queuedIds, Arbiter.new]
  uncertain := by simp [Arbiter.new]
  known := by simp [Arbiter.new]
  owed := by simp [owes, Arbiter.new]
  free := nofun
  calm := nofun

/-- The entry of a queued id, or of one that leaves the queue, is written. -/
theorem Books.noted {state : Option JournalState} {queue : List QueuedInput} {nextId : ℕ}
    (hb : Books h a)
    (hn : Noted clientId state { a with queue := queue, nextQueueId := nextId } a')
    (hnot : a.journal clientId ≠ some .uncertain) (hstate : state = none ∨ state = some .queued)
    (nodup : (queue.map (·.input.clientUserMessageId)).Nodup)
    (queued : ∀ id ∈ queue.map (·.input.clientUserMessageId),
      id = clientId ∧ state = some .queued ∨ id ≠ clientId ∧ id ∈ a.queuedIds)
    (owed : ∀ id, a.owes id → id ∈ queue.map (·.input.clientUserMessageId) ∨ h' = .held id)
    (free : ∀ id, h'.clientId = some id → id = clientId ∧ state = none)
    (calm : h'.calm = true → a.Clear) : Books h' a' := by
  have hids : a'.queuedIds = queue.map (·.input.clientUserMessageId) := congrArg _ hn.queue
  have hentry : a'.journal clientId = state := by
    rcases hn.entry with he | ⟨hterminal, -, -⟩
    · exact he
    · rcases hstate with rfl | rfl <;> cases hterminal
  refine hb.note (hn.tidy ⟨hb.tidy.pinned, hb.tidy.apart⟩) (Or.inl hentry) hn.others hn.overflow
    (hids ▸ nodup) (fun id hid => ?_) (fun i hi => ?_) (fun i hi _ => hn.uncertain ▸ hi)
    (fun h => ?_) (fun id ho => ?_) (fun id hid => ?_) (fun hc => ?_)
  · rw [hentry]
    exact queued id (hids ▸ hid)
  · rw [hn.uncertain] at hi
    exact Or.inr ⟨fun he => hnot (he ▸ hb.uncertain i hi), hi⟩
  · rcases hstate with rfl | rfl <;> cases h
  · rw [owes, hn.debts] at ho
    rw [hids]
    exact owed id ho
  · obtain ⟨rfl, rfl⟩ := free id hid
    exact hentry
  · rw [clear_iff, hn.uncertain, hn.overflow, ← clear_iff]
    exact calm hc

/-- The input in hand changes, the arbiter does not. -/
theorem Books.hand (hb : Books h a) (owed : ∀ id, h = .held id → ¬ a.owes id ∨ h' = .held id)
    (free : ∀ id, h'.clientId = some id → a.journal id = none) (calm : h'.calm = true → a.Clear) :
    Books h' a where
  tidy := hb.tidy
  nodup := hb.nodup
  queued := hb.queued
  uncertain := hb.uncertain
  known := hb.known
  owed := fun id ho => by
    rcases hb.owed id ho with hq | hh
    · exact Or.inl hq
    · exact Or.inr ((owed id hh).resolve_left (not_not_intro ho))
  free := free
  calm := calm

/-- Debts that are queued or in hand. -/
theorem Books.debts (hb : Books h a) {debts : Inputs}
    (owed : ∀ i ∈ debts, i.clientUserMessageId ∈ a.queuedIds ∨ h = .held i.clientUserMessageId) :
    Books h { a with rollbackDebts := debts } where
  tidy := ⟨hb.tidy.pinned, hb.tidy.apart⟩
  nodup := hb.nodup
  queued := hb.queued
  uncertain := hb.uncertain
  known := hb.known
  owed := fun _ ⟨i, hi, hid⟩ => hid ▸ owed i hi
  free := hb.free
  calm := hb.calm

end Arbiter

namespace Lane
open Arbiter

variable {h h' : Hand} {s s' : Lane} {fresh evidence : List String}

theorem SameBooks.books (hs : SameBooks s s') (hb : Books h s.arbiter) : Books h s'.arbiter where
  tidy := ⟨by rw [hs.active, hs.journal]; exact hb.tidy.pinned,
    by rw [hs.order, hs.active]; exact hb.tidy.apart⟩
  nodup := by
    rw [queuedIds, hs.queue]
    exact hb.nodup
  queued := by
    rw [queuedIds, hs.queue, hs.journal]
    exact hb.queued
  uncertain := by
    rw [hs.uncertain, hs.journal]
    exact hb.uncertain
  known := by
    rw [hs.overflow, hs.uncertain, hs.journal]
    exact hb.known
  owed := fun id => by
    rw [owes, hs.debts, queuedIds, hs.queue]
    exact hb.owed id
  free := by
    rw [hs.journal]
    exact hb.free
  calm := fun hc => hs.clear (hb.calm hc)

theorem enqueue_noted {input : BridgeInput} (reason : DispatchReason)
    (hj : s.arbiter.journal input.clientUserMessageId = none)
    (hroom : s.arbiter.queue.length < s.arbiter.options.maxQueue) :
    Noted input.clientUserMessageId (some .queued) { s.arbiter with
      queue := s.arbiter.queue ++ [⟨s.arbiter.nextQueueId, input, reason⟩]
      nextQueueId := s.arbiter.nextQueueId + 1 } (s.enqueue input reason).1.arbiter := by
  rw [Lane.enqueue, Arbiter.enqueue, hj]
  dsimp only
  rw [if_neg (Nat.not_le.2 hroom)]
  exact setJournalState_noted _ _ _

theorem enqueue_books {input : BridgeInput} (reason : DispatchReason) (hb : Books h s.arbiter)
    (hj : s.arbiter.journal input.clientUserMessageId = none)
    (hroom : s.arbiter.queue.length < s.arbiter.options.maxQueue)
    (hh : h = .empty ∨ h = .held input.clientUserMessageId) :
    Books .empty (s.enqueue input reason).1.arbiter := by
  have hn := enqueue_noted reason hj hroom
  have hnew : input.clientUserMessageId ∉ s.arbiter.queuedIds := fun hq => by
    rw [hb.queued _ hq] at hj
    cases hj
  refine hb.noted hn (by simp [hj]) (Or.inr rfl) ?_ (fun id hid => ?_) (fun id ho => ?_) nofun nofun
  · rw [List.map_append]
    exact hb.nodup.append (List.nodup_singleton _) (by simpa using hnew)
  · rw [List.map_append, List.mem_append] at hid
    rcases hid with hid | hid
    · exact Or.inr ⟨fun he => hnew (he ▸ hid), hid⟩
    · exact Or.inl ⟨by simpa using hid, rfl⟩
  · rw [List.map_append, List.mem_append]
    left
    rcases hb.owed id ho with hq | hheld
    · exact Or.inl hq
    · rcases hh with rfl | rfl
      · cases hheld
      · obtain rfl := Hand.held.inj hheld
        exact Or.inr (by simp)

theorem take_books {entry : QueuedInput} {rest : List QueuedInput} (hb : Books .empty s.arbiter)
    (hq : s.arbiter.queue = entry :: rest) (hc : s.arbiter.Clear) :
    Books (.held entry.input.clientUserMessageId) (s.takeQueued entry rest).arbiter := by
  have hn := deleteJournalState_noted { s.arbiter with queue := rest } entry.input.clientUserMessageId
  have hids : s.arbiter.queuedIds =
      entry.input.clientUserMessageId :: rest.map (·.input.clientUserMessageId) := by
    rw [queuedIds, hq, List.map_cons]
  have hnodup := hb.nodup
  rw [hids, List.nodup_cons] at hnodup
  have hj := hb.queued _ (hids ▸ List.mem_cons_self)
  refine hb.noted hn (by simp [hj]) (Or.inl rfl) hnodup.2 (fun id hid => Or.inr ⟨fun he => ?_, ?_⟩)
    (fun id ho => ?_) (fun id hid => ?_) fun _ => hc
  · exact hnodup.1 (he ▸ hid)
  · rw [hids]
    exact List.mem_cons_of_mem _ hid
  · have hmem := (hb.owed id ho).resolve_right nofun
    rw [hids, List.mem_cons] at hmem
    rcases hmem with rfl | hmem
    · exact Or.inr rfl
    · exact Or.inl hmem
  · exact ⟨(Option.some.inj hid).symm, rfl⟩

theorem restore_books (entry : QueuedInput)
    (hb : Books (.held entry.input.clientUserMessageId) s.arbiter) :
    Books .empty ({ s.arbiter with queue := entry :: s.arbiter.queue }.setJournalState
      entry.input.clientUserMessageId .queued) := by
  have hn := setJournalState_noted { s.arbiter with queue := entry :: s.arbiter.queue }
    entry.input.clientUserMessageId .queued
  have hj := hb.free _ rfl
  have hnew := hb.not_queued rfl
  refine hb.noted hn (by simp [hj]) (Or.inr rfl) ?_ (fun id hid => ?_) (fun id ho => ?_) nofun nofun
  · rw [List.map_cons, List.nodup_cons]
    exact ⟨hnew, hb.nodup⟩
  · rw [List.map_cons, List.mem_cons] at hid
    rcases hid with rfl | hid
    · exact Or.inl ⟨rfl, rfl⟩
    · exact Or.inr ⟨fun he => hnew (he ▸ hid), hid⟩
  · rw [List.map_cons, List.mem_cons]
    rcases hb.owed id ho with hq | hheld
    · exact Or.inl (Or.inr hq)
    · exact Or.inl (Or.inl (Hand.held.inj hheld).symm)

theorem cancel_books {clientId : String} {index : ℕ} (hb : Books .empty s.arbiter)
    (hi : (s.arbiter.queue.findIdx? fun entry => entry.input.clientUserMessageId = clientId) =
      some index) : Books .empty (s.dropQueued clientId index).arbiter := by
  obtain ⟨hlt, hid, -⟩ := List.findIdx?_eq_some_iff_getElem.1 hi
  have hlt' : index < s.arbiter.queuedIds.length := by simpa [queuedIds] using hlt
  have hget : s.arbiter.queuedIds[index] = clientId := by simpa [queuedIds] using hid
  have hj := hb.queued clientId (hget ▸ List.getElem_mem _)
  have hrest : (s.arbiter.queue.eraseIdx index).map (·.input.clientUserMessageId) =
      s.arbiter.queuedIds.erase clientId := by
    rw [← List.eraseIdx_map, ← hget]
    exact (hb.nodup.erase_getElem index hlt').symm
  have hmem : ∀ id, id ∈ s.arbiter.queuedIds.erase clientId ↔
      id ≠ clientId ∧ id ∈ s.arbiter.queuedIds := fun id => hb.nodup.mem_erase_iff
  have hdebts : Books .empty { s.arbiter with
      rollbackDebts := s.arbiter.rollbackDebts.delete fun i => i.clientUserMessageId = clientId } :=
    hb.debts fun i hi => hb.owed _ ⟨i, (Table.mem_delete.1 hi).1, rfl⟩
  have hn := deleteJournalState_noted { s.arbiter with
    queue := s.arbiter.queue.eraseIdx index
    rollbackDebts := s.arbiter.rollbackDebts.delete fun i => i.clientUserMessageId = clientId }
    clientId
  refine hdebts.noted hn (by simp [hj]) (Or.inl rfl) ?_
    (fun id hid => Or.inr ((hmem id).1 (hrest ▸ hid))) (fun id ho => Or.inl ?_) nofun nofun
  · rw [hrest]
    exact hb.nodup.erase clientId
  · obtain ⟨i, hi, rfl⟩ := ho
    obtain ⟨hi, hne⟩ := Table.mem_delete.1 hi
    rw [hrest, hmem]
    exact ⟨by simpa using hne, (hb.owed _ ⟨i, hi, rfl⟩).resolve_right nofun⟩

theorem settle_books (clientId : String) (answers : WriteAnswers) (hb : Books h s.arbiter) :
    Books h (s.settleRollbackDebt clientId answers).1.arbiter := by
  unfold settleRollbackDebt
  split
  · exact hb
  · dsimp only
    split_ifs
    · exact hb.debts fun i hi => hb.owed _ ⟨i, (Table.mem_delete.1 hi).1, rfl⟩
    · exact hb

theorem rollBack_books {input : BridgeInput} (answers : WriteAnswers) (hb : Books h s.arbiter)
    (hh : h = .held input.clientUserMessageId ∨ h = .refused input.clientUserMessageId) :
    Books (.held input.clientUserMessageId) (s.rollBack input answers).arbiter := by
  have hheld : Books (.held input.clientUserMessageId) s.arbiter := by
    rcases hh with rfl | rfl
    · exact hb
    · exact hb.hand nofun hb.free fun _ => hb.calm rfl
  unfold rollBack
  dsimp only
  split_ifs
  · exact hheld
  · refine hheld.debts fun i hi => ?_
    rcases Table.mem_put.1 hi with rfl | ⟨hi, -⟩
    · exact Or.inr rfl
    · exact hheld.owed _ ⟨i, hi, rfl⟩

theorem lose_books {input : BridgeInput}
    (hb : Books (.unknown input.clientUserMessageId) s.arbiter) :
    Books .empty (s.uncertain input).1.arbiter := by
  have hn := setJournalState_noted s.arbiter input.clientUserMessageId .uncertain
  have hentry := hn.entry.resolve_right fun h => by cases h.1
  have hids : (s.uncertain input).1.arbiter.queuedIds = s.arbiter.queuedIds :=
    congrArg (List.map fun e : QueuedInput => e.input.clientUserMessageId) hn.queue
  have hput : ∀ i, i ∈ (s.uncertain input).1.arbiter.uncertainInputs ↔
      i = input ∨ (i ∈ s.arbiter.uncertainInputs ∧
        i.clientUserMessageId ≠ input.clientUserMessageId) := fun i => by
    rw [← hn.uncertain]
    exact Table.mem_put
  refine hb.note ⟨(hn.tidy hb.tidy).pinned, (hn.tidy hb.tidy).apart⟩ (Or.inl hentry) hn.others
    hn.overflow (hids ▸ hb.nodup) (fun id hid => Or.inr ?_) (fun i hi => ?_)
    (fun i hi hne => (hput i).2 (Or.inr ⟨hi, hne⟩)) (fun _ => ⟨input, (hput _).2 (Or.inl rfl), rfl⟩)
    (fun id ho => ?_) nofun nofun
  · rw [hids] at hid
    exact ⟨fun he => hb.not_queued rfl (he ▸ hid), hid⟩
  · rcases (hput i).1 hi with rfl | ⟨hi, hne⟩
    · exact Or.inl ⟨rfl, hentry⟩
    · exact Or.inr ⟨hne, hi⟩
  · rw [hids]
    obtain ⟨i, hi, rfl⟩ := ho
    exact Or.inl ((hb.owed _ ⟨i, hn.debts ▸ hi, rfl⟩).resolve_right nofun)

/-- An accepted id that is not queued. -/
theorem reconcileAccepted_closes (s : Lane) (activeClientIds : List String) (clientId : String) :
    Closes clientId (some .accepted) s.arbiter
      (s.reconcileAccepted activeClientIds clientId).arbiter := by
  unfold reconcileAccepted
  dsimp only
  split_ifs
  · exact setAccepted_closes_after _ _ _
  · exact (setJournalState_noted _ _ _).closes_after

theorem dropAccepted_ids (a : Arbiter) (clientIds : List String) (id : String) :
    id ∈ (dropAccepted clientIds a).queuedIds ↔ id ∈ a.queuedIds ∧ id ∉ clientIds := by
  simp only [queuedIds, dropAccepted, List.mem_map, List.mem_filter]
  constructor
  · rintro ⟨entry, ⟨he, hn⟩, rfl⟩
    exact ⟨⟨entry, he, rfl⟩, by simpa using hn⟩
  · rintro ⟨⟨entry, he, rfl⟩, hn⟩
    exact ⟨entry, ⟨he, by simpa using hn⟩, rfl⟩

theorem dropAccepted_debts {a : Arbiter} {clientIds : List String} {i : BridgeInput} :
    i ∈ (dropAccepted clientIds a).rollbackDebts ↔ i ∈ a.rollbackDebts ∧
      ¬ (i.clientUserMessageId ∈ a.queuedIds ∧ i.clientUserMessageId ∈ clientIds) := by
  rw [dropAccepted, Table.mem_delete]
  simp [queuedIds]

theorem dropAccepted_books {a : Arbiter} (hb : Books .empty a) (clientIds : List String) :
    Books .empty (dropAccepted clientIds a) := by
  refine ⟨⟨hb.tidy.pinned, hb.tidy.apart⟩, (List.filter_sublist.map _).nodup hb.nodup,
    fun id hid => hb.queued id ((dropAccepted_ids a clientIds id).1 hid).1,
    hb.uncertain, hb.known, fun id ho => ?_, nofun, nofun⟩
  obtain ⟨i, hi, rfl⟩ := ho
  obtain ⟨hi, hn⟩ := dropAccepted_debts.1 hi
  have hq := (hb.owed _ ⟨i, hi, rfl⟩).resolve_right nofun
  exact Or.inl ((dropAccepted_ids a clientIds _).2 ⟨hq, fun hc => hn ⟨hq, hc⟩⟩)

/-- What the reconciliation of each accepted id keeps, that of all of them keeps. -/
theorem reconcile_invariant {I : List String → Lane → Prop} {activeClientIds : List String}
    (hI : ∀ id ids s, I (id :: ids) s → I ids (s.reconcileAccepted activeClientIds id))
    (clientIds : List String) (s : Lane)
    (hi : I clientIds.eraseDups (s.modify (dropAccepted clientIds))) :
    I [] (s.reconcileAcceptedClientIds clientIds activeClientIds) := by
  unfold reconcileAcceptedClientIds
  generalize s.modify (dropAccepted clientIds) = s₀ at hi
  generalize clientIds.eraseDups = ids at hi
  induction ids generalizing s₀ with
  | nil => exact hi
  | cons id ids ih => exact ih _ (hI id ids s₀ hi)

theorem reconcile_books (hb : Books .empty s.arbiter) (clientIds activeClientIds : List String) :
    Books .empty (s.reconcileAcceptedClientIds clientIds activeClientIds).arbiter := by
  refine (reconcile_invariant (I := fun ids s => Books .empty s.arbiter ∧
    ∀ id ∈ ids, id ∉ s.arbiter.queuedIds) (fun id ids s hi => ?_) clientIds s ?_).1
  · have hc := reconcileAccepted_closes s activeClientIds id
    refine ⟨hi.1.closes hc (hi.2 id List.mem_cons_self) nofun nofun, fun id' hid' => ?_⟩
    rw [queuedIds, hc.queue]
    exact hi.2 id' (List.mem_cons_of_mem _ hid')
  · refine ⟨dropAccepted_books hb clientIds, fun id hid hq => ?_⟩
    exact ((dropAccepted_ids s.arbiter clientIds id).1 hq).2 (List.mem_eraseDups.1 hid)

/-- Every move keeps the books. -/
theorem Move.books (hm : Move fresh evidence h s h' s') (hb : Books h s.arbiter) :
    Books h' s'.arbiter := by
  cases hm with
  | plain hs => exact hs.books hb
  | activeTurn => exact hb.sheds (setActiveTurn_sheds hb.tidy _)
  | mutation => exact hb
  | enqueue reason hj hroom hh => exact enqueue_books reason hb hj hroom hh
  | take hq hc => exact take_books hb hq hc
  | pick hj hq hc =>
    exact hb.hand nofun (fun id hid => Option.some.inj hid ▸ hj) fun _ => hc
  | settle => exact settle_books _ _ hb
  | beforeWrite => exact hb
  | write answer ho =>
    refine hb.hand (fun id hid => Or.inl (Hand.held.inj hid ▸ ho)) (fun id hid => hb.free id ?_) ?_
    · rw [Hand.answered_clientId] at hid
      exact hid
    · exact fun _ => hb.calm rfl
  | rollBack answers hh => exact rollBack_books answers hb hh
  | accept hc => exact hb.closes hc (hb.not_queued rfl) nofun nofun
  | lose => exact lose_books hb
  | restore entry => exact restore_books entry hb
  | drop _ ho =>
    exact hb.hand (fun id hid => Or.inl (Hand.held.inj hid ▸ ho)) nofun nofun
  | cancel hi => exact cancel_books hb hi
  | reconcile => exact reconcile_books hb _ _
  | resolve outcome _ _ hj hn hr hc =>
    refine hb.closes hc (fun hq => ?_) (fun hstate => ?_) nofun
    · rw [hb.queued _ hq] at hj
      cases hj
    · by_cases ho : outcome = .notAccepted
      · exact absurd (hn ho) (by simp [hstate])
      · exact absurd (hr ho) (by simp [hstate, JournalState.terminal])

theorem Moves.books (hm : Moves fresh evidence h s h' s') (hb : Books h s.arbiter) :
    Books h' s'.arbiter :=
  hm.invariant (fun _ _ _ _ hi hmove => hmove.books hi) hb

end Lane
end Codex
end AgentParty
