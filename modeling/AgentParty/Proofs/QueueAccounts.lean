import AgentParty.Proofs.Kept

/-! The accounts of the queue: what the journal calls queued is in the queue, the queue keeps
within its limit, and the terminal order holds what the journal holds of settled inputs. -/

namespace AgentParty
namespace Codex

namespace Arbiter

/-- The entries of the journal that are queued are in the queue, or in `out`. -/
def ListedBut (out : List String) (a : Arbiter) : Prop :=
  ∀ id, a.journal id = some .queued →
    a.activeTurnJournalOverflowed = true ∨ id ∈ a.queuedIds ∨ id ∈ out

/-- What the books leave open. What is in hand has its place in the queue. -/
structure Accounts (h : Hand) (a : Arbiter) : Prop where
  listed : a.ListedBut []
  bounded : a.queue.length ≤ a.options.maxQueue
  room : h.clientId ≠ none → a.queue.length < a.options.maxQueue
  ordered : a.Ordered

variable {h h' : Hand} {a a' : Arbiter} {clientId : String} {state : Option JournalState}

theorem new_accounts (options : ArbiterOptions) : Accounts .empty (Arbiter.new options) where
  listed := nofun
  bounded := Nat.zero_le _
  room := fun h => (h rfl).elim
  ordered := ⟨List.nodup_nil, by simp [Arbiter.new]⟩

/-- Where the queue, the journal and the order stay, the accounts do. -/
theorem Accounts.frame (ha : Accounts h a) (options : a'.options = a.options)
    (queue : a'.queue = a.queue) (journal : a'.journal = a.journal)
    (order : a'.terminalJournalOrder = a.terminalJournalOrder)
    (active : a'.activeTurnAcceptedClientIds = a.activeTurnAcceptedClientIds)
    (overflow : a'.activeTurnJournalOverflowed = a.activeTurnJournalOverflowed)
    (hand : h'.clientId ≠ none → h.clientId ≠ none) : Accounts h' a' where
  listed := by
    rw [ListedBut, queuedIds, queue, journal, overflow]
    exact ha.listed
  bounded := by
    rw [queue, options]
    exact ha.bounded
  room := fun hh => by
    rw [queue, options]
    exact ha.room (hand hh)
  ordered := ⟨order ▸ ha.ordered.nodup, by
    rw [order, journal, active]
    exact ha.ordered.listed⟩

/-- One entry of the journal is written, and the queue follows it. -/
theorem Accounts.noted {queue : List QueuedInput} {nextId : ℕ} (hb : Books h a) (ha : Accounts h a)
    (hn : Noted clientId state { a with queue := queue, nextQueueId := nextId } a')
    (here : state = some .queued → clientId ∈ queue.map (·.input.clientUserMessageId))
    (others : ∀ id ∈ a.queuedIds, id ≠ clientId → id ∈ queue.map (·.input.clientUserMessageId))
    (bounded : queue.length ≤ a.options.maxQueue)
    (room : h'.clientId ≠ none → queue.length < a.options.maxQueue) : Accounts h' a' where
  listed := by
    intro id hid
    rw [hn.overflow, queuedIds, hn.queue]
    by_cases he : id = clientId
    · subst he
      rcases hn.entry with hentry | ⟨-, hnone, -⟩
      · exact Or.inr (Or.inl (here (hentry.symm.trans hid)))
      · rw [hnone] at hid
        cases hid
    · rcases hn.others id he with hsame | hleft
      · rcases ha.listed id (hsame.symm.trans hid) with hover | hq | hnil
        · exact Or.inl hover
        · exact Or.inr (Or.inl (others id hq he))
        · cases hnil
      · rw [hleft.2.1] at hid
        cases hid
  bounded := by
    rw [hn.queue, hn.options]
    exact bounded
  room := fun hh => by
    rw [hn.queue, hn.options]
    exact room hh
  ordered := hn.ordered ⟨hb.tidy.pinned, hb.tidy.apart⟩ ⟨ha.ordered.nodup, ha.ordered.listed⟩

/-- An id that closes leaves those that are out. -/
theorem Closes.listed {out : List String} (hc : Closes clientId state a a')
    (hstate : state ≠ some .queued) (ha : a.ListedBut (clientId :: out)) : a'.ListedBut out := by
  intro id hid
  rcases hc.journal with ⟨hover, hentry, hothers⟩ | ⟨hover, -⟩
  · rw [hover, queuedIds, hc.queue]
    by_cases he : id = clientId
    · subst he
      rcases hentry with hentry | ⟨-, hnone, -⟩
      · exact (hstate (hentry.symm.trans hid)).elim
      · rw [hnone] at hid
        cases hid
    · rcases hothers id he with hsame | hleft
      · rcases ha id (hsame.symm.trans hid) with hold | hq | hout
        · exact Or.inl hold
        · exact Or.inr (Or.inl hq)
        · exact Or.inr (Or.inr ((List.mem_cons.1 hout).resolve_left he))
      · rw [hleft.2.1] at hid
        cases hid
  · exact Or.inl hover

theorem Accounts.closes (hb : Books h a) (ha : Accounts h a) (hc : Closes clientId state a a')
    (hstate : state ≠ some .queued) : Accounts .empty a' where
  listed := hc.listed hstate fun id hid => (ha.listed id hid).imp_right (Or.imp_right nofun)
  bounded := by
    rw [hc.queue, hc.options]
    exact ha.bounded
  room := fun hh => (hh rfl).elim
  ordered := hc.ordered hb.tidy ha.ordered

end Arbiter

namespace Lane
open Arbiter

variable {h h' : Hand} {s s' : Lane} {fresh evidence : List String}

theorem activeTurn_accounts (hb : Books h s.arbiter) (ha : Accounts h s.arbiter)
    (turnId : Option String) : Accounts h (s.arbiter.setActiveTurn turnId) := by
  have hs := setActiveTurn_sheds hb.tidy turnId
  refine ⟨fun id hid => ?_, ?_, fun hh => ?_, setActiveTurn_ordered ha.ordered turnId⟩
  · rw [hs.overflow, queuedIds, hs.queue]
    rcases hs.journal id with hsame | hleft
    · exact ha.listed id (hsame.symm.trans hid)
    · rw [hleft.2.1] at hid
      cases hid
  · rw [hs.queue, hs.options]
    exact ha.bounded
  · rw [hs.queue, hs.options]
    exact ha.room hh

theorem take_accounts {entry : QueuedInput} {rest : List QueuedInput} (hb : Books .empty s.arbiter)
    (ha : Accounts .empty s.arbiter) (hq : s.arbiter.queue = entry :: rest) :
    Accounts (.held entry.input.clientUserMessageId) (s.takeQueued entry rest).arbiter := by
  have hn := deleteJournalState_noted { s.arbiter with queue := rest } entry.input.clientUserMessageId
  have hbounded := ha.bounded
  rw [hq, List.length_cons] at hbounded
  refine ha.noted hb hn nofun (fun id hid hne => ?_) (by omega) fun _ => by omega
  rw [queuedIds, hq, List.map_cons, List.mem_cons] at hid
  exact hid.resolve_left hne

theorem restore_accounts (entry : QueuedInput)
    (hb : Books (.held entry.input.clientUserMessageId) s.arbiter)
    (ha : Accounts (.held entry.input.clientUserMessageId) s.arbiter) :
    Accounts .empty ({ s.arbiter with queue := entry :: s.arbiter.queue }.setJournalState
      entry.input.clientUserMessageId .queued) := by
  have hn := setJournalState_noted { s.arbiter with queue := entry :: s.arbiter.queue }
    entry.input.clientUserMessageId .queued
  refine ha.noted hb hn (fun _ => List.mem_cons_self) (fun id hid _ => List.mem_cons_of_mem _ hid)
    (ha.room nofun) fun hh => (hh rfl).elim

theorem enqueue_accounts {input : BridgeInput} (reason : DispatchReason) (hb : Books h s.arbiter)
    (ha : Accounts h s.arbiter) (hj : s.arbiter.journal input.clientUserMessageId = none)
    (hroom : s.arbiter.queue.length < s.arbiter.options.maxQueue) :
    Accounts .empty (s.enqueue input reason).1.arbiter := by
  refine ha.noted hb (enqueue_noted reason hj hroom) (fun _ => ?_) (fun id hid _ => ?_) ?_
    fun hh => (hh rfl).elim
  · simp
  · rw [List.map_append]
    exact List.mem_append_left _ hid
  · rw [List.length_append]
    exact hroom

theorem cancel_accounts {clientId : String} {index : ℕ} (hb : Books .empty s.arbiter)
    (ha : Accounts .empty s.arbiter)
    (hi : (s.arbiter.queue.findIdx? fun entry => entry.input.clientUserMessageId = clientId) =
      some index) : Accounts .empty (s.dropQueued clientId index).arbiter := by
  obtain ⟨hlt, hid, -⟩ := List.findIdx?_eq_some_iff_getElem.1 hi
  have hn := deleteJournalState_noted { s.arbiter with queue := s.arbiter.queue.eraseIdx index }
    clientId
  have hdropped : Accounts .empty ({ s.arbiter with
      queue := s.arbiter.queue.eraseIdx index }.deleteJournalState clientId) := by
    refine ha.noted hb hn nofun (fun id hq hne => ?_)
      ((List.eraseIdx_sublist _ _).length_le.trans ha.bounded) fun hh => (hh rfl).elim
    obtain ⟨entry, hentry, rfl⟩ := List.mem_map.1 hq
    refine List.mem_map_of_mem ((List.mem_eraseIdx_iff_getElem).2 ?_)
    obtain ⟨i, hi', rfl⟩ := List.getElem_of_mem hentry
    refine ⟨i, hi', fun he => hne ?_, rfl⟩
    subst he
    simpa using hid
  exact hdropped.frame rfl rfl rfl rfl rfl rfl id

theorem lose_accounts {input : BridgeInput}
    (hb : Books (.unknown input.clientUserMessageId) s.arbiter)
    (ha : Accounts (.unknown input.clientUserMessageId) s.arbiter) :
    Accounts .empty (s.uncertain input).1.arbiter := by
  have hn := setJournalState_noted s.arbiter input.clientUserMessageId .uncertain
  have hnoted : Accounts .empty (s.arbiter.setJournalState input.clientUserMessageId .uncertain) :=
    ha.noted hb hn nofun (fun id hid _ => hid) ha.bounded fun hh => (hh rfl).elim
  exact hnoted.frame rfl rfl rfl rfl rfl rfl id

/-- The ids of a reconciliation leave the queue at once and the journal one by one. -/
theorem reconcile_accounts (hb : Books .empty s.arbiter) (ha : Accounts .empty s.arbiter)
    (clientIds activeClientIds : List String) :
    Accounts .empty (s.reconcileAcceptedClientIds clientIds activeClientIds).arbiter := by
  have hdone : (s.reconcileAcceptedClientIds clientIds activeClientIds).arbiter.Tidy ∧
      (s.reconcileAcceptedClientIds clientIds activeClientIds).arbiter.Ordered ∧
      (s.reconcileAcceptedClientIds clientIds activeClientIds).arbiter.ListedBut [] ∧
      (s.reconcileAcceptedClientIds clientIds activeClientIds).arbiter.queue.length ≤
        (s.reconcileAcceptedClientIds clientIds activeClientIds).arbiter.options.maxQueue := by
    refine reconcile_invariant (I := fun ids s => s.arbiter.Tidy ∧ s.arbiter.Ordered ∧
      s.arbiter.ListedBut ids ∧ s.arbiter.queue.length ≤ s.arbiter.options.maxQueue)
      (fun id ids s hi => ?_) clientIds s ⟨(dropAccepted_books hb clientIds).tidy,
        ⟨ha.ordered.nodup, ha.ordered.listed⟩, fun id hid => ?_, ?_⟩
    · obtain ⟨htidy, hordered, hlisted, hbounded⟩ := hi
      have hc := reconcileAccepted_closes s activeClientIds id
      refine ⟨hc.tidy htidy, hc.ordered htidy hordered, hc.listed nofun hlisted, ?_⟩
      rw [hc.queue, hc.options]
      exact hbounded
    · rcases ha.listed id hid with hover | hq | hnil
      · exact Or.inl hover
      · by_cases hin : id ∈ clientIds
        · exact Or.inr (Or.inr (List.mem_eraseDups.2 hin))
        · exact Or.inr (Or.inl ((dropAccepted_ids s.arbiter clientIds id).2 ⟨hq, hin⟩))
      · cases hnil
    · exact (List.length_filter_le _ _).trans ha.bounded
  exact ⟨hdone.2.2.1, hdone.2.2.2, fun hh => (hh rfl).elim, hdone.2.1⟩

/-- Every move keeps the accounts. -/
theorem Move.accounts (hm : Move fresh evidence h s h' s') (hb : Books h s.arbiter)
    (ha : Accounts h s.arbiter) : Accounts h' s'.arbiter := by
  cases hm with
  | plain hs =>
    exact ha.frame hs.options hs.queue hs.journal hs.order hs.active hs.overflow id
  | activeTurn => exact activeTurn_accounts hb ha _
  | mutation => exact ha
  | enqueue reason hj hroom => exact enqueue_accounts reason hb ha hj hroom
  | take hq => exact take_accounts hb ha hq
  | pick hj hq hc =>
    refine ⟨ha.listed, ha.bounded, fun _ => ?_, ha.ordered⟩
    rw [hq]
    exact s.arbiter.options.maxQueue_pos
  | settle _ _ clientId answers =>
    unfold settleRollbackDebt
    split
    · exact ha
    · dsimp only
      split_ifs
      · exact ha.frame rfl rfl rfl rfl rfl rfl id
      · exact ha
  | beforeWrite => exact ha
  | write => exact ha.frame rfl rfl rfl rfl rfl rfl fun _ => nofun
  | rollBack answers hh =>
    have hhand : h.clientId ≠ none := by
      rcases hh with rfl | rfl <;> exact nofun
    unfold Lane.rollBack
    dsimp only
    split_ifs
    · exact ha.frame rfl rfl rfl rfl rfl rfl fun _ => hhand
    · exact ha.frame rfl rfl rfl rfl rfl rfl fun _ => hhand
  | accept hc => exact ha.closes hb hc nofun
  | lose => exact lose_accounts hb ha
  | restore entry => exact restore_accounts entry hb ha
  | drop => exact ha.frame rfl rfl rfl rfl rfl rfl fun hh => (hh rfl).elim
  | cancel hi => exact cancel_accounts hb ha hi
  | reconcile => exact reconcile_accounts hb ha _ _
  | resolve outcome _ _ hj hn hr hc =>
    refine ha.closes hb hc fun hstate => ?_
    by_cases ho : outcome = .notAccepted
    · exact absurd (hn ho) (by simp [hstate])
    · exact absurd (hr ho) (by simp [hstate, JournalState.terminal])

theorem Moves.accounts (hm : Moves fresh evidence h s h' s') (hb : Books h s.arbiter)
    (ha : Accounts h s.arbiter) : Accounts h' s'.arbiter :=
  (hm.invariant (I := fun h s => Books h s.arbiter ∧ Accounts h s.arbiter)
    (fun _ _ _ _ hi hmove => ⟨hmove.books hi.1, hmove.accounts hi.1 hi.2⟩) ⟨hb, ha⟩).2

end Lane

namespace Session
open Lane Arbiter

theorem accounts_of_reachable {options : ArbiterOptions} {s : Session} (h : Reachable options s) :
    Accounts .empty s.lane.arbiter := by
  obtain ⟨ops, hrun⟩ := h
  refine (hrun.invariant (I := fun s => Kept .empty s.lane ∧ Accounts .empty s.lane.arbiter)
    (fun s op s' hi hs => ?_) ⟨new_kept options, new_accounts options⟩).2
  obtain ⟨-, rfl⟩ := hs
  have hm := apply_moves hi.1.books.tidy op
  exact ⟨hm.kept hi.1, hm.accounts hi.1.books hi.2⟩

end Session

end Codex
end AgentParty
