import AgentParty.Proofs.QueueAccounts
import AgentParty.Proofs.AtMostOnce

/-! What becomes of a queued input: it stays in the journal until it is cancelled, or until its
fate is settled and its entry has left the bounded journal. -/

namespace AgentParty
namespace Codex

/-- The input of `id` was accepted or abandoned in a step of the trace. -/
def Settled (id : String) (trace : List (Arbiter × Effect)) : Prop := ∃ p ∈ trace, p.2.settles id

def Cancelled (id : String) (trace : List (Arbiter × Effect)) : Prop :=
  ∃ p ∈ trace, p.2 = .cancelled id

open Arbiter

variable {h h' : Hand} {s s' : Lane} {a a' : Arbiter} {fresh evidence : List String} {id : String}
  {l m : List (Arbiter × Effect)}

namespace Arbiter

theorem Closes.overflowed {clientId : String} {state : Option JournalState}
    (hc : Closes clientId state a a') (ho : a.activeTurnJournalOverflowed = true) :
    a'.activeTurnJournalOverflowed = true := by
  rcases hc.journal with ⟨hsame, -⟩ | ⟨hnow, -⟩
  · exact hsame.trans ho
  · exact hnow

/-- The input of `id` was not accepted, and there was no room to queue it again. -/
def MetFullQueue (id : String) (trace : List (Arbiter × Effect)) : Prop :=
  ∃ p ∈ trace, p.2 = .resolved id .notAccepted ∧ p.1.options.maxQueue ≤ p.1.queue.length

/-- Where an input is that was queued before the trace `l`. -/
def Stands (id : String) (l : List (Arbiter × Effect)) (h : Hand) (a : Arbiter) : Prop :=
  a.journal id = some .queued ∨ a.journal id = some .uncertain ∨
    (h.clientId = some id ∧ (h = .accepted id → Settled id l)) ∨ Cancelled id l ∨
    (Settled id l ∧ ((a.journal id).any (·.terminal) = true ∨ id ∈ a.evicted ∨
      a.activeTurnJournalOverflowed = true))

/-- A step that does nothing to the entry of the id but evict it. -/
theorem Stands.frame (hst : Stands id l h a) (hj : a'.journal id = a.journal id ∨ Left a a' id)
    (he : ∀ id ∈ a.evicted, id ∈ a'.evicted)
    (ho : a.activeTurnJournalOverflowed = true → a'.activeTurnJournalOverflowed = true)
    (hh : h.clientId = some id → h'.clientId = some id ∧
      (h' = .accepted id → h = .accepted id ∨ Settled id m)) : Stands id (l ++ m) h' a' := by
  have hl : Settled id l → Settled id (l ++ m) := fun ⟨p, hp, hs⟩ =>
    ⟨p, List.mem_append_left _ hp, hs⟩
  rcases hst with hq | hu | ⟨hhand, haccepted⟩ | ⟨p, hp, hc⟩ | ⟨hs, hwhere⟩
  · rcases hj with hsame | hleft
    · exact Or.inl (hsame.trans hq)
    · exact absurd hleft.1 (by simp [hq, JournalState.terminal])
  · rcases hj with hsame | hleft
    · exact Or.inr (Or.inl (hsame.trans hu))
    · exact absurd hleft.1 (by simp [hu, JournalState.terminal])
  · obtain ⟨hhand', hwhen⟩ := hh hhand
    refine Or.inr (Or.inr (Or.inl ⟨hhand', fun hacc => ?_⟩))
    rcases hwhen hacc with hold | ⟨p, hp, hs⟩
    · exact hl (haccepted hold)
    · exact ⟨p, List.mem_append_right _ hp, hs⟩
  · exact Or.inr (Or.inr (Or.inr (Or.inl ⟨p, List.mem_append_left _ hp, hc⟩)))
  · refine Or.inr (Or.inr (Or.inr (Or.inr ⟨hl hs, ?_⟩)))
    rcases hwhere with hterminal | hevicted | hover
    · rcases hj with hsame | hleft
      · exact Or.inl (hsame ▸ hterminal)
      · exact Or.inr (Or.inl hleft.2.2)
    · exact Or.inr (Or.inl (he id hevicted))
    · exact Or.inr (Or.inr (ho hover))

theorem Closes.stands {clientId : String} {state : Option JournalState}
    (hc : Closes clientId state a a') (hstate : state.any (·.terminal) = true) (hid : id = clientId)
    (hs : Settled id l) : Stands id l h a' := by
  subst hid
  refine Or.inr (Or.inr (Or.inr (Or.inr ⟨hs, ?_⟩)))
  rcases hc.journal with ⟨-, hentry, -⟩ | ⟨hnow, -⟩
  · rcases hentry with hentry | ⟨-, -, hevicted⟩
    · exact Or.inl (hentry ▸ hstate)
    · exact Or.inr (Or.inl hevicted)
  · exact Or.inr (Or.inr hnow)

theorem Stands.closed {clientId : String} {state : Option JournalState} (hst : Stands id l h a)
    (hc : Closes clientId state a a') (hstate : id = clientId → state.any (·.terminal) = true)
    (hs : id = clientId → Settled id (l ++ m)) (hh : h.clientId = some id → id = clientId) :
    Stands id (l ++ m) h' a' := by
  by_cases hid : id = clientId
  · exact hc.stands (hstate hid) hid (hs hid)
  · refine hst.frame ?_ hc.evicted hc.overflowed fun h => (hid (hh h)).elim
    rcases hc.journal with ⟨-, -, hothers⟩ | ⟨-, hsame⟩
    · exact hothers id hid
    · exact Or.inl (hsame id)

/-- A step that leaves the journal alone. -/
theorem Stands.quiet (hst : Stands id l h a) (hj : a'.journal = a.journal)
    (he : a'.evicted = a.evicted)
    (ho : a'.activeTurnJournalOverflowed = a.activeTurnJournalOverflowed)
    (hh : h.clientId = some id → h'.clientId = some id ∧
      (h' = .accepted id → h = .accepted id ∨ Settled id m)) : Stands id (l ++ m) h' a' :=
  hst.frame (Or.inl (congrFun hj id)) (fun _ h => he ▸ h) ho.trans hh

end Arbiter

namespace Lane

theorem reconcile_stands {l : List (Arbiter × Effect)} (hst : Stands id l .empty s.arbiter)
    (clientIds activeClientIds : List String) :
    ∃ m, (s.reconcileAcceptedClientIds clientIds activeClientIds).trace = s.trace ++ m ∧
      Stands id (l ++ m) .empty (s.reconcileAcceptedClientIds clientIds activeClientIds).arbiter := by
  refine reconcile_invariant (I := fun _ t => ∃ m, t.trace = s.trace ++ m ∧
    Stands id (l ++ m) .empty t.arbiter) (fun clientId ids t hi => ?_) clientIds s
    ⟨[], (List.append_nil _).symm, hst.quiet rfl rfl rfl fun h => nomatch h⟩
  obtain ⟨m, htrace, hst⟩ := hi
  refine ⟨m ++ [(t.arbiter, .observed clientId)], ?_, ?_⟩
  · rw [reconcileAccepted_trace, htrace, List.append_assoc]
  · rw [← List.append_assoc]
    refine hst.closed (reconcileAccepted_closes t activeClientIds clientId) (fun _ => rfl)
      (fun hid => ⟨_, List.mem_append_right _ (List.mem_singleton_self _), hid.symm⟩)
      fun h => nomatch h

/-- Every move keeps an input that the operation does not take in. -/
theorem Move.stands (hm : Move fresh evidence h s h' s') (hb : Books h s.arbiter)
    (hid : id ∉ fresh) (hst : Stands id l h s.arbiter) :
    ∃ m, s'.trace = s.trace ++ m ∧ Stands id (l ++ m) h' s'.arbiter := by
  have still : s.trace = s.trace ++ [] := (List.append_nil _).symm
  cases hm with
  | plain hs =>
    exact ⟨[], hs.trace.trans still, hst.quiet hs.journal hs.evicted hs.overflow fun hh =>
      ⟨hh, Or.inl⟩⟩
  | activeTurn _ _ turnId =>
    have hs := setActiveTurn_sheds hb.tidy turnId
    exact ⟨[], still, hst.frame (hs.journal id) hs.evicted hs.overflow.trans fun hh =>
      ⟨hh, Or.inl⟩⟩
  | mutation method answer => exact ⟨_, rfl, hst.quiet rfl rfl rfl fun h => nomatch h⟩
  | @enqueue h s input reason hj hroom hh =>
    have hn := enqueue_noted reason hj hroom
    refine ⟨[], still, ?_⟩
    by_cases he : id = input.clientUserMessageId
    · exact Or.inl (he ▸ hn.entry.resolve_right fun h => by cases h.1)
    · refine hst.frame (hn.others id he) hn.evicted hn.overflow.trans fun hhand => ?_
      rcases hh with rfl | rfl
      · cases hhand
      · exact (he (Option.some.inj hhand).symm).elim
  | @take s entry rest hq hc =>
    have hn := deleteJournalState_noted { s.arbiter with queue := rest }
      entry.input.clientUserMessageId
    refine ⟨[], still, ?_⟩
    by_cases he : id = entry.input.clientUserMessageId
    · exact Or.inr (Or.inr (Or.inl ⟨congrArg some he.symm, nofun⟩))
    · exact hst.frame (hn.others id he) hn.evicted hn.overflow.trans fun h => nomatch h
  | pick hj hq hc => exact ⟨[], still, hst.quiet rfl rfl rfl fun h => nomatch h⟩
  | settle _ _ clientId answers =>
    unfold settleRollbackDebt
    split
    · exact ⟨[], still, hst.quiet rfl rfl rfl fun hh => ⟨hh, Or.inl⟩⟩
    · dsimp only
      split_ifs
      · exact ⟨_, rfl, hst.quiet rfl rfl rfl fun hh => ⟨hh, Or.inl⟩⟩
      · exact ⟨_, rfl, hst.quiet rfl rfl rfl fun hh => ⟨hh, Or.inl⟩⟩
  | beforeWrite thrown ho => exact ⟨_, rfl, hst.quiet rfl rfl rfl fun hh => ⟨hh, Or.inl⟩⟩
  | write answer ho =>
    refine ⟨_, rfl, hst.quiet rfl rfl rfl fun hh => ⟨?_, fun hacc => Or.inr ?_⟩⟩
    · rw [Hand.answered_clientId]
      exact hh
    · cases answer with
      | ok turnId => exact ⟨_, List.mem_singleton_self _, Option.some.inj hh⟩
      | error error =>
        unfold Hand.answered at hacc
        dsimp only at hacc
        split_ifs at hacc
  | @rollBack h s input answers hh =>
    have hhand (m : List (Arbiter × Effect)) : h.clientId = some id →
        (Hand.held input.clientUserMessageId).clientId = some id ∧
          (Hand.held input.clientUserMessageId = .accepted id → h = .accepted id ∨ Settled id m) := by
      rcases hh with rfl | rfl <;> exact fun hh => ⟨hh, nofun⟩
    unfold Lane.rollBack
    dsimp only
    split_ifs
    · exact ⟨_, rfl, hst.quiet rfl rfl rfl (hhand _)⟩
    · exact ⟨_, rfl, hst.quiet rfl rfl rfl (hhand _)⟩
  | @accept s clientId a hc =>
    refine ⟨[], still, ?_⟩
    rw [List.append_nil]
    by_cases he : id = clientId
    · have hfree := hb.free id (congrArg some he.symm)
      obtain hq | hu | ⟨-, hs⟩ | hcancelled | ⟨hs, -⟩ := hst
      · cases hfree.symm.trans hq
      · cases hfree.symm.trans hu
      · exact hc.stands rfl he (hs (congrArg _ he.symm))
      · exact Or.inr (Or.inr (Or.inr (Or.inl hcancelled)))
      · exact hc.stands rfl he hs
    · exact List.append_nil l ▸ hst.closed (m := []) hc (fun h => (he h).elim)
        (fun h => (he h).elim) fun hh => (Option.some.inj hh).symm
  | @lose s input =>
    have hn := setJournalState_noted s.arbiter input.clientUserMessageId .uncertain
    refine ⟨[], still, ?_⟩
    by_cases he : id = input.clientUserMessageId
    · exact Or.inr (Or.inl (he ▸ hn.entry.resolve_right fun h => by cases h.1))
    · exact hst.frame (hn.others id he) hn.evicted hn.overflow.trans fun h =>
        (he (Option.some.inj h).symm).elim
  | @restore s entry =>
    have hn := setJournalState_noted { s.arbiter with queue := entry :: s.arbiter.queue }
      entry.input.clientUserMessageId .queued
    refine ⟨[], still, ?_⟩
    by_cases he : id = entry.input.clientUserMessageId
    · exact Or.inl (he ▸ hn.entry.resolve_right fun h => by cases h.1)
    · exact hst.frame (hn.others id he) hn.evicted hn.overflow.trans fun h =>
        (he (Option.some.inj h).symm).elim
  | drop hf ho =>
    refine ⟨[], still, hst.quiet rfl rfl rfl fun hh => ?_⟩
    exact (hid (Option.some.inj hh ▸ hf)).elim
  | @cancel s clientId index hi =>
    have hn := deleteJournalState_noted { s.arbiter with queue := s.arbiter.queue.eraseIdx index }
      clientId
    refine ⟨[(s.arbiter, .cancelled clientId)], rfl, ?_⟩
    by_cases he : id = clientId
    · exact Or.inr (Or.inr (Or.inr (Or.inl
        ⟨_, List.mem_append_right _ (List.mem_singleton_self _), congrArg _ he.symm⟩)))
    · exact hst.frame (hn.others id he) hn.evicted hn.overflow.trans fun h => nomatch h
  | reconcile => exact reconcile_stands hst _ _
  | @resolve s clientId state a outcome _ hf hj hn hr hc =>
    refine ⟨[(s.arbiter, .resolved clientId outcome)], rfl, ?_⟩
    have hsettling : id = clientId → outcome ≠ .notAccepted := fun he ho => hid (he ▸ hf ho)
    refine hst.closed hc (fun he => hr (hsettling he)) (fun he => ?_) fun h => nomatch h
    exact ⟨_, List.mem_append_right _ (List.mem_singleton_self _), he.symm, hsettling he⟩

theorem Moves.stands (hm : Moves fresh evidence h s h' s') (hb : Books h s.arbiter)
    (hid : id ∉ fresh) (hst : Stands id l h s.arbiter) :
    ∃ m, s'.trace = s.trace ++ m ∧ Stands id (l ++ m) h' s'.arbiter := by
  refine (hm.invariant (I := fun h t => Books h t.arbiter ∧
    ∃ m, t.trace = s.trace ++ m ∧ Stands id (l ++ m) h t.arbiter) (fun h₁ s₁ h₂ s₂ hi hmove => ?_)
    ⟨hb, [], (List.append_nil _).symm, (List.append_nil l).symm ▸ hst⟩).2
  obtain ⟨hb₁, m, htrace, hst₁⟩ := hi
  obtain ⟨m', htrace', hst₂⟩ := hmove.stands hb₁ hid hst₁
  refine ⟨hmove.books hb₁, m ++ m', ?_, ?_⟩
  · rw [htrace', htrace, List.append_assoc]
  · rw [← List.append_assoc]
    exact hst₂

/-- The trace and the marks grow. -/
structure Grows (s s' : Lane) : Prop where
  trace : ∃ m, s'.trace = s.trace ++ m
  evicted : ∀ id ∈ s.arbiter.evicted, id ∈ s'.arbiter.evicted
  overflow : s.arbiter.activeTurnJournalOverflowed = true →
    s'.arbiter.activeTurnJournalOverflowed = true

theorem Grows.refl (s : Lane) : Grows s s := ⟨⟨[], (List.append_nil _).symm⟩, fun _ h => h, id⟩

theorem Grows.trans {s'' : Lane} (h : Grows s s') (h' : Grows s' s'') : Grows s s'' := by
  obtain ⟨m, hm⟩ := h.trace
  obtain ⟨m', hm'⟩ := h'.trace
  exact ⟨⟨m ++ m', by rw [hm', hm, List.append_assoc]⟩, fun id hid => h'.evicted id (h.evicted id hid),
    fun ho => h'.overflow (h.overflow ho)⟩

theorem Move.grows (hm : Move fresh evidence h s h' s') (hb : Books h s.arbiter) : Grows s s' := by
  have still : s.trace = s.trace ++ [] := (List.append_nil _).symm
  cases hm with
  | plain hs => exact ⟨⟨[], hs.trace.trans still⟩, fun _ h => hs.evicted ▸ h, hs.overflow.trans⟩
  | activeTurn _ _ turnId =>
    have hs := setActiveTurn_sheds hb.tidy turnId
    exact ⟨⟨[], still⟩, hs.evicted, hs.overflow.trans⟩
  | enqueue reason hj hroom =>
    have hn := enqueue_noted reason hj hroom
    exact ⟨⟨[], still⟩, hn.evicted, hn.overflow.trans⟩
  | take => exact ⟨⟨[], still⟩, fun _ h => h, id⟩
  | pick | drop => exact Grows.refl s
  | settle =>
    unfold settleRollbackDebt
    split
    · exact Grows.refl s
    · dsimp only
      split_ifs <;> exact ⟨⟨_, rfl⟩, fun _ h => h, id⟩
  | rollBack =>
    unfold Lane.rollBack
    dsimp only
    split_ifs <;> exact ⟨⟨_, rfl⟩, fun _ h => h, id⟩
  | mutation | beforeWrite | write | cancel => exact ⟨⟨_, rfl⟩, fun _ h => h, id⟩
  | accept hc => exact ⟨⟨[], still⟩, hc.evicted, hc.overflowed⟩
  | lose input =>
    have hn := setJournalState_noted s.arbiter input.clientUserMessageId .uncertain
    exact ⟨⟨[], still⟩, hn.evicted, hn.overflow.trans⟩
  | restore entry =>
    have hn := setJournalState_noted { s.arbiter with queue := entry :: s.arbiter.queue }
      entry.input.clientUserMessageId .queued
    exact ⟨⟨[], still⟩, hn.evicted, hn.overflow.trans⟩
  | reconcile _ activeClientIds =>
    refine reconcile_invariant (I := fun _ t => Grows s t) (fun clientId ids t hi => hi.trans ?_) _ s
      ⟨⟨[], still⟩, fun _ h => h, id⟩
    have hc := reconcileAccepted_closes t activeClientIds clientId
    exact ⟨⟨_, reconcileAccepted_trace t activeClientIds clientId⟩, hc.evicted, hc.overflowed⟩
  | resolve outcome _ _ _ _ _ hc => exact ⟨⟨_, rfl⟩, hc.evicted, hc.overflowed⟩

theorem Moves.grows (hm : Moves fresh evidence h s h' s') (hb : Books h s.arbiter) : Grows s s' :=
  (hm.invariant (I := fun h t => Books h t.arbiter ∧ Grows s t)
    (fun _ _ _ _ hi hmove => ⟨hmove.books hi.1, hi.2.trans (hmove.grows hi.1)⟩)
    ⟨hb, Grows.refl s⟩).2

/-- An input that has left the journal has left it for good. -/
theorem Grows.stands (hg : Grows s s') (hj : s.arbiter.journal id = none)
    (hst : Stands id l .empty s.arbiter) :
    ∃ m, s'.trace = s.trace ++ m ∧ Stands id (l ++ m) .empty s'.arbiter := by
  obtain ⟨m, hm⟩ := hg.trace
  refine ⟨m, hm, ?_⟩
  rcases hst with hq | hu | ⟨hhand, -⟩ | ⟨p, hp, hc⟩ | ⟨⟨p, hp, hs⟩, hwhere⟩
  · cases hj.symm.trans hq
  · cases hj.symm.trans hu
  · cases hhand
  · exact Or.inr (Or.inr (Or.inr (Or.inl ⟨p, List.mem_append_left _ hp, hc⟩)))
  · refine Or.inr (Or.inr (Or.inr (Or.inr ⟨⟨p, List.mem_append_left _ hp, hs⟩, Or.inr ?_⟩)))
    rcases hwhere with hterminal | hevicted | hover
    · rw [hj] at hterminal
      cases hterminal
    · exact Or.inl (hg.evicted id hevicted)
    · exact Or.inr (hg.overflow hover)

section Released

variable {input normalized : BridgeInput}

/-- An uncertain input is on its way back to the queue. -/
def release (s : Lane) (clientId : String) : Lane :=
  ((s.emit (.resolved clientId .notAccepted)).deleteUncertain clientId).modify
    (·.deleteJournalState clientId)

theorem release_journal (s : Lane) (clientId : String) :
    (s.release clientId).arbiter.journal clientId = none :=
  Function.update_self ..

theorem resolve_full (hn : input.compactInput = some normalized)
    (hj : s.arbiter.journal normalized.clientUserMessageId = some .uncertain)
    (hfull : s.arbiter.options.maxQueue ≤ s.arbiter.queue.length) (answers : Answers) :
    s.resolveUnknownOutcome input .notAccepted answers =
      (s.release normalized.clientUserMessageId,
        .error (.queueFull s.arbiter.options.maxQueue)) := by
  have henqueue : (s.release normalized.clientUserMessageId).enqueue normalized .steerRejected = _ :=
    enqueue_full (release_journal s normalized.clientUserMessageId) hfull
  simp only [resolveUnknownOutcome, hn, hj]
  unfold release at henqueue ⊢
  rw [henqueue]
  rfl

theorem resolve_room (hn : input.compactInput = some normalized)
    (hj : s.arbiter.journal normalized.clientUserMessageId = some .uncertain)
    (hroom : s.arbiter.queue.length < s.arbiter.options.maxQueue) (answers : Answers) :
    ∃ d, s.resolveUnknownOutcome input .notAccepted answers =
      (((s.release normalized.clientUserMessageId).enqueue normalized .steerRejected).1).flushed d
        answers := by
  obtain ⟨d, hd, -⟩ := enqueue_room (s := s.release normalized.clientUserMessageId) .steerRejected
    (release_journal s normalized.clientUserMessageId) hroom
  refine ⟨d, ?_⟩
  simp only [resolveUnknownOutcome, hn, hj]
  unfold release at hd ⊢
  split
  · rename_i heq
    rw [heq] at hd
    cases hd
  · rename_i heq
    rw [heq] at hd ⊢
    cases hd
    rfl

theorem mem_takesIn_submit {answers : Answers} (h : id ∈ s.takesIn (.submit input answers)) :
    s.arbiter.journal id = none := by
  simp only [takesIn, Option.mem_toList, Option.filter_eq_some_iff] at h
  simpa using h.2

theorem mem_takesIn_resolve {outcome : Resolution} {answers : Answers}
    (h : id ∈ s.takesIn (.resolveUnknownOutcome input outcome answers)) :
    outcome = .notAccepted ∧ s.arbiter.journal id = some .uncertain ∧
      ∃ normalized, input.compactInput = some normalized ∧ normalized.clientUserMessageId = id := by
  cases outcome with
  | accepted => cases h
  | abandoned => cases h
  | notAccepted =>
    simp only [takesIn, Option.mem_toList, Option.filter_eq_some_iff, Option.map_eq_some_iff] at h
    exact ⟨rfl, by simpa using h.2, h.1⟩

/-- An uncertain input that is to be queued again is, where there is room. -/
theorem resolve_stands (hb : Books .empty s.arbiter) (hn : input.compactInput = some normalized)
    (hj : s.arbiter.journal normalized.clientUserMessageId = some .uncertain) (answers : Answers) :
    ∃ m, (s.resolveUnknownOutcome input .notAccepted answers).1.trace = s.trace ++ m ∧
      (Stands normalized.clientUserMessageId (l ++ m) .empty
          (s.resolveUnknownOutcome input .notAccepted answers).1.arbiter ∨
        MetFullQueue normalized.clientUserMessageId m) := by
  by_cases hroom : s.arbiter.queue.length < s.arbiter.options.maxQueue
  · obtain ⟨d, heq⟩ := resolve_room hn hj hroom answers
    have hreleased := release_journal s normalized.clientUserMessageId
    have hclosed : Moves [normalized.clientUserMessageId] [normalized.clientUserMessageId] .empty s
        .empty (s.release normalized.clientUserMessageId) :=
      (Move.resolve .notAccepted (by simp) (by simp) hj (fun _ => rfl) (fun h => absurd rfl h)
        (Arbiter.deleteJournalState_noted _ _).closes_after).single
    have hbooks := ((hclosed.trans (enqueue_moves _ normalized .steerRejected)).books hb)
    have hqueued := (enqueue_noted (s := s.release normalized.clientUserMessageId) .steerRejected
      hreleased hroom).entry.resolve_right fun h => by cases h.1
    have hflush : Moves [] [] .empty
        ((s.release normalized.clientUserMessageId).enqueue normalized .steerRejected).1 .empty
        (s.resolveUnknownOutcome input .notAccepted answers).1 := by
      rw [heq]
      exact flushed_moves' (Moves.refl _ _) d answers
    obtain ⟨m, htrace, hst⟩ := hflush.stands hbooks List.not_mem_nil
      (Or.inl hqueued : Stands normalized.clientUserMessageId
        (l ++ [(s.arbiter, .resolved normalized.clientUserMessageId .notAccepted)]) _ _)
    refine ⟨(s.arbiter, .resolved normalized.clientUserMessageId .notAccepted) :: m, ?_, Or.inl ?_⟩
    · rw [htrace, enqueue_trace]
      exact List.append_assoc ..
    · rw [List.append_cons]
      exact hst
  · rw [resolve_full hn hj (not_lt.1 hroom)]
    exact ⟨[(s.arbiter, _)], rfl, Or.inr ⟨_, List.mem_singleton_self _, rfl, not_lt.1 hroom⟩⟩

end Released

theorem apply_resolve (s : Lane) (input : BridgeInput) (outcome : Resolution) (answers : Answers) :
    s.apply (.resolveUnknownOutcome input outcome answers) =
      (s.resolveUnknownOutcome input outcome answers).1 := rfl

/-- Every operation keeps a queued input, but for a resolution that meets a full queue. -/
theorem apply_stands (hb : Books .empty s.arbiter) (op : Op)
    (hst : Stands id l .empty s.arbiter) :
    ∃ m, (s.apply op).trace = s.trace ++ m ∧
      (Stands id (l ++ m) .empty (s.apply op).arbiter ∨ MetFullQueue id m) := by
  have hmoves := apply_moves hb.tidy op
  by_cases hid : id ∈ s.takesIn op
  swap
  · obtain ⟨m, hm, hst'⟩ := hmoves.stands hb hid hst
    exact ⟨m, hm, Or.inl hst'⟩
  cases op with
  | submit input answers =>
    obtain ⟨m, hm, hst'⟩ := (hmoves.grows hb).stands (mem_takesIn_submit hid) hst
    exact ⟨m, hm, Or.inl hst'⟩
  | resolveUnknownOutcome input outcome answers =>
    obtain ⟨rfl, hj, normalized, hn, rfl⟩ := mem_takesIn_resolve hid
    rw [apply_resolve]
    exact resolve_stands hb hn hj answers
  | _ => cases hid

end Lane

namespace Session
open Lane

/-- Along a run a queued input stands, until a resolution meets a full queue. -/
theorem stands_of_run {s t : Session} {ops : List Op} {id : String} (hrun : Run s ops t)
    (hk : Kept .empty s.lane) (hst : Stands id [] .empty s.lane.arbiter) :
    ∃ m, t.lane.trace = s.lane.trace ++ m ∧
      (Stands id m .empty t.lane.arbiter ∨ MetFullQueue id m) := by
  refine (hrun.invariant (I := fun t => Kept .empty t.lane ∧ ∃ m,
    t.lane.trace = s.lane.trace ++ m ∧ (Stands id m .empty t.lane.arbiter ∨ MetFullQueue id m))
    (fun u op u' hi hs => ?_) ⟨hk, [], (List.append_nil _).symm, Or.inl hst⟩).2
  obtain ⟨-, rfl⟩ := hs
  obtain ⟨hku, m, htrace, hm⟩ := hi
  have hmoves := apply_moves hku.books.tidy op
  refine ⟨hmoves.kept hku, ?_⟩
  rcases hm with hst | ⟨p, hp, hfull⟩
  · obtain ⟨m', htrace', hst'⟩ := apply_stands hku.books op hst
    refine ⟨m ++ m', ?_, hst'.imp_right ?_⟩
    · rw [← List.append_assoc, ← htrace]
      exact htrace'
    · rintro ⟨p, hp, hfull⟩
      exact ⟨p, List.mem_append_right _ hp, hfull⟩
  · obtain ⟨m', htrace'⟩ := (hmoves.grows hku.books).trace
    refine ⟨m ++ m', ?_, Or.inr ⟨p, List.mem_append_left _ hp, hfull⟩⟩
    rw [← List.append_assoc, ← htrace]
    exact htrace'

end Session

end Codex
end AgentParty
