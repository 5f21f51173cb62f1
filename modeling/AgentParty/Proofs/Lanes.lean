import AgentParty.Proofs.Moves

/-! The writers and the flushes of the lane as sequences of moves. -/

namespace AgentParty
namespace Codex
namespace Lane

variable {fresh evidence : List String}

section Plain

variable (s : Lane) {h : Hand}

theorem sameBooks_setPhase (phase : Phase) : SameBooks s (s.setPhase phase) :=
  ⟨rfl, rfl, rfl, rfl, rfl, rfl, rfl, rfl, rfl, rfl⟩

theorem sameBooks_scheduleFlushRetry : SameBooks s (s.modify Arbiter.scheduleFlushRetry) := by
  unfold modify Arbiter.scheduleFlushRetry
  split_ifs <;> exact ⟨rfl, rfl, rfl, rfl, rfl, rfl, rfl, rfl, rfl, rfl⟩

theorem sameBooks_resetRetryAttempt : SameBooks s s.resetRetryAttempt :=
  ⟨rfl, rfl, rfl, rfl, rfl, rfl, rfl, rfl, rfl, rfl⟩

theorem sameBooks_beginMutation (method : InteractiveMutation) :
    SameBooks s (s.modify (·.beginMutation method)) := by
  change SameBooks s { s with arbiter := s.arbiter.beginMutation method }
  unfold Arbiter.beginMutation
  split
  · exact ⟨rfl, rfl, rfl, rfl, rfl, rfl, rfl, rfl, rfl, rfl⟩
  · exact ⟨rfl, rfl, rfl, rfl, rfl, rfl, rfl, rfl, rfl, rfl⟩
  · exact ⟨rfl, rfl, rfl, rfl, rfl, rfl, rfl, rfl, rfl, rfl⟩
  · exact ⟨rfl, rfl, rfl, rfl, rfl, rfl, rfl, rfl, rfl, rfl⟩
  · split <;> exact ⟨rfl, rfl, rfl, rfl, rfl, rfl, rfl, rfl, rfl, rfl⟩
  · exact SameBooks.refl s
  · exact SameBooks.refl s

theorem sameBooks_mutationFailed (method : InteractiveMutation) (previous : Phase)
    (shell : Option ShellLifecycle) (error : Thrown) :
    SameBooks s (s.modify (·.mutationFailed method previous shell error)) := by
  unfold modify Arbiter.mutationFailed
  dsimp only
  split_ifs
  · exact ⟨rfl, rfl, rfl, rfl, rfl, rfl, rfl, rfl, rfl, rfl⟩
  · exact ⟨rfl, rfl, rfl, rfl, rfl, rfl, rfl, rfl, rfl, rfl⟩
  · exact ⟨rfl, rfl, rfl, rfl, rfl, rfl, rfl, rfl, rfl, rfl⟩
  · exact ⟨rfl, rfl, rfl, rfl, rfl, rfl, rfl, rfl, rfl, rfl⟩
  · split
    · exact ⟨rfl, rfl, rfl, rfl, rfl, rfl, rfl, rfl, rfl, rfl⟩
    · exact ⟨rfl, rfl, rfl, rfl, rfl, rfl, rfl, rfl, rfl, rfl⟩
  · split
    · exact ⟨rfl, rfl, rfl, rfl, rfl, rfl, rfl, rfl, rfl, rfl⟩
    · exact ⟨rfl, rfl, rfl, rfl, rfl, rfl, rfl, rfl, rfl, rfl⟩

end Plain

/-- The queue and the journal are as they were. -/
structure SameQueue (s s' : Lane) : Prop where
  options : s'.arbiter.options = s.arbiter.options
  queue : s'.arbiter.queue = s.arbiter.queue
  journal : s'.arbiter.journal = s.arbiter.journal

theorem SameQueue.refl (s : Lane) : SameQueue s s := ⟨rfl, rfl, rfl⟩

theorem SameQueue.trans {s s' s'' : Lane} (h : SameQueue s s') (h' : SameQueue s' s'') :
    SameQueue s s'' :=
  ⟨h'.options.trans h.options, h'.queue.trans h.queue, h'.journal.trans h.journal⟩

theorem settle_sameQueue (s : Lane) (clientId : String) (answers : WriteAnswers) :
    SameQueue s (s.settleRollbackDebt clientId answers).1 := by
  unfold settleRollbackDebt
  split
  · exact SameQueue.refl s
  · dsimp only
    split_ifs <;> exact ⟨rfl, rfl, rfl⟩

theorem settle_owes (s : Lane) (clientId : String) (answers : WriteAnswers)
    (h : (s.settleRollbackDebt clientId answers).2 = true) :
    ¬ (s.settleRollbackDebt clientId answers).1.arbiter.owes clientId := by
  cases hd : s.arbiter.rollbackDebts.get? clientId with
  | none =>
    simp only [settleRollbackDebt, hd]
    exact Arbiter.get?_debt.1 hd
  | some owed =>
    simp only [settleRollbackDebt, hd] at h ⊢
    split_ifs at h ⊢
    rintro ⟨i, hi, hk⟩
    simpa [hk] using (Table.mem_delete.1 hi).2

theorem rollBack_sameQueue (s : Lane) (input : BridgeInput) (answers : WriteAnswers) :
    SameQueue s (s.rollBack input answers) := by
  unfold rollBack
  dsimp only
  split_ifs <;> exact ⟨rfl, rfl, rfl⟩

theorem prepare_moves (s : Lane) (input : BridgeInput) (answers : WriteAnswers) :
    Moves fresh evidence (.held input.clientUserMessageId) s (.held input.clientUserMessageId)
        (s.prepare input answers).1 ∧
      SameQueue s (s.prepare input answers).1 ∧
      ((s.prepare input answers).1.arbiter.owes input.clientUserMessageId →
        (s.prepare input answers).2 = some (false, .retryable)) := by
  have hm : Moves fresh evidence (.held input.clientUserMessageId) s (.held input.clientUserMessageId)
      (s.settleRollbackDebt input.clientUserMessageId answers).1 := (Move.settle _ _ _ _).single
  have hq := settle_sameQueue s input.clientUserMessageId answers
  have ho := settle_owes s input.clientUserMessageId answers
  unfold prepare
  generalize s.settleRollbackDebt input.clientUserMessageId answers = r at hm hq ho
  obtain ⟨s', settled⟩ := r
  cases settled with
  | false => exact ⟨hm, hq, fun _ => rfl⟩
  | true =>
    have hmove := fun thrown => hm.tail (Move.beforeWrite thrown (ho rfl))
    dsimp only [Bool.not_true]
    rw [if_neg (by simp)]
    cases answers.beforeWrite with
    | some error => exact ⟨hmove (some error), ⟨hq.1, hq.2, hq.3⟩, fun h => absurd h (ho rfl)⟩
    | none => exact ⟨hmove none, ⟨hq.1, hq.2, hq.3⟩, fun h => absurd h (ho rfl)⟩

/-- An input in hand was settled or queued, or is still in hand and owes nothing. A
full queue is the exception. -/
structure Outcome (fresh evidence : List String) (clientId : String) (s : Lane)
    (r : Lane × Except Thrown Dispatch) : Prop where
  ok : ∀ d, r.2 = .ok d → Moves fresh evidence (.held clientId) s .empty r.1
  error : ∀ e, r.2 = .error e → Moves fresh evidence (.held clientId) s (.held clientId) r.1 ∧
    (r.1.arbiter.owes clientId → s.arbiter.options.maxQueue ≤ s.arbiter.queue.length)

theorem Outcome.of_moves {clientId : String} {s s' : Lane} {r : Lane × Except Thrown Dispatch}
    (hm : Moves fresh evidence (.held clientId) s (.held clientId) s') (hq : SameQueue s s')
    (h : Outcome fresh evidence clientId s' r) : Outcome fresh evidence clientId s r where
  ok := fun d hd => hm.trans (h.ok d hd)
  error := fun e he => ⟨hm.trans (h.error e he).1, by
    rw [← hq.options, ← hq.queue]
    exact (h.error e he).2⟩

theorem enqueue_full {s : Lane} {input : BridgeInput} {reason : DispatchReason}
    (hj : s.arbiter.journal input.clientUserMessageId = none)
    (hfull : s.arbiter.options.maxQueue ≤ s.arbiter.queue.length) :
    s.enqueue input reason = (s, .error (.queueFull s.arbiter.options.maxQueue)) := by
  simp [enqueue, Arbiter.enqueue, hj, hfull]

theorem enqueue_room {s : Lane} {input : BridgeInput} (reason : DispatchReason)
    (hj : s.arbiter.journal input.clientUserMessageId = none)
    (hroom : s.arbiter.queue.length < s.arbiter.options.maxQueue) :
    ∃ d : Dispatch, (s.enqueue input reason).2 = .ok d ∧ d.kind = .queued := by
  simp [enqueue, Arbiter.enqueue, hj, Nat.not_le.2 hroom]

/-- Queueing the input in hand. -/
theorem enqueue_outcome {s : Lane} (input : BridgeInput) (reason : DispatchReason)
    (hj : s.arbiter.journal input.clientUserMessageId = none) :
    Outcome fresh evidence input.clientUserMessageId s (s.enqueue input reason) := by
  by_cases hroom : s.arbiter.queue.length < s.arbiter.options.maxQueue
  · obtain ⟨d, hd, -⟩ := enqueue_room reason hj hroom
    refine ⟨fun _ _ => (Move.enqueue reason hj hroom (Or.inr rfl)).single, fun e he => ?_⟩
    rw [hd] at he
    cases he
  · rw [enqueue_full hj (not_lt.1 hroom)]
    exact ⟨nofun, fun _ _ => ⟨Moves.refl _ _, fun _ => not_lt.1 hroom⟩⟩

/-- What follows a queued dispatch does not touch the books. -/
theorem Outcome.andThen {clientId : String} {s : Lane} {r : Lane × Except Thrown Dispatch}
    (h : Outcome fresh evidence clientId s r) {f : Lane → Lane} (hf : ∀ s, SameBooks s (f s)) :
    Outcome fresh evidence clientId s (andThen r f) := by
  obtain ⟨s', d | d⟩ := r
  · exact ⟨nofun, fun _ _ => h.error _ rfl⟩
  · exact ⟨fun _ _ => (h.ok _ rfl).trans (hf s').moves, nofun⟩

theorem notPrepared_outcome {s : Lane} {input : BridgeInput} (answers : WriteAnswers)
    (reason : DispatchReason) {prepared : Bool} {error : Thrown}
    (hj : s.arbiter.journal input.clientUserMessageId = none)
    (ho : s.arbiter.owes input.clientUserMessageId → error = .retryable) :
    Outcome fresh evidence input.clientUserMessageId s (s.notPrepared input answers reason prepared error) := by
  unfold notPrepared
  by_cases he : error = .retryable
  · rw [if_pos he]
    cases prepared with
    | true =>
      have hq := rollBack_sameQueue s input answers
      have hout : Outcome fresh evidence _ _ ((s.rollBack input answers).enqueue input reason) :=
        enqueue_outcome input reason ((congrFun hq.journal _).trans hj)
      exact (hout.andThen sameBooks_scheduleFlushRetry).of_moves
        (Move.rollBack answers (Or.inl rfl)).single hq
    | false => exact (enqueue_outcome input reason hj).andThen sameBooks_scheduleFlushRetry
  · rw [if_neg he]
    exact ⟨nofun, fun e _ => ⟨Moves.refl _ _, fun h => absurd (ho h) he⟩⟩

theorem accepted_moves (s : Lane) (input : BridgeInput) (turnId : String) :
    Moves fresh evidence (.accepted input.clientUserMessageId) s .empty (s.accepted input turnId) := by
  exact ((Move.activeTurn (.accepted input.clientUserMessageId) s (some turnId)).single.trans
    (sameBooks_setPhase _ (.normal turnId)).moves).tail
      (Move.accept (Arbiter.setAccepted_closes _ _ _))

theorem uncertain_outcome {s s' : Lane} {input : BridgeInput}
    (h : Moves fresh evidence (.held input.clientUserMessageId) s (.unknown input.clientUserMessageId) s') :
    Outcome fresh evidence input.clientUserMessageId s (s'.uncertain input) :=
  ⟨fun _ _ => h.tail (Move.lose input), nofun⟩

theorem write_moves {s : Lane} {input : BridgeInput} (expectedTurnId : Option String)
    (answer : Except Thrown String) (ho : ¬ s.arbiter.owes input.clientUserMessageId) :
    Moves fresh evidence (.held input.clientUserMessageId) s (.answered input.clientUserMessageId answer)
      (s.emit (.write (s.arbiter.turnParams input expectedTurnId) answer)) :=
  have hm : Move fresh evidence _ s _ (s.emit (.write (s.arbiter.turnParams input expectedTurnId) answer)) :=
    Move.write answer ho
  hm.single

/-- A refused write: the rollback, then the queue. -/
theorem refused_outcome {s s' : Lane} {input : BridgeInput} (answers : WriteAnswers)
    {r : Lane × Except Thrown Dispatch} (h : Moves fresh evidence (.held input.clientUserMessageId) s
      (.refused input.clientUserMessageId) s') (hq : SameQueue s s')
    (hr : Outcome fresh evidence input.clientUserMessageId (s'.rollBack input answers) r) :
    Outcome fresh evidence input.clientUserMessageId s r :=
  hr.of_moves (h.tail (Move.rollBack answers (Or.inr rfl)))
    (hq.trans (rollBack_sameQueue s' input answers))

theorem steerRefused_outcome {s : Lane} (input : BridgeInput) (reason : DispatchReason)
    (hj : s.arbiter.journal input.clientUserMessageId = none) :
    Outcome fresh evidence input.clientUserMessageId s (s.steerRefused input reason) := by
  refine (enqueue_outcome input reason hj).andThen fun s => ?_
  split_ifs
  · exact sameBooks_scheduleFlushRetry s
  · exact SameBooks.refl s

theorem start_outcome (s : Lane) {input : BridgeInput} (answers : WriteAnswers)
    (hj : s.arbiter.journal input.clientUserMessageId = none) :
    Outcome fresh evidence input.clientUserMessageId s (s.start input answers) := by
  obtain ⟨hm, hq, ho⟩ := prepare_moves (s.setPhase .unknown) input answers
  have hm := (sameBooks_setPhase s .unknown).moves.trans hm
  have hq : SameQueue s ((s.setPhase .unknown).prepare input answers).1 :=
    (⟨rfl, rfl, rfl⟩ : SameQueue s (s.setPhase .unknown)).trans hq
  unfold start
  generalize (s.setPhase .unknown).prepare input answers = p at hm hq ho
  obtain ⟨s', result⟩ := p
  have hj' : s'.arbiter.journal input.clientUserMessageId = none := hq.journal ▸ hj
  cases result with
  | some failure =>
    obtain ⟨prepared, error⟩ := failure
    refine (notPrepared_outcome (s := s'.setPhase .idle) answers _ hj' fun h => ?_).of_moves
      (hm.trans (sameBooks_setPhase s' .idle).moves) (hq.trans ⟨rfl, rfl, rfl⟩)
    have := ho h
    simp at this
    exact this.2
  | none =>
    have hwrite := hm.trans (write_moves (s := s') none answers.transport fun h => by
      simpa using ho h)
    dsimp only
    generalize answers.transport = answer at hwrite
    cases answer with
    | ok turnId =>
      exact ⟨fun _ _ => hwrite.trans (accepted_moves _ input turnId), nofun⟩
    | error error =>
      dsimp only
      split_ifs with hr
      · simp only [Hand.answered, if_pos hr] at hwrite
        refine refused_outcome answers (hwrite.trans (sameBooks_setPhase _ .idle).moves)
          (hq.trans ⟨rfl, rfl, rfl⟩)
          ((enqueue_outcome input _ ?_).andThen sameBooks_scheduleFlushRetry)
        exact (congrFun (rollBack_sameQueue _ input answers).journal _).trans hj'
      · simp only [Hand.answered, if_neg hr] at hwrite
        exact uncertain_outcome (hwrite.trans (sameBooks_setPhase _ .unknown).moves)

theorem refuses_of_turnKind {error : Thrown} {kind : Special}
    (h : error.nonSteerableTurnKind = some kind) : error.refuses = true := by
  cases error <;> simp [Thrown.nonSteerableTurnKind] at h
  rfl

theorem steer_outcome (s : Lane) {input : BridgeInput} (expectedTurnId : String)
    (answers : WriteAnswers) (hj : s.arbiter.journal input.clientUserMessageId = none) :
    Outcome fresh evidence input.clientUserMessageId s (s.steer input expectedTurnId answers) := by
  obtain ⟨hm, hq, ho⟩ := prepare_moves s input answers
  unfold steer
  generalize s.prepare input answers = p at hm hq ho
  obtain ⟨s', result⟩ := p
  have hj' : s'.arbiter.journal input.clientUserMessageId = none := hq.journal ▸ hj
  cases result with
  | some failure =>
    obtain ⟨prepared, error⟩ := failure
    refine (notPrepared_outcome answers _ hj' fun h => ?_).of_moves hm hq
    have := ho h
    simp at this
    exact this.2
  | none =>
    have hwrite := hm.trans (write_moves (s := s') (some expectedTurnId) answers.transport fun h => by
      simpa using ho h)
    dsimp only
    generalize answers.transport = answer at hwrite
    cases answer with
    | ok turnId =>
      exact ⟨fun _ _ => hwrite.trans (accepted_moves _ input expectedTurnId), nofun⟩
    | error error =>
      dsimp only
      split
      · rename_i turnKind hkind
        simp only [Hand.answered, if_pos (refuses_of_turnKind hkind)] at hwrite
        refine refused_outcome answers (hwrite.trans
          (sameBooks_setPhase _ (.special turnKind (some expectedTurnId))).moves)
          (hq.trans ⟨rfl, rfl, rfl⟩) (steerRefused_outcome input _ ?_)
        exact (congrFun (rollBack_sameQueue _ input answers).journal _).trans hj'
      · split_ifs with hr
        · simp only [Hand.answered, if_pos hr] at hwrite
          refine refused_outcome answers hwrite (hq.trans ⟨rfl, rfl, rfl⟩)
            ((steerRefused_outcome input _ ?_).of_moves (sameBooks_setPhase _ .unknown).moves
              ⟨rfl, rfl, rfl⟩)
          exact (congrFun (rollBack_sameQueue _ input answers).journal _).trans hj'
        · simp only [Hand.answered, if_neg hr] at hwrite
          exact uncertain_outcome (hwrite.trans (sameBooks_setPhase _ .unknown).moves)

theorem flushRollbackDebts_moves (h : Hand) (s : Lane) (answers : Answers) :
    Moves fresh evidence h s h (s.flushRollbackDebts answers).1 := by
  refine List.foldlRecOn s.arbiter.queue _ 
    (motive := fun (acc : Lane × Bool) => Moves fresh evidence h s h acc.1) (Moves.refl h s) ?_
  intro acc hacc entry _
  exact hacc.tail (Move.settle h acc.1 entry.input.clientUserMessageId _)

theorem canAccept_moves (h : Hand) (s : Lane) (clientId turnId : String) :
    Moves fresh evidence h s h { s with arbiter := (s.arbiter.canAcceptIntoActiveTurn clientId turnId).1 } := by
  unfold Arbiter.canAcceptIntoActiveTurn
  split_ifs
  · exact Moves.refl h s
  · exact (Move.activeTurn h s (some turnId)).single

theorem takeQueued_free (s : Lane) (entry : QueuedInput) (rest : List QueuedInput) :
    (s.takeQueued entry rest).arbiter.journal entry.input.clientUserMessageId = none := by
  simp [takeQueued, modify, Arbiter.deleteJournalState]

theorem restore_moves (s : Lane) (entry : QueuedInput) :
    Moves fresh evidence (.held entry.input.clientUserMessageId) s .empty
      (s.restoreQueuedAfterFlushError entry) :=
  (Move.restore entry).single.trans (sameBooks_scheduleFlushRetry _).moves

/-- What becomes of the head of the queue when it is written. -/
theorem flushed_moves {s : Lane} {entry : QueuedInput} {rest : List QueuedInput}
    {r : Lane × Except Thrown Dispatch} (hq : s.arbiter.queue = entry :: rest)
    (hc : s.arbiter.Clear)
    (hr : Outcome fresh evidence entry.input.clientUserMessageId (s.takeQueued entry rest) r) :
    (∀ d, r.2 = .ok d → Moves fresh evidence .empty s .empty r.1) ∧
      ∀ e, r.2 = .error e → Moves fresh evidence .empty s .empty (r.1.restoreQueuedAfterFlushError entry) := by
  have ht : Moves fresh evidence _ s _ _ := (Move.take hq hc).single
  exact ⟨fun d hd => ht.trans (hr.ok d hd),
    fun e he => (ht.trans (hr.error e he).1).trans (restore_moves r.1 entry)⟩

theorem flushFromIdle_moves (s : Lane) (answers : Answers) :
    Moves fresh evidence .empty s .empty (s.flushFromIdle answers).1 := by
  unfold flushFromIdle
  by_cases hc : s.arbiter.hasUncertainOutcome = true
  · rw [if_pos hc]
    exact Moves.refl _ s
  rw [if_neg hc]
  have hclear := Arbiter.clear_of_not hc
  cases hq : s.arbiter.queue with
  | nil => exact Moves.refl _ s
  | cons entry rest =>
    obtain ⟨hok, herror⟩ := flushed_moves hq hclear (start_outcome (s.takeQueued entry rest)
      (answers entry.input.clientUserMessageId) (takeQueued_free s entry rest))
    dsimp only
    generalize (s.takeQueued entry rest).start entry.input
      (answers entry.input.clientUserMessageId) = r at hok herror
    obtain ⟨s', error | dispatch⟩ := r
    · exact herror error rfl
    · dsimp only
      split_ifs
      · exact (hok dispatch rfl).trans (sameBooks_resetRetryAttempt s').moves
      · exact hok dispatch rfl

/-- The lane when a pass of a loop is over. -/
def lane : Lane ⊕ (Lane × Option Thrown) → Lane
  | .inl s => s
  | .inr r => r.1

theorem flushEntry_moves {s : Lane} {entry : QueuedInput} {rest : List QueuedInput}
    (turnId : String) (answers : WriteAnswers) (hq : s.arbiter.queue = entry :: rest)
    (hc : s.arbiter.Clear) : Moves fresh evidence .empty s .empty (lane (s.flushEntry entry rest turnId answers)) := by
  obtain ⟨hok, herror⟩ := flushed_moves hq hc (steer_outcome (s.takeQueued entry rest)
    turnId answers (takeQueued_free s entry rest) : Outcome fresh evidence _ _ _)
  unfold flushEntry
  generalize (s.takeQueued entry rest).steer entry.input turnId answers = r at hok herror
  obtain ⟨s', error | dispatch⟩ := r
  · exact herror error rfl
  · have hreset := (hok dispatch rfl).trans (sameBooks_resetRetryAttempt s').moves
    dsimp only
    split_ifs
    · exact hok dispatch rfl
    · split <;> exact hreset
    · exact hreset

/-- A pass of the flush loop is a sequence of moves, however it ends. -/
theorem flushPass_moves (answers : Answers) (s : Lane) :
    Moves fresh evidence .empty s .empty (lane (flushPass answers s)) := by
  unfold flushPass
  by_cases hc : s.arbiter.hasUncertainOutcome = true
  · rw [if_pos hc]
    exact Moves.refl _ s
  rw [if_neg hc]
  split
  · rename_i turnId entry rest hphase hq
    have ha : Moves fresh evidence _ s _ _ :=
      canAccept_moves .empty s entry.input.clientUserMessageId turnId
    obtain ⟨hqueue, hclear⟩ :=
      Arbiter.canAccept_frame s.arbiter entry.input.clientUserMessageId turnId
    dsimp only
    split_ifs
    · exact ha.trans (flushEntry_moves turnId _ (hqueue.trans hq)
        (hclear (Arbiter.clear_of_not hc)))
    · exact ha
  · exact Moves.refl _ s

theorem flushIntoNormalTurn_moves (s : Lane) (answers : Answers) :
    Moves fresh evidence .empty s .empty (s.flushIntoNormalTurn answers).1 := by
  unfold flushIntoNormalTurn
  cases hr : WhileLoop.run (flushPass answers) (s.arbiter.queue.length + 1) s with
  | none => exact Moves.refl _ s
  | some r =>
    refine WhileLoop.run_invariant (I := fun s' => Moves fresh evidence .empty s .empty s')
      (Q := fun r => Moves fresh evidence .empty s .empty r.1) (fun s₁ s₂ h₁ hb => ?_) (fun s₁ r h₁ hb => ?_)
      (Moves.refl _ s) hr
    · simpa [hb, lane] using h₁.trans (flushPass_moves answers s₁)
    · simpa [hb, lane] using h₁.trans (flushPass_moves answers s₁)

theorem flushAuthoritativePhase_moves (s : Lane) (answers : Answers) :
    Moves fresh evidence .empty s .empty (s.flushAuthoritativePhase answers).1 := by
  unfold flushAuthoritativePhase
  split_ifs
  · exact Moves.refl _ s
  · split
    · exact flushFromIdle_moves s answers
    · exact flushIntoNormalTurn_moves s answers
    · exact Moves.refl _ s

end Lane
end Codex
end AgentParty
