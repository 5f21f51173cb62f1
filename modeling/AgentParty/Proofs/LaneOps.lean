import AgentParty.Proofs.Lanes

/-! Every operation is a sequence of moves. -/

namespace AgentParty
namespace Codex
namespace Lane

variable {fresh evidence : List String}

/-- The books are tidy enough for an input that nobody knows to be taken in hand. -/
theorem canAccept_journal {a : Arbiter} (ha : a.Tidy) {clientId : String} (turnId : String)
    (hj : a.journal clientId = none) :
    (a.canAcceptIntoActiveTurn clientId turnId).1.journal clientId = none := by
  unfold Arbiter.canAcceptIntoActiveTurn
  split_ifs
  · exact hj
  · rcases (Arbiter.setActiveTurn_sheds ha (some turnId)).journal clientId with h | h
    · exact h.trans hj
    · exact h.2.1

/-- An outcome for an input that was never queued. -/
theorem Outcome.takenIn {s : Lane} {clientId : String} {r : Lane × Except Thrown Dispatch}
    (hr : Outcome fresh evidence clientId s r) (hf : clientId ∈ fresh)
    (hj : s.arbiter.journal clientId = none) (hq : s.arbiter.queue = []) (hc : s.arbiter.Clear) : Moves fresh evidence .empty s .empty r.1 := by
  have hpick : Moves fresh evidence .empty s (.held clientId) s := (Move.pick hj hq hc).single
  obtain ⟨s', error | dispatch⟩ := r
  · obtain ⟨hm, ho⟩ := hr.error error rfl
    have howes : ¬ s'.arbiter.owes clientId := fun h => by
      have := ho h
      rw [hq, List.length_nil] at this
      exact absurd s.arbiter.options.maxQueue_pos (by omega)
    exact (hpick.trans hm).tail (Move.drop hf howes)
  · exact hpick.trans (hr.ok dispatch rfl)

theorem enqueue_moves (s : Lane) (input : BridgeInput) (reason : DispatchReason) :
    Moves fresh evidence .empty s .empty (s.enqueue input reason).1 := by
  cases hj : s.arbiter.journal input.clientUserMessageId with
  | none =>
    by_cases hroom : s.arbiter.queue.length < s.arbiter.options.maxQueue
    · exact (Move.enqueue reason hj hroom (Or.inl rfl)).single
    · rw [enqueue_full hj (not_lt.1 hroom)]
      exact Moves.refl _ s
  | some state =>
    have hsame : (s.enqueue input reason).1 = s := by
      cases state <;> simp [enqueue, Arbiter.enqueue, hj]
    rw [hsame]
    exact Moves.refl _ s

theorem andThen_moves {s : Lane} {r : Lane × Except Thrown Dispatch} {f : Lane → Lane}
    (h : Moves fresh evidence .empty s .empty r.1) (hf : ∀ s, Moves fresh evidence .empty s .empty (f s)) :
    Moves fresh evidence .empty s .empty (andThen r f).1 := by
  obtain ⟨s', error | dispatch⟩ := r
  · exact h
  · exact h.trans (hf s')

theorem submitBehindQueue_moves (s : Lane) (input : BridgeInput) :
    Moves fresh evidence .empty s .empty (s.submitBehindQueue input).1 := by
  unfold submitBehindQueue
  refine andThen_moves (enqueue_moves s input _) fun s => ?_
  split
  · exact (sameBooks_scheduleFlushRetry s).moves
  · rename_i turnId head rest hphase hq
    have ha : Moves fresh evidence _ _ _ _ := canAccept_moves .empty s head.input.clientUserMessageId turnId
    dsimp only
    split_ifs
    · exact ha.trans (sameBooks_scheduleFlushRetry _).moves
    · exact ha
  · exact Moves.refl _ s

theorem submitFirst_moves {s : Lane} {input : BridgeInput} (answers : WriteAnswers)
    (ht : s.arbiter.Tidy) (hf : input.clientUserMessageId ∈ fresh)
    (hj : s.arbiter.journal input.clientUserMessageId = none)
    (hq : s.arbiter.queue = []) : Moves fresh evidence .empty s .empty (s.submitFirst input answers).1 := by
  unfold submitFirst
  by_cases hc : s.arbiter.hasUncertainOutcome = true
  · rw [if_pos hc]
    exact enqueue_moves s input _
  rw [if_neg hc]
  have hclear := Arbiter.clear_of_not hc
  split
  · exact (start_outcome s answers hj).takenIn hf hj hq hclear
  · rename_i turnId hphase
    have ha : Moves fresh evidence _ _ _ _ := canAccept_moves .empty s input.clientUserMessageId turnId
    have hj' := canAccept_journal ht turnId hj
    obtain ⟨hqueue, hclear'⟩ := Arbiter.canAccept_frame s.arbiter input.clientUserMessageId turnId
    dsimp only
    split_ifs
    · exact ha.trans ((steer_outcome _ turnId answers hj').takenIn hf hj' (hqueue.trans hq)
        (hclear' hclear))
    · exact ha.trans (enqueue_moves _ input _)
  · exact enqueue_moves s input _

theorem submit_moves {s : Lane} (ht : s.arbiter.Tidy) {input : BridgeInput} (answers : Answers)
    (hf : ∀ i, input.compactInput = some i → s.arbiter.journal i.clientUserMessageId = none →
      i.clientUserMessageId ∈ fresh) :
    Moves fresh evidence .empty s .empty (s.submit input answers).1 := by
  unfold submit
  split
  · exact Moves.refl _ s
  · rename_i normalized hn
    split
    · exact Moves.refl _ s
    · exact Moves.refl _ s
    · exact Moves.refl _ s
    · exact enqueue_moves s normalized _
    · rename_i hj
      split_ifs with h1 h2
      · exact Moves.refl _ s
      · exact submitBehindQueue_moves s normalized
      · exact submitFirst_moves _ ht (hf _ hn hj) hj (by simpa using h2)

theorem cancelQueued_moves (s : Lane) (clientId : String) :
    Moves fresh evidence .empty s .empty (s.cancelQueued clientId).1 := by
  unfold cancelQueued
  split_ifs
  · exact Moves.refl _ s
  · split
    · exact Moves.refl _ s
    · rename_i index hi
      refine (Move.cancel hi).single.trans (SameBooks.moves ?_)
      unfold dropQueued modify
      dsimp only
      split_ifs <;> exact ⟨rfl, rfl, rfl, rfl, rfl, rfl, rfl, rfl, rfl, rfl⟩

theorem retryFlush_moves (s : Lane) (answers : Answers) :
    Moves fresh evidence .empty s .empty (s.retryFlush answers) := by
  have hm : Moves fresh evidence _ _ _ _ := flushRollbackDebts_moves .empty s answers
  unfold retryFlush
  generalize s.flushRollbackDebts answers = r at hm
  obtain ⟨s', ready⟩ := r
  cases ready with
  | false => exact hm.trans (sameBooks_scheduleFlushRetry s').moves
  | true =>
    have hm' := hm.trans (flushAuthoritativePhase_moves s' answers)
    dsimp only
    generalize s'.flushAuthoritativePhase answers = r' at hm'
    obtain ⟨s'', thrown⟩ := r'
    cases thrown with
    | none => exact hm'
    | some error => exact hm'.trans (sameBooks_scheduleFlushRetry s'').moves

theorem enterTurn_moves (s : Lane) (turnId : Option String) (answers : Answers) :
    Moves fresh evidence .empty s .empty (s.enterTurn turnId answers).1 := by
  have ha : Moves fresh evidence .empty s .empty (s.modify (·.setActiveTurn turnId)) :=
    (Move.activeTurn .empty s turnId).single
  unfold enterTurn
  cases turnId with
  | none => exact ha.trans (sameBooks_setPhase _ _).moves
  | some turnId =>
    exact (ha.trans (sameBooks_setPhase _ _).moves).trans (flushIntoNormalTurn_moves _ answers)

theorem mutationAccepted_moves (s : Lane) (method : InteractiveMutation)
    (responseTurnId : Option String) (answers : Answers) :
    Moves fresh evidence .empty s .empty (s.mutationAccepted method responseTurnId answers).1 := by
  unfold mutationAccepted
  split
  · exact enterTurn_moves s _ answers
  · exact enterTurn_moves s _ answers
  · exact (sameBooks_setPhase s _).moves
  · exact SameBooks.moves ⟨rfl, rfl, rfl, rfl, rfl, rfl, rfl, rfl, rfl, rfl⟩
  · exact Moves.refl _ s
  · exact Moves.refl _ s
  · exact Moves.refl _ s

theorem performMutation_moves {s : Lane} (method : InteractiveMutation)
    (answer : Except Thrown (Option String)) (answers : Answers) (hc : s.arbiter.Clear) :
    Moves fresh evidence .empty s .empty (s.performMutation method answer answers).1 := by
  have hbegin := sameBooks_beginMutation s method
  have hm : Moves fresh evidence .empty s .empty
      ((s.modify (·.beginMutation method)).emit (.mutation method answer)) :=
    hbegin.moves.tail (Move.mutation method answer (hbegin.clear hc))
  unfold performMutation
  dsimp only
  generalize (s.modify (·.beginMutation method)).emit (.mutation method answer) = s₁ at hm
  have hr : Moves fresh evidence .empty s .empty (s₁.mutationAnswered method answer answers).1 := by
    cases answer with
    | ok responseTurnId => exact hm.trans (mutationAccepted_moves s₁ method responseTurnId answers)
    | error error => exact hm
  generalize s₁.mutationAnswered method answer answers = r at hr
  obtain ⟨s₂, thrown⟩ := r
  cases thrown with
  | none => exact hr
  | some error => exact hr.trans (sameBooks_mutationFailed s₂ method _ _ error).moves

theorem mutationBlocked_clear {a : Arbiter} {method : InteractiveMutation}
    (h : a.mutationBlocked method = none) : a.Clear := by
  unfold Arbiter.mutationBlocked at h
  split_ifs at h with hc
  exact Arbiter.clear_of_not hc

theorem runInteractiveMutation_moves (s : Lane) (method : InteractiveMutation)
    (answer : Except Thrown (Option String)) (answers : Answers) :
    Moves fresh evidence .empty s .empty (s.runInteractiveMutation method answer answers).1 := by
  have hm : Moves fresh evidence .empty s .empty (if s.arbiter.rollbackDebts.rows.isEmpty then (s, true)
      else s.flushRollbackDebts answers).1 := by
    split_ifs
    · exact Moves.refl _ s
    · exact flushRollbackDebts_moves .empty s answers
  unfold runInteractiveMutation
  generalize (if s.arbiter.rollbackDebts.rows.isEmpty then (s, true)
      else s.flushRollbackDebts answers) = r at hm
  obtain ⟨s', ready⟩ := r
  cases ready with
  | false => exact hm.trans (sameBooks_scheduleFlushRetry s').moves
  | true =>
    dsimp only
    rw [if_neg (by simp)]
    split
    · exact hm
    · rename_i hb
      exact hm.trans (performMutation_moves method answer answers (mutationBlocked_clear hb))

theorem leaveShell_moves (s : Lane) (phase : Phase) : Moves fresh evidence .empty s .empty
    (s.modify fun a => { a with shellLifecycle := none, phase := phase }) :=
  SameBooks.moves ⟨rfl, rfl, rfl, rfl, rfl, rfl, rfl, rfl, rfl, rfl⟩

theorem finishShellIdle_moves (s : Lane) (answers : Answers) :
    Moves fresh evidence .empty s .empty (s.finishShellIdle answers).1 :=
  (leaveShell_moves s .idle).trans (flushFromIdle_moves _ answers)

theorem restoreShellBase_moves (s : Lane) (shell : ShellLifecycle) (answers : Answers) :
    Moves fresh evidence .empty s .empty (s.restoreShellBase shell answers).1 := by
  unfold restoreShellBase
  dsimp only
  split
  · exact (leaveShell_moves s .idle).trans (flushFromIdle_moves _ answers)
  · exact (leaveShell_moves s (.normal _)).trans (flushIntoNormalTurn_moves _ answers)
  · exact leaveShell_moves s (.special _ _)

theorem keepShell_moves (s : Lane) (shell : ShellLifecycle) :
    Moves fresh evidence .empty s .empty (s.modify (·.keepShell shell)) :=
  SameBooks.moves ⟨rfl, rfl, rfl, rfl, rfl, rfl, rfl, rfl, rfl, rfl⟩

theorem setShell_moves (s : Lane) (shell : ShellLifecycle) :
    Moves fresh evidence .empty s .empty (s.modify fun a => { a with shellLifecycle := some shell }) :=
  SameBooks.moves ⟨rfl, rfl, rfl, rfl, rfl, rfl, rfl, rfl, rfl, rfl⟩

theorem resumeIdleShell_moves (s : Lane) (shell : ShellLifecycle) (answers : Answers) :
    Moves fresh evidence .empty s .empty (s.resumeIdleShell shell answers).1 := by
  have hk : Moves fresh evidence _ _ _ _ := keepShell_moves s shell.threadIdle
  unfold resumeIdleShell
  dsimp only
  split
  · exact hk.trans (finishShellIdle_moves _ answers)
  · split
    · exact hk.trans (restoreShellBase_moves _ _ answers)
    · exact hk

theorem settleShell_moves (s : Lane) (shell : ShellLifecycle) (answers : Answers) :
    Moves fresh evidence .empty s .empty (s.settleShell shell answers).1 := by
  unfold settleShell
  split
  · split
    · exact finishShellIdle_moves s answers
    · exact Moves.refl _ s
  · split
    · exact finishShellIdle_moves s answers
    · exact restoreShellBase_moves s shell answers

theorem resumeActiveShell_moves (s : Lane) (shell : ShellLifecycle) (turnId : String)
    (answers : Answers) : Moves fresh evidence .empty s .empty (s.resumeActiveShell shell turnId answers).1 := by
  have hk : Moves fresh evidence _ _ _ _ := keepShell_moves s (shell.attributeTurn turnId)
  unfold resumeActiveShell
  dsimp only
  split
  · exact hk.trans (settleShell_moves _ _ answers)
  · exact hk

theorem resumeShell_moves (s : Lane) (shell : ShellLifecycle) (thread : Thread)
    (backendRestarted : Bool) (answers : Answers) :
    Moves fresh evidence .empty s .empty (s.resumeShell shell thread backendRestarted answers).1 := by
  have hr : Moves fresh evidence .empty s .empty (s.modify (·.rememberUserShellHistory thread.userShellItems)) :=
    SameBooks.moves ⟨rfl, rfl, rfl, rfl, rfl, rfl, rfl, rfl, rfl, rfl⟩
  unfold resumeShell
  dsimp only
  generalize s.modify (·.rememberUserShellHistory thread.userShellItems) = s₁ at hr
  split
  · exact hr.trans (finishShellIdle_moves s₁ answers)
  · split
    · exact hr.trans (resumeIdleShell_moves s₁ _ answers)
    · exact hr.trans (resumeActiveShell_moves s₁ _ _ answers)
    · exact hr.trans (keepShell_moves s₁ _)

theorem resumeThread_moves (s : Lane) (thread : Thread) (answers : Answers) :
    Moves fresh evidence .empty s .empty (s.resumeThread thread answers).1 := by
  have hr : Moves fresh evidence .empty s .empty (s.modify (·.rememberUserShellHistory thread.userShellItems)) :=
    SameBooks.moves ⟨rfl, rfl, rfl, rfl, rfl, rfl, rfl, rfl, rfl, rfl⟩
  unfold resumeThread
  dsimp only
  generalize s.modify (·.rememberUserShellHistory thread.userShellItems) = s₁ at hr
  split
  · exact hr.trans ((sameBooks_setPhase s₁ _).moves.trans (flushFromIdle_moves _ answers))
  · refine hr.trans ?_
    unfold resumeActive
    split
    · exact SameBooks.moves ⟨rfl, rfl, rfl, rfl, rfl, rfl, rfl, rfl, rfl, rfl⟩
    · split
      · exact (sameBooks_setPhase s₁ _).moves
      · split
        · exact (sameBooks_setPhase s₁ _).moves
        · exact (sameBooks_setPhase s₁ _).moves.trans (flushIntoNormalTurn_moves _ answers)
  · exact hr.trans (sameBooks_setPhase s₁ _).moves

theorem observeResume_moves (s : Lane) {thread : Thread} (backendRestarted : Bool)
    (answers : Answers)
    (he : ∀ id ∈ thread.turns.flatMap (·.clientIds), id ∈ evidence) :
    Moves fresh evidence .empty s .empty (s.observeResume thread backendRestarted answers).1 := by
  have hr : Moves fresh evidence _ _ _ _ := (Move.activeTurn .empty s (thread.runningTurn.map (·.id))).single.tail
    (Move.reconcile _ ((thread.runningTurn.map (·.clientIds)).getD []) he)
  unfold observeResume
  dsimp only
  split
  · exact hr.trans (resumeShell_moves _ _ thread backendRestarted answers)
  · exact hr.trans (resumeThread_moves _ thread answers)

theorem observeTurnStarted_moves (s : Lane) (turnId : String) {clientIds : List String}
    (answers : Answers) (he : ∀ id ∈ clientIds, id ∈ evidence) :
    Moves fresh evidence .empty s .empty (s.observeTurnStarted turnId clientIds answers).1 := by
  have hr : Moves fresh evidence _ _ _ _ := (Move.activeTurn .empty s (some turnId)).single.tail
    (Move.reconcile _ clientIds he)
  unfold observeTurnStarted
  dsimp only
  generalize (s.modify (·.setActiveTurn (some turnId))).reconcileAcceptedClientIds clientIds
    clientIds = s₁ at hr
  split
  · split
    · exact hr.trans (sameBooks_setPhase s₁ _).moves
    · exact hr.trans (keepShell_moves s₁ _)
  · exact hr.trans (sameBooks_setPhase s₁ _).moves
  · exact hr.trans (sameBooks_setPhase s₁ _).moves
  · exact hr.trans ((sameBooks_setPhase s₁ _).moves.trans (flushIntoNormalTurn_moves _ answers))

theorem shellTurnCompleted_moves (s : Lane) (shell : ShellLifecycle) (turnId : String)
    (answers : Answers) : Moves fresh evidence .empty s .empty (s.shellTurnCompleted shell turnId answers).1 := by
  have hr : Moves fresh evidence _ _ _ _ := setShell_moves s (shell.turnEnded turnId)
  unfold shellTurnCompleted
  dsimp only
  split
  · split
    · exact hr.trans (finishShellIdle_moves _ answers)
    · exact hr
  · split
    · exact hr.trans (finishShellIdle_moves _ answers)
    · exact hr

theorem observeTurnCompleted_moves (s : Lane) (turnId : String) (answers : Answers) :
    Moves fresh evidence .empty s .empty (s.observeTurnCompleted turnId answers).1 := by
  have hr : Moves fresh evidence .empty s .empty
      (s.modify fun a => if a.activeTurnId = some turnId then a.setActiveTurn none else a) := by
    by_cases h : s.arbiter.activeTurnId = some turnId
    · simpa [modify, h] using (Move.activeTurn .empty s none).single
    · simpa [modify, h] using Moves.refl .empty s
  unfold observeTurnCompleted
  dsimp only
  generalize (s.modify fun a => if a.activeTurnId = some turnId then a.setActiveTurn none else a) = s₁
    at hr
  split
  · exact hr.trans (shellTurnCompleted_moves s₁ _ turnId answers)
  · exact hr
  · exact hr
  · split
    · exact hr.trans (finishShellIdle_moves s₁ answers)
    · exact hr

theorem observeThreadIdle_moves (s : Lane) (answers : Answers) :
    Moves fresh evidence .empty s .empty (s.observeThreadIdle answers).1 := by
  have hr : Moves fresh evidence _ _ _ _ := (Move.activeTurn .empty s none).single
  unfold observeThreadIdle
  dsimp only
  generalize s.modify (·.setActiveTurn none) = s₁ at hr
  split
  · refine hr.trans ?_
    have hshell : ∀ f, Moves fresh evidence .empty s₁ .empty (s₁.modify fun a => a.withShell f) := fun f =>
      SameBooks.moves ⟨rfl, rfl, rfl, rfl, rfl, rfl, rfl, rfl, rfl, rfl⟩
    unfold shellThreadIdle
    dsimp only
    split
    · split
      · exact (hshell _).trans (finishShellIdle_moves _ answers)
      · exact hshell _
    · split
      · split
        · exact (hshell _).trans (finishShellIdle_moves _ answers)
        · exact hshell _
      · exact Moves.refl _ s₁
  · exact hr.trans (finishShellIdle_moves s₁ answers)

theorem observeUserShellStarted_moves (s : Lane) (turnId itemId : String) :
    Moves fresh evidence .empty s .empty (s.observeUserShellStarted turnId itemId) := by
  unfold observeUserShellStarted
  split
  · dsimp only
    split
    · exact SameBooks.moves ⟨rfl, rfl, rfl, rfl, rfl, rfl, rfl, rfl, rfl, rfl⟩
    · exact SameBooks.moves ⟨rfl, rfl, rfl, rfl, rfl, rfl, rfl, rfl, rfl, rfl⟩
  · exact Moves.refl _ s

theorem observeUserShellCompleted_moves (s : Lane) (turnId itemId : String) (answers : Answers) :
    Moves fresh evidence .empty s .empty (s.observeUserShellCompleted turnId itemId answers).1 := by
  unfold observeUserShellCompleted
  split
  · split
    · exact Moves.refl _ s
    · exact (setShell_moves s _).trans (settleShell_moves _ _ answers)
  · exact Moves.refl _ s

theorem flushed_moves' {s s' : Lane} (h : Moves fresh evidence .empty s .empty s') (dispatch : Dispatch)
    (answers : Answers) : Moves fresh evidence .empty s .empty (s'.flushed dispatch answers).1 := by
  have hm := h.trans (flushAuthoritativePhase_moves s' answers)
  unfold flushed
  generalize s'.flushAuthoritativePhase answers = r at hm
  obtain ⟨s'', thrown⟩ := r
  cases thrown <;> exact hm

theorem resolveUnknownOutcome_moves (s : Lane) {input : BridgeInput} (outcome : Resolution)
    (answers : Answers)
    (he : ∀ i, input.compactInput = some i → i.clientUserMessageId ∈ evidence)
    (hf : ∀ i, input.compactInput = some i → outcome = .notAccepted →
      s.arbiter.journal i.clientUserMessageId = some .uncertain → i.clientUserMessageId ∈ fresh) :
    Moves fresh evidence .empty s .empty (s.resolveUnknownOutcome input outcome answers).1 := by
  unfold resolveUnknownOutcome
  split
  · exact Moves.refl _ s
  · rename_i normalized hn
    dsimp only
    split
    · exact Moves.refl _ s
    · exact Moves.refl _ s
    · exact enqueue_moves s normalized _
    · exact enqueue_moves s normalized _
    · rename_i hj
      cases outcome with
      | accepted =>
        exact flushed_moves' (Move.resolve .accepted (he _ hn) nofun hj (by simp) (fun _ => rfl)
          (Arbiter.setAccepted_closes _ _ _)).single _ answers
      | abandoned =>
        exact flushed_moves' (Move.resolve .abandoned (he _ hn) nofun hj (by simp) (fun _ => rfl)
          (Arbiter.setJournalState_noted _ _ .abandoned).closes_after).single _ answers
      | notAccepted =>
        have hm : Moves fresh evidence _ _ _ _ := (Move.resolve .notAccepted (he _ hn)
          (fun h => hf _ hn h hj) hj (fun _ => rfl) (fun h => absurd rfl h)
          (Arbiter.deleteJournalState_noted _ _).closes_after).single.trans
            (enqueue_moves _ normalized .steerRejected)
        dsimp only
        split
        · rename_i s₁ full he
          exact Eq.subst (motive := Moves fresh evidence .empty s .empty) (congrArg Prod.fst he) hm
        · rename_i s₁ dispatch he
          exact flushed_moves'
            (Eq.subst (motive := Moves fresh evidence .empty s .empty) (congrArg Prod.fst he) hm) dispatch answers

/-- The id that an operation takes in: a submitted one that the journal does not know, or an
uncertain one that was not accepted. -/
def takesIn (s : Lane) : Op → List String
  | .submit input _ =>
    ((input.compactInput.map (·.clientUserMessageId)).filter
      fun clientId => s.arbiter.journal clientId = none).toList
  | .resolveUnknownOutcome input .notAccepted _ =>
    ((input.compactInput.map (·.clientUserMessageId)).filter
      fun clientId => s.arbiter.journal clientId = some .uncertain).toList
  | _ => []

/-- Every operation moves the books by the rules. -/
theorem apply_moves {s : Lane} (ht : s.arbiter.Tidy) (op : Op) :
    Moves (s.takesIn op) op.evidence .empty s .empty (s.apply op) := by
  cases op with
  | submit input answers =>
    exact submit_moves ht answers fun i hi hj => by simp [takesIn, hi, hj]
  | cancelQueued clientId => exact cancelQueued_moves s clientId
  | enterUnsteerable state turnId => exact leaveShell_moves s _
  | runInteractiveMutation method answer answers =>
    exact runInteractiveMutation_moves s method answer answers
  | observeResume thread backendRestarted answers =>
    exact observeResume_moves s backendRestarted answers fun _ h => h
  | observeTurnStarted turnId clientIds answers =>
    exact observeTurnStarted_moves s turnId answers fun _ h => h
  | observeTurnCompleted turnId answers => exact observeTurnCompleted_moves s turnId answers
  | observeThreadIdle answers => exact observeThreadIdle_moves s answers
  | observeUserShellStarted turnId itemId => exact observeUserShellStarted_moves s turnId itemId
  | observeUserShellCompleted turnId itemId answers =>
    exact observeUserShellCompleted_moves s turnId itemId answers
  | resolveUnknownOutcome input outcome answers =>
    exact resolveUnknownOutcome_moves s outcome answers (fun i hi => by simp [Op.evidence, hi])
      fun i hi ho hj => by simp [takesIn, hi, ho, hj]
  | timerFires => exact SameBooks.moves ⟨rfl, rfl, rfl, rfl, rfl, rfl, rfl, rfl, rfl, rfl⟩
  | retryFlush answers => exact retryFlush_moves s answers

end Lane
end Codex
end AgentParty
