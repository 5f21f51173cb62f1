import AgentParty.Proofs.Standing
import AgentParty.Proofs.Uncertain

/-! What the writers of the lane answer, and what a refused call leaves behind: nothing, but for
the resolution of an uncertain input that meets a full queue. -/

namespace AgentParty
namespace Codex

/-- A callback or the transport throws the error. -/
def WriteAnswers.Throws (answers : WriteAnswers) (e : Thrown) : Prop :=
  answers.beforeWrite = some e ∨ answers.checkWriteAuthorized = some e ∨
    answers.transport = .error e ∨ answers.onQueuedDispatch = some e

namespace Lane
open Arbiter

variable {s s' : Lane} {input normalized : BridgeInput} {e : Thrown}

/-- The queue, the journal and the uncertain inputs are as they were. -/
structure SameRecords (s s' : Lane) : Prop where
  queue : s'.arbiter.queue = s.arbiter.queue
  journal : s'.arbiter.journal = s.arbiter.journal
  uncertain : s'.arbiter.uncertainInputs = s.arbiter.uncertainInputs

theorem SameRecords.refl (s : Lane) : SameRecords s s := ⟨rfl, rfl, rfl⟩

section Errors

theorem enqueue_error {reason : DispatchReason} (h : (s.enqueue input reason).2 = .error e) :
    (s.enqueue input reason).1 = s ∧ s.arbiter.options.maxQueue ≤ s.arbiter.queue.length := by
  cases hj : s.arbiter.journal input.clientUserMessageId with
  | some state => cases state <;> simp [enqueue, Arbiter.enqueue, hj] at h
  | none =>
    by_cases hfull : s.arbiter.options.maxQueue ≤ s.arbiter.queue.length
    · rw [enqueue_full hj hfull]
      exact ⟨rfl, hfull⟩
    · obtain ⟨d, hd, -⟩ := enqueue_room reason hj (not_le.1 hfull)
      rw [hd] at h
      cases h

theorem andThen_error {r : Lane × Except Thrown Dispatch} {f : Lane → Lane}
    (h : (andThen r f).2 = .error e) : r.2 = .error e ∧ (andThen r f).1 = r.1 := by
  obtain ⟨s', error | dispatch⟩ := r
  · exact ⟨h, rfl⟩
  · cases h

/-- With room in the queue only a callback throws. -/
theorem andThen_enqueue_ok {reason : DispatchReason} {f : Lane → Lane}
    (hroom : s.arbiter.queue.length < s.arbiter.options.maxQueue) :
    (andThen (s.enqueue input reason) f).2 ≠ .error e := fun h =>
  absurd (enqueue_error (andThen_error h).1).2 (not_le.2 hroom)

theorem prepare_failure {answers : WriteAnswers} {prepared : Bool}
    (h : (s.prepare input answers).2 = some (prepared, e)) : e = .retryable ∨ answers.Throws e := by
  unfold prepare at h
  generalize s.settleRollbackDebt input.clientUserMessageId answers = r at h
  obtain ⟨s', settled⟩ := r
  cases settled with
  | false =>
    cases h
    exact Or.inl rfl
  | true =>
    right
    cases hb : answers.beforeWrite with
    | some error =>
      simp only [hb] at h
      cases h
      exact Or.inl hb
    | none =>
      simp only [hb] at h
      obtain ⟨error, hc, heq⟩ := Option.map_eq_some_iff.1 h
      cases heq
      exact Or.inr (Or.inl hc)

theorem SameQueue.room (hq : SameQueue s s')
    (hroom : s.arbiter.queue.length < s.arbiter.options.maxQueue) :
    s'.arbiter.queue.length < s'.arbiter.options.maxQueue := by
  rw [hq.queue, hq.options]
  exact hroom

theorem prepare_sameQueue (s : Lane) (input : BridgeInput) (answers : WriteAnswers) :
    SameQueue s (s.prepare input answers).1 :=
  (@prepare_moves [] [] s input answers).2.1

theorem notPrepared_error {answers : WriteAnswers} {reason : DispatchReason} {prepared : Bool}
    {error : Thrown} (hroom : s.arbiter.queue.length < s.arbiter.options.maxQueue)
    (herror : error = .retryable ∨ answers.Throws error)
    (h : (s.notPrepared input answers reason prepared error).2 = .error e) : answers.Throws e := by
  unfold notPrepared at h
  by_cases hr : error = .retryable
  · rw [if_pos hr] at h
    refine (andThen_enqueue_ok ?_ h).elim
    split_ifs
    · exact (rollBack_sameQueue s input answers).room hroom
    · exact hroom
  · rw [if_neg hr] at h
    cases h
    exact herror.resolve_left hr

theorem start_error {answers : WriteAnswers}
    (hroom : s.arbiter.queue.length < s.arbiter.options.maxQueue)
    (h : (s.start input answers).2 = .error e) : answers.Throws e := by
  have hroom' := (prepare_sameQueue (s.setPhase .unknown) input answers).room hroom
  unfold start at h
  generalize hp : (s.setPhase .unknown).prepare input answers = p at h hroom'
  obtain ⟨s', result⟩ := p
  cases result with
  | some failure =>
    obtain ⟨prepared, error⟩ := failure
    have hfailure := prepare_failure (congrArg Prod.snd hp)
    dsimp only at h
    exact notPrepared_error (by exact hroom') hfailure h
  | none =>
    cases ht : answers.transport with
    | ok turnId =>
      simp only [ht] at h
      cases h
    | error error =>
      simp only [ht] at h
      split_ifs at h
      · refine (andThen_enqueue_ok ?_ h).elim
        exact (rollBack_sameQueue _ input answers).room hroom'
      · cases h

theorem steer_error {answers : WriteAnswers} {turnId : String}
    (hroom : s.arbiter.queue.length < s.arbiter.options.maxQueue)
    (h : (s.steer input turnId answers).2 = .error e) : answers.Throws e := by
  have hroom' := (prepare_sameQueue s input answers).room hroom
  unfold steer at h
  generalize hp : s.prepare input answers = p at h hroom'
  obtain ⟨s', result⟩ := p
  cases result with
  | some failure =>
    obtain ⟨prepared, error⟩ := failure
    have hfailure := prepare_failure (congrArg Prod.snd hp)
    dsimp only at h
    exact notPrepared_error (by exact hroom') hfailure h
  | none =>
    cases ht : answers.transport with
    | ok turnId =>
      simp only [ht] at h
      cases h
    | error error =>
      simp only [ht] at h
      unfold steerRefused at h
      split at h
      · refine (andThen_enqueue_ok ?_ h).elim
        exact (rollBack_sameQueue _ input answers).room hroom'
      · split_ifs at h
        · refine (andThen_enqueue_ok ?_ h).elim
          exact (rollBack_sameQueue _ input answers).room hroom'
        · cases h

theorem submitBehindQueue_error (h : (s.submitBehindQueue input).2 = .error e) :
    (s.submitBehindQueue input).1 = s := by
  unfold submitBehindQueue at h ⊢
  obtain ⟨herror, heq⟩ := andThen_error h
  exact heq.trans (enqueue_error herror).1

theorem room_of_empty (hq : s.arbiter.queue = []) :
    s.arbiter.queue.length < s.arbiter.options.maxQueue := by
  rw [hq]
  exact s.arbiter.options.maxQueue_pos

theorem submitFirst_error {answers : WriteAnswers} (hq : s.arbiter.queue = [])
    (hthrows : ¬ answers.Throws e) (h : (s.submitFirst input answers).2 = .error e) :
    (s.submitFirst input answers).1 = s := by
  unfold submitFirst at h ⊢
  split_ifs at h ⊢
  · exact (enqueue_error h).1
  split at h
  · exact (hthrows (start_error (room_of_empty hq) h)).elim
  · rename_i turnId hphase
    have hq' := (Arbiter.canAccept_frame s.arbiter input.clientUserMessageId turnId).1.trans hq
    have hroom := room_of_empty (s := { s with
      arbiter := (s.arbiter.canAcceptIntoActiveTurn input.clientUserMessageId turnId).1 }) hq'
    dsimp only at h
    split_ifs at h
    · exact (hthrows (steer_error hroom h)).elim
    · exact absurd (enqueue_error h).2 (not_le.2 hroom)
  · exact (enqueue_error h).1

/-- A submission that its callbacks do not stop is refused as if it had not been made. -/
theorem submit_error {answers : Answers} (hthrows : ∀ id, ¬ (answers id).Throws e)
    (h : (s.submit input answers).2 = .error e) : (s.submit input answers).1 = s := by
  unfold submit at h ⊢
  split at h
  · rfl
  · split at h
    · cases h
    · cases h
    · cases h
    · exact (enqueue_error h).1
    · split_ifs at h ⊢ with hover hqueue
      · rfl
      · exact submitBehindQueue_error h
      · exact submitFirst_error (by simpa using hqueue) (hthrows _) h

/-- What a flush throws comes from the queue listener. -/
theorem flushFromIdle_thrown {answers : Answers} (h : (s.flushFromIdle answers).2 = some e) :
    ∃ id, (answers id).Throws e := by
  unfold flushFromIdle at h
  split_ifs at h
  split at h
  · cases h
  · dsimp only at h
    split at h
    · cases h
    · split_ifs at h
      · exact ⟨_, Or.inr (Or.inr (Or.inr h))⟩

theorem flushPass_thrown {answers : Answers} {r : Lane × Option Thrown}
    (hr : flushPass answers s = .inr r) (h : r.2 = some e) : ∃ id, (answers id).Throws e := by
  unfold flushPass at hr
  split_ifs at hr
  · cases hr
    cases h
  split at hr
  · dsimp only at hr
    split_ifs at hr
    · unfold flushEntry at hr
      split at hr
      · cases hr
        cases h
      · split_ifs at hr
        · cases hr
          cases h
        · split at hr
          · cases hr
          · rename_i error hthrown
            cases hr
            exact ⟨_, Or.inr (Or.inr (Or.inr (hthrown.trans h)))⟩
    · cases hr
      cases h
  · cases hr
    cases h

theorem flushIntoNormalTurn_thrown {answers : Answers}
    (h : (s.flushIntoNormalTurn answers).2 = some e) : ∃ id, (answers id).Throws e := by
  unfold flushIntoNormalTurn at h
  cases hr : WhileLoop.run (flushPass answers) (s.arbiter.queue.length + 1) s with
  | none =>
    rw [hr] at h
    cases h
  | some r =>
    rw [hr] at h
    exact WhileLoop.run_invariant (I := fun _ => True)
      (Q := fun r => r.2 = some e → ∃ id, (answers id).Throws e) (fun _ _ _ _ => trivial)
      (fun _ _ _ hb he => flushPass_thrown hb he) trivial hr h

theorem flushed_error {answers : Answers} {d : Dispatch}
    (h : (s.flushed d answers).2 = .error e) : ∃ id, (answers id).Throws e := by
  unfold flushed at h
  split at h
  · cases h
  · rename_i s' error heq
    cases h
    have hthrown := congrArg Prod.snd heq
    unfold flushAuthoritativePhase at hthrown
    split_ifs at hthrown
    split at hthrown
    · exact flushFromIdle_thrown hthrown
    · exact flushIntoNormalTurn_thrown hthrown
    · cases hthrown

/-- The resolution of an uncertain input that has no room in the queue. -/
def ResolutionMeetsFullQueue (s : Lane) (input : BridgeInput) (outcome : Resolution) : Prop :=
  outcome = .notAccepted ∧ s.arbiter.options.maxQueue ≤ s.arbiter.queue.length ∧
    ∃ normalized, input.compactInput = some normalized ∧
      s.arbiter.journal normalized.clientUserMessageId = some .uncertain

theorem resolveUnknownOutcome_error {outcome : Resolution} {answers : Answers}
    (hthrows : ∀ id, ¬ (answers id).Throws e) (hfull : ¬ s.ResolutionMeetsFullQueue input outcome)
    (h : (s.resolveUnknownOutcome input outcome answers).2 = .error e) :
    (s.resolveUnknownOutcome input outcome answers).1 = s := by
  have hflushed (t : Lane) (d : Dispatch) : (t.flushed d answers).2 ≠ .error e := fun he =>
    (flushed_error he).elim hthrows
  cases hn : input.compactInput with
  | none => simp only [resolveUnknownOutcome, hn]
  | some normalized =>
    cases hj : s.arbiter.journal normalized.clientUserMessageId with
    | none =>
      simp only [resolveUnknownOutcome, hn, hj] at h ⊢
      exact (enqueue_error h).1
    | some state =>
      cases state with
      | queued =>
        simp only [resolveUnknownOutcome, hn, hj] at h ⊢
        exact (enqueue_error h).1
      | accepted => simp only [resolveUnknownOutcome, hn, hj]
      | abandoned => simp only [resolveUnknownOutcome, hn, hj]
      | uncertain =>
        cases outcome with
        | accepted =>
          simp only [resolveUnknownOutcome, hn, hj] at h
          exact (hflushed _ _ h).elim
        | abandoned =>
          simp only [resolveUnknownOutcome, hn, hj] at h
          exact (hflushed _ _ h).elim
        | notAccepted =>
          have hroom : s.arbiter.queue.length < s.arbiter.options.maxQueue :=
            not_le.1 fun hle => hfull ⟨rfl, hle, normalized, hn, hj⟩
          obtain ⟨d, heq⟩ := resolve_room hn hj hroom answers
          rw [heq] at h
          exact (hflushed _ _ h).elim

end Errors

section Queued

theorem enqueue_queued {reason : DispatchReason} {d : Dispatch}
    (h : (s.enqueue input reason).2 = .ok d) (hd : d.kind = .queued) :
    (s.enqueue input reason).1.arbiter.journal input.clientUserMessageId = some .queued := by
  cases hj : s.arbiter.journal input.clientUserMessageId with
  | some state =>
    cases state with
    | queued => simp [enqueue, Arbiter.enqueue, hj]
    | accepted | abandoned | uncertain =>
      simp only [enqueue, Arbiter.enqueue, hj, Except.ok.injEq] at h
      rw [← h] at hd
      cases hd
  | none =>
    have hroom : s.arbiter.queue.length < s.arbiter.options.maxQueue := not_le.1 fun hfull => by
      rw [enqueue_full hj hfull] at h
      cases h
    exact (enqueue_noted reason hj hroom).entry.resolve_right fun h => by cases h.1

/-- The id is queued in what follows the answer. -/
theorem andThen_queued {reason : DispatchReason} {f : Lane → Lane} {d : Dispatch}
    (hf : (s.enqueue input reason).1.arbiter.journal input.clientUserMessageId = some .queued →
      (f (s.enqueue input reason).1).arbiter.journal input.clientUserMessageId = some .queued)
    (h : (andThen (s.enqueue input reason) f).2 = .ok d) (hd : d.kind = .queued) :
    (andThen (s.enqueue input reason) f).1.arbiter.journal input.clientUserMessageId =
      some .queued := by
  have henqueue : ∀ d', (s.enqueue input reason).2 = .ok d' → d'.kind = .queued →
      (s.enqueue input reason).1.arbiter.journal input.clientUserMessageId = some .queued :=
    fun _ => enqueue_queued
  generalize s.enqueue input reason = r at h henqueue hf
  obtain ⟨t, error | dispatch⟩ := r
  · cases h
  · cases h
    exact hf (henqueue _ rfl hd)

theorem scheduleFlushRetry_queued {id : String} (t : Lane)
    (h : t.arbiter.journal id = some .queued) :
    (t.modify Arbiter.scheduleFlushRetry).arbiter.journal id = some .queued :=
  (congrFun (sameBooks_scheduleFlushRetry t).journal id).trans h

theorem notPrepared_queued {answers : WriteAnswers} {reason : DispatchReason} {prepared : Bool}
    {error : Thrown} {d : Dispatch}
    (h : (s.notPrepared input answers reason prepared error).2 = .ok d) (hd : d.kind = .queued) :
    (s.notPrepared input answers reason prepared error).1.arbiter.journal
      input.clientUserMessageId = some .queued := by
  unfold notPrepared at h ⊢
  split_ifs at h ⊢
  · exact andThen_queued (scheduleFlushRetry_queued _) h hd
  · exact andThen_queued (scheduleFlushRetry_queued _) h hd

theorem steerRefused_queued {reason : DispatchReason} {d : Dispatch}
    (h : (s.steerRefused input reason).2 = .ok d) (hd : d.kind = .queued) :
    (s.steerRefused input reason).1.arbiter.journal input.clientUserMessageId = some .queued := by
  refine andThen_queued (fun ht => ?_) h hd
  split_ifs
  · exact scheduleFlushRetry_queued _ ht
  · exact ht

theorem start_queued {answers : WriteAnswers} {d : Dispatch}
    (h : (s.start input answers).2 = .ok d) (hd : d.kind = .queued) :
    (s.start input answers).1.arbiter.journal input.clientUserMessageId = some .queued := by
  unfold start at h ⊢
  generalize (s.setPhase .unknown).prepare input answers = p at h ⊢
  obtain ⟨s', result⟩ := p
  cases result with
  | some failure => exact notPrepared_queued h hd
  | none =>
    dsimp only at h ⊢
    cases ht : answers.transport with
    | ok turnId =>
      simp only [ht] at h
      cases h
      cases hd
    | error error =>
      simp only [ht] at h ⊢
      split_ifs at h ⊢
      · exact andThen_queued (scheduleFlushRetry_queued _) h hd
      · cases h
        cases hd

theorem steer_queued {answers : WriteAnswers} {turnId : String} {d : Dispatch}
    (h : (s.steer input turnId answers).2 = .ok d) (hd : d.kind = .queued) :
    (s.steer input turnId answers).1.arbiter.journal input.clientUserMessageId = some .queued := by
  unfold steer at h ⊢
  generalize s.prepare input answers = p at h ⊢
  obtain ⟨s', result⟩ := p
  cases result with
  | some failure => exact notPrepared_queued h hd
  | none =>
    dsimp only at h ⊢
    cases ht : answers.transport with
    | ok turnId =>
      simp only [ht] at h
      cases h
      cases hd
    | error error =>
      simp only [ht] at h ⊢
      split at h
      · exact steerRefused_queued h hd
      · split_ifs at h ⊢
        · exact steerRefused_queued h hd
        · cases h
          cases hd

theorem canAccept_queued {a : Arbiter} (ha : a.Tidy) {id : String} (clientId turnId : String)
    (hj : a.journal id = some .queued) :
    (a.canAcceptIntoActiveTurn clientId turnId).1.journal id = some .queued := by
  unfold Arbiter.canAcceptIntoActiveTurn
  split_ifs
  · exact hj
  · rcases (Arbiter.setActiveTurn_sheds ha (some turnId)).journal id with h | h
    · exact h.trans hj
    · exact absurd h.1 (by simp [hj, JournalState.terminal])

theorem submitBehindQueue_queued {d : Dispatch} (hb : Books .empty s.arbiter)
    (h : (s.submitBehindQueue input).2 = .ok d) (hd : d.kind = .queued) :
    (s.submitBehindQueue input).1.arbiter.journal input.clientUserMessageId = some .queued := by
  have htidy (reason : DispatchReason) : (s.enqueue input reason).1.arbiter.Tidy :=
    ((@enqueue_moves [] [] s input reason).books hb).tidy
  unfold submitBehindQueue at h ⊢
  refine andThen_queued (fun ht => ?_) h hd
  split
  · exact scheduleFlushRetry_queued _ ht
  · rename_i turnId head rest hphase hqueue
    have haccept := canAccept_queued (htidy _) head.input.clientUserMessageId turnId ht
    dsimp only
    split_ifs
    · exact scheduleFlushRetry_queued { s with arbiter := _ } haccept
    · exact haccept
  · exact ht

/-- An answer that an input is queued is true. -/
theorem submit_queued {answers : Answers} {d : Dispatch} (hb : Books .empty s.arbiter)
    (hn : input.compactInput = some normalized) (h : (s.submit input answers).2 = .ok d)
    (hd : d.kind = .queued) :
    (s.submit input answers).1.arbiter.journal normalized.clientUserMessageId = some .queued := by
  cases hj : s.arbiter.journal normalized.clientUserMessageId with
  | some state =>
    cases state with
    | queued =>
      simp only [submit, hn, hj] at h ⊢
      exact enqueue_queued h hd
    | accepted | abandoned | uncertain =>
      simp only [submit, hn, hj] at h
      cases h
      cases hd
  | none =>
    simp only [submit, hn, hj] at h ⊢
    split_ifs at h ⊢ with hover hqueue
    · exact submitBehindQueue_queued hb h hd
    · unfold submitFirst at h ⊢
      split_ifs at h ⊢
      · exact enqueue_queued h hd
      · split at h
        · exact start_queued h hd
        · rename_i turnId hphase
          dsimp only at h ⊢
          split_ifs at h ⊢
          · exact steer_queued h hd
          · exact enqueue_queued h hd
        · exact enqueue_queued h hd

end Queued

end Lane

namespace Session
open Lane Arbiter

/-- The accounts of the queue, as long as the journal of the active turn has not overflowed. -/
structure Accounted (a : Arbiter) : Prop where
  nodup : a.queuedIds.Nodup
  queued : ∀ id, a.journal id = some .queued ↔ id ∈ a.queuedIds
  bounded : a.queue.length ≤ a.options.maxQueue
  owed : ∀ i ∈ a.rollbackDebts, i.clientUserMessageId ∈ a.queuedIds
  order : ∀ id, id ∈ a.terminalJournalOrder ↔
    (a.journal id = some .accepted ∨ a.journal id = some .abandoned) ∧
      id ∉ a.activeTurnAcceptedClientIds

theorem terminal_iff {state : Option JournalState} : state.any (·.terminal) = true ↔
    state = some .accepted ∨ state = some .abandoned := by
  match state with
  | none => decide
  | some state => cases state <;> decide

theorem accounted_of_reachable {options : ArbiterOptions} {s : Session} (h : Reachable options s)
    (hover : s.lane.arbiter.activeTurnJournalOverflowed = false) : Accounted s.lane.arbiter := by
  have hb := (kept_of_reachable h).books
  have ha := accounts_of_reachable h
  refine ⟨hb.nodup, fun id => ⟨fun hj => ?_, hb.queued id⟩, ha.bounded,
    fun i hi => (hb.owed _ ⟨i, hi, rfl⟩).resolve_right nofun, fun id => ?_⟩
  · rcases ha.listed id hj with ho | hq | hnil
    · cases hover.symm.trans ho
    · exact hq
    · cases hnil
  · rw [ha.ordered.listed, terminal_iff, and_iff_left not_false]

theorem next_lane (s : Session) (op : Op) : (s.next op).lane = s.lane.apply op := rfl

theorem apply_submit (s : Lane) (input : BridgeInput) (answers : Answers) :
    s.apply (.submit input answers) = (s.submit input answers).1 := rfl

/-- An input that was answered as queued, at the end of a run. -/
theorem queued_of_run {s t : Session} {input normalized : BridgeInput} {answers : Answers}
    {d : Dispatch} {ops : List Op} (hk : Kept .empty s.lane)
    (hn : input.compactInput = some normalized) (hsubmit : (s.lane.submit input answers).2 = .ok d)
    (hd : d.kind = .queued) (hrun : Run (s.next (.submit input answers)) ops t)
    (hover : t.lane.arbiter.activeTurnJournalOverflowed = false) :
    ∃ since, t.lane.trace = (s.next (.submit input answers)).lane.trace ++ since ∧
      (t.lane.arbiter.journal normalized.clientUserMessageId ≠ none ∨
        Cancelled normalized.clientUserMessageId since ∨
        (Settled normalized.clientUserMessageId since ∧
          normalized.clientUserMessageId ∈ t.lane.arbiter.evicted) ∨
        MetFullQueue normalized.clientUserMessageId since) := by
  have hkept := (apply_moves hk.books.tidy (.submit input answers)).kept hk
  have hqueued := submit_queued hk.books hn hsubmit hd
  rw [← next_lane] at hkept
  rw [← apply_submit, ← next_lane] at hqueued
  obtain ⟨since, htrace, hst⟩ := stands_of_run hrun hkept (Or.inl hqueued)
  refine ⟨since, htrace, ?_⟩
  rcases hst with (hq | hu | ⟨hhand, -⟩ | hcancelled | ⟨hs, hwhere⟩) | hfull
  · exact Or.inl (by simp [hq])
  · exact Or.inl (by simp [hu])
  · cases hhand
  · exact Or.inr (Or.inl hcancelled)
  · rcases hwhere with hterminal | hevicted | ho
    · exact Or.inl fun hnone => by simp [hnone] at hterminal
    · exact Or.inr (Or.inr (Or.inl ⟨hs, hevicted⟩))
    · cases hover.symm.trans ho
  · exact Or.inr (Or.inr (Or.inr hfull))

/-- The queue, the journal and the debts agree. A queued input stays until it is cancelled, or
until it was accepted or abandoned and its entry has left the bounded journal. A refused call
changes nothing. All this leaves out the resolution of an uncertain input that meets a full
queue. -/
theorem queue_accounting {options : ArbiterOptions} {s : Session} (h : Reachable options s) :
    (s.lane.arbiter.activeTurnJournalOverflowed = false → Accounted s.lane.arbiter) ∧
    (∀ input normalized answers d ops t, input.compactInput = some normalized →
      (s.lane.submit input answers).2 = .ok d → d.kind = .queued →
      Run (s.next (.submit input answers)) ops t →
      t.lane.arbiter.activeTurnJournalOverflowed = false →
      ∃ since, t.lane.trace = (s.next (.submit input answers)).lane.trace ++ since ∧
        (t.lane.arbiter.journal normalized.clientUserMessageId ≠ none ∨
          Cancelled normalized.clientUserMessageId since ∨
          (Settled normalized.clientUserMessageId since ∧
            normalized.clientUserMessageId ∈ t.lane.arbiter.evicted) ∨
          MetFullQueue normalized.clientUserMessageId since)) ∧
    (∀ input answers e, (∀ id, ¬ (answers id).Throws e) →
      (s.lane.submit input answers).2 = .error e →
        SameRecords s.lane (s.lane.submit input answers).1) ∧
    ∀ input outcome answers e, (∀ id, ¬ (answers id).Throws e) →
      ¬ s.lane.ResolutionMeetsFullQueue input outcome →
      (s.lane.resolveUnknownOutcome input outcome answers).2 = .error e →
        SameRecords s.lane (s.lane.resolveUnknownOutcome input outcome answers).1 := by
  refine ⟨accounted_of_reachable h, fun input normalized answers d ops t hn hsubmit hd hrun hover =>
    queued_of_run (kept_of_reachable h) hn hsubmit hd hrun hover, fun input answers e hthrows herr =>
      ?_, fun input outcome answers e hthrows hfull herr => ?_⟩
  · rw [submit_error hthrows herr]
    exact SameRecords.refl _
  · rw [resolveUnknownOutcome_error hthrows hfull herr]
    exact SameRecords.refl _

def turnAnswers (turnId : String) : Answers := fun _ => answering (.ok turnId) true

theorem queue_accounting_lost :
    Accounted ((initial sampleOptions).exec lostWriteOps).lane.arbiter :=
  (queue_accounting ⟨lostWriteOps, run_exec (by simp [lostWriteOps, Enabled])⟩).1 (by decide)

/-- The input is started when the thread is idle, and two more turns follow its turn. -/
def evictingOps : List Op :=
  [.observeResume ⟨.idle, []⟩ false (turnAnswers "t1"),
    .observeTurnCompleted "t1" (turnAnswers "t1"),
    .submit ⟨"again", "m2", none⟩ (turnAnswers "t2"),
    .observeTurnCompleted "t2" (turnAnswers "t2"),
    .submit ⟨"and again", "m3", none⟩ (turnAnswers "t3"),
    .observeTurnCompleted "t3" (turnAnswers "t3")]

/-- Nobody knows what became of the first input, and two more fill the queue. -/
def fullQueueOps : List Op :=
  lostWriteOps ++
    [Op.submit ⟨"again", "m2", none⟩ (turnAnswers "t2"),
      .submit ⟨"and again", "m3", none⟩ (turnAnswers "t3")]

/-- An input that was answered as queued leaves the journal without being cancelled, and a
resolution that is refused for a full queue forgets its uncertain input. -/
theorem queue_accounting_forgets :
    (((initial sampleOptions).lane.submit sampleInput (turnAnswers "t1")).2.toOption.map (·.kind) =
        some .queued ∧
      ∃ t, Run ((initial sampleOptions).next (.submit sampleInput (turnAnswers "t1"))) evictingOps t ∧
        t.lane.arbiter.activeTurnJournalOverflowed = false ∧
        t.lane.arbiter.journal "m1" = none) ∧
    ∃ s, Reachable sampleOptions s ∧ s.lane.arbiter.activeTurnJournalOverflowed = false ∧
      s.lane.arbiter.journal "m1" = some .uncertain ∧
      (s.lane.resolveUnknownOutcome sampleInput .notAccepted (turnAnswers "t4")).2 =
        .error (.queueFull 2) ∧
      ¬ SameRecords s.lane (s.lane.resolveUnknownOutcome sampleInput .notAccepted
        (turnAnswers "t4")).1 := by
  refine ⟨⟨by decide, _, run_exec (by simp [evictingOps, Enabled]), by decide, by decide⟩,
    (initial sampleOptions).exec fullQueueOps,
    ⟨fullQueueOps, run_exec (by simp [fullQueueOps, lostWriteOps, Enabled])⟩, by decide, by decide,
    by decide, fun hsame => ?_⟩
  have hforgotten := congrFun hsame.journal "m1"
  revert hforgotten
  decide

end Session

end Codex
end AgentParty
