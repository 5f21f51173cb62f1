import AgentParty.Guards.Send

/-! The ways a call of `handleSend` ends behind its last wait. It stores its frame, with the
guards silent in the state it found; or the loop guard refuses it; or it leaves nothing but a
number that was taken and a rate that was counted. -/

namespace AgentParty
namespace Guards

open Routing (Sender)

/-- The call was refused by the loop guard. -/
def SendOutcome.isLoopGuard : SendOutcome → Bool
  | .failed error => error.code = .loopGuard
  | _ => false

namespace Room

/-- A human's message is stored. -/
def StoresHumanMessage (nfc : String → String) (toISOString : Int → String) (s : Room) (call : Call)
    (answers : Answers) : Prop :=
  (∃ name, call.sender = .human name) ∧ call.frame.kind = .message ∧
    ∃ seq, ({ s with sends := s.sends.erase call }.resumed nfc toISOString call answers).2 = .sent seq

/-- The events among which the resets are. -/
def mayReset : Event → Bool
  | .resetGuard => true
  | .resetWorkflowGuard .. => true
  | .resume ⟨.human _, _, _, _⟩ _ => true
  | _ => false

/-- What the workflow guard writes: its rows, and system statuses that are not the loop
guard's. -/
def GuardWrites (s t : Room) : Prop :=
  ∃ rows lastSeq messages new,
    t = { s with
      workflowGuardState := rows
      lastSeq := lastSeq
      messages := messages
      written := s.written ++ new } ∧
    ∀ m ∈ new, m.writer = .insertSystemStatus ∧ isLoopGuardNote m.body = false

variable {nfc : String → String} {toISOString : Int → String} {s t u : Room}

theorem StoresHumanMessage.mayReset {call : Call} {answers : Answers}
    (h : s.StoresHumanMessage nfc toISOString call answers) :
    Room.mayReset (.resume call answers) = true := by
  obtain ⟨⟨name, hhuman⟩, -⟩ := h
  obtain ⟨sender, frame, key, rate⟩ := call
  obtain rfl : sender = .human name := hhuman
  rfl

theorem GuardWrites.rows (s : Room) (rows : Table WorkflowGuardRow WorkflowGuardRow.workflowId) :
    GuardWrites s { s with workflowGuardState := rows } :=
  ⟨rows, s.lastSeq, s.messages, [], by rw [List.append_nil], by simp⟩

theorem GuardWrites.trans (h : GuardWrites s t) (h' : GuardWrites t u) : GuardWrites s u := by
  obtain ⟨rows, lastSeq, messages, new, rfl, hnew⟩ := h
  obtain ⟨rows', lastSeq', messages', new', rfl, hnew'⟩ := h'
  refine ⟨rows', lastSeq', messages', new ++ new', by simp only [List.append_assoc], fun m hm => ?_⟩
  exact (List.mem_append.1 hm).elim (hnew m) (hnew' m)

theorem guardWrites_prune (s : Room) : GuardWrites s s.pruneWorkflowGuardState := by
  dsimp only [pruneWorkflowGuardState]
  split
  · exact GuardWrites.rows s s.workflowGuardState
  · exact GuardWrites.rows s _

theorem head?_toList_append {a b : String} {c : Char} (h : a.toList.head? = some c) :
    (a ++ b).toList.head? = some c := by
  rw [String.toList_append, List.head?_append, h, Option.some_or]

theorem isLoopGuardNote_eq_false {note : String} {c : Char} (h : note.toList.head? = some c)
    (hc : c ≠ 'l') : isLoopGuardNote note = false := by
  unfold isLoopGuardNote
  have hloop : LOOP_GUARD_TRIPPED.toList = 'l' :: "oop guard tripped: ".toList := by decide
  cases hn : note.toList with
  | nil => rw [hn] at h; nomatch h
  | cons c' rest =>
    rw [hn, List.head?_cons] at h
    obtain rfl := Option.some.inj h
    rw [hloop, List.isPrefixOf_cons_cons, beq_false_of_ne hc.symm, Bool.false_and]

theorem isLoopGuardNote_trippedNote (workflowId : WorkflowId) (count : ℕ) :
    isLoopGuardNote (trippedNote workflowId count) = false := by
  have hhead : (trippedNote workflowId count).toList.head? = some 'w' :=
    head?_toList_append (head?_toList_append (head?_toList_append (head?_toList_append (by decide))))
  exact isLoopGuardNote_eq_false hhead (by decide)

theorem guardWrites_insertSystemStatus (s : Room) {note : String}
    (hnote : isLoopGuardNote note = false) (now : Int) (state : StatusState)
    (mentions : List String) (workflow : Option StatusWorkflow) :
    GuardWrites s (s.insertSystemStatus note now state mentions workflow) := by
  refine ⟨s.workflowGuardState, _, _, [_], rfl, fun m hm => ?_⟩
  obtain rfl := List.mem_singleton.1 hm
  exact ⟨rfl, hnote⟩

theorem guardWrites_countWorkflowFrame (s : Room) (workflow : StatusWorkflow)
    (status : Option StatusState) (seq : ℕ) (name : String) (hostName : Option String) (now : Int) :
    GuardWrites s (s.countWorkflowFrame workflow status seq name hostName now) := by
  dsimp only [countWorkflowFrame]
  refine GuardWrites.trans ?_ (guardWrites_prune _)
  split
  · exact (GuardWrites.rows s (s.workflowGuardState.put _)).trans
      (guardWrites_insertSystemStatus _ (isLoopGuardNote_trippedNote _ _) _ _ _ _)
  · exact GuardWrites.rows s _

theorem guardWrites_apply (s : Room) (sender : Sender) (status : Option StatusState) (seq : ℕ)
    (decision : Option WorkflowGuardDecision) (now : Int) :
    GuardWrites s (s.applyWorkflowGuardAfterSend sender status seq decision now) := by
  have hnone : GuardWrites s s := GuardWrites.rows s s.workflowGuardState
  dsimp only [applyWorkflowGuardAfterSend]
  split
  · split
    · split
      · exact (GuardWrites.rows s _).trans (guardWrites_prune _)
      · split
        · exact guardWrites_countWorkflowFrame _ _ _ _ _ _ _
        · exact hnone
    · split
      · exact guardWrites_countWorkflowFrame _ _ _ _ _ _ _
      · exact hnone
  · exact hnone

/-- The checks pass only where the loop guard has nothing to say, and refuse for it only with
its alert. -/
theorem checkGuards_cases (s : Room) (call : Call) (routing : MentionRouting) (now : Int) :
    (s.checkGuards nfc toISOString call routing now = (s, none) ∧ s.sendLoopGuard call = none ∧
      (s.workflowGuardDecision call).bind s.workflowGuardError = none) ∨
    (∃ error, s.checkGuards nfc toISOString call routing now = (s, some error) ∧
      error.code ≠ .loopGuard) ∨
    ∃ message, s.sendLoopGuard call = some message ∧
      s.checkGuards nfc toISOString call routing now =
        (s.alertLoopGuard message now, some ⟨.loopGuard, message⟩) := by
  unfold checkGuards
  cases hworkflow : (s.workflowGuardDecision call).bind s.workflowGuardError with
  | some error =>
    refine .inr (.inl ⟨error, rfl, ?_⟩)
    obtain ⟨decision, -, herror⟩ := Option.bind_eq_some_iff.1 hworkflow
    unfold workflowGuardError at herror
    split at herror
    · nomatch herror
    · split at herror
      · obtain rfl := Option.some.inj herror
        nofun
      · nomatch herror
  | none =>
    dsimp only
    cases hprobe : (if verifyProbe nfc call routing then
        s.wakeVerifyRateLimit toISOString call.sender.name now else none) with
    | some error =>
      refine .inr (.inl ⟨error, rfl, ?_⟩)
      split at hprobe
      · unfold wakeVerifyRateLimit at hprobe
        split at hprobe
        · nomatch hprobe
        · dsimp only at hprobe
          split at hprobe
          · nomatch hprobe
          · obtain rfl := Option.some.inj hprobe
            nofun
      · nomatch hprobe
    | none =>
      dsimp only
      cases hloop : s.sendLoopGuard call with
      | some message => exact .inr (.inr ⟨message, rfl, rfl⟩)
      | none => exact .inl ⟨rfl, rfl, rfl⟩

theorem consumeRate_cases (s : Room) (name : String) (now : Int) :
    ∃ rate error, s.consumeRate name now = ({ s with rate := rate }, error) ∧
      ∀ e, error = some e → e = rateError := by
  dsimp only [consumeRate]
  split
  · exact ⟨_, _, rfl, fun e he => (Option.some.inj he).symm⟩
  · exact ⟨_, _, rfl, nofun⟩

/-- A transaction stores the frame or only counts the rate. -/
theorem transact_cases (s : Room) (call : Call) (routing : MentionRouting)
    (decision : Option WorkflowGuardDecision) (seq : ℕ) (answers : Answers) :
    (∃ rate, s.transact nfc call routing decision seq answers =
      ({ s with rate := rate }.store nfc call routing decision seq answers.now, .sent seq)) ∨
    ∃ rate outcome, s.transact nfc call routing decision seq answers =
      ({ s with rate := rate }, outcome) ∧ outcome.isLoopGuard = false ∧
        ∀ n, outcome ≠ .sent n := by
  unfold transact
  cases answers.decisionPrecondition with
  | some refusal => exact .inr ⟨s.rate, _, rfl, rfl, nofun⟩
  | none =>
    obtain ⟨rate, error, hrate, herror⟩ : ∃ rate error,
        (if call.countRate then s.consumeRate call.sender.name answers.now else (s, none)) =
          ({ s with rate := rate }, error) ∧ ∀ e, error = some e → e = rateError := by
      split
      · exact consumeRate_cases s _ _
      · exact ⟨s.rate, none, rfl, nofun⟩
    rw [hrate]
    cases error with
    | some e =>
      obtain rfl := herror e rfl
      exact .inr ⟨rate, _, rfl, rfl, nofun⟩
    | none =>
      dsimp only
      split
      · exact .inr ⟨s.rate, _, rfl, rfl, nofun⟩
      · exact .inl ⟨rate, rfl⟩

theorem resumed_cases (s : Room) (call : Call) (answers : Answers) :
    (∃ routing rate, s.sendLoopGuard call = none ∧
      (s.workflowGuardDecision call).bind s.workflowGuardError = none ∧
      s.resumed nfc toISOString call answers =
        ({ s with lastSeq := s.lastSeq + 1, rate := rate }.store nfc call routing
          (s.workflowGuardDecision call) (s.lastSeq + 1) answers.now, .sent (s.lastSeq + 1))) ∨
    (∃ message, s.resumed nfc toISOString call answers =
      (s.alertLoopGuard message answers.now, .failed ⟨.loopGuard, message⟩)) ∨
    ∃ seq rate outcome, s.resumed nfc toISOString call answers =
      ({ s with lastSeq := seq, rate := rate }, outcome) ∧ outcome.isLoopGuard = false ∧
        ∀ n, outcome ≠ .sent n := by
  unfold resumed
  cases answers.routing with
  | error refusal => exact .inr (.inr ⟨s.lastSeq, s.rate, _, rfl, rfl, nofun⟩)
  | ok routing =>
    dsimp only
    obtain ⟨hchecks, hloop, hworkflow⟩ | ⟨error, hchecks, hcode⟩ | ⟨message, -, hchecks⟩ :=
      @checkGuards_cases nfc toISOString s call routing answers.now
    · rw [hchecks]
      dsimp only
      cases answers.request with
      | some refusal => exact .inr (.inr ⟨s.lastSeq + 1, s.rate, _, rfl, rfl, nofun⟩)
      | none =>
        obtain ⟨rate, hstored⟩ | ⟨rate, outcome, hleft, hout⟩ := @transact_cases nfc
          { s with lastSeq := s.lastSeq + 1 } call routing (s.workflowGuardDecision call)
          (s.lastSeq + 1) answers
        · exact .inl ⟨routing, rate, hloop, hworkflow, hstored⟩
        · exact .inr (.inr ⟨s.lastSeq + 1, rate, outcome, hleft, hout⟩)
    · rw [hchecks]
      exact .inr (.inr ⟨s.lastSeq, s.rate, _, rfl, by simp [SendOutcome.isLoopGuard, hcode], nofun⟩)
    · rw [hchecks]
      exact .inr (.inl ⟨message, rfl⟩)

/-- The other parts of the room have no objection. -/
def letThrough : Answers := ⟨.ok ⟨[], []⟩, none, none, false, 0⟩

/-- The calls one after the other. -/
def inTurn (calls : List Call) : List Event :=
  calls.flatMap fun call => [.enter call none 0, .resume call letThrough]

end Room

end Guards
end AgentParty
