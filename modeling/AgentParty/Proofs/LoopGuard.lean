import AgentParty.Proofs.GuardedSends

/-! The loop guard over every interleaving of sends. From one reset to the next the counters
are the numbers of the messages that count, since a call is checked and counted in one step;
so neither limit is passed, and the first refusal of the period, and no other, is reported. -/

namespace AgentParty
namespace Guards

open Routing (Sender AgentName)
open EventSystem

variable (nfc : String → String) (toISOString : Int → String)

/-- A message that the guard counts: an agent has sent it, and it is no probe. -/
def counted (m : Message) : Bool :=
  match m.writer, m.sender, m.kind with
  | .handleSend, .agent _, .message =>
    !Room.isVerifyProbe nfc m.sender m.kind m.body m.mentions m.deliveryTargets
  | _, _, _ => false

def countedOf (name : AgentName) (m : Message) : Bool := counted nfc m && m.sender = .agent name

/-- The system status of `alertLoopGuard`. -/
def isLoopGuardAlert (m : Message) : Bool :=
  m.writer = .insertSystemStatus && isLoopGuardNote m.body

namespace Room

/-- What leaves the loop guard alone: the rows it writes neither count nor report. -/
structure Quiet (s t : Room) : Prop where
  streak : t.agentStreak = s.agentStreak
  count : t.agentCount = s.agentCount
  alerted : t.loopGuardAlerted = s.loopGuardAlerted
  outcomes : t.outcomes = s.outcomes
  written : ∃ new, t.written = s.written ++ new ∧
    ∀ m ∈ new, counted nfc m = false ∧ isLoopGuardAlert m = false

/-- `t` is `s` after a message of `name` that counts. -/
structure CountedOnce (s t : Room) (name : AgentName) : Prop where
  streak : t.agentStreak = s.agentStreak + 1
  count : t.agentCount = Function.update s.agentCount name.val (s.agentCount name.val + 1)
  alerted : t.loopGuardAlerted = s.loopGuardAlerted
  outcomes : t.outcomes = s.outcomes
  written : ∃ new, t.written = s.written ++ new ∧ new.countP (counted nfc) = 1 ∧
    (∀ other, new.countP (countedOf nfc other) = if other = name then 1 else 0) ∧
    new.countP isLoopGuardAlert = 0

variable {nfc toISOString} {s t u : Room} {new : List Message}

theorem Quiet.refl (s : Room) : Quiet nfc s s := ⟨rfl, rfl, rfl, rfl, [], by simp, by simp⟩

theorem Quiet.trans (h : Quiet nfc s t) (h' : Quiet nfc t u) : Quiet nfc s u := by
  obtain ⟨new, hnew, hquiet⟩ := h.written
  obtain ⟨new', hnew', hquiet'⟩ := h'.written
  refine ⟨h'.streak.trans h.streak, h'.count.trans h.count, h'.alerted.trans h.alerted,
    h'.outcomes.trans h.outcomes, new ++ new', by rw [hnew', hnew, List.append_assoc], ?_⟩
  intro m hm
  exact (List.mem_append.1 hm).elim (hquiet m) (hquiet' m)

/-- An operation that neither counts nor writes messages. -/
theorem Quiet.same (hstreak : t.agentStreak = s.agentStreak) (hcount : t.agentCount = s.agentCount)
    (halerted : t.loopGuardAlerted = s.loopGuardAlerted) (houtcomes : t.outcomes = s.outcomes)
    (hwritten : t.written = s.written) : Quiet nfc s t :=
  ⟨hstreak, hcount, halerted, houtcomes, [], by rw [hwritten, List.append_nil], by simp⟩

theorem Quiet.countP (h : ∀ m ∈ new, counted nfc m = false ∧ isLoopGuardAlert m = false) :
    new.countP (counted nfc) = 0 ∧ (∀ name, new.countP (countedOf nfc name) = 0) ∧
      new.countP isLoopGuardAlert = 0 := by
  simp only [List.countP_eq_zero, countedOf, Bool.not_eq_true, Bool.and_eq_false_imp]
  refine ⟨fun m hm => (h m hm).1, fun name m hm hc => ?_, fun m hm => (h m hm).2⟩
  rw [(h m hm).1] at hc
  nomatch hc

theorem CountedOnce.of_quiet {name : AgentName} (h : Quiet nfc s t) (h' : CountedOnce nfc t u name) :
    CountedOnce nfc s u name := by
  obtain ⟨before, hbefore, hquiet⟩ := h.written
  obtain ⟨new, hnew, hcounted, hof, halert⟩ := h'.written
  obtain ⟨hcounted₀, hof₀, halert₀⟩ := Quiet.countP hquiet
  refine ⟨by rw [h'.streak, h.streak], by rw [h'.count, h.count], h'.alerted.trans h.alerted,
    h'.outcomes.trans h.outcomes, before ++ new, by rw [hnew, hbefore, List.append_assoc], ?_⟩
  simp only [List.countP_append, hcounted₀, hof₀, halert₀, hcounted, hof, halert, Nat.zero_add]
  exact ⟨trivial, fun _ => trivial, trivial⟩

theorem quiet_insert {m : Message} (hm : counted nfc m = false ∧ isLoopGuardAlert m = false)
    (n : ℕ) : Quiet nfc s ({ s with lastSeq := n }.insertMessage m) :=
  ⟨rfl, rfl, rfl, rfl, [m], rfl, by simpa using hm⟩

theorem GuardWrites.quiet (h : GuardWrites s t) : Quiet nfc s t := by
  obtain ⟨rows, lastSeq, messages, new, rfl, hreports⟩ := h
  refine ⟨rfl, rfl, rfl, rfl, new, rfl, fun m hm => ?_⟩
  obtain ⟨hwriter, hnote⟩ := hreports m hm
  simp [counted, isLoopGuardAlert, hwriter, hnote]

theorem loopGuardMessage_eq_none (henabled : s.settings.loopGuardEnabled = true) {name : String} :
    s.loopGuardMessage name = none ↔ s.agentStreak < s.effectiveLoopGuardLimit ∧
      s.agentCount name < s.effectiveAgentFairShareLimit := by
  simp only [loopGuardMessage, globalLoopGuardMessage, henabled, Bool.not_true, Bool.false_eq_true,
    if_false]
  by_cases hstreak : s.effectiveLoopGuardLimit ≤ s.agentStreak
  · simp [hstreak, not_lt.2 hstreak]
  · by_cases hcount : s.effectiveAgentFairShareLimit ≤ s.agentCount name
    · simp [hstreak, hcount, not_lt.2 hcount]
    · simp [hstreak, hcount, not_le.1 hstreak, not_le.1 hcount]

/-- An alert is written for the first refusal of the period only. -/
theorem alertLoopGuard_written (s : Room) (message : String) (now : Int) :
    (s.alertLoopGuard message now).loopGuardAlerted = true ∧
      (s.alertLoopGuard message now).agentStreak = s.agentStreak ∧
      (s.alertLoopGuard message now).agentCount = s.agentCount ∧
      (s.alertLoopGuard message now).outcomes = s.outcomes ∧
      ∃ new, (s.alertLoopGuard message now).written = s.written ++ new ∧
        (∀ m ∈ new, counted nfc m = false) ∧
        new.countP isLoopGuardAlert = if s.loopGuardAlerted then 0 else 1 := by
  unfold alertLoopGuard
  split_ifs with halerted
  · exact ⟨halerted, rfl, rfl, rfl, [], by simp, by simp, rfl⟩
  · refine ⟨rfl, rfl, rfl, rfl, [_], rfl, by simp [counted], ?_⟩
    have hnote : isLoopGuardNote (LOOP_GUARD_TRIPPED ++ message) = true := by
      rw [isLoopGuardNote, String.toList_append, List.isPrefixOf_iff_prefix]
      exact List.prefix_append _ _
    simp [isLoopGuardAlert, hnote]

/-- The row of a call counts when the call is a message of an agent and no probe. -/
theorem counted_sentMessage (call : Call) (routing : MentionRouting)
    (decision : Option WorkflowGuardDecision) (seq : ℕ) (now : Int) :
    counted nfc (sentMessage call routing decision seq now) =
      match call.sender, call.frame with
      | .agent _, .message .. => !verifyProbe nfc call routing
      | _, _ => false := by
  obtain ⟨sender, frame, key, rate⟩ := call
  cases sender <;> cases frame <;> rfl

/-- What the statements of a stored frame do to the loop guard. -/
theorem store_cases (s : Room) (call : Call) (routing : MentionRouting)
    (decision : Option WorkflowGuardDecision) (seq : ℕ) (now : Int) :
    (∃ name, call.sender = .human name ∧ call.frame.kind = .message ∧
      (s.store nfc call routing decision seq now).agentStreak = 0 ∧
      (s.store nfc call routing decision seq now).agentCount = (fun _ => 0) ∧
      (s.store nfc call routing decision seq now).loopGuardAlerted = false) ∨
    (∃ name, call.sender = .agent name ∧ call.frame.kind = .message ∧
      CountedOnce nfc s (s.store nfc call routing decision seq now) name) ∨
    ((∀ name, call.sender = .human name → call.frame.kind ≠ .message) ∧
      Quiet nfc s (s.store nfc call routing decision seq now)) := by
  obtain ⟨sender, frame, key, rate⟩ := call
  have hguard := @GuardWrites.quiet nfc _ _ (guardWrites_apply
    (s.insertMessage (sentMessage ⟨sender, frame, key, rate⟩ routing decision seq now)) sender
    frame.state seq decision now)
  have hcounted := @counted_sentMessage nfc ⟨sender, frame, key, rate⟩ routing decision seq now
  have hinsert (h : counted nfc (sentMessage ⟨sender, frame, key, rate⟩ routing decision seq now) =
      false) : Quiet nfc s
        (s.insertMessage (sentMessage ⟨sender, frame, key, rate⟩ routing decision seq now)) :=
    quiet_insert (n := s.lastSeq) ⟨h, rfl⟩
  cases frame with
  | status state note mentions workflow =>
    refine .inr (.inr ⟨fun _ _ => nofun, ?_⟩)
    exact (hinsert (by cases sender <;> exact hcounted)).trans hguard
  | message body mentions replyTo =>
    cases sender with
    | human name => exact .inl ⟨name, rfl, rfl, rfl, rfl, rfl⟩
    | agent name =>
      cases hprobe : verifyProbe nfc ⟨.agent name, .message body mentions replyTo, key, rate⟩ routing with
      | true =>
        refine .inr (.inr ⟨fun _ => nofun, ?_⟩)
        rw [hprobe] at hcounted
        refine ((hinsert hcounted).trans hguard).trans ?_
        simp only [store, countFrame, hprobe, if_true]
        exact Quiet.same rfl rfl rfl rfl rfl
      | false =>
        refine .inr (.inl ⟨name, rfl, rfl, ?_⟩)
        rw [hprobe] at hcounted
        obtain ⟨new, hnew, hquiet⟩ := hguard.written
        simp only [store, countFrame, hprobe, Bool.false_eq_true, if_false]
        obtain ⟨hzero, hof, halert⟩ := Quiet.countP hquiet
        refine ⟨congrArg (· + 1) hguard.streak, ?_, hguard.alerted, hguard.outcomes,
          sentMessage ⟨.agent name, .message body mentions replyTo, key, rate⟩ routing decision seq
            now :: new, hnew.trans (List.append_cons s.written _ new).symm, ?_, fun other => ?_, ?_⟩
        · simp only [countAgentMessage, hguard.count]
          rfl
        · rw [List.countP_cons, hzero, hcounted]
          rfl
        · rw [List.countP_cons, hof, countedOf, hcounted]
          simp [sentMessage, eq_comm]
        · rw [List.countP_cons, halert]
          rfl

/-- What the rest of a call can do to the loop guard. -/
theorem resumed_loop_cases (s : Room) (call : Call) (answers : Answers) :
    (Quiet nfc s (s.resumed nfc toISOString call answers).1 ∧
      (s.resumed nfc toISOString call answers).2.isLoopGuard = false ∧
      ∀ name seq, call.sender = .human name → call.frame.kind = .message →
        (s.resumed nfc toISOString call answers).2 ≠ .sent seq) ∨
    (∃ message, (s.resumed nfc toISOString call answers).1 = s.alertLoopGuard message answers.now ∧
      (s.resumed nfc toISOString call answers).2.isLoopGuard = true) ∨
    (∃ name, call.sender = .agent name ∧ s.loopGuardMessage name.val = none ∧
      CountedOnce nfc s (s.resumed nfc toISOString call answers).1 name ∧
      (s.resumed nfc toISOString call answers).2.isLoopGuard = false) ∨
    ((∃ name, call.sender = .human name) ∧ call.frame.kind = .message ∧
      (∃ seq, (s.resumed nfc toISOString call answers).2 = .sent seq) ∧
      (s.resumed nfc toISOString call answers).1.agentStreak = 0 ∧
      (s.resumed nfc toISOString call answers).1.agentCount = (fun _ => 0) ∧
      (s.resumed nfc toISOString call answers).1.loopGuardAlerted = false) := by
  obtain ⟨routing, rate, hloop, -, hstored⟩ | ⟨message, hrefused⟩ |
      ⟨seq, rate, outcome, hleft, hout, hnot⟩ :=
    @resumed_cases nfc toISOString s call answers
  · rw [hstored]
    have hrated : Quiet nfc s { s with lastSeq := s.lastSeq + 1, rate := rate } :=
      Quiet.same rfl rfl rfl rfl rfl
    obtain ⟨name, hhuman, hkind, hcleared⟩ | ⟨name, hagent, hkind, honce⟩ | ⟨hframe, hquiet⟩ :=
      @store_cases nfc { s with lastSeq := s.lastSeq + 1, rate := rate } call routing
        (s.workflowGuardDecision call) (s.lastSeq + 1) answers.now
    · exact .inr (.inr (.inr ⟨⟨name, hhuman⟩, hkind, ⟨_, rfl⟩, hcleared⟩))
    · refine .inr (.inr (.inl ⟨name, hagent, ?_, honce.of_quiet hrated, rfl⟩))
      rw [sendLoopGuard, hagent] at hloop
      cases hframe : call.frame with
      | status => rw [hframe] at hkind; nomatch hkind
      | message => rwa [hframe] at hloop
    · exact .inl ⟨hrated.trans hquiet, rfl,
        fun name _ hhuman hkind => (hframe name hhuman hkind).elim⟩
  · rw [hrefused]
    exact .inr (.inl ⟨message, rfl, rfl⟩)
  · rw [hleft]
    exact .inl ⟨Quiet.same rfl rfl rfl rfl rfl, hout, fun _ n _ _ => hnot n⟩

section Period

variable {L F : ℕ}

/-- The guard is on, with these limits of the channel and of an agent. -/
def Guarding (L F : ℕ) (s : Room) : Prop :=
  s.settings.loopGuardEnabled = true ∧ s.effectiveLoopGuardLimit = L ∧
    s.effectiveAgentFairShareLimit = F

variable (nfc toISOString) in
/-- `reset-guard`, or a human message that is stored. -/
def Resets (s : Room) : Event → Prop
  | .resetGuard => True
  | .resume call answers => s.StoresHumanMessage nfc toISOString call answers
  | _ => False

variable (nfc toISOString) in
/-- The room is new, or has just been reset. -/
def OpensPeriod (s : Room) : Prop :=
  (∃ settings, s = initial settings) ∨
    ∃ before e, Step nfc toISOString before e s ∧ before.Resets nfc toISOString e

/-- Where the loop guard stands in the period that `s` opens. -/
structure Period (nfc : String → String) (L F : ℕ) (s t : Room) : Prop where
  streak_le : t.agentStreak ≤ L
  count_le : ∀ name : AgentName, t.agentCount name.val ≤ F
  written : ∃ new, t.written = s.written ++ new ∧ new.countP (counted nfc) = t.agentStreak ∧
    (∀ name : AgentName, new.countP (countedOf nfc name) = t.agentCount name.val) ∧
    new.countP isLoopGuardAlert = if t.loopGuardAlerted then 1 else 0
  outcomes : ∃ returned, t.outcomes = s.outcomes ++ returned ∧
    (t.loopGuardAlerted = true ↔ ∃ r ∈ returned, r.2.isLoopGuard = true)

theorem period_of_cleared (hstreak : s.agentStreak = 0) (hcount : s.agentCount = fun _ => 0)
    (halerted : s.loopGuardAlerted = false) : Period nfc L F s s := by
  refine ⟨by omega, by simp [hcount], ⟨[], by simp, by simp [hstreak], by simp [hcount], ?_⟩,
    [], by simp, by simp [halerted]⟩
  simp [halerted]

theorem OpensPeriod.period (h : OpensPeriod nfc toISOString s) : Period nfc L F s s := by
  obtain ⟨settings, rfl⟩ | ⟨before, e, ⟨-, rfl⟩, hreset⟩ := h
  · exact period_of_cleared rfl rfl rfl
  · cases e with
    | resetGuard => exact period_of_cleared rfl rfl rfl
    | resume call answers =>
      obtain ⟨⟨name, hhuman⟩, hkind, seq, hsent⟩ := hreset
      obtain ⟨-, -, hnot⟩ | ⟨message, -, hloop⟩ | ⟨name', hagent, -⟩ |
          ⟨-, -, -, hstreak, hcount, halerted⟩ := @resumed_loop_cases nfc
        toISOString { before with sends := before.sends.erase call } call answers
      · exact (hnot name seq hhuman hkind hsent).elim
      · rw [hsent] at hloop
        nomatch hloop
      · rw [hhuman] at hagent
        nomatch hagent
      · exact period_of_cleared hstreak hcount halerted
    | _ => exact hreset.elim

theorem Period.of_quiet (h : Period nfc L F s t) (hq : Quiet nfc t u) : Period nfc L F s u := by
  obtain ⟨new, hnew, hcounted, hof, halert⟩ := h.written
  obtain ⟨returned, hreturned, halerted⟩ := h.outcomes
  obtain ⟨new', hnew', hquiet⟩ := hq.written
  obtain ⟨hcounted', hof', halert'⟩ := Quiet.countP hquiet
  refine ⟨hq.streak ▸ h.streak_le, hq.count ▸ h.count_le,
    ⟨new ++ new', by rw [hnew', hnew, List.append_assoc], ?_, fun name => ?_, ?_⟩,
    returned, hq.outcomes.trans hreturned, by rw [hq.alerted, halerted]⟩
  · rw [List.countP_append, hcounted, hcounted', hq.streak, Nat.add_zero]
  · rw [List.countP_append, hof, hof', hq.count, Nat.add_zero]
  · rw [List.countP_append, halert, halert', hq.alerted, Nat.add_zero]

theorem Period.finish (h : Period nfc L F s t) (call : Call) {outcome : SendOutcome}
    (ho : outcome.isLoopGuard = false) : Period nfc L F s (t.finish call outcome) := by
  obtain ⟨returned, hreturned, halerted⟩ := h.outcomes
  refine ⟨h.streak_le, h.count_le, h.written, returned ++ [(call, outcome)], ?_, ?_⟩
  · simp only [Room.finish, hreturned, List.append_assoc]
  · simp only [List.mem_append, List.mem_singleton, or_and_right, exists_or, ← halerted]
    simp [Room.finish, ho]

/-- A message is counted while both shares have room for it. -/
theorem Period.counts {name : AgentName} (h : Period nfc L F s t) (hg : Guarding L F t)
    (hroom : t.loopGuardMessage name.val = none) (ho : CountedOnce nfc t u name) :
    Period nfc L F s u := by
  obtain ⟨henabled, rfl, rfl⟩ := hg
  obtain ⟨hstreak, hcount⟩ : t.agentStreak < t.effectiveLoopGuardLimit ∧
      t.agentCount name.val < t.effectiveAgentFairShareLimit := (loopGuardMessage_eq_none henabled).1 hroom
  obtain ⟨new, hnew, hcounted, hof, halert⟩ := h.written
  obtain ⟨returned, hreturned, halerted⟩ := h.outcomes
  obtain ⟨new', hnew', hcounted', hof', halert'⟩ := ho.written
  refine ⟨by rw [ho.streak]; omega, fun other => ?_,
    ⟨new ++ new', by rw [hnew', hnew, List.append_assoc], ?_, fun other => ?_, ?_⟩,
    returned, ho.outcomes.trans hreturned, by rw [ho.alerted, halerted]⟩
  · rw [ho.count]
    by_cases hother : other = name
    · subst hother
      rw [Function.update_self]
      omega
    · rw [Function.update_of_ne fun h => hother (Subtype.ext h)]
      exact h.count_le other
  · rw [List.countP_append, hcounted, hcounted', ho.streak]
  · rw [List.countP_append, hof, hof', ho.count]
    by_cases hother : other = name
    · subst hother
      rw [if_pos rfl, Function.update_self]
    · rw [if_neg hother, Function.update_of_ne fun h => hother (Subtype.ext h), Nat.add_zero]
  · rw [List.countP_append, halert, halert', ho.alerted, Nat.add_zero]

/-- The first refusal of the period writes the alert. -/
theorem Period.refused (h : Period nfc L F s t) (call : Call) (message : String) (now : Int)
    {outcome : SendOutcome} (ho : outcome.isLoopGuard = true) :
    Period nfc L F s ((t.alertLoopGuard message now).finish call outcome) := by
  obtain ⟨new, hnew, hcounted, hof, halert⟩ := h.written
  obtain ⟨returned, hreturned, halerted⟩ := h.outcomes
  obtain ⟨htrue, hstreak, hcount, houtcomes, new', hnew', hzero, hone⟩ :=
    @alertLoopGuard_written nfc t message now
  have hof' (name : AgentName) : new'.countP (countedOf nfc name) = 0 := by
    simp only [List.countP_eq_zero, countedOf, Bool.not_eq_true, Bool.and_eq_false_imp]
    intro m hm hc
    rw [hzero m hm] at hc
    nomatch hc
  have hcounted' : new'.countP (counted nfc) = 0 := by
    simpa only [List.countP_eq_zero, Bool.not_eq_true] using hzero
  refine ⟨?_, fun name => ?_, ⟨new ++ new', ?_, ?_, fun name => ?_, ?_⟩,
    returned ++ [(call, outcome)], ?_, ?_⟩
  · simpa only [Room.finish, hstreak] using h.streak_le
  · simpa only [Room.finish, hcount] using h.count_le name
  · simp only [Room.finish, hnew', hnew, List.append_assoc]
  · simp only [Room.finish, List.countP_append, hcounted, hcounted', hstreak, Nat.add_zero]
  · simp only [Room.finish, List.countP_append, hof, hof', hcount, Nat.add_zero]
  · simp only [Room.finish, List.countP_append, halert, hone, htrue, if_true]
    split <;> rfl
  · simp only [Room.finish, houtcomes, hreturned, List.append_assoc]
  · refine iff_of_true htrue ⟨_, List.mem_append_right _ (List.mem_singleton_self _), ho⟩

theorem Period.step (h : Period nfc L F s t) (hg : Guarding L F t) {e : Event}
    (hreset : ¬t.Resets nfc toISOString e) (hstep : Step nfc toISOString t e u) :
    Period nfc L F s u := by
  obtain ⟨hready, rfl⟩ := hstep
  cases e with
  | enter call refused now =>
    simp only [next, enter]
    split
    · exact h.finish call rfl
    · split
      · exact h.finish call rfl
      · split
        · exact h.finish call rfl
        · exact h.of_quiet (Quiet.same rfl rfl rfl rfl rfl)
  | resume call answers =>
    have herased : Quiet nfc t { t with sends := t.sends.erase call } :=
      Quiet.same rfl rfl rfl rfl rfl
    obtain ⟨hquiet, hout, -⟩ | ⟨message, halert, hout⟩ | ⟨name, -, hroom, honce, hout⟩ |
        ⟨hhuman, hkind, hsent, -⟩ := @resumed_loop_cases nfc toISOString
      { t with sends := t.sends.erase call } call answers
    · exact (h.of_quiet (herased.trans hquiet)).finish call hout
    · simp only [next, resume, halert]
      exact (h.of_quiet herased).refused call message answers.now hout
    · exact (h.counts hg hroom (honce.of_quiet herased)).finish call hout
    · exact (hreset ⟨hhuman, hkind, hsent⟩).elim
  | resetGuard => exact (hreset trivial).elim
  | insertReply writer sender body mentions now =>
    refine h.of_quiet (quiet_insert ⟨?_, ?_⟩ _)
    · rcases hready with rfl | rfl <;> rfl
    · rcases hready with rfl | rfl <;> rfl
  | insertSystemStatus note now state mentions workflow =>
    exact h.of_quiet (guardWrites_insertSystemStatus _ hready _ _ _ _).quiet
  | resetWorkflowGuard workflowId now => exact h.of_quiet (Quiet.same rfl rfl rfl rfl rfl)
  | cacheChannelMeta settings => exact h.of_quiet (Quiet.same rfl rfl rfl rfl rfl)
  | presence statusWorkflow activeHostName => exact h.of_quiet (Quiet.same rfl rfl rfl rfl rfl)
  | rewrite messages => exact h.of_quiet (Quiet.same rfl rfl rfl rfl rfl)

end Period

theorem selfShare_remaining (henabled : s.settings.loopGuardEnabled = true) (name : String) :
    0 < (s.selfShare name).remaining ↔ s.loopGuardMessage name = none := by
  rw [loopGuardMessage_eq_none henabled]
  simp only [selfShare, lt_min_iff, Nat.sub_pos_iff_lt]
  exact and_comm

/-- From a reset on, over every interleaving of calls, the counters are the numbers of the
counted messages stored since, no share is passed, one alert is written once a call has been
refused, and an agent has room left exactly when the guard would let it send. -/
theorem loop_guard_exact {L F : ℕ} {s t : Room} {evs : List Event}
    (hopen : OpensPeriod nfc toISOString s)
    (hrun : Run (Guarded (Step nfc toISOString) fun s e =>
      Guarding L F s ∧ ¬s.Resets nfc toISOString e) s evs t) :
    ∃ new returned, t.written = s.written ++ new ∧ t.outcomes = s.outcomes ++ returned ∧
      (new.countP (counted nfc) ≤ L ∧ ∀ name, new.countP (countedOf nfc name) ≤ F) ∧
      (t.agentStreak = new.countP (counted nfc) ∧
        ∀ name : AgentName, t.agentCount name.val = new.countP (countedOf nfc name)) ∧
      new.countP isLoopGuardAlert = (if returned.any (·.2.isLoopGuard) then 1 else 0) ∧
      (t.settings.loopGuardEnabled = true → ∀ name, name ≠ "" →
        ∃ self, (t.loopGuardState (some name)).self = some self ∧
          (0 < self.remaining ↔ t.loopGuardMessage name = none)) := by
  have hperiod : Period nfc L F s t :=
    hrun.invariant (fun _ _ _ h hstep => h.step hstep.2.1 hstep.2.2 hstep.1) hopen.period
  obtain ⟨new, hnew, hcounted, hof, halert⟩ := hperiod.written
  obtain ⟨returned, hreturned, halerted⟩ := hperiod.outcomes
  refine ⟨new, returned, hnew, hreturned, ⟨?_, fun name => ?_⟩, ⟨hcounted.symm, fun name => (hof name).symm⟩,
    ?_, fun henabled name hname => ⟨t.selfShare name, if_neg hname, selfShare_remaining henabled name⟩⟩
  · rw [hcounted]
    exact hperiod.streak_le
  · rw [hof]
    exact hperiod.count_le name
  · have hany : returned.any (·.2.isLoopGuard) = t.loopGuardAlerted := by
      rw [Bool.eq_iff_iff, List.any_eq_true, halerted]
    rw [halert, hany]

def alone : Settings := ⟨false, true, some 1, false, none⟩

def talker : AgentName := ⟨"talker", by decide⟩

def remark : Call := ⟨.agent talker, .message "and another thing" [] none, none, true⟩

/-- The limit of the channel is one message, and an agent sends two at once. -/
def bothRemarks : List Event :=
  [.enter remark none 0, .enter remark none 0, .resume remark letThrough, .resume remark letThrough]

theorem Resets.mayReset {e : Event} (h : s.Resets nfc toISOString e) : Room.mayReset e = true := by
  cases e with
  | resume call answers => exact StoresHumanMessage.mayReset h
  | resetGuard => rfl
  | _ => exact h.elim

theorem loop_guard_exact_refuses : ∃ t, Run (Step id fun _ => "") (initial alone) bothRemarks t ∧
    t.written.countP (counted id) ≤ 1 ∧ t.agentStreak = 1 ∧
      t.written.countP isLoopGuardAlert = 1 := by
  have hready : AllReady (fun s e => s.Ready e ∧ s.settings = alone ∧ mayReset e = false)
      (next id fun _ => "") (initial alone) bothRemarks := by decide
  have hrun : Run (Guarded (Step id fun _ => "") fun s e =>
      Guarding 1 15 s ∧ ¬s.Resets id (fun _ => "") e) (initial alone) bothRemarks
        (bothRemarks.foldl (next id fun _ => "") (initial alone)) := by
    refine run_of_ready (fun s e h => ⟨⟨h.1, rfl⟩, ?_, fun hreset => ?_⟩) hready
    · unfold Guarding effectiveLoopGuardLimit effectiveAgentFairShareLimit
      rw [h.2.1]
      decide
    · exact Bool.false_ne_true (h.2.2.symm.trans hreset.mayReset)
  obtain ⟨new, returned, hnew, -, ⟨hle, -⟩, -⟩ := loop_guard_exact (.inl ⟨alone, rfl⟩) hrun
  rw [show (initial alone).written = [] from rfl, List.nil_append] at hnew
  exact ⟨_, hrun.of_guarded, hnew ▸ hle, by decide, by decide +kernel⟩

end Room

end Guards
end AgentParty
