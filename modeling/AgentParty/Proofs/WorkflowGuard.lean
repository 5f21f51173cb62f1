import AgentParty.Proofs.GuardedSends

/-! The workflow guard as a detector of repeated steps. The row of a workflow is the detector of
its run: a frame the guard lets through moves it as `Detector.frame` does, and no other frame
does. A run whose steps repeat within the window is caught once its period has passed, and a
run whose steps do not repeat within the window is never counted. -/

namespace AgentParty
namespace Guards

open Routing (Sender AgentName)
open EventSystem Recent

/-- A stored frame of a workflow; a message has no state. -/
structure GuardFrame where
  workflow : StatusWorkflow
  state : Option StatusState
  deriving DecidableEq

namespace GuardFrame

def tuple (f : GuardFrame) : Option (Option WorkflowId × StatusState) :=
  f.state.map fun state => (f.workflow.stepId, state)

def key (f : GuardFrame) (state : StatusState) : String := workflowTupleKey f.workflow.stepId state

def toFrame (f : GuardFrame) : Frame String :=
  match f.state with
  | none => .plain
  | some state => if state = .done then .final (f.key state) else .entry (f.key state)

end GuardFrame

def tupleKey (t : Option WorkflowId × StatusState) : String := workflowTupleKey t.1 t.2

/-- The frame of workflow `w` that a row of `messages` is. -/
def guardFrame (w : WorkflowId) (m : Message) : Option GuardFrame :=
  match m.writer, m.messageWorkflow with
  | .handleSend, some workflow =>
    if workflow.workflowId = w then some ⟨workflow, m.state⟩ else none
  | _, _ => none

def guardFrames (w : WorkflowId) (ms : List Message) : List GuardFrame := ms.filterMap (guardFrame w)

def tuples (fs : List GuardFrame) : List (Option WorkflowId × StatusState) :=
  fs.filterMap GuardFrame.tuple

theorem WorkflowId.nul_not_mem (step : WorkflowId) : Char.ofNat 0 ∉ step.val.toList := by
  have hvalid := step.property
  intro hmem
  unfold WORKFLOW_ID_RE at hvalid
  split at hvalid
  · rename_i hnil
    rw [hnil] at hmem
    nomatch hmem
  · rename_i c cs hcons
    rw [hcons, List.mem_cons] at hmem
    simp only [Bool.and_eq_true, List.all_eq_true] at hvalid
    obtain ⟨⟨hfirst, hrest⟩, -⟩ := hvalid
    rcases hmem with rfl | hmem
    · exact absurd hfirst (by decide)
    · exact absurd (hrest _ hmem) (by decide)

theorem WorkflowId.ne_empty (step : WorkflowId) : step.val ≠ "" := by
  intro hempty
  have hvalid := step.property
  rw [hempty] at hvalid
  exact absurd hvalid (by decide)

theorem StatusState.text_injective : Function.Injective StatusState.text := by
  intro a b h
  cases a <;> cases b <;> first | rfl | exact absurd h (by decide)

def stepText (stepId : Option WorkflowId) : String :=
  match stepId with
  | none => ""
  | some step => step.val

theorem stepText_injective : Function.Injective stepText := by
  rintro (_ | a) (_ | b) h
  · rfl
  · exact (b.ne_empty h.symm).elim
  · exact (a.ne_empty h).elim
  · exact congrArg some (Subtype.ext h)

theorem nul_not_mem_stepText (stepId : Option WorkflowId) :
    Char.ofNat 0 ∉ (stepText stepId).toList := by
  cases stepId with
  | none => simp [stepText]
  | some step => exact step.nul_not_mem

/-- The NUL tells where the step ends. -/
theorem tupleKey_injective : Function.Injective tupleKey := by
  rintro ⟨step, state⟩ ⟨step', state'⟩ h
  have hlists : (stepText step).toList ++ Char.ofNat 0 :: state.text.toList =
      (stepText step').toList ++ Char.ofNat 0 :: state'.text.toList := by
    have hkey (step : Option WorkflowId) (state : StatusState) :
        (tupleKey (step, state)).toList =
          (stepText step).toList ++ Char.ofNat 0 :: state.text.toList := by
      show (stepText step ++ String.singleton (Char.ofNat 0) ++ state.text).toList = _
      rw [String.toList_append, String.toList_append, String.toList_singleton, List.append_assoc,
        List.singleton_append]
    rw [← hkey, h, hkey]
  obtain ⟨hstep, -, hstate⟩ := (List.append_cons_inj_of_notMem (nul_not_mem_stepText step)
    (by cases state <;> decide)).1 hlists
  rw [stepText_injective (String.toList_injective hstep),
    StatusState.text_injective (String.toList_injective hstate)]

theorem entry?_toFrame (f : GuardFrame) : f.toFrame.entry? = f.tuple.map tupleKey := by
  obtain ⟨workflow, _ | state⟩ := f
  · rfl
  · cases state <;> rfl

theorem entries_toFrame (fs : List GuardFrame) :
    entries (fs.map GuardFrame.toFrame) = (tuples fs).map tupleKey := by
  rw [entries, List.filterMap_map, tuples, List.map_filterMap]
  exact congrArg (fun f => fs.filterMap f) (funext entry?_toFrame)

/-- The row of a workflow, seen from a run of it. -/
def detector (row : Option WorkflowGuardRow) (run : Option WorkflowId) : Detector String where
  recent :=
    match row with
    | none => []
    | some row => if row.runId = run then row.recentTuples.val else []
  count := (row.map (·.countSinceProgress)).getD 0
  tripped := row.any (·.noProgress)

theorem length_recent (row : Option WorkflowGuardRow) (run : Option WorkflowId) :
    (detector row run).recent.length ≤ WORKFLOW_GUARD_WINDOW := by
  cases row with
  | none => exact Nat.zero_le _
  | some row =>
    simp only [detector]
    split
    · exact row.recentTuples.property
    · exact Nat.zero_le _

theorem windowBase_eq (workflow : StatusWorkflow) (row : Option WorkflowGuardRow) :
    windowBase workflow row = (detector row workflow.runId).recent := by
  cases row <;> rfl

theorem workflowProgressed_iff (workflow : StatusWorkflow) (state : StatusState)
    (row : Option WorkflowGuardRow) : workflowProgressed workflow state row = true ↔
      workflowTupleKey workflow.stepId state ∉ (detector row workflow.runId).recent := by
  cases row with
  | none => simp [workflowProgressed, detector]
  | some row =>
    by_cases hrun : row.runId = workflow.runId <;> simp [workflowProgressed, detector, hrun]

namespace Room

variable {nfc : String → String} {toISOString : Int → String} {s t u : Room} {L : ℕ} {w : WorkflowId}

theorem pruneWorkflowGuardState_eq (h : s.workflowGuardState.rows.length ≤ 200) :
    s.pruneWorkflowGuardState = s := by
  simp only [pruneWorkflowGuardState, Nat.sub_eq_zero_of_le h, if_true]

theorem workflowGuardRow_insertSystemStatus (note : String) (now : Int) (state : StatusState)
    (mentions : List String) (workflow : Option StatusWorkflow) :
    (s.insertSystemStatus note now state mentions workflow).workflowGuardRow w =
      s.workflowGuardRow w := rfl

/-- A frame that is progress starts the count of its run again. -/
theorem detector_upsert (workflow : StatusWorkflow) (state : StatusState) (seq : ℕ)
    (initiatorName : String) (hostName : Option String) (now : Int) (terminal : Bool)
    (recentTuples : RecentTuples) (hsmall : s.workflowGuardState.rows.length < 200) :
    detector (((s.upsertWorkflowGuardProgress workflow state seq initiatorName hostName now terminal
      recentTuples).pruneWorkflowGuardState).workflowGuardRow workflow.workflowId) workflow.runId =
        ⟨recentTuples.val, 0, false⟩ ∧
    ∀ w, w ≠ workflow.workflowId →
      ((s.upsertWorkflowGuardProgress workflow state seq initiatorName hostName now terminal
        recentTuples).pruneWorkflowGuardState).workflowGuardRow w = s.workflowGuardRow w := by
  rw [pruneWorkflowGuardState_eq ((Table.length_put_le _).trans hsmall)]
  refine ⟨?_, fun w hw => (Table.get?_put _ w).trans (if_neg hw)⟩
  rw [workflowGuardRow, upsertWorkflowGuardProgress, Table.get?_put, if_pos rfl]
  simp only [detector, if_true]
  rfl

/-- A counted frame adds one to the count of its run. -/
theorem workflowGuardRow_count (workflow : StatusWorkflow) (status : Option StatusState) (seq : ℕ)
    (name : String) (hostName : Option String) (now : Int)
    (hsmall : s.workflowGuardState.rows.length < 200) :
    (s.countWorkflowFrame workflow status seq name hostName now).workflowGuardRow w =
      if w = workflow.workflowId then some (s.countedRow workflow status seq name hostName now)
      else s.workflowGuardRow w := by
  have hput (row : WorkflowGuardRow) : (s.workflowGuardState.put row).rows.length ≤ 200 :=
    (Table.length_put_le _).trans hsmall
  dsimp only [countWorkflowFrame]
  split
  · rw [pruneWorkflowGuardState_eq (hput _), workflowGuardRow_insertSystemStatus]
    exact Table.get?_put _ w
  · rw [pruneWorkflowGuardState_eq (hput _)]
    exact Table.get?_put _ w

theorem detector_countedRow (hlimit : s.workflowGuardLimit = L) (workflow : StatusWorkflow)
    (status : Option StatusState) (seq : ℕ) (name : String) (hostName : Option String) (now : Int) :
    detector (some (s.countedRow workflow status seq name hostName now)) workflow.runId =
      Detector.tick L (detector (s.workflowGuardRow workflow.workflowId) workflow.runId)
        (nextWorkflowGuardWindow (s.workflowGuardRow workflow.workflowId) workflow
          (status.map (workflowTupleKey workflow.stepId))).val := by
  have htrip : (s.shouldTrip (s.workflowGuardRow workflow.workflowId) ||
      (s.workflowGuardRow workflow.workflowId).any (·.noProgress)) =
        ((s.workflowGuardRow workflow.workflowId).any (·.noProgress) ||
          decide (L ≤ ((s.workflowGuardRow workflow.workflowId).map (·.countSinceProgress)).getD 0 + 1)) := by
    rw [shouldTrip, hlimit]
    cases (s.workflowGuardRow workflow.workflowId).any (·.noProgress) <;> simp
  simp only [detector, countedRow, if_true, Option.map_some, Option.getD_some, Option.any_some,
    Detector.tick, htrip]
  rfl

/-- The decision is about the workflow of the frame, and a message is never progress. -/
theorem workflowGuardDecision_cases {name : AgentName} {frame : SendFrame} {key : Option String}
    {rate : Bool} {d : WorkflowGuardDecision}
    (hd : s.workflowGuardDecision ⟨.agent name, frame, key, rate⟩ = some d) :
    (∃ workflow state, frame.state = some state ∧ d = s.statusDecision workflow state) ∨
      ∃ workflow, frame.state = none ∧ d = ⟨workflow, false, true⟩ := by
  unfold workflowGuardDecision at hd
  split at hd
  · nomatch hd
  · cases frame with
    | status state note mentions workflow =>
      obtain ⟨wf, -, rfl⟩ := Option.map_eq_some_iff.1 hd
      exact .inl ⟨wf, state, rfl, rfl⟩
    | message body mentions replyTo =>
      obtain ⟨wf, -, rfl⟩ := Option.map_eq_some_iff.1 hd
      exact .inr ⟨wf, rfl, rfl⟩

/-- What the guard writes for a frame it has let through is a move of the detector. -/
theorem detector_apply (hlimit : s.workflowGuardLimit = L)
    (hsmall : s.workflowGuardState.rows.length < 200) {name : AgentName} {status : Option StatusState}
    {d : WorkflowGuardDecision}
    (hd : (∃ workflow state, status = some state ∧ d = s.statusDecision workflow state) ∨
      ∃ workflow, status = none ∧ d = ⟨workflow, false, true⟩) (seq : ℕ) (now : Int) :
    detector ((s.applyWorkflowGuardAfterSend (.agent name) status seq (some d) now).workflowGuardRow
        d.workflow.workflowId) d.workflow.runId =
      (detector (s.workflowGuardRow d.workflow.workflowId) d.workflow.runId).frame
        WORKFLOW_GUARD_WINDOW L (GuardFrame.toFrame ⟨d.workflow, status⟩) ∧
    ∀ w, w ≠ d.workflow.workflowId →
      (s.applyWorkflowGuardAfterSend (.agent name) status seq (some d) now).workflowGuardRow w =
        s.workflowGuardRow w := by
  obtain ⟨workflow, state, rfl, rfl⟩ | ⟨workflow, rfl, rfl⟩ := hd
  · have hprogressed := workflowProgressed_iff workflow state (s.workflowGuardRow workflow.workflowId)
    have hwindow : (nextWorkflowGuardWindow (s.workflowGuardRow workflow.workflowId) workflow
        (some (workflowTupleKey workflow.stepId state))).val =
        ((detector (s.workflowGuardRow workflow.workflowId) workflow.runId).recent ++
          [workflowTupleKey workflow.stepId state]).rtake WORKFLOW_GUARD_WINDOW := by
      rw [nextWorkflowGuardWindow, RecentTuples.of, windowBase_eq]
    dsimp only [applyWorkflowGuardAfterSend, statusDecision]
    split
    · rename_i hnew
      rw [Bool.or_eq_true, decide_eq_true_eq, hprogressed] at hnew
      obtain ⟨hdetector, hothers⟩ := detector_upsert (s := s) workflow state seq name.val
        (s.activeHostName.or ((s.workflowGuardRow workflow.workflowId).bind (·.hostName))) now
        (state = .done) (nextWorkflowGuardWindow (s.workflowGuardRow workflow.workflowId) workflow
          (some (workflowTupleKey workflow.stepId state))) hsmall
      refine ⟨hdetector.trans ?_, hothers⟩
      rw [hwindow]
      by_cases hdone : state = .done
      · simp only [GuardFrame.toFrame, hdone, if_true, Detector.frame, GuardFrame.key]
      · simp only [GuardFrame.toFrame, hdone, if_false, Detector.frame, GuardFrame.key,
          if_neg (hnew.resolve_left hdone)]
    · rename_i hold
      rw [Bool.or_eq_true, decide_eq_true_eq, hprogressed, not_or, not_not] at hold
      have hsome : (s.workflowGuardRow workflow.workflowId).isSome = true := by
        cases hrow : s.workflowGuardRow workflow.workflowId with
        | none =>
          rw [hrow] at hold
          exact absurd hold.2 List.not_mem_nil
        | some row => rfl
      rw [if_pos (by
        rw [hsome, Bool.true_and, Bool.not_eq_true', ← Bool.not_eq_true, hprogressed, not_not]
        exact hold.2)]
      refine ⟨?_, fun w hw => ?_⟩
      · rw [workflowGuardRow_count _ _ _ _ _ _ hsmall, if_pos rfl, detector_countedRow hlimit,
          Option.map_some, hwindow]
        simp only [GuardFrame.toFrame, hold.1, if_false, Detector.frame, GuardFrame.key,
          if_pos hold.2]
      · rw [workflowGuardRow_count _ _ _ _ _ _ hsmall, if_neg hw]
  · dsimp only [applyWorkflowGuardAfterSend]
    rw [if_pos rfl]
    refine ⟨?_, fun w hw => ?_⟩
    · rw [workflowGuardRow_count _ _ _ _ _ _ hsmall, if_pos rfl, detector_countedRow hlimit]
      simp only [GuardFrame.toFrame, Detector.frame, Option.map_none, nextWorkflowGuardWindow,
        RecentTuples.of, windowBase_eq, rtake_eq_self (length_recent _ _)]
    · rw [workflowGuardRow_count _ _ _ _ _ _ hsmall, if_neg hw]

variable (nfc toISOString) in
/-- A human message that is stored, or `reset-guard` for a workflow. -/
def ClearsWorkflow (s : Room) : Event → Prop
  | .resume call answers => s.StoresHumanMessage nfc toISOString call answers
  | .resetWorkflowGuard .. => True
  | _ => False

variable (nfc toISOString) in
/-- The guard is on with this limit and has room for one more workflow, and nobody clears it. -/
def Watching (L : ℕ) (s : Room) (e : Event) : Prop :=
  s.settings.workflowGuardEnabled = true ∧ s.workflowGuardLimit = L ∧
    s.workflowGuardState.rows.length < 200 ∧ ¬s.ClearsWorkflow nfc toISOString e

/-- What a step means for workflow `w`: nothing, or one frame that moves its detector. -/
def Moves (L : ℕ) (w : WorkflowId) (s u : Room) : Prop :=
  ∃ new, u.written = s.written ++ new ∧
    (guardFrames w new = [] ∧ u.workflowGuardRow w = s.workflowGuardRow w ∨
    ∃ f, guardFrames w new = [f] ∧
      detector (u.workflowGuardRow w) f.workflow.runId =
        (detector (s.workflowGuardRow w) f.workflow.runId).frame WORKFLOW_GUARD_WINDOW L f.toFrame)

theorem Moves.still (hwritten : ∃ new, u.written = s.written ++ new ∧ ∀ m ∈ new, m.writer ≠ .handleSend)
    (hrow : u.workflowGuardRow w = s.workflowGuardRow w) : Moves L w s u := by
  obtain ⟨new, hnew, hothers⟩ := hwritten
  refine ⟨new, hnew, .inl ⟨List.filterMap_eq_nil_iff.2 fun m hm => ?_, hrow⟩⟩
  unfold guardFrame
  split
  · rename_i hwriter _
    exact (hothers m hm hwriter).elim
  · rfl

theorem guardFrames_reports {new : List Message}
    (h : ∀ m ∈ new, m.writer = .insertSystemStatus ∧ isLoopGuardNote m.body = false) :
    guardFrames w new = [] := by
  refine List.filterMap_eq_nil_iff.2 fun m hm => ?_
  rw [guardFrame, (h m hm).1]

theorem countFrame_workflow (call : Call) (routing : MentionRouting) (now : Int)
    (hhuman : ∀ name, call.sender = .human name → call.frame.kind ≠ .message) :
    (s.countFrame nfc call routing now).written = s.written ∧
      (s.countFrame nfc call routing now).workflowGuardState = s.workflowGuardState := by
  obtain ⟨sender, frame, key, rate⟩ := call
  cases frame with
  | status => exact ⟨rfl, rfl⟩
  | message =>
    cases sender with
    | human name => exact (hhuman name rfl rfl).elim
    | agent name =>
      simp only [countFrame]
      split <;> exact ⟨rfl, rfl⟩

theorem applyWorkflowGuardAfterSend_none (s : Room) (sender : Sender) (status : Option StatusState)
    (seq : ℕ) (now : Int) : s.applyWorkflowGuardAfterSend sender status seq none now = s := by
  cases sender <;> rfl

/-- Storing a frame that the guard has let through. -/
theorem moves_store (hlimit : s.workflowGuardLimit = L)
    (hsmall : s.workflowGuardState.rows.length < 200) (call : Call) (routing : MentionRouting)
    (seq : ℕ) (now : Int)
    (hhuman : ∀ name, call.sender = .human name → call.frame.kind ≠ .message) :
    Moves L w s (s.store nfc call routing (s.workflowGuardDecision call) seq now) := by
  cases hd : s.workflowGuardDecision call with
  | none =>
    obtain ⟨hwritten, hrows⟩ := @countFrame_workflow nfc
      (s.insertMessage (sentMessage call routing none seq now)) call routing now hhuman
    rw [store, applyWorkflowGuardAfterSend_none]
    refine ⟨[sentMessage call routing none seq now], hwritten, .inl ⟨rfl, ?_⟩⟩
    rw [workflowGuardRow, hrows]
    rfl
  | some d =>
    obtain ⟨sender, frame, key, rate⟩ := call
    obtain ⟨name, rfl⟩ : ∃ name, sender = .agent name := by
      cases sender with
      | agent name => exact ⟨name, rfl⟩
      | human name =>
        unfold workflowGuardDecision at hd
        split at hd <;> nomatch hd
    set m := sentMessage ⟨.agent name, frame, key, rate⟩ routing (some d) seq now with hm
    obtain ⟨hwritten, hrows⟩ := @countFrame_workflow nfc
      ((s.insertMessage m).applyWorkflowGuardAfterSend (.agent name) frame.state seq (some d) now)
      ⟨.agent name, frame, key, rate⟩ routing now hhuman
    obtain ⟨rows, lastSeq, messages, new, happly, hreports⟩ := guardWrites_apply (s.insertMessage m)
      (.agent name) frame.state seq (some d) now
    have hcases := workflowGuardDecision_cases hd
    obtain ⟨hmoved, hothers⟩ := @detector_apply (s.insertMessage m) L hlimit
      hsmall name frame.state d hcases seq now
    have hguard (w : WorkflowId) : guardFrames w (m :: new) =
        if d.workflow.workflowId = w then [⟨d.workflow, frame.state⟩] else [] := by
      rw [guardFrames, List.filterMap_cons, ← guardFrames, guardFrames_reports hreports]
      simp only [hm, sentMessage, guardFrame, Option.map_some, SendFrame.state]
      split <;> split <;> simp_all
    refine ⟨m :: new, ?_, ?_⟩
    · rw [store, hwritten, happly]
      exact (List.append_cons s.written m new).symm
    · rw [hguard, store, workflowGuardRow, hrows]
      by_cases hw : d.workflow.workflowId = w
      · subst hw
        exact .inr ⟨_, if_pos rfl, hmoved⟩
      · exact .inl ⟨if_neg hw, hothers w (Ne.symm hw)⟩

/-- Every step of a watched room. -/
theorem moves_step {e : Event} (hwatching : Watching nfc toISOString L s e)
    (hstep : Step nfc toISOString s e u) : Moves L w s u := by
  obtain ⟨-, hlimit, hsmall, hclears⟩ := hwatching
  obtain ⟨hready, rfl⟩ := hstep
  cases e with
  | enter call refused now =>
    refine Moves.still ⟨[], ?_, by simp⟩ ?_
    · simp only [next, enter]
      split
      · exact (List.append_nil _).symm
      · split
        · exact (List.append_nil _).symm
        · split <;> exact (List.append_nil _).symm
    · simp only [next, enter]
      split
      · rfl
      · split
        · rfl
        · split <;> rfl
  | resume call answers =>
    obtain ⟨routing, rate, -, -, hstored⟩ | ⟨message, hrefused⟩ |
        ⟨seq, rate, outcome, hleft, -, -⟩ := @resumed_cases nfc toISOString
      { s with sends := s.sends.erase call } call answers
    · have hmoves := @moves_store nfc
        { s with sends := s.sends.erase call, lastSeq := s.lastSeq + 1, rate := rate } L w
        hlimit hsmall call routing (s.lastSeq + 1) answers.now ?_
      · simp only [next, resume, hstored]
        exact hmoves
      · intro name hhuman hkind
        exact hclears ⟨⟨name, hhuman⟩, hkind, _, congrArg Prod.snd hstored⟩
    · simp only [next, resume, hrefused, alertLoopGuard]
      split
      · exact Moves.still ⟨[], (List.append_nil _).symm, by simp⟩ rfl
      · exact Moves.still ⟨[_], rfl, by simp⟩ rfl
    · simp only [next, resume, hleft]
      exact Moves.still ⟨[], (List.append_nil _).symm, by simp⟩ rfl
  | insertReply writer sender body mentions now =>
    refine Moves.still ⟨[_], rfl, ?_⟩ rfl
    simp only [List.mem_singleton, forall_eq]
    rcases hready with rfl | rfl <;> nofun
  | insertSystemStatus note now state mentions workflow =>
    exact Moves.still ⟨[_], rfl, by simp⟩ rfl
  | resetWorkflowGuard workflowId now => exact (hclears trivial).elim
  | resetGuard => exact Moves.still ⟨[], (List.append_nil _).symm, by simp⟩ rfl
  | cacheChannelMeta settings => exact Moves.still ⟨[], (List.append_nil _).symm, by simp⟩ rfl
  | presence workflows host => exact Moves.still ⟨[], (List.append_nil _).symm, by simp⟩ rfl
  | rewrite messages => exact Moves.still ⟨[], (List.append_nil _).symm, by simp⟩ rfl

/-- A watched run moves the detector of a workflow by the workflow's frames. -/
theorem moves_run {evs : List Event} {run : Option WorkflowId}
    (hrun : Run (Guarded (Step nfc toISOString) (Watching nfc toISOString L)) s evs t) :
    ∃ new, t.written = s.written ++ new ∧
      ((∀ f ∈ guardFrames w new, f.workflow.runId = run) →
        detector (t.workflowGuardRow w) run =
          ((guardFrames w new).map GuardFrame.toFrame).foldl (Detector.frame WORKFLOW_GUARD_WINDOW L)
            (detector (s.workflowGuardRow w) run)) := by
  induction hrun with
  | nil => exact ⟨[], (List.append_nil _).symm, fun _ => rfl⟩
  | snoc _ hstep ih =>
    obtain ⟨new, hnew, hdetector⟩ := ih
    obtain ⟨new', hnew', hmoved⟩ := moves_step (w := w) hstep.2 hstep.1
    refine ⟨new ++ new', by rw [hnew', hnew, List.append_assoc], fun hframes => ?_⟩
    rw [guardFrames, List.filterMap_append, ← guardFrames, ← guardFrames] at hframes ⊢
    have hbefore := hdetector fun f hf => hframes f (List.mem_append_left _ hf)
    obtain ⟨hnone, hrow⟩ | ⟨f, hf, hmoved⟩ := hmoved
    · rw [hnone, List.append_nil, hrow, hbefore]
    · obtain rfl : f.workflow.runId = run := hframes f (List.mem_append_right _ (hf ▸ List.mem_singleton_self f))
      rw [hf, hmoved, hbefore, List.map_append, List.foldl_append]
      rfl

theorem workflowGuardLimit_pos (s : Room) : 0 < s.workflowGuardLimit := by
  unfold workflowGuardLimit
  split <;> omega

/-- A frame that is no progress is refused while its workflow is blocked. -/
theorem resumed_blocked {call : Call} {answers : Answers} {routing : MentionRouting}
    (hrouting : answers.routing = .ok routing) {d : WorkflowGuardDecision}
    (hd : s.workflowGuardDecision call = some d)
    (hblocked : (s.workflowGuardRow d.workflow.workflowId).any (·.noProgress) = true)
    (hprogress : d.progressed = false) :
    ∃ message, s.resumed nfc toISOString call answers = (s, .failed ⟨.workflowGuard, message⟩) := by
  obtain ⟨row, hrow, hnone⟩ := (Option.any_eq_true _ _).1 hblocked
  refine ⟨workflowGuardBlockedMessage row.workflowId row.blockedSeq, ?_⟩
  have herror : (s.workflowGuardDecision call).bind s.workflowGuardError =
      some ⟨.workflowGuard, workflowGuardBlockedMessage row.workflowId row.blockedSeq⟩ := by
    rw [hd, Option.bind_some, workflowGuardError, hrow]
    simp only [hnone, hprogress, Bool.not_false, Bool.and_self, if_true]
  simp only [resumed, hrouting, checkGuards, herror]

section Bounded

/-- A workflow that is not blocked has been counted less often than the limit. -/
def Bounded (L : ℕ) (s : Room) : Prop :=
  ∀ row ∈ s.workflowGuardState, row.noProgress = false → row.countSinceProgress < L

theorem Bounded.put (h : Bounded L s) {row : WorkflowGuardRow}
    (hrow : row.noProgress = false → row.countSinceProgress < L) :
    Bounded L { s with workflowGuardState := s.workflowGuardState.put row } := by
  intro other hother
  obtain rfl | ⟨hother, -⟩ := Table.mem_put.1 hother
  · exact hrow
  · exact h other hother

theorem Bounded.prune (h : Bounded L s) : Bounded L s.pruneWorkflowGuardState := by
  dsimp only [pruneWorkflowGuardState]
  split
  · exact h
  · exact fun row hrow => h row (Table.mem_delete.1 hrow).1

theorem Bounded.reset (h : Bounded L s) (hpos : 0 < L) (p : WorkflowGuardRow → Bool) (now : Int) :
    Bounded L { s with
      workflowGuardState :=
        s.workflowGuardState.update p (clearedRow now) (workflowId_clearedRow now) } := by
  intro row hrow hfree
  obtain ⟨before, hbefore, rfl⟩ := (Table.mem_update (workflowId_clearedRow now)).1 hrow
  cases hp : p before with
  | true =>
    simp only [if_true]
    exact hpos
  | false =>
    simp only [hp, Bool.false_eq_true, if_false] at hfree ⊢
    exact h before hbefore hfree

theorem Bounded.count (h : Bounded L s) (hlimit : s.workflowGuardLimit = L)
    (workflow : StatusWorkflow) (status : Option StatusState) (seq : ℕ) (name : String)
    (hostName : Option String) (now : Int) :
    Bounded L (s.countWorkflowFrame workflow status seq name hostName now) := by
  have hput := @Bounded.put s L h (s.countedRow workflow status seq name hostName now) fun hfree => by
    simp only [countedRow, shouldTrip, hlimit, Bool.or_eq_false_iff, Bool.and_eq_false_imp,
      Bool.not_eq_true', decide_eq_false_iff_not, not_le] at hfree ⊢
    exact hfree.1 hfree.2
  dsimp only [countWorkflowFrame]
  refine Bounded.prune ?_
  split
  · exact hput
  · exact hput

theorem Bounded.apply (h : Bounded L s) (hlimit : s.workflowGuardLimit = L) (sender : Sender)
    (status : Option StatusState) (seq : ℕ) (decision : Option WorkflowGuardDecision) (now : Int) :
    Bounded L (s.applyWorkflowGuardAfterSend sender status seq decision now) := by
  have hpos : 0 < L := hlimit ▸ s.workflowGuardLimit_pos
  dsimp only [applyWorkflowGuardAfterSend]
  split
  · split
    · split
      · exact (h.put fun _ => hpos).prune
      · split
        · exact h.count hlimit _ _ _ _ _ _
        · exact h
    · split
      · exact h.count hlimit _ _ _ _ _ _
      · exact h
  · exact h

theorem Bounded.store (h : Bounded L s) (hlimit : s.workflowGuardLimit = L) (call : Call)
    (routing : MentionRouting) (decision : Option WorkflowGuardDecision) (seq : ℕ) (now : Int) :
    Bounded L (s.store nfc call routing decision seq now) := by
  have happly := Bounded.apply (s := s.insertMessage (sentMessage call routing decision seq now)) h
    hlimit call.sender call.frame.state seq decision now
  obtain ⟨sender, frame, key, rate⟩ := call
  cases frame with
  | status => exact happly
  | message =>
    cases sender with
    | agent name =>
      simp only [Room.store, countFrame]
      split <;> exact happly
    | human name => exact happly.reset (hlimit ▸ s.workflowGuardLimit_pos) _ now

theorem Bounded.step (h : Bounded L s) (hlimit : s.workflowGuardLimit = L) {e : Event}
    (hstep : Step nfc toISOString s e u) : Bounded L u := by
  have hpos : 0 < L := hlimit ▸ s.workflowGuardLimit_pos
  obtain ⟨hready, rfl⟩ := hstep
  cases e with
  | enter call refused now =>
    simp only [next, enter]
    split
    · exact h
    · split
      · exact h
      · split <;> exact h
  | resume call answers =>
    obtain ⟨routing, rate, -, -, hstored⟩ | ⟨message, hrefused⟩ |
        ⟨seq, rate, outcome, hleft, -, -⟩ := @resumed_cases nfc toISOString
      { s with sends := s.sends.erase call } call answers
    · simp only [next, resume, hstored]
      exact Bounded.store (s := { s with
        sends := s.sends.erase call, lastSeq := s.lastSeq + 1, rate := rate }) h hlimit _ _ _ _ _
    · simp only [next, resume, hrefused, alertLoopGuard]
      split <;> exact h
    · simp only [next, resume, hleft]
      exact h
  | resetWorkflowGuard workflowId now => exact h.reset hpos _ now
  | insertReply writer sender body mentions now => exact h
  | insertSystemStatus note now state mentions workflow => exact h
  | resetGuard => exact h
  | cacheChannelMeta settings => exact h
  | presence workflows host => exact h
  | rewrite messages => exact h

end Bounded

/-- A run of a workflow whose steps have come round is blocked by the limit's next frames. -/
theorem blocked_of_periodic {evs : List Event} {new : List Message} {run : Option WorkflowId} {p : ℕ}
    {before after : List GuardFrame}
    (hrun : Run (Guarded (Step nfc toISOString) (Watching nfc toISOString L)) s evs t)
    (hnew : t.written = s.written ++ new) (hsplit : guardFrames w new = before ++ after)
    (hframes : ∀ f ∈ before ++ after, f.workflow.runId = run ∧ f.state ≠ some .done)
    (hpos : 0 < p) (hwindow : p ≤ WORKFLOW_GUARD_WINDOW)
    (hperiodic : Periodic p (tuples (before ++ after))) (hbefore : p ≤ (tuples before).length)
    (hafter : L ≤ after.length) :
    (t.workflowGuardRow w).any (·.noProgress) = true ∧
      ∀ (workflow : StatusWorkflow) (state : StatusState), workflow.runId = run →
        Periodic p (tuples (before ++ after) ++ [(workflow.stepId, state)]) →
        workflowProgressed workflow state (t.workflowGuardRow w) = false := by
  obtain ⟨new', hnew', hdetector⟩ := @moves_run nfc toISOString _ _ _ w _ run hrun
  obtain rfl : new = new' := List.append_cancel_left (hnew.symm.trans hnew')
  rw [hsplit] at hdetector
  have hmoved := hdetector fun f hf => (hframes f hf).1
  have hkeys (fs : List GuardFrame) : (entries (fs.map GuardFrame.toFrame)).length = (tuples fs).length := by
    rw [entries_toFrame, List.length_map]
  have hlimit : 0 < L := by
    cases hrun with
    | nil =>
      obtain rfl : new = [] := List.self_eq_append_right.1 hnew
      obtain ⟨rfl, -⟩ := List.append_eq_nil_iff.1 hsplit.symm
      exact absurd hbefore (by simp [tuples]; omega)
    | snoc _ hstep => exact hstep.2.2.1 ▸ workflowGuardLimit_pos _
  constructor
  · rw [List.map_append] at hmoved
    have htripped := @Detector.tripped_of_periodic _ WORKFLOW_GUARD_WINDOW p _ L hpos hwindow hlimit
      (detector (s.workflowGuardRow w) run) (length_recent _ _) (before.map GuardFrame.toFrame)
      (after.map GuardFrame.toFrame) ?_ ?_ ?_ ?_
    · rw [← hmoved] at htripped
      exact htripped
    · intro f hf a hfinal
      rw [← List.map_append] at hf
      obtain ⟨frame, hframe, rfl⟩ := List.mem_map.1 hf
      obtain ⟨workflow, _ | state⟩ := frame
      · nomatch hfinal
      · have hdone : state ≠ .done := fun h => (hframes _ hframe).2 (congrArg some h)
        simp only [GuardFrame.toFrame, if_neg hdone] at hfinal
        nomatch hfinal
    · rw [← List.map_append, entries_toFrame]
      exact hperiodic.map _
    · rwa [hkeys]
    · rwa [List.length_map]
  · intro workflow state hrun' hnext
    rw [← Bool.not_eq_true, workflowProgressed_iff, not_not, hrun', hmoved]
    refine Detector.mem_recent_of_periodic hpos hwindow (length_recent _ _) ?_ ?_
    · rw [entries_toFrame]
      have := hnext.map tupleKey
      rwa [List.map_append] at this
    · rw [hkeys, tuples, List.filterMap_append, List.length_append]
      exact hbefore.trans (Nat.le_add_right _ _)

/-- A status whose step and state are new to the window takes the count to nothing. -/
theorem count_of_distinct {evs : List Event} {e : Event} {new : List Message}
    {run : Option WorkflowId}
    (hrun : Run (Guarded (Step nfc toISOString) (Watching nfc toISOString L)) s evs t)
    (hwatching : Watching nfc toISOString L t e) (hstep : Step nfc toISOString t e u)
    (hnew : u.written = s.written ++ new)
    (hframes : ∀ f ∈ guardFrames w new, f.workflow.runId = run ∧ f.state ≠ none)
    (hdistinct : DistinctWithin WORKFLOW_GUARD_WINDOW
      ((detector (s.workflowGuardRow w) run).recent ++ (tuples (guardFrames w new)).map tupleKey)) :
    (detector (u.workflowGuardRow w) run).count ≤ (detector (t.workflowGuardRow w) run).count := by
  obtain ⟨new₁, hnew₁, hdetector⟩ := @moves_run nfc toISOString _ _ _ w _ run hrun
  obtain ⟨new₂, hnew₂, hmoved⟩ := moves_step (w := w) hwatching hstep
  obtain rfl : new = new₁ ++ new₂ := by
    rw [hnew₂, hnew₁, List.append_assoc] at hnew
    exact (List.append_cancel_left hnew).symm
  obtain ⟨-, hrow⟩ | ⟨f, hf, hmoved⟩ := hmoved
  · rw [hrow]
  · rw [guardFrames, List.filterMap_append, ← guardFrames, ← guardFrames, hf] at hframes hdistinct
    obtain ⟨rfl, hstate⟩ := hframes f (List.mem_append_right _ (List.mem_singleton_self f))
    obtain ⟨state, hstate⟩ := Option.ne_none_iff_exists'.1 hstate
    rw [hmoved, hdetector fun g hg => (hframes g (List.mem_append_left _ hg)).1,
      Detector.count_frame_of_distinct (a := tupleKey (f.workflow.stepId, state))
        (length_recent _ _) ?_ ?_]
    · exact Nat.zero_le _
    · rw [entry?_toFrame, GuardFrame.tuple, hstate]
      rfl
    · rw [entries_toFrame, List.append_assoc]
      rw [tuples, List.filterMap_append, List.map_append] at hdistinct
      simpa [tuples, GuardFrame.tuple, hstate] using hdistinct

variable (nfc toISOString) in
/-- A workflow whose steps come round within the window is blocked by as many frames as the
limit behind its first period, and what would go on with the period is refused. One whose steps
do not come round within the window is never counted. A workflow that is not blocked has been
counted less often than the limit. -/
theorem workflow_guard_window :
    (∀ {L : ℕ} {s t : Room} {evs : List Event} {new : List Message} {w : WorkflowId}
      {run : Option WorkflowId} {p : ℕ} {before after : List GuardFrame},
      Run (Guarded (Step nfc toISOString) (Watching nfc toISOString L)) s evs t →
      t.written = s.written ++ new → guardFrames w new = before ++ after →
      (∀ f ∈ before ++ after, f.workflow.runId = run ∧ f.state ≠ some .done) →
      0 < p → p ≤ WORKFLOW_GUARD_WINDOW → Periodic p (tuples (before ++ after)) →
      p ≤ (tuples before).length → L ≤ after.length →
        (t.workflowGuardRow w).any (·.noProgress) = true ∧
        (∀ (workflow : StatusWorkflow) (state : StatusState), workflow.runId = run →
          Periodic p (tuples (before ++ after) ++ [(workflow.stepId, state)]) →
          workflowProgressed workflow state (t.workflowGuardRow w) = false) ∧
        ∀ (call : Call) (answers : Answers) (routing : MentionRouting) (d : WorkflowGuardDecision),
          answers.routing = .ok routing → t.workflowGuardDecision call = some d →
          d.workflow.workflowId = w → d.progressed = false →
          ∃ message,
            t.resumed nfc toISOString call answers = (t, .failed ⟨.workflowGuard, message⟩)) ∧
    (∀ {L : ℕ} {s t u : Room} {evs : List Event} {e : Event} {new : List Message} {w : WorkflowId}
      {run : Option WorkflowId},
      Run (Guarded (Step nfc toISOString) (Watching nfc toISOString L)) s evs t →
      Watching nfc toISOString L t e → Step nfc toISOString t e u →
      u.written = s.written ++ new →
      (∀ f ∈ guardFrames w new, f.workflow.runId = run ∧ f.state ≠ none) →
      DistinctWithin WORKFLOW_GUARD_WINDOW
        ((detector (s.workflowGuardRow w) run).recent ++ (tuples (guardFrames w new)).map tupleKey) →
        (detector (u.workflowGuardRow w) run).count ≤ (detector (t.workflowGuardRow w) run).count) ∧
    Function.Injective tupleKey ∧
    ∀ {L : ℕ} {settings : Settings} {t : Room} {evs : List Event},
      Run (Guarded (Step nfc toISOString) fun s _ => s.workflowGuardLimit = L) (initial settings)
        evs t →
        ∀ row ∈ t.workflowGuardState, row.noProgress = false → row.countSinceProgress < L := by
  refine ⟨?_, fun hrun hwatching hstep => count_of_distinct hrun hwatching hstep,
    tupleKey_injective, ?_⟩
  · intro L s t evs new w run p before after hrun hnew hsplit hframes hpos hwindow hperiodic
      hbefore hafter
    obtain ⟨hblocked, hold⟩ := blocked_of_periodic hrun hnew hsplit hframes hpos hwindow hperiodic
      hbefore hafter
    refine ⟨hblocked, hold, fun call answers routing d hrouting hd hw hprogress => ?_⟩
    subst hw
    exact resumed_blocked hrouting hd hblocked hprogress
  · intro L settings t evs hrun
    have hbounded : Bounded L t :=
      hrun.invariant (fun _ _ _ h hstep => h.step hstep.2 hstep.1) fun row hrow =>
        (Table.not_mem_empty row hrow).elim
    exact hbounded

section Late

def jobId : WorkflowId := ⟨"job", by decide⟩

def job (step : Option WorkflowId) : StatusWorkflow := ⟨jobId, .pipeline, some jobId, step, none⟩

def builder : AgentName := ⟨"builder", by decide⟩

def statusAt (step : Option WorkflowId) : Call :=
  ⟨.agent builder, .status .working "on it" [] (some (job step)), none, true⟩

/-- A message of the agent, whose status names the job. -/
def chatter : Call := ⟨.agent builder, .message "still on it" [] none, none, true⟩

def limitTwo : Settings := ⟨false, false, none, true, some 2⟩

/-- The steps alternate, with a message behind each. -/
def alternating : List Event :=
  .presence (fun _ => some (job none)) none ::
    inTurn [statusAt none, chatter, statusAt (some jobId), chatter]

/-- The first step comes round again. -/
def standing : List Event :=
  .presence (fun _ => some (job none)) none ::
    inTurn [statusAt none, chatter, statusAt (some jobId), chatter, statusAt none]

theorem run_limitTwo {evs : List Event}
    (h : AllReady (fun s e => s.Ready e ∧ s.settings = limitTwo ∧
      s.workflowGuardState.rows.length < 200 ∧ mayReset e = false) (next id fun _ => "")
        (initial limitTwo) evs) :
    Run (Guarded (Step id fun _ => "") (Watching id (fun _ => "") 2)) (initial limitTwo) evs
      (evs.foldl (next id fun _ => "") (initial limitTwo)) := by
  refine run_of_ready (fun s e hready => ⟨⟨hready.1, rfl⟩, ?_, ?_, hready.2.2.1, fun hclears => ?_⟩) h
  · rw [hready.2.1]
    rfl
  · rw [workflowGuardLimit, hready.2.1]
    rfl
  · have hmay : mayReset e = true := by
      cases e with
      | resume call answers => exact StoresHumanMessage.mayReset hclears
      | resetWorkflowGuard workflowId now => rfl
      | _ => exact hclears.elim
    exact Bool.false_ne_true (hready.2.2.2.symm.trans hmay)

theorem workflow_guard_window_standing :
    ((standing.foldl (next id fun _ => "") (initial limitTwo)).workflowGuardRow jobId).any
      (·.noProgress) = true := by
  have hrun := @run_limitTwo standing (by decide)
  have hframes : guardFrames jobId
      (standing.foldl (next id fun _ => "") (initial limitTwo)).written =
        [⟨job none, some .working⟩, ⟨job none, none⟩, ⟨job (some jobId), some .working⟩] ++
          [⟨job none, none⟩, ⟨job none, some .working⟩] := by
    decide
  obtain ⟨hwindow, -⟩ := workflow_guard_window id fun _ => ""
  refine (@hwindow _ _ _ _ _ _ (some jobId) 2 _ _ hrun rfl hframes
    (by decide) Nat.two_pos (by decide) ?_ (by decide) (by decide)).1
  intro i hi
  rcases i with _ | i
  · rfl
  · exact absurd hi (Nat.not_lt.2 (Nat.le_add_left _ _))

/-- The message behind the first step is forgotten at the second one, so that the period and the
limit together are not frames enough. -/
theorem workflow_guard_late :
    ¬∀ (L p : ℕ) (s t : Room) (evs : List Event) (new : List Message) (w : WorkflowId)
      (run : Option WorkflowId),
      Run (Guarded (Step id fun _ => "") (Watching id (fun _ => "") L)) s evs t →
      t.written = s.written ++ new →
      (∀ f ∈ guardFrames w new, f.workflow.runId = run ∧ f.state ≠ some .done) →
      0 < p → p ≤ WORKFLOW_GUARD_WINDOW → Periodic p (tuples (guardFrames w new)) →
      p + L ≤ (guardFrames w new).length → (t.workflowGuardRow w).any (·.noProgress) = true := by
  intro hclaim
  have hrun := @run_limitTwo alternating (by decide)
  have hlong : (tuples (guardFrames jobId
      (alternating.foldl (next id fun _ => "") (initial limitTwo)).written)).length = 2 := by
    decide
  have hblocked := hclaim 2 2 _ _ alternating
    (alternating.foldl (next id fun _ => "") (initial limitTwo)).written jobId (some jobId) hrun
    (List.nil_append _).symm (by decide) Nat.two_pos (by decide)
    (fun i hi => absurd hi (by rw [hlong]; omega)) (by decide)
  exact absurd hblocked (by decide)

end Late

end Room

end Guards
end AgentParty
