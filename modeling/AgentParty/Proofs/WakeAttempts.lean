import AgentParty.Cli.ServeLoop

/-! How often the runner starts for one message. The debt file holds the count between two
processes; what is under way, or cleared but not acked, is in no file. -/

namespace AgentParty
namespace Serve

variable {o : ServeOptions} {s s' : State} {i : Instance} {w : Work} {q : ℕ}

/-- What has become of the wake is not on disk yet. -/
def Phase.unsaved : Phase → Bool
  | .running _ | .preflightSettled | .settled | .circuit => true
  | _ => false

/-- Failures that the debt file counts for a message. -/
def State.attempts (s : State) (q : ℕ) : ℕ :=
  ((s.stuck.filter fun d => d.seq = q).map (·.attempts)).getD 0

def State.mayRetry (s : State) (q : ℕ) : Bool :=
  (s.stuck.filter fun d => d.seq = q).all (·.retriable)

/-- The work and the debt file agree. -/
def WorkTidy (o : ServeOptions) (s : State) (w : Work) : Prop :=
  s.cursor < w.frame.seq ∧ (∀ d, s.stuck = some d → d.seq = w.frame.seq) ∧
    match w.phase with
    | .preparing => w.attemptFloor = s.attempts w.frame.seq ∧
        w.retriable = s.mayRetry w.frame.seq ∧ s.starts.count w.frame.seq ≤ s.attempts w.frame.seq
    | .retrying k => k = s.attempts w.frame.seq + 1 ∧
        w.retriable = s.mayRetry w.frame.seq ∧ s.starts.count w.frame.seq ≤ s.attempts w.frame.seq
    | .running k => k = s.attempts w.frame.seq + 1 ∧ k ≤ o.maxAttempts ∧
        s.starts.count w.frame.seq ≤ k
    | .preflightSettled | .settled | .circuit => s.stuck = none
    | .preflightFailed | .preflightSkipped | .givingUp | .heldConfig =>
        s.starts.count w.frame.seq ≤ s.attempts w.frame.seq

structure Tidy (o : ServeOptions) (s : State) : Prop where
  lease : ∀ i, s.inst = some i → i.hasLease = true → i.deferredLeaseSeq = none
  working : ∀ i w, s.inst = some i → i.work = some w → i.hasLease = true ∧ WorkTidy o s w
  counts : ∀ q, s.starts.count q ≤ o.maxAttempts
  budget : ∀ q, s.cursor < q →
    (∀ i w, s.inst = some i → i.work = some w → w.frame.seq ≠ q) →
      s.starts.count q ≤ s.attempts q

/-- No process ends while what has become of a wake is not on disk, a preparation does not
call a wake retriable that is not, and a lease is only granted to a standby that knows its
state since the last welcome. -/
def Careful (s : State) : Event → Prop
  | .exit | .kill => s.atPhase Phase.unsaved = false
  | .prepared (.failed retriable) => ∀ i, s.inst = some i → ∀ w, i.work = some w →
      w.retriable = false → retriable = false
  | .take => ∀ i, s.inst = some i → i.conn.queue.head? = some (.serveLease true) →
      i.deferredLeaseSeq.isSome = true → i.leaseKnown = true
  | _ => True

theorem of_atPhase {p : Phase → Bool} (h : s.atPhase p = true) :
    ∃ i w, s.inst = some i ∧ i.work = some w ∧ p w.phase = true := by
  obtain ⟨i, hi, h⟩ := Option.any_eq_true _ _ |>.1 h
  obtain ⟨w, hw, hp⟩ := Option.any_eq_true _ _ |>.1 h
  exact ⟨i, w, hi, hw, hp⟩

theorem atPhase_of {p : Phase → Bool} (hi : s.inst = some i) (hw : i.work = some w)
    (hp : p w.phase = true) : s.atPhase p = true := by
  simp [State.atPhase, hi, hw, hp]

@[simp] theorem withInst_inst (s : State) (i : Instance) : (s.withInst i).inst = some i := rfl

@[simp] theorem withInst_cursor (s : State) (i : Instance) : (s.withInst i).cursor = s.cursor := rfl

@[simp] theorem withInst_stuck (s : State) (i : Instance) : (s.withInst i).stuck = s.stuck := rfl

@[simp] theorem withInst_starts (s : State) (i : Instance) : (s.withInst i).starts = s.starts := rfl

theorem attempts_none (h : s.stuck = none) : s.attempts q = 0 := by
  rw [State.attempts, h]
  rfl

theorem attempts_some {d : StuckWake} (h : s.stuck = some d) :
    s.attempts q = if d.seq = q then d.attempts else 0 := by
  unfold State.attempts
  rw [h, Option.filter_some]
  split_ifs with hd <;> simp_all

/-- The debt as it has just been written. -/
theorem attempts_set (s : State) (d : StuckWake) :
    ({ s with stuck := some d } : State).attempts d.seq = d.attempts := by
  simp [State.attempts, Option.filter]

theorem mayRetry_set (s : State) (d : StuckWake) :
    ({ s with stuck := some d } : State).mayRetry d.seq = d.retriable := by
  simp [State.mayRetry]

/-- A message without the debt has no count. -/
theorem attempts_other (h : ∀ d, s.stuck = some d → d.seq = q) {q' : ℕ} (hne : q' ≠ q) :
    s.attempts q' = 0 := by
  cases hs : s.stuck with
  | none => exact attempts_none hs
  | some d =>
    rw [attempts_some hs, if_neg]
    rw [h d hs]
    exact Ne.symm hne

/-- Without unsaved work the debt file bounds every message above the cursor. -/
theorem Tidy.saved (h : Tidy o s) (hsaved : s.atPhase Phase.unsaved = false) (hq : s.cursor < q) :
    s.starts.count q ≤ s.attempts q := by
  by_cases hwork : ∃ i w, s.inst = some i ∧ i.work = some w ∧ w.frame.seq = q
  · obtain ⟨i, w, hi, hw, rfl⟩ := hwork
    obtain ⟨-, -, -, hphase⟩ := h.working i w hi hw
    have hp : Phase.unsaved w.phase = false := by
      by_contra hne
      rw [atPhase_of hi hw (Bool.eq_true_of_not_eq_false hne)] at hsaved
      cases hsaved
    cases hw' : w.phase <;> rw [hw'] at hphase hp
    case preparing | retrying => exact hphase.2.2
    case running | preflightSettled | settled | circuit => cases hp
    all_goals exact hphase
  · exact h.budget q hq fun i w hi hw heq => hwork ⟨i, w, hi, hw, heq⟩

theorem Tidy.gone (h : Tidy o s) (hsaved : s.atPhase Phase.unsaved = false)
    (cutoff : Option ℕ) : Tidy o { s with inst := none, backlogCutoff := cutoff } where
  lease i hi := by cases hi
  working i w hi := by cases hi
  counts := h.counts
  budget q hq _ := h.saved hsaved hq

theorem tidy_withInst (hlease : i.hasLease = true → i.deferredLeaseSeq = none)
    (hwork : i.work = none) (hcounts : ∀ q, s.starts.count q ≤ o.maxAttempts)
    (hbudget : ∀ q, s.cursor < q → s.starts.count q ≤ s.attempts q) : Tidy o (s.withInst i) where
  lease i' hi' := by
    cases hi'
    exact hlease
  working i' w hi' hw := by
    cases hi'
    rw [hwork] at hw
    cases hw
  counts := hcounts
  budget q hq _ := hbudget q hq

theorem tidy_ack {seq : ℕ} (hlease : i.hasLease = true → i.deferredLeaseSeq = none)
    (hwork : i.work = none) (hcounts : ∀ q, s.starts.count q ≤ o.maxAttempts)
    (hbudget : ∀ q, s.cursor < q → q ≠ seq → s.starts.count q ≤ s.attempts q) :
    Tidy o (s.ack i seq) where
  lease i' hi' := by
    cases hi'
    exact hlease
  working i' w hi' hw := by
    cases hi'
    change i.work = some w at hw
    rw [hwork] at hw
    cases hw
  counts := hcounts
  budget q hq _ := by
    change max s.cursor seq < q at hq
    rw [Nat.max_lt] at hq
    exact hbudget q hq.1 (Nat.ne_of_gt hq.2)

theorem tidy_finish {m : Msg} (hlease : i.hasLease = true → i.deferredLeaseSeq = none)
    (hwork : i.work = none) (hcounts : ∀ q, s.starts.count q ≤ o.maxAttempts)
    (hbudget : ∀ q, s.cursor < q → s.starts.count q ≤ s.attempts q) : Tidy o (s.finish i m) := by
  unfold State.finish
  split_ifs
  · exact tidy_ack hlease hwork hcounts fun q hq _ => hbudget q hq
  · exact tidy_withInst hlease hwork hcounts hbudget

/-- A holder with no debt acks what it has done with. -/
theorem finish_settled {m : Msg} (hdeferred : i.deferredLeaseSeq = none) (hstuck : s.stuck = none) :
    s.finish i m = s.ack i m.seq := by
  simp [State.finish, State.heldForLease, hdeferred, hstuck]

theorem Tidy.saved_of_idle (h : Tidy o s) (hi : s.inst = some i) (hwork : i.work = none)
    (hq : s.cursor < q) : s.starts.count q ≤ s.attempts q := by
  refine h.budget q hq fun i' w hi' hw => ?_
  rw [hi] at hi'
  cases hi'
  rw [hwork] at hw
  cases hw

/-- A wake begins without a debt, or on its debt. -/
theorem stuck_of_wouldWake {m : Msg} (h : wouldWake o s i m = true) :
    s.cursor < m.seq ∧ ∀ d, s.stuck = some d → d.seq = m.seq := by
  unfold wouldWake at h
  rw [Bool.and_eq_true, Bool.and_eq_true] at h
  refine ⟨of_decide_eq_true h.1.1, fun d hd => ?_⟩
  have hfree := h.1.2
  simpa [blockedByDebt, isDebt, hd] using hfree

theorem tidy_message {m : Msg} (hlease : i.hasLease = true → i.deferredLeaseSeq = none)
    (hwork : i.work = none) (hcounts : ∀ q, s.starts.count q ≤ o.maxAttempts)
    (hbudget : ∀ q, s.cursor < q → s.starts.count q ≤ s.attempts q) :
    Tidy o (s.message o i m) := by
  unfold State.message
  split_ifs with hqualifies hdeferred
  · unfold qualifies at hqualifies
    rw [Bool.and_eq_true, Bool.and_eq_true] at hqualifies
    obtain ⟨hcursor, hdebt⟩ := stuck_of_wouldWake hqualifies.1.1
    refine ⟨fun i' hi' => ?_, fun i' w hi' hw => ?_, hcounts, fun q hq _ => hbudget q hq⟩
    · cases hi'
      exact hlease
    · cases hi'
      cases hw
      exact ⟨hqualifies.2, hcursor, hdebt, rfl, rfl, hbudget m.seq hcursor⟩
  · unfold deferredForLease at hdeferred
    rw [Bool.and_eq_true, Bool.not_eq_true'] at hdeferred
    refine tidy_finish (fun hhas => ?_) hwork hcounts hbudget
    exact absurd (hdeferred.2.symm.trans hhas) Bool.false_ne_true
  · exact tidy_finish hlease hwork hcounts hbudget

theorem tidy_take (h : Tidy o s) (hi : s.inst = some i) (hwork : i.work = none)
    (hcare : i.conn.queue.head? = some (.serveLease true) → i.deferredLeaseSeq.isSome = true →
      i.leaseKnown = true) : Tidy o (s.take o i) := by
  have hlease := h.lease i hi
  have hbudget : ∀ q, s.cursor < q → s.starts.count q ≤ s.attempts q :=
    fun q hq => h.saved_of_idle hi hwork hq
  unfold State.take
  split
  · exact h
  · rename_i f queue hqueue
    rw [hqueue, List.head?_cons] at hcare
    cases f with
    | welcome lastSeq directedDelivery paused =>
      refine ⟨fun i' hi' => ?_, fun i' w hi' hw => ?_, h.counts, fun q hq _ => hbudget q hq⟩
      · cases hi'
        exact hlease
      · cases hi'
        change i.work = some w at hw
        rw [hwork] at hw
        cases hw
    | serveLease held =>
      refine tidy_withInst (fun hheld => ?_) hwork h.counts hbudget
      dsimp only at hheld ⊢
      subst hheld
      split_ifs with htaking
      · rfl
      · by_contra hdeferred
        have hknown := hcare rfl (Option.isSome_iff_ne_none.2 hdeferred)
        cases hhas : i.hasLease with
        | true => exact hdeferred (hlease hhas)
        | false => simp [hknown, hhas] at htaking
    | presence paused => exact tidy_withInst hlease hwork h.counts hbudget
    | msg m => exact tidy_message hlease hwork h.counts hbudget

/-- A step of the work that starts nothing. -/
theorem tidy_working (h : Tidy o s) (hi : s.inst = some i) (hw : i.work = some w) {w' : Work}
    {stuck : Option StuckWake} {abandons : ℕ} (hframe : w'.frame = w.frame)
    (htidy : WorkTidy o { s with stuck := stuck } w') :
    Tidy o ({ s with stuck := stuck }.withWork
      { i with consecutiveWakeAbandons := abandons } w') := by
  obtain ⟨hhas, -, hold, -⟩ := h.working i w hi hw
  refine ⟨fun i' hi' => ?_, fun i' v hi' hv => ?_, h.counts, fun q hq hnone => ?_⟩
  · cases hi'
    exact h.lease i hi
  · cases hi'
    cases hv
    exact ⟨hhas, htidy⟩
  · have hne : q ≠ w.frame.seq := by
      rintro rfl
      exact hnone _ w' rfl rfl (congrArg Msg.seq hframe)
    have hbudget : s.starts.count q ≤ s.attempts q := by
      refine h.budget q hq fun i' v hi' hv heq => hne ?_
      rw [hi] at hi'
      cases hi'
      rw [hw] at hv
      cases hv
      exact heq.symm
    rw [attempts_other hold hne] at hbudget
    exact hbudget.trans (Nat.zero_le _)

theorem tidy_attempt (h : Tidy o s) (hi : s.inst = some i) (hw : i.work = some w) {k : ℕ}
    (hk : k = s.attempts w.frame.seq + 1)
    (hcount : s.starts.count w.frame.seq ≤ s.attempts w.frame.seq) :
    Tidy o (s.attempt o i w k) := by
  obtain ⟨hhas, hcursor, hold, -⟩ := h.working i w hi hw
  unfold State.attempt
  split_ifs with hgo
  · rw [Bool.and_eq_true, decide_eq_true_eq] at hgo
    have hstart : (s.starts ++ [w.frame.seq]).count w.frame.seq ≤ k := by
      rw [List.count_append, List.count_singleton_self]
      omega
    have hother : ∀ q, q ≠ w.frame.seq →
        (s.starts ++ [w.frame.seq]).count q = s.starts.count q := by
      intro q hne
      rw [List.count_append, List.count_singleton, if_neg (by simpa using Ne.symm hne), Nat.add_zero]
    refine ⟨fun i' hi' => ?_, fun i' v hi' hv => ?_, fun q => ?_, fun q hq hnone => ?_⟩
    · cases hi'
      exact h.lease i hi
    · cases hi'
      cases hv
      exact ⟨hhas, hcursor, hold, hk, hgo.1, hstart⟩
    · by_cases hne : q = w.frame.seq
      · subst hne
        exact hstart.trans hgo.1
      · exact (hother q hne).le.trans (h.counts q)
    · have hne : q ≠ w.frame.seq := fun heq => hnone _ _ rfl rfl heq.symm
      refine (hother q hne).le.trans (h.budget q hq fun i' v hi' hv heq => hne ?_)
      rw [hi] at hi'
      cases hi'
      rw [hw] at hv
      cases hv
      exact heq.symm
  · exact tidy_working h hi hw rfl ⟨hcursor, hold, hcount⟩

theorem tidy_prepared (h : Tidy o s) (hi : s.inst = some i) (hw : i.work = some w)
    (hphase : w.phase = .preparing) (p : Preparation) : Tidy o (s.prepared o i w p) := by
  obtain ⟨-, hcursor, hold, hwork⟩ := h.working i w hi hw
  rw [hphase] at hwork
  obtain ⟨hfloor, -, hcount⟩ := hwork
  have hnew : ∀ retriable, ∀ d, some (⟨w.frame.seq, w.attemptFloor + 1, retriable, false⟩ :
      StuckWake) = some d → d.seq = w.frame.seq := by
    intro retriable d hd
    cases hd
    rfl
  have hmore : ∀ retriable, s.starts.count w.frame.seq ≤
      ({ s with stuck := some ⟨w.frame.seq, w.attemptFloor + 1, retriable, false⟩ } :
        State).attempts w.frame.seq := by
    intro retriable
    have hset := attempts_set s ⟨w.frame.seq, w.attemptFloor + 1, retriable, false⟩
    exact hset ▸ hfloor ▸ hcount.trans (Nat.le_succ _)
  cases p with
  | ok => exact tidy_attempt h hi hw (by rw [hfloor]) hcount
  | failed retriable =>
    unfold State.prepared
    dsimp only
    split_ifs
    · refine tidy_working h hi hw rfl ⟨hcursor, hnew retriable, ?_⟩
      simp only [hphase]
      exact ⟨(attempts_set s ⟨w.frame.seq, w.attemptFloor + 1, retriable, false⟩).symm,
        (mayRetry_set s ⟨w.frame.seq, w.attemptFloor + 1, retriable, false⟩).symm, hmore retriable⟩
    · exact tidy_working h hi hw rfl ⟨hcursor, hnew retriable, hmore retriable⟩
  | undispatched =>
    exact tidy_working h hi hw rfl ⟨hcursor, hnew false, hmore false⟩

theorem tidy_ran (h : Tidy o s) (hi : s.inst = some i) (hw : i.work = some w) {k : ℕ}
    (hphase : w.phase = .running k) (r : Outcome) : Tidy o (s.ran i w k r) := by
  obtain ⟨-, hcursor, hold, hwork⟩ := h.working i w hi hw
  rw [hphase] at hwork
  obtain ⟨-, -, hcount⟩ := hwork
  cases r with
  | success =>
    have hnone : s.stuck.filter (fun d => d.seq ≠ w.frame.seq) = none := by
      cases hs : s.stuck with
      | none => rfl
      | some d => simp [hold d hs]
    unfold State.ran
    simp only [hnone]
    exact tidy_working h hi hw rfl ⟨hcursor, fun d hd => (by cases hd), rfl⟩
  | failed retriable configuration terminationUnconfirmed =>
    have hnew : ∀ d, some (⟨w.frame.seq, k, retriable, terminationUnconfirmed⟩ : StuckWake) =
        some d → d.seq = w.frame.seq := by
      intro d hd
      cases hd
      rfl
    have hattempts := attempts_set s ⟨w.frame.seq, k, retriable, terminationUnconfirmed⟩
    have hretriable := mayRetry_set s ⟨w.frame.seq, k, retriable, terminationUnconfirmed⟩
    refine tidy_working h hi hw rfl ⟨hcursor, hnew, ?_⟩
    cases configuration with
    | true => exact hcount.trans hattempts.ge
    | false =>
      exact ⟨congrArg Nat.succ hattempts.symm, hretriable.symm, hcount.trans hattempts.ge⟩

/-- The end of a wake that is done with: the cursor goes to it. -/
theorem tidy_acked (h : Tidy o s) (hi : s.inst = some i) (hw : i.work = some w) :
    Tidy o (s.ack { i with work := none } w.frame.seq) := by
  refine tidy_ack (h.lease i hi) rfl h.counts fun q hq hne => ?_
  refine h.budget q hq fun i' v hi' hv heq => hne ?_
  rw [hi] at hi'
  cases hi'
  rw [hw] at hv
  cases hv
  exact heq.symm

theorem tidy_posted (h : Tidy o s) (hi : s.inst = some i) (hw : i.work = some w) (ok : Bool) : Tidy o (s.posted i w ok) := by
  obtain ⟨hhas, hcursor, hold, hwork⟩ := h.working i w hi hw
  have hgone : w.phase.unsaved = false → Tidy o { s with inst := none } := by
    intro hsaved
    refine h.gone (Bool.eq_false_iff.2 fun hunsaved => ?_) s.backlogCutoff
    obtain ⟨i', v, hi', hv, hp⟩ := of_atPhase hunsaved
    rw [hi] at hi'
    cases hi'
    rw [hw] at hv
    cases hv
    rw [hsaved] at hp
    cases hp
  have hclear : ∀ d, (none : Option StuckWake) = some d → d.seq = w.frame.seq := by
    intro d hd
    cases hd
  unfold State.posted
  split
  · rename_i hp
    split_ifs
    · exact tidy_working h hi hw rfl ⟨hcursor, hclear, rfl⟩
    · exact hgone (by rw [hp]; rfl)
  · rename_i hp
    split_ifs
    · refine tidy_working h hi hw rfl ⟨hcursor, hclear, ?_⟩
      dsimp only
      split_ifs <;> rfl
    · exact hgone (by rw [hp]; rfl)
  · rename_i hp
    exact hgone (by rw [hp]; rfl)
  · rename_i hp
    rw [hp] at hwork
    have hacked := tidy_acked h hi hw
    have hfinish : s.finish { i with work := none } w.frame =
        s.ack { i with work := none } w.frame.seq := finish_settled (h.lease i hi hhas) hwork
    rw [hfinish]
    exact hacked.gone rfl s.backlogCutoff
  · exact h

theorem tidy_proceed (h : Tidy o s) (hi : s.inst = some i) (hw : i.work = some w) :
    Tidy o (s.proceed o i w) := by
  obtain ⟨hhas, hcursor, hold, hwork⟩ := h.working i w hi hw
  unfold State.proceed
  split
  · rename_i k hp
    rw [hp] at hwork
    exact tidy_attempt h hi hw hwork.1 hwork.2.2
  · exact tidy_working h hi hw rfl ⟨hcursor, fun d hd => (by cases hd), rfl⟩
  · rename_i hp
    rw [hp] at hwork
    exact tidy_acked h hi hw
  · rename_i hp
    rw [hp] at hwork
    have hfinish : s.finish { i with work := none } w.frame =
        s.ack { i with work := none } w.frame.seq := finish_settled (h.lease i hi hhas) hwork
    rw [hfinish]
    exact tidy_acked h hi hw
  · exact h

theorem Tidy.step {e : Event} (h : Tidy o s) (hcare : Careful s e) (hs : Step o s e s') :
    Tidy o s' := by
  obtain ⟨hready, rfl⟩ := hs
  cases e with
  | start =>
    refine ⟨fun i hi => ?_, fun i w hi hw => ?_, h.counts, fun q hq _ => ?_⟩
    · cases hi
      exact fun _ => rfl
    · cases hi
      cases hw
    · refine h.budget q hq fun i w hi => ?_
      rw [show s.inst = none from hready] at hi
      cases hi
  | exit => exact h.gone hcare s.backlogCutoff
  | kill => exact h.gone hcare none
  | arrive f =>
    obtain ⟨i, hi, -⟩ := Option.any_eq_true _ _ |>.1 hready
    simp only [State.next, hi]
    refine ⟨fun i' hi' => ?_, fun i' w hi' hw => ?_, h.counts, fun q hq hnone => ?_⟩
    · cases hi'
      exact h.lease i hi
    · cases hi'
      exact h.working i w hi hw
    · refine h.budget q hq fun i' w hi' hw => ?_
      rw [hi] at hi'
      cases hi'
      exact hnone _ w rfl hw
  | take =>
    obtain ⟨i, hi, htake⟩ := Option.any_eq_true _ _ |>.1 hready
    rw [Bool.and_eq_true, Option.isNone_iff_eq_none] at htake
    simp only [State.next, hi, htake.1]
    exact tidy_take h hi htake.1 (hcare i hi)
  | prepared p =>
    obtain ⟨i, w, hi, hw, hp⟩ := of_atPhase hready
    simp only [State.next, hi, hw]
    exact tidy_prepared h hi hw (of_decide_eq_true hp) p
  | ran r =>
    obtain ⟨i, w, hi, hw, hp⟩ := of_atPhase hready
    cases hphase : w.phase with
    | running k =>
      simp only [State.next, hi, hw, hphase]
      exact tidy_ran h hi hw hphase r
    | _ =>
      rw [hphase] at hp
      cases hp
  | posted ok =>
    obtain ⟨i, w, hi, hw, -⟩ := of_atPhase hready
    simp only [State.next, hi, hw]
    exact tidy_posted h hi hw ok
  | proceed =>
    obtain ⟨i, w, hi, hw, -⟩ := of_atPhase hready
    simp only [State.next, hi, hw]
    exact tidy_proceed h hi hw

theorem tidy_initial (cursor : ℕ) (stuck : Option StuckWake) :
    Tidy o (State.initial cursor stuck) where
  lease i hi := by cases hi
  working i w hi := by cases hi
  counts q := Nat.zero_le _
  budget q _ _ := Nat.zero_le _

/-- The wake is over, or its debt says that it must not run, and the work at hand knows. -/
inductive Barred (q : ℕ) (s : State) : Prop
  | passed (h : q ≤ s.cursor)
  | debt (d : StuckWake) (hd : s.stuck = some d) (hq : d.seq = q) (hr : d.retriable = false)
      (hwork : ∀ i w, s.inst = some i → i.work = some w →
        w.retriable = false ∧ w.phase.isRunning = false)
  | settled (i : Instance) (w : Work) (hi : s.inst = some i) (hw : i.work = some w)
      (hq : w.frame.seq = q)
      (hp : w.phase = .preflightSettled ∨ w.phase = .settled ∨ w.phase = .circuit)

/-- Taking a frame leaves debt and starts alone, and the cursor does not go back. -/
theorem take_frame (o : ServeOptions) (s : State) (i : Instance) :
    (s.take o i).starts = s.starts ∧ (s.take o i).stuck = s.stuck ∧
      s.cursor ≤ (s.take o i).cursor := by
  have hfinish : ∀ (i : Instance) (m : Msg), (s.finish i m).starts = s.starts ∧
      (s.finish i m).stuck = s.stuck ∧ s.cursor ≤ (s.finish i m).cursor := by
    intro i m
    unfold State.finish
    split_ifs
    · exact ⟨rfl, rfl, Nat.le_max_left _ _⟩
    · exact ⟨rfl, rfl, le_rfl⟩
  unfold State.take
  split
  · exact ⟨rfl, rfl, le_rfl⟩
  · rename_i f queue _
    cases f with
    | welcome _ _ _ | serveLease _ | presence _ => exact ⟨rfl, rfl, le_rfl⟩
    | msg m =>
      dsimp only
      unfold State.message
      split_ifs
      · exact ⟨rfl, rfl, le_rfl⟩
      · exact hfinish _ m
      · exact hfinish _ m

/-- Work that a frame brings is about the message it carries. -/
theorem take_work {i' : Instance} (hwork : i.work = none) (hi : s.inst = some i)
    (hi' : (s.take o i).inst = some i') (hw : i'.work = some w) :
    w.phase = .preparing ∧ w.retriable = s.mayRetry w.frame.seq ∧
      ∀ d, s.stuck = some d → d.seq = w.frame.seq := by
  have hfinish : ∀ (i'' : Instance) (m : Msg), (s.finish i'' m).inst = some i' →
      i''.work = none → False := by
    intro i'' m hinst hnone
    unfold State.finish at hinst
    split_ifs at hinst
    · cases hinst
      exact absurd (hnone.symm.trans hw) (by simp)
    · cases hinst
      exact absurd (hnone.symm.trans hw) (by simp)
  unfold State.take at hi'
  split at hi'
  · rw [hi] at hi'
    cases hi'
    rw [hwork] at hw
    cases hw
  · rename_i f queue _
    cases f with
    | welcome _ _ _ | serveLease _ | presence _ =>
      cases hi'
      exact absurd (hwork.symm.trans hw) (by simp)
    | msg m =>
      dsimp only at hi'
      unfold State.message at hi'
      split_ifs at hi' with hqualifies
      · unfold qualifies at hqualifies
        rw [Bool.and_eq_true, Bool.and_eq_true] at hqualifies
        cases hi'
        cases hw
        exact ⟨rfl, rfl, (stuck_of_wouldWake hqualifies.1.1).2⟩
      · exact (hfinish _ m hi' hwork).elim
      · exact (hfinish _ m hi' hwork).elim

theorem attempt_not_retriable (h : w.retriable = false) (k : ℕ) :
    s.attempt o i w k = s.withWork i { w with phase := .givingUp } := by
  rw [State.attempt, h, Bool.and_false]
  exact if_neg Bool.false_ne_true

theorem attempt_starts (s : State) (i : Instance) (w : Work) (k : ℕ) :
    (s.attempt o i w k).cursor = s.cursor ∧ ((s.attempt o i w k).starts = s.starts ∨
      ((s.attempt o i w k).starts = s.starts ++ [w.frame.seq] ∧ w.retriable = true)) := by
  unfold State.attempt
  split_ifs with hgo
  · rw [Bool.and_eq_true] at hgo
    exact ⟨rfl, Or.inr ⟨rfl, hgo.2⟩⟩
  · exact ⟨rfl, Or.inl rfl⟩

theorem finish_cursor (s : State) (i : Instance) (m : Msg) :
    s.cursor ≤ (s.finish i m).cursor ∧ (s.finish i m).starts = s.starts := by
  unfold State.finish
  split_ifs
  · exact ⟨Nat.le_max_left _ _, rfl⟩
  · exact ⟨le_rfl, rfl⟩

/-- The cursor does not go back, and only retriable work is started. -/
theorem step_starts {e : Event} (hs : Step o s e s') : s.cursor ≤ s'.cursor ∧
    (s'.starts = s.starts ∨ ∃ i w, s.inst = some i ∧ i.work = some w ∧
      (w.phase = .preparing ∨ ∃ k, w.phase = .retrying k) ∧
        s'.starts = s.starts ++ [w.frame.seq] ∧ w.retriable = true) := by
  obtain ⟨hready, rfl⟩ := hs
  cases e with
  | start | exit | kill => exact ⟨le_rfl, Or.inl rfl⟩
  | arrive f =>
    obtain ⟨i, hi, -⟩ := Option.any_eq_true _ _ |>.1 hready
    simp only [State.next, hi]
    exact ⟨le_rfl, Or.inl rfl⟩
  | take =>
    obtain ⟨i, hi, htake⟩ := Option.any_eq_true _ _ |>.1 hready
    rw [Bool.and_eq_true, Option.isNone_iff_eq_none] at htake
    simp only [State.next, hi, htake.1]
    obtain ⟨hstarts, -, hcursor⟩ := take_frame o s i
    exact ⟨hcursor, Or.inl hstarts⟩
  | prepared p =>
    obtain ⟨i, w, hi, hw, hp⟩ := of_atPhase hready
    simp only [State.next, hi, hw]
    cases p with
    | ok =>
      obtain ⟨hcursor, hstarts⟩ := attempt_starts (o := o) s i w (w.attemptFloor + 1)
      exact ⟨hcursor.ge, hstarts.imp_right fun h =>
        ⟨i, w, rfl, hw, Or.inl (of_decide_eq_true hp), h⟩⟩
    | failed retriable =>
      unfold State.prepared
      dsimp only
      split_ifs <;> exact ⟨le_rfl, Or.inl rfl⟩
    | undispatched => exact ⟨le_rfl, Or.inl rfl⟩
  | ran r =>
    obtain ⟨i, w, hi, hw, -⟩ := of_atPhase hready
    simp only [State.next, hi, hw]
    split
    · cases r <;> exact ⟨le_rfl, Or.inl rfl⟩
    · exact ⟨le_rfl, Or.inl rfl⟩
  | posted ok =>
    obtain ⟨i, w, hi, hw, -⟩ := of_atPhase hready
    simp only [State.next, hi, hw]
    unfold State.posted
    split
    · split_ifs <;> exact ⟨le_rfl, Or.inl rfl⟩
    · split_ifs <;> exact ⟨le_rfl, Or.inl rfl⟩
    · exact ⟨le_rfl, Or.inl rfl⟩
    · obtain ⟨hcursor, hstarts⟩ := finish_cursor s { i with work := none } w.frame
      exact ⟨hcursor, Or.inl hstarts⟩
    · exact ⟨le_rfl, Or.inl rfl⟩
  | proceed =>
    obtain ⟨i, w, hi, hw, -⟩ := of_atPhase hready
    simp only [State.next, hi, hw]
    unfold State.proceed
    split
    · rename_i k hp
      obtain ⟨hcursor, hstarts⟩ := attempt_starts (o := o) s i w k
      exact ⟨hcursor.ge, hstarts.imp_right fun h => ⟨i, w, rfl, hw, Or.inr ⟨k, hp⟩, h⟩⟩
    · exact ⟨le_rfl, Or.inl rfl⟩
    · exact ⟨Nat.le_max_left _ _, Or.inl rfl⟩
    · obtain ⟨hcursor, hstarts⟩ := finish_cursor s { i with work := none } w.frame
      exact ⟨hcursor, Or.inl hstarts⟩
    · exact ⟨le_rfl, Or.inl rfl⟩

/-- Nothing starts for a barred message. -/
theorem Barred.starts {e : Event} (h : Barred q s) (ht : Tidy o s) (hs : Step o s e s') :
    s'.starts.count q = s.starts.count q := by
  rcases (step_starts hs).2 with hsame | ⟨i, w, hi, hw, hfrom, hstarts, hretriable⟩
  · rw [hsame]
  · have hne : w.frame.seq ≠ q := by
      rintro rfl
      obtain ⟨-, hcursor, hold, hwork⟩ := ht.working i w hi hw
      cases h with
      | passed h => exact absurd h (Nat.not_le.2 hcursor)
      | debt d hd hq hr hbar =>
        rw [(hbar i w hi hw).1] at hretriable
        cases hretriable
      | settled i' w' hi' hw' hq hp =>
        rw [hi] at hi'
        cases hi'
        rw [hw] at hw'
        cases hw'
        rcases hfrom with hfrom | ⟨k, hfrom⟩ <;> rw [hfrom] at hp <;> simp at hp
    rw [hstarts, List.count_append, List.count_singleton, if_neg (by simpa using hne),
      Nat.add_zero]

theorem Barred.frame {s' : State} (h : Barred q s) (hcursor : s.cursor ≤ s'.cursor)
    (hstuck : s'.stuck = s.stuck) (hinst : s'.inst = none)
    (hsettled : s.atPhase Phase.unsaved = false) : Barred q s' := by
  cases h with
  | passed h => exact .passed (h.trans hcursor)
  | debt d hd hq hr hbar =>
    refine .debt d (hstuck.trans hd) hq hr fun i w hi => ?_
    rw [hinst] at hi
    cases hi
  | settled i w hi hw hq hp =>
    have hunsaved : s.atPhase Phase.unsaved = true := by
      refine atPhase_of hi hw ?_
      rcases hp with hp | hp | hp <;> rw [hp] <;> rfl
    rw [hsettled] at hunsaved
    cases hunsaved

/-- What the work at hand makes of a barred wake. -/
theorem Barred.working (h : Barred q s) (ht : Tidy o s) (hi : s.inst = some i)
    (hw : i.work = some w) : q ≤ s.cursor ∨ (w.frame.seq = q ∧
      ((w.retriable = false ∧ w.phase.unsaved = false ∧
          ∃ d, s.stuck = some d ∧ d.seq = q ∧ d.retriable = false) ∨
        w.phase = .preflightSettled ∨ w.phase = .settled ∨ w.phase = .circuit)) := by
  obtain ⟨-, -, hold, hwork⟩ := ht.working i w hi hw
  cases h with
  | passed h => exact Or.inl h
  | debt d hd hq hr hbar =>
    obtain ⟨hretriable, hrunning⟩ := hbar i w hi hw
    refine Or.inr ⟨(hold d hd).symm.trans hq, Or.inl ⟨hretriable, ?_, d, hd, hq, hr⟩⟩
    cases hp : w.phase <;> rw [hp] at hwork hrunning
    case running => cases hrunning
    case preflightSettled | settled | circuit =>
      rw [hd] at hwork
      cases hwork
    all_goals rfl
  | settled i' w' hi' hw' hq hp =>
    rw [hi] at hi'
    cases hi'
    rw [hw] at hw'
    cases hw'
    exact Or.inr ⟨hq, Or.inr hp⟩

/-- A wake that is over, or barred, stays so. -/
theorem Barred.step {e : Event} (h : Barred q s) (ht : Tidy o s) (hcare : Careful s e)
    (hs : Step o s e s') : Barred q s' := by
  have hcursor := (step_starts hs).1
  obtain ⟨hready, rfl⟩ := hs
  by_cases hpassed : q ≤ s.cursor
  · exact .passed (hpassed.trans hcursor)
  -- the debt goes on with work that may not run
  have hdebt : ∀ {t : State} {d : StuckWake} {i : Instance} {w : Work}, t.stuck = some d →
      d.seq = q → d.retriable = false → t.inst = some { i with work := some w } →
      w.retriable = false → w.phase.isRunning = false → Barred q t := by
    intro t d i w hd hq hr hinst hretriable hrunning
    refine .debt d hd hq hr fun i' w' hi' hw' => ?_
    rw [hinst] at hi'
    cases hi'
    cases hw'
    exact ⟨hretriable, hrunning⟩
  have hleft : ∀ {d : StuckWake}, s.stuck = some d → d.seq = q → d.retriable = false →
      Barred q { s with inst := none } := by
    intro d hd hq hr
    exact .debt d hd hq hr fun i w hi => (by cases hi)
  cases e with
  | start =>
    cases h with
    | passed h => exact .passed h
    | debt d hd hq hr _ =>
      refine .debt d hd hq hr fun i w hi hw => ?_
      cases hi
      cases hw
    | settled i w hi =>
      rw [show s.inst = none from hready] at hi
      cases hi
  | exit => exact h.frame le_rfl rfl rfl hcare
  | kill => exact h.frame le_rfl rfl rfl hcare
  | arrive f =>
    obtain ⟨i, hi, -⟩ := Option.any_eq_true _ _ |>.1 hready
    simp only [State.next, hi]
    cases h with
    | passed h => exact .passed h
    | debt d hd hq hr hbar =>
      refine .debt d hd hq hr fun i' w hi' hw => ?_
      cases hi'
      exact hbar i w hi hw
    | settled i' w hi' hw hq hp =>
      rw [hi] at hi'
      cases hi'
      exact .settled _ w rfl hw hq hp
  | take =>
    obtain ⟨i, hi, htake⟩ := Option.any_eq_true _ _ |>.1 hready
    rw [Bool.and_eq_true, Option.isNone_iff_eq_none] at htake
    simp only [State.next, hi, htake.1]
    cases h with
    | passed h => exact absurd h hpassed
    | debt d hd hq hr _ =>
      refine .debt d ((take_frame o s i).2.1.trans hd) hq hr fun i' w hi' hw => ?_
      obtain ⟨hphase, hretriable, hold⟩ := take_work htake.1 hi hi' hw
      rw [hphase, hretriable, State.mayRetry, hd]
      refine ⟨?_, rfl⟩
      simp [hold d hd, hr]
    | settled i' w hi' hw =>
      rw [hi] at hi'
      cases hi'
      rw [htake.1] at hw
      cases hw
  | prepared p =>
    obtain ⟨i, w, hi, hw, hp⟩ := of_atPhase hready
    have hphase : w.phase = .preparing := of_decide_eq_true hp
    obtain ⟨hseq, ⟨hretriable, -, d, hd, hq, hr⟩ | hp⟩ := (h.working ht hi hw).resolve_left hpassed
    · simp only [State.next, hi, hw]
      cases p with
      | ok =>
        simp only [State.prepared, attempt_not_retriable hretriable]
        exact hdebt hd hq hr rfl hretriable rfl
      | failed retriable =>
        obtain rfl := hcare i hi w hw hretriable
        simp only [State.prepared, Bool.false_and, Bool.false_eq_true, if_false]
        exact hdebt rfl hseq rfl rfl rfl rfl
      | undispatched => exact hdebt rfl hseq rfl rfl rfl rfl
    · rw [hphase] at hp
      simp at hp
  | ran r =>
    obtain ⟨i, w, hi, hw, hp⟩ := of_atPhase hready
    obtain ⟨-, ⟨-, hsaved, -⟩ | hphase⟩ := (h.working ht hi hw).resolve_left hpassed
    · cases hphase : w.phase <;> simp [hphase, Phase.isRunning, Phase.unsaved] at hp hsaved
    · rcases hphase with hphase | hphase | hphase <;> rw [hphase] at hp <;> cases hp
  | posted ok =>
    obtain ⟨i, w, hi, hw, hp⟩ := of_atPhase hready
    obtain ⟨hhas, -, -, hwork⟩ := ht.working i w hi hw
    simp only [State.next, hi, hw]
    obtain ⟨hseq, ⟨-, hsaved, d, hd, hq, hr⟩ | hphase⟩ := (h.working ht hi hw).resolve_left hpassed
    · unfold State.posted
      split
      · split_ifs
        · exact .settled _ _ rfl rfl hseq (Or.inl rfl)
        · exact hleft hd hq hr
      · split_ifs
        · refine .settled _ _ rfl rfl hseq (Or.inr ?_)
          dsimp only
          split_ifs
          · exact Or.inr rfl
          · exact Or.inl rfl
        · exact hleft hd hq hr
      · exact hleft hd hq hr
      · rename_i hphase
        rw [hphase] at hsaved
        cases hsaved
      · exact h
    · have hcircuit : w.phase = .circuit := by
        rcases hphase with hphase | hphase | hphase
        · rw [hphase] at hp
          cases hp
        · rw [hphase] at hp
          cases hp
        · exact hphase
      rw [hcircuit] at hwork
      simp only [State.posted, hcircuit]
      have hfinish : s.finish { i with work := none } w.frame =
          s.ack { i with work := none } w.frame.seq := finish_settled (ht.lease i hi hhas) hwork
      rw [hfinish]
      exact .passed (hseq ▸ Nat.le_max_right _ _)
  | proceed =>
    obtain ⟨i, w, hi, hw, hp⟩ := of_atPhase hready
    obtain ⟨hhas, -, -, hwork⟩ := ht.working i w hi hw
    simp only [State.next, hi, hw]
    obtain ⟨hseq, ⟨hretriable, hsaved, d, hd, hq, hr⟩ | hphase⟩ :=
      (h.working ht hi hw).resolve_left hpassed
    · unfold State.proceed
      split
      · rw [attempt_not_retriable hretriable]
        exact hdebt hd hq hr rfl hretriable rfl
      · exact .settled _ _ rfl rfl hseq (Or.inl rfl)
      · rename_i hphase
        rw [hphase] at hsaved
        cases hsaved
      · rename_i hphase
        rw [hphase] at hsaved
        cases hsaved
      · exact h
    · rcases hphase with hphase | hphase | hphase
      · simp only [State.proceed, hphase]
        exact .passed (hseq ▸ Nat.le_max_right _ _)
      · rw [hphase] at hwork
        simp only [State.proceed, hphase]
        have hfinish : s.finish { i with work := none } w.frame =
            s.ack { i with work := none } w.frame.seq := finish_settled (ht.lease i hi hhas) hwork
        rw [hfinish]
        exact .passed (hseq ▸ Nat.le_max_right _ _)
      · rw [hphase] at hp
        cases hp

/-- An attempt that ends in a failure that must not be retried is the last one of its message,
and no message has more than `maxAttempts`. -/
theorem no_rerun {cursor : ℕ} {stuck : Option StuckWake} {evs : List Event}
    (h : EventSystem.Run (EventSystem.Guarded (Step o) Careful) (.initial cursor stuck) evs s) :
    (∀ q, s.starts.count q ≤ o.maxAttempts) ∧
      ∀ i w k configuration terminationUnconfirmed, s.inst = some i → i.work = some w →
        w.phase = .running k → ∀ evs' t, EventSystem.Run (EventSystem.Guarded (Step o) Careful)
          (s.next o (.ran (.failed false configuration terminationUnconfirmed))) evs' t →
            t.starts.count w.frame.seq = s.starts.count w.frame.seq := by
  have htidy : Tidy o s :=
    h.invariant (fun _ _ _ ht hs => ht.step hs.2 hs.1) (tidy_initial cursor stuck)
  refine ⟨htidy.counts, fun i w k configuration terminationUnconfirmed hi hw hphase evs' t hrun => ?_⟩
  have hready : s.Ready (.ran (.failed false configuration terminationUnconfirmed)) :=
    atPhase_of hi hw (by rw [hphase]; rfl)
  have hcare : Careful s (.ran (.failed false configuration terminationUnconfirmed)) := trivial
  have htidy' := htidy.step hcare ⟨hready, rfl⟩
  have hnext : s.next o (.ran (.failed false configuration terminationUnconfirmed)) =
      s.ran i w k (.failed false configuration terminationUnconfirmed) := by
    simp only [State.next, hi, hw, hphase]
  have hbarred : Barred w.frame.seq
      (s.next o (.ran (.failed false configuration terminationUnconfirmed))) := by
    rw [hnext]
    refine .debt _ rfl rfl rfl fun i' w' hi' hw' => ?_
    cases hi'
    cases hw'
    refine ⟨rfl, ?_⟩
    cases configuration <;> rfl
  have hcount : (s.next o (.ran (.failed false configuration terminationUnconfirmed))).starts =
      s.starts := by
    rw [hnext]
    rfl
  rw [← hcount]
  have hstep : ∀ u e u', (Tidy o u ∧ Barred w.frame.seq u ∧ u.starts.count w.frame.seq =
      (s.next o (.ran (.failed false configuration terminationUnconfirmed))).starts.count
        w.frame.seq) → EventSystem.Guarded (Step o) Careful u e u' →
      Tidy o u' ∧ Barred w.frame.seq u' ∧ u'.starts.count w.frame.seq =
        (s.next o (.ran (.failed false configuration terminationUnconfirmed))).starts.count
          w.frame.seq := by
    rintro u e u' ⟨ht, hb, hc⟩ hs
    exact ⟨ht.step hs.2 hs.1, hb.step ht hs.2 hs.1, (hb.starts ht hs.1).trans hc⟩
  exact (hrun.invariant hstep ⟨htidy', hbarred, rfl⟩).2.2

instance (s : State) : (e : Event) → Decidable (Careful s e)
  | .exit | .kill => inferInstanceAs (Decidable (_ = false))
  | .prepared (.failed retriable) => inferInstanceAs
      (Decidable (∀ i ∈ s.inst, ∀ w ∈ i.work, w.retriable = false → retriable = false))
  | .take => inferInstanceAs (Decidable (∀ i ∈ s.inst, _ → _ → _))
  | .prepared .ok | .prepared .undispatched | .start | .arrive _ | .ran _ | .posted _ | .proceed =>
    inferInstanceAs (Decidable True)

def botOptions : ServeOptions := ⟨"bot", true, true, 4096, 3⟩

def mention (seq : ℕ) : Msg := ⟨seq, "alice", ["bot"], false, none⟩

/-- `bot` is mentioned, and the runner starts. -/
def runnerStarts : List Event :=
  [.start, .arrive (.welcome 0 false false), .take, .arrive (.msg (mention 1)), .take,
    .prepared .ok]

theorem no_rerun_failed : ∃ s,
    EventSystem.Run (EventSystem.Guarded (Step botOptions) Careful) (.initial 0 none)
        runnerStarts s ∧
      ∀ evs' t, EventSystem.Run (EventSystem.Guarded (Step botOptions) Careful)
        (s.next botOptions (.ran (.failed false false false))) evs' t → t.starts.count 1 = 1 := by
  have hready : EventSystem.AllReady (fun s e => s.Ready e ∧ Careful s e) (State.next botOptions)
      (.initial 0 none) runnerStarts := by decide
  have hrun : EventSystem.Run (EventSystem.Guarded (Step botOptions) Careful) (.initial 0 none)
      runnerStarts (runnerStarts.foldl (State.next botOptions) (.initial 0 none)) :=
    EventSystem.run_of_ready (fun _ _ h => ⟨⟨h.1, rfl⟩, h.2⟩) hready
  refine ⟨_, hrun, fun evs' t hrun' => ?_⟩
  exact (no_rerun hrun).2 _ _ 1 false false rfl rfl rfl evs' t hrun'

/-- The announcement fails, the process starts again, and a preparation that fails on the way
may be retried. -/
def rerun : List Event :=
  [.proceed, .posted false, .start, .arrive (.welcome 1 false false), .take,
    .arrive (.msg (mention 1)), .take, .prepared (.failed true), .prepared .ok]

/-- The claim's restarts: not while the runner is running. -/
def RestartsBetween (s : State) : Event → Prop
  | .exit | .kill => s.atPhase Phase.isRunning = false
  | _ => True

instance (s : State) : (e : Event) → Decidable (RestartsBetween s e)
  | .exit | .kill => inferInstanceAs (Decidable (_ = false))
  | .prepared _ | .start | .arrive _ | .take | .ran _ | .posted _ | .proceed =>
    inferInstanceAs (Decidable True)

theorem rerun_after_failure : ¬ ∀ o cursor stuck evs s,
    EventSystem.Run (EventSystem.Guarded (Step o) RestartsBetween) (.initial cursor stuck) evs s →
      ∀ i w k configuration terminationUnconfirmed, s.inst = some i → i.work = some w →
        w.phase = .running k → ∀ evs' t,
          EventSystem.Run (EventSystem.Guarded (Step o) RestartsBetween)
            (s.next o (.ran (.failed false configuration terminationUnconfirmed))) evs' t →
              t.starts.count w.frame.seq = s.starts.count w.frame.seq := by
  intro h
  have hfirst : EventSystem.AllReady (fun s e => s.Ready e ∧ RestartsBetween s e)
      (State.next botOptions) (.initial 0 none) runnerStarts := by decide
  have hsecond : EventSystem.AllReady (fun s e => s.Ready e ∧ RestartsBetween s e)
      (State.next botOptions)
      ((runnerStarts.foldl (State.next botOptions) (.initial 0 none)).next botOptions
        (.ran (.failed false false false))) rerun := by decide
  have hcount := h botOptions 0 none runnerStarts _
    (EventSystem.run_of_ready (fun _ _ h => ⟨⟨h.1, rfl⟩, h.2⟩) hfirst) _ _ 1 false false rfl rfl rfl
    rerun _ (EventSystem.run_of_ready (fun _ _ h => ⟨⟨h.1, rfl⟩, h.2⟩) hsecond)
  exact absurd hcount (by decide)

end Serve
end AgentParty
