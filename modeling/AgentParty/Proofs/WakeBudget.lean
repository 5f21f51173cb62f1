import AgentParty.Delivery.WakeBudget
import AgentParty.Lib.Window

/-! The cap of a wake budget, where each wake that fires still fits in with the wakes under
way, and the books of the withheld mentions, which hold in every run. -/

namespace AgentParty
namespace Wakes

open EventSystem

namespace Room

variable {config : String → Option WakeBudget} {s : Room} {e : Event} {name : String}

/-- The start times of the first POSTs of an agent's wakes. -/
def times (s : Room) (name : String) : List Int :=
  (s.posts.filter fun p => p.name = name ∧ p.attempt = 1).map (·.startedAt)

/-- The first wakes of an agent that have fired and have no row yet. -/
def underWay (s : Room) (name : String) : ℕ :=
  s.wakes.countP fun w => w.name = name ∧ w.attempt = 1

def underWayAt (s : Room) (name : String) (stage : Stage) : ℕ :=
  s.wakes.countP fun w => w.name = name ∧ w.attempt = 1 ∧ w.stage = stage

theorem underWay_eq (s : Room) (name : String) :
    s.underWay name = s.underWayAt name .checks + s.underWayAt name .posting := by
  unfold underWay underWayAt
  induction s.wakes with
  | nil => rfl
  | cons w wakes ih =>
    simp only [List.countP_cons, ih]
    cases w.stage <;> simp <;> omega

/-- A wake that fires fits in the budget together with the wakes under way; no message is
retracted while the row of its wake is due; and what retention and erasure take from the
ledger no longer counts. -/
def Counted (config : String → Option WakeBudget) (s : Room) : Event → Prop
  | .dispatchWebhooks _ targets => ∀ name ∈ targets, ∀ cfg, config name = some cfg →
      s.isOverWakeBudget config name = false →
        s.wakeCountInWindow name (s.clock - cfg.windowMs) + s.underWay name < cfg.limit
  | .answered w _ _ => w.attempt = 1 → (config w.name).isSome → s.isMessageRetracted w.seq = false
  | .pruneRetainedContent cutoff => ∀ row ∈ s.ledger, s.expired cutoff row.mentionSeq = true →
      ∀ cfg, config row.targetName = some cfg →
        spends row.targetName (s.clock - cfg.windowMs) row = false
  | .eraseIdentityData name => ∀ cfg, config name = some cfg →
      s.wakeCountInWindow name (s.clock - cfg.windowMs) = 0
  | _ => True

instance (config : String → Option WakeBudget) (s : Room) : DecidablePred (Counted config s)
  | .dispatchWebhooks .. | .answered .. | .pruneRetainedContent .. | .eraseIdentityData .. => by
    unfold Counted
    infer_instance
  | .tick .. | .send .. | .checked .. | .retry .. | .forget .. | .otherWake .. | .retract ..
  | .pruneWakeLedger => inferInstanceAs (Decidable True)

/-- What is known of the wakes of an agent with a budget. -/
structure Capped (cfg : WakeBudget) (name : String) (s : Room) : Prop where
  past : ∀ t ∈ s.times name, t ≤ s.clock
  booked : ∀ since, s.clock - cfg.windowMs ≤ since →
    Window.countFrom (s.times name) since ≤ s.wakeCountInWindow name since + s.underWayAt name .posting
  room : Window.countFrom (s.times name) (s.clock - cfg.windowMs + 1) + s.underWayAt name .checks ≤
    cfg.limit
  atMost : Window.AtMost cfg.limit cfg.windowMs (s.times name)
  tried : ∀ q ∈ s.stored, 1 ≤ q.attempts

theorem Capped.initial (cfg : WakeBudget) (name : String) (clock : Int) :
    Capped cfg name (Room.initial clock) where
  past t h := by simp [times, Room.initial] at h
  booked since _ := by simp [times, Room.initial, Window.countFrom]
  room := by simp [times, Room.initial, Window.countFrom, underWayAt]
  atMost := by simpa [times, Room.initial] using Window.atMost_nil
  tried q h := by simp [Room.initial] at h

section Dispatch

theorem wakeCountInWindow_withheld (s : Room) (seq : ℕ) (target name : String) (since : Int) :
    (s.recordWakeWithheld config seq target).wakeCountInWindow name since =
      s.wakeCountInWindow name since := by
  simp [recordWakeWithheld, wakeCountInWindow, insertRow, List.countP_append, spends, withheldRow]

/-- What a turn of the loop over the targets leaves as it was. -/
structure SameBooks (s s' : Room) : Prop where
  clock : s'.clock = s.clock
  posts : s'.posts = s.posts
  stored : s'.stored = s.stored
  count : ∀ name since, s'.wakeCountInWindow name since = s.wakeCountInWindow name since
  posting : ∀ name, s'.underWayAt name .posting = s.underWayAt name .posting

theorem SameBooks.trans {s s' s'' : Room} (h : SameBooks s s') (h' : SameBooks s' s'') :
    SameBooks s s'' where
  clock := h'.clock.trans h.clock
  posts := h'.posts.trans h.posts
  stored := h'.stored.trans h.stored
  count name since := (h'.count name since).trans (h.count name since)
  posting name := (h'.posting name).trans (h.posting name)

theorem SameBooks.isOverWakeBudget {s s' : Room} (h : SameBooks s s') (name : String) :
    s'.isOverWakeBudget config name = s.isOverWakeBudget config name := by
  simp only [Room.isOverWakeBudget, h.count, h.clock]

theorem sameBooks_consider (s : Room) (seq : ℕ) (target : String) :
    SameBooks s (s.consider config seq target) := by
  unfold consider
  split
  · exact ⟨rfl, rfl, rfl, wakeCountInWindow_withheld s seq target, fun _ => rfl⟩
  · exact ⟨rfl, rfl, rfl, fun _ _ => rfl, fun _ => by simp [underWayAt, List.countP_append]⟩

theorem underWayAt_consider (s : Room) (seq : ℕ) (target name : String) :
    (s.consider config seq target).underWayAt name .checks = s.underWayAt name .checks +
      if target = name ∧ s.isOverWakeBudget config name = false then 1 else 0 := by
  unfold consider
  by_cases hname : target = name
  · subst hname
    cases hover : s.isOverWakeBudget config target <;>
      simp [underWayAt, List.countP_append, recordWakeWithheld, insertRow]
  · split <;> simp [underWayAt, List.countP_append, recordWakeWithheld, insertRow, hname]

theorem sameBooks_foldl (seq : ℕ) (targets : List String) (s : Room) :
    SameBooks s (targets.foldl (consider config seq) s) := by
  induction targets generalizing s with
  | nil => exact ⟨rfl, rfl, rfl, fun _ _ => rfl, fun _ => rfl⟩
  | cons target targets ih => exact (sameBooks_consider s seq target).trans (ih _)

/-- A dispatch fires at most one wake of an agent. -/
theorem underWayAt_foldl (seq : ℕ) {targets : List String} (hnodup : targets.Nodup) (s : Room)
    (name : String) : (targets.foldl (consider config seq) s).underWayAt name .checks =
      s.underWayAt name .checks +
        if name ∈ targets ∧ s.isOverWakeBudget config name = false then 1 else 0 := by
  induction targets generalizing s with
  | nil => simp
  | cons target targets ih =>
    obtain ⟨hout, hnodup⟩ := List.nodup_cons.1 hnodup
    rw [List.foldl_cons, ih hnodup, underWayAt_consider,
      (sameBooks_consider s seq target).isOverWakeBudget]
    by_cases hname : target = name
    · subst hname
      simp [hout]
    · simp [hname, Ne.symm hname]

theorem times_eq {s s' : Room} (h : s'.posts = s.posts) (name : String) :
    s'.times name = s.times name := by
  rw [times, h, times]

theorem Capped.dispatchWebhooks {cfg : WakeBudget} (h : Capped cfg name s)
    (hcfg : config name = some cfg) {seq : ℕ} {targets : List String} (hnodup : targets.Nodup)
    (hcounted : s.Counted config (.dispatchWebhooks seq targets)) :
    Capped cfg name (s.dispatchWebhooks config seq targets) := by
  have hstart : Capped cfg name { s with unsent := s.unsent.erase seq } :=
    ⟨h.past, h.booked, h.room, h.atMost, h.tried⟩
  unfold Room.dispatchWebhooks
  simp only
  split
  · exact hstart
  · generalize hs' : ({ s with unsent := s.unsent.erase seq } : Room) = s' at hstart ⊢
    have hclock : s'.clock = s.clock := by rw [← hs']
    have hover : s'.isOverWakeBudget config name = s.isOverWakeBudget config name := by rw [← hs']; rfl
    have hcount : ∀ since, s'.wakeCountInWindow name since = s.wakeCountInWindow name since := by
      intro since
      rw [← hs']
      rfl
    have hway : s'.underWay name = s.underWay name := by rw [← hs']; rfl
    have hbooks : SameBooks s' (targets.foldl (consider config seq) s') := sameBooks_foldl seq targets s'
    refine ⟨?_, ?_, ?_, ?_, ?_⟩
    · rw [times_eq hbooks.posts, hbooks.clock]
      exact hstart.past
    · rw [times_eq hbooks.posts, hbooks.clock]
      intro since hsince
      rw [hbooks.count, hbooks.posting]
      exact hstart.booked since hsince
    · rw [times_eq hbooks.posts, hbooks.clock, underWayAt_foldl seq hnodup]
      split_ifs with hfires
      · have hfits := hcounted name hfires.1 cfg hcfg (hover ▸ hfires.2)
        have hbooked := hstart.booked (s'.clock - cfg.windowMs) le_rfl
        have hanti := Window.countFrom_anti (s'.times name)
          (show s'.clock - cfg.windowMs ≤ s'.clock - cfg.windowMs + 1 by omega)
        rw [← hway, underWay_eq, ← hcount, ← hclock] at hfits
        omega
      · exact hstart.room
    · rw [times_eq hbooks.posts]
      exact hstart.atMost
    · rw [hbooks.stored]
      exact hstart.tried

end Dispatch

section Under

variable {cfg : WakeBudget}

/-- A first wake counts where it stands. -/
theorem underWayAt_erase {w : Wake} (hw : w ∈ s.wakes) (name : String) (stage : Stage) :
    s.underWayAt name stage = (s.drop w).underWayAt name stage +
      if w.name = name ∧ w.attempt = 1 ∧ w.stage = stage then 1 else 0 := by
  have hperm := (List.perm_cons_erase hw).countP_eq
    (fun w => decide (w.name = name ∧ w.attempt = 1 ∧ w.stage = stage))
  simpa [underWayAt, drop, List.countP_cons] using hperm

theorem Capped.drop (h : Capped cfg name s) {w : Wake} (hw : w ∈ s.wakes)
    (hw' : w.stage = .checks ∨ w.name ≠ name ∨ w.attempt ≠ 1) : Capped cfg name (s.drop w) where
  past := h.past
  booked since hsince := by
    have hway := underWayAt_erase hw name .posting
    have hbooked := h.booked since hsince
    rw [if_neg (by rintro ⟨h1, h2, h3⟩; simp_all)] at hway
    rw [hway] at hbooked
    exact hbooked
  room := by
    have hway := underWayAt_erase hw name .checks
    have hroom := h.room
    change Window.countFrom (s.times name) (s.clock - cfg.windowMs + 1) + _ ≤ cfg.limit
    omega
  atMost := h.atMost
  tried := h.tried

theorem times_post (s : Room) (w : Wake) (name : String) : (s.post w).times name =
    s.times name ++ if w.name = name ∧ w.attempt = 1 then [s.clock] else [] := by
  unfold times post
  rw [List.filter_append, List.map_append]
  by_cases h : w.name = name ∧ w.attempt = 1 <;> simp [h]

theorem underWayAt_post {w : Wake} (hw : w ∈ s.wakes) (hstage : w.stage = .checks) (name : String) :
    s.underWayAt name .checks = (s.post w).underWayAt name .checks +
      (if w.name = name ∧ w.attempt = 1 then 1 else 0) ∧
    (s.post w).underWayAt name .posting = s.underWayAt name .posting +
      if w.name = name ∧ w.attempt = 1 then 1 else 0 := by
  have hmoved (stage : Stage) : (s.post w).underWayAt name stage = (s.drop w).underWayAt name stage +
      if w.name = name ∧ w.attempt = 1 ∧ Stage.posting = stage then 1 else 0 := by
    simp [underWayAt, post, Room.drop, List.countP_append, List.countP_singleton]
  rw [underWayAt_erase hw name .checks, underWayAt_erase hw name .posting, hmoved, hmoved, hstage]
  simp

theorem Capped.post (h : Capped cfg name s) {w : Wake} (hw : w ∈ s.wakes)
    (hstage : w.stage = .checks) : Capped cfg name (s.post w) := by
  obtain ⟨hchecks, hposting⟩ := underWayAt_post hw hstage name
  have hcount : ∀ since, (s.post w).wakeCountInWindow name since = s.wakeCountInWindow name since :=
    fun _ => rfl
  have htimes := times_post s w name
  by_cases hmine : w.name = name ∧ w.attempt = 1
  · rw [if_pos hmine] at hchecks hposting htimes
    refine ⟨?_, ?_, ?_, ?_, h.tried⟩
    · rw [htimes]
      intro t ht
      rcases List.mem_append.1 ht with ht | ht
      · exact h.past t ht
      · rw [List.mem_singleton.1 ht]
        exact le_rfl
    · intro since hsince
      have hbooked := h.booked since hsince
      rw [htimes, Window.countFrom_concat, hcount, hposting]
      split_ifs <;> omega
    · have hroom := h.room
      rw [htimes, Window.countFrom_concat]
      change Window.countFrom (s.times name) (s.clock - cfg.windowMs + 1) + _ + _ ≤ cfg.limit
      split_ifs <;> omega
    · rw [htimes]
      refine h.atMost.concat ?_
      have hroom := h.room
      omega
  · rw [if_neg hmine] at hchecks hposting htimes
    rw [List.append_nil] at htimes
    refine ⟨?_, ?_, ?_, ?_, h.tried⟩
    · rw [htimes]
      exact h.past
    · intro since hsince
      rw [htimes, hcount, hposting]
      exact h.booked since hsince
    · rw [htimes]
      have hroom := h.room
      change Window.countFrom (s.times name) (s.clock - cfg.windowMs + 1) + _ ≤ cfg.limit
      omega
    · rw [htimes]
      exact h.atMost

theorem wakeCountInWindow_insertRow (s : Room) (row : WakeRow) (name : String) (since : Int) :
    (s.insertRow row).wakeCountInWindow name since =
      s.wakeCountInWindow name since + if spends name since row then 1 else 0 := by
  simp [wakeCountInWindow, insertRow, List.countP_append, List.countP_singleton]

theorem Capped.insertRow (h : Capped cfg name s) (row : WakeRow) :
    Capped cfg name (s.insertRow row) where
  past := h.past
  booked since hsince := by
    rw [wakeCountInWindow_insertRow]
    have hbooked := h.booked since hsince
    change Window.countFrom (s.times name) since ≤ _ + s.underWayAt name .posting
    omega
  room := h.room
  atMost := h.atMost
  tried := h.tried

theorem Capped.withStored (h : Capped cfg name s) {stored : List Stored}
    (htried : ∀ q ∈ stored, 1 ≤ q.attempts) : Capped cfg name { s with stored } :=
  ⟨h.past, h.booked, h.room, h.atMost, htried⟩

/-- The row of a wake takes over from the wake under way. -/
theorem Capped.written (h : Capped cfg name s) {w : Wake} (hw : w ∈ s.wakes)
    (ok : Bool) (error : Option String) :
    Capped cfg name ((s.drop w).insertRow ((s.drop w).attemptRow w ok error)) := by
  refine ⟨h.past, fun since hsince => ?_, ?_, h.atMost, h.tried⟩
  · have hway := underWayAt_erase hw name .posting
    have hbooked := h.booked since hsince
    rw [wakeCountInWindow_insertRow]
    change Window.countFrom (s.times name) since ≤ s.wakeCountInWindow name since + _ +
      (s.drop w).underWayAt name .posting
    by_cases hmine : w.name = name ∧ w.attempt = 1 ∧ w.stage = .posting
    · rw [if_pos hmine] at hway
      by_cases hnow : since ≤ s.clock
      · have hspends : spends name since ((s.drop w).attemptRow w ok error) = true := by
          cases ok <;> simp [spends, attemptRow, hmine.1, hmine.2.1, Room.drop, hnow]
        rw [hspends, if_pos rfl]
        omega
      · rw [Window.countFrom_eq_zero fun t ht => lt_of_le_of_lt (h.past t ht) (not_le.1 hnow)]
        exact Nat.zero_le _
    · rw [if_neg hmine] at hway
      omega
  · have hway := underWayAt_erase hw name .checks
    have hroom := h.room
    change Window.countFrom (s.times name) (s.clock - cfg.windowMs + 1) +
      (s.drop w).underWayAt name .checks ≤ cfg.limit
    omega

theorem Capped.answered (h : Capped cfg name s) (hcfg : config name = some cfg) {w : Wake}
    {ok : Bool} {error : Option String} (hw : w ∈ s.wakes) (hattempt : 1 ≤ w.attempt)
    (hcounted : Counted config s (.answered w ok error)) :
    Capped cfg name (s.answered w ok error) := by
  unfold Room.answered
  by_cases hretracted : s.isMessageRetracted w.seq = true
  · have hother : w.name ≠ name ∨ w.attempt ≠ 1 := by
      by_contra hmine
      simp only [not_or, not_ne_iff] at hmine
      have hkept := hcounted hmine.2 (by rw [hmine.1, hcfg]; rfl)
      rw [hretracted] at hkept
      cases hkept
    have hdrop : (s.drop w).isMessageRetracted w.seq = true := hretracted
    simp only [hdrop, if_true]
    exact (h.drop hw (Or.inr hother)).withStored fun q hq => h.tried q (List.mem_filter.1 hq).1
  · have hdrop : (s.drop w).isMessageRetracted w.seq = false := Bool.not_eq_true _ ▸ hretracted
    simp only [hdrop, Bool.false_eq_true, if_false]
    have hwritten := h.written hw ok error
    split
    · exact hwritten
    · refine hwritten.withStored fun q hq => ?_
      rcases List.mem_append.1 hq with hq | hq
      · exact h.tried q hq
      · rw [List.mem_singleton.1 hq]
        exact hattempt

/-- Rows that no longer count may go. -/
theorem Capped.withLedger (h : Capped cfg name s) {keep : WakeRow → Bool}
    (hkeep : ∀ row ∈ s.ledger, spends name (s.clock - cfg.windowMs) row = true → keep row = true) :
    Capped cfg name { s with ledger := s.ledger.filter keep } := by
  refine ⟨h.past, fun since hsince => ?_, h.room, h.atMost, h.tried⟩
  have hsince' : s.clock - cfg.windowMs ≤ since := hsince
  have hcount : (s.ledger.filter keep).countP (spends name since) = s.wakeCountInWindow name since := by
    rw [List.countP_filter, wakeCountInWindow]
    refine List.countP_congr fun row hrow => ?_
    simp only [Bool.and_eq_true, and_iff_left_iff_imp]
    intro hspends
    refine hkeep row hrow ?_
    simp only [spends, decide_eq_true_eq] at hspends ⊢
    exact ⟨hspends.1, hspends.2.1, hspends.2.2.1, hspends.2.2.2.1, hsince'.trans hspends.2.2.2.2⟩
  change _ ≤ (s.ledger.filter keep).countP (spends name since) + _
  rw [hcount]
  exact h.booked since hsince

end Under

/-- A wake that has been taken up is at least the first. -/
def Attempted (s : Room) : Prop := ∀ w ∈ s.wakes, 1 ≤ w.attempt

theorem Capped.tick {cfg : WakeBudget} (h : Capped cfg name s) (ms : ℕ) :
    Capped cfg name { s with clock := s.clock + ms } where
  past t ht := (h.past t ht).trans (Int.le_add_of_nonneg_right (Int.natCast_nonneg ms))
  booked since hsince := h.booked since (by
    have : s.clock + ms - cfg.windowMs ≤ since := hsince
    omega)
  room := by
    have hanti := Window.countFrom_anti (s.times name)
      (show s.clock - cfg.windowMs + 1 ≤ s.clock + ms - cfg.windowMs + 1 by omega)
    have hroom := h.room
    change Window.countFrom (s.times name) (s.clock + ms - cfg.windowMs + 1) +
      s.underWayAt name .checks ≤ cfg.limit
    omega
  atMost := h.atMost
  tried := h.tried

theorem Capped.retry {cfg : WakeBudget} (h : Capped cfg name s) {q : Stored} (hq : q ∈ s.stored) :
    Capped cfg name (s.retry q) := by
  have hway (stage : Stage) : (s.retry q).underWayAt name stage = s.underWayAt name stage := by
    have := h.tried q hq
    simp [underWayAt, Room.retry, List.countP_append, List.countP_singleton]
    omega
  refine ⟨h.past, fun since hsince => ?_, ?_, h.atMost, h.tried⟩
  · rw [hway]
    exact h.booked since hsince
  · rw [hway]
    exact h.room

theorem Attempted.dispatchWebhooks (h : s.Attempted) (seq : ℕ) (targets : List String) :
    (s.dispatchWebhooks config seq targets).Attempted := by
  unfold Room.dispatchWebhooks
  simp only
  split
  · exact h
  · have hfold (targets : List String) (s : Room) (h : s.Attempted) :
        (targets.foldl (consider config seq) s).Attempted := by
      induction targets generalizing s with
      | nil => exact h
      | cons target targets ih =>
        refine ih _ fun w hw => ?_
        unfold consider at hw
        split at hw
        · exact h w hw
        · rcases List.mem_append.1 hw with hw | hw
          · exact h w hw
          · rw [List.mem_singleton.1 hw]
    exact hfold targets _ h

theorem answered_wakes (w : Wake) (ok : Bool) (error : Option String) :
    (s.answered w ok error).wakes = s.wakes.erase w := by
  unfold Room.answered
  simp only
  split_ifs <;> rfl

theorem Attempted.next (h : s.Attempted) (hready : s.Ready e) : (s.next config e).Attempted := by
  cases e with
  | dispatchWebhooks seq targets => exact h.dispatchWebhooks seq targets
  | checked w removed =>
    intro v hv
    simp only [Room.next, Room.checked] at hv
    split_ifs at hv
    · exact h v (List.mem_of_mem_erase hv)
    · rcases List.mem_append.1 hv with hv | hv
      · exact h v (List.mem_of_mem_erase hv)
      · rw [List.mem_singleton.1 hv]
        exact h w hready.1
  | answered w ok error =>
    intro v hv
    rw [Room.next, answered_wakes] at hv
    exact h v (List.mem_of_mem_erase hv)
  | retry q =>
    intro w hw
    rcases List.mem_append.1 hw with hw | hw
    · exact h w hw
    · rw [List.mem_singleton.1 hw]
      exact Nat.le_add_left _ _
  | tick _ | send _ | forget _ | otherWake _ | retract _ | pruneRetainedContent _ | pruneWakeLedger
  | eraseIdentityData _ => exact h

theorem Capped.next {cfg : WakeBudget} (h : Capped cfg name s) (hattempted : s.Attempted)
    (hcfg : config name = some cfg) (hready : s.Ready e) (hcounted : Counted config s e) :
    Capped cfg name (s.next config e) := by
  cases e with
  | tick ms => exact h.tick ms
  | send held => exact ⟨h.past, h.booked, h.room, h.atMost, h.tried⟩
  | dispatchWebhooks seq targets => exact h.dispatchWebhooks hcfg hready.2 hcounted
  | checked w removed =>
    simp only [Room.next, Room.checked]
    split_ifs
    · exact (h.drop hready.1 (Or.inl hready.2)).withStored fun q hq => h.tried q (List.mem_filter.1 hq).1
    · exact h.post hready.1 hready.2
  | answered w ok error => exact h.answered hcfg hready.1 (hattempted w hready.1) hcounted
  | retry q => exact h.retry hready
  | forget q => exact h.withStored fun q' hq => h.tried q' (List.mem_of_mem_erase hq)
  | otherWake row => exact h.insertRow row
  | retract seq =>
    exact ⟨h.past, h.booked, h.room, h.atMost, fun q hq => h.tried q (List.mem_filter.1 hq).1⟩
  | pruneRetainedContent cutoff =>
    have hstored : Capped cfg name
        { s with stored := s.stored.filter fun q => !s.expired cutoff q.seq } :=
      h.withStored fun q hq => h.tried q (List.mem_filter.1 hq).1
    have hledger := hstored.withLedger fun row hrow hspends =>
      show (!s.expired cutoff row.mentionSeq) = true by
        by_contra hgone
        have hname : row.targetName = name := (of_decide_eq_true hspends).1
        have hnot := hcounted row hrow (by simpa using hgone) cfg (by rw [hname, hcfg])
        rw [hname] at hnot
        exact Bool.false_ne_true (hnot.symm.trans hspends)
    exact ⟨hledger.past, hledger.booked, hledger.room, hledger.atMost, hledger.tried⟩
  | pruneWakeLedger =>
    refine h.withLedger fun row _ hspends => ?_
    have hwindow := cfg.window_max
    have hsince := (of_decide_eq_true hspends).2.2.2.2
    refine decide_eq_true ?_
    unfold WAKE_LEDGER_RETENTION_MS
    omega
  | eraseIdentityData other =>
    refine (h.withStored fun q hq => h.tried q (List.mem_filter.1 hq).1).withLedger
      fun row hrow hspends => ?_
    have hname : row.targetName = name := (of_decide_eq_true hspends).1
    by_cases hother : other = name
    · subst hother
      have hnone := List.countP_eq_zero.1 (hcounted cfg hcfg) row hrow
      exact absurd hspends hnone
    · simpa [hname] using Ne.symm hother

section Withheld

/-- The row says that the budget has withheld the mention. -/
def withholds (seq : ℕ) (name : String) (row : WakeRow) : Bool :=
  row.mentionSeq = seq ∧ row.targetName = name ∧ row.result = .budget

/-- A loop or a stored row has the wake, or it has been posted. -/
def Held (s : Room) (seq : ℕ) (name : String) : Prop :=
  (∃ w ∈ s.wakes, w.seq = seq ∧ w.name = name) ∨ (∃ q ∈ s.stored, q.seq = seq ∧ q.name = name) ∨
    ∃ p ∈ s.posts, p.seq = seq ∧ p.name = name

/-- A withheld mention has its one row and is held by nobody. -/
structure Apart (s : Room) : Prop where
  apart : ∀ seq name, (seq, name) ∈ s.withheld → ¬ s.Held seq name
  once : ∀ seq name, (seq, name) ∈ s.withheld → s.written.countP (withholds seq name) = 1
  none : ∀ seq name, (seq, name) ∉ s.withheld → s.written.countP (withholds seq name) = 0

theorem Apart.consider (h : s.Apart) {seq : ℕ} (hheld : ¬ s.Held seq name)
    (hfree : (seq, name) ∉ s.withheld) : (s.consider config seq name).Apart := by
  unfold Room.consider
  split
  · refine ⟨fun seq' name' hmem => ?_, fun seq' name' hmem => ?_, fun seq' name' hmem => ?_⟩
    · rcases List.mem_append.1 hmem with hmem | hmem
      · exact h.apart seq' name' hmem
      · cases List.mem_singleton.1 hmem
        exact hheld
    · rw [recordWakeWithheld, insertRow, List.countP_append, List.countP_singleton]
      rcases List.mem_append.1 hmem with hmem | hmem
      · have hne : ¬ (seq = seq' ∧ name = name') := by
          rintro ⟨rfl, rfl⟩
          exact hfree hmem
        simpa [withholds, withheldRow, hne] using h.once seq' name' hmem
      · cases List.mem_singleton.1 hmem
        simp [withholds, withheldRow, h.none seq name hfree]
    · have hmem : (seq', name') ∉ s.withheld ++ [(seq, name)] := hmem
      rw [List.mem_append, List.mem_singleton, not_or, Prod.mk.injEq] at hmem
      rw [recordWakeWithheld, insertRow, List.countP_append, List.countP_singleton, h.none _ _ hmem.1]
      have hne : ¬ (seq = seq' ∧ name = name') := fun heq => hmem.2 ⟨heq.1.symm, heq.2.symm⟩
      simpa [withholds, withheldRow] using hne
  · refine ⟨fun seq' name' hmem => ?_, h.once, h.none⟩
    rintro (⟨w, hw, hseq, hname⟩ | hrest)
    · rcases List.mem_append.1 hw with hw | hw
      · exact h.apart seq' name' hmem (Or.inl ⟨w, hw, hseq, hname⟩)
      · rw [List.mem_singleton.1 hw] at hseq hname
        cases hseq
        cases hname
        exact hfree hmem
    · exact h.apart seq' name' hmem (Or.inr hrest)

/-- The turn for one target is about that target alone. -/
theorem held_consider {seq seq' : ℕ} {target : String} (h : (s.consider config seq target).Held seq' name) :
    s.Held seq' name ∨ (seq' = seq ∧ name = target) := by
  unfold consider at h
  split at h
  · exact Or.inl h
  · rcases h with ⟨w, hw, hseq, hname⟩ | hrest
    · rcases List.mem_append.1 hw with hw | hw
      · exact Or.inl (Or.inl ⟨w, hw, hseq, hname⟩)
      · rw [List.mem_singleton.1 hw] at hseq hname
        exact Or.inr ⟨hseq.symm, hname.symm⟩
    · exact Or.inl (Or.inr hrest)

theorem withheld_consider {seq seq' : ℕ} {target : String}
    (h : (seq', name) ∈ (s.consider config seq target).withheld) :
    (seq', name) ∈ s.withheld ∨ (seq' = seq ∧ name = target) := by
  unfold consider at h
  split at h
  · exact (List.mem_append.1 h).imp (fun h => h) fun h => Prod.mk.inj (List.mem_singleton.1 h)
  · exact Or.inl h

/-- What a dispatch of `seq` has in the books afterwards. -/
theorem apart_foldl (config : String → Option WakeBudget) (seq : ℕ) {targets : List String} (hnodup : targets.Nodup) {s : Room}
    (h : s.Apart)
    (hfree : ∀ name ∈ targets, ¬ s.Held seq name ∧ (seq, name) ∉ s.withheld) :
    (targets.foldl (consider config seq) s).Apart ∧
      ∀ seq' name, (targets.foldl (consider config seq) s).Held seq' name ∨
        (seq', name) ∈ (targets.foldl (consider config seq) s).withheld →
        s.Held seq' name ∨ (seq', name) ∈ s.withheld ∨ seq' = seq := by
  induction targets generalizing s with
  | nil => exact ⟨h, fun _ _ h => h.imp (fun h => h) Or.inl⟩
  | cons target targets ih =>
    obtain ⟨hout, hnodup⟩ := List.nodup_cons.1 hnodup
    obtain ⟨hheld, hwithheld⟩ := hfree target List.mem_cons_self
    have hrest : ∀ name ∈ targets, ¬ (s.consider config seq target).Held seq name ∧
        (seq, name) ∉ (s.consider config seq target).withheld := by
      intro name hname
      have hne : name ≠ target := fun heq => hout (heq ▸ hname)
      obtain ⟨hheld', hwithheld'⟩ := hfree name (List.mem_cons_of_mem _ hname)
      exact ⟨fun h => (held_consider h).elim hheld' fun h => hne h.2,
        fun h => (withheld_consider h).elim hwithheld' fun h => hne h.2⟩
    obtain ⟨hapart, hbooks⟩ := ih hnodup (h.consider hheld hwithheld) hrest
    refine ⟨hapart, fun seq' name' hbook => ?_⟩
    rcases hbooks seq' name' hbook with hbook | hbook | hbook
    · exact (held_consider hbook).imp (fun h => h) fun h => Or.inr h.1
    · exact Or.inr ((withheld_consider hbook).imp (fun h => h) And.left)
    · exact Or.inr (Or.inr hbook)

/-- A message is dispatched once: what has a place in the books has left `unsent`. -/
structure Booked (s : Room) : Prop where
  apart : s.Apart
  unsent : s.unsent.Nodup ∧ ∀ seq ∈ s.unsent, seq ≤ s.lastSeq
  sent : ∀ seq name, s.Held seq name ∨ (seq, name) ∈ s.withheld → seq ≤ s.lastSeq ∧ seq ∉ s.unsent

theorem Booked.initial (clock : Int) : Booked (Room.initial clock) where
  apart := ⟨fun _ _ h => absurd h List.not_mem_nil, fun _ _ h => absurd h List.not_mem_nil,
    fun _ _ _ => rfl⟩
  unsent := ⟨List.nodup_nil, fun _ h => absurd h List.not_mem_nil⟩
  sent seq name h := by simp [Held, Room.initial] at h

theorem Booked.dispatchWebhooks (h : s.Booked) {seq : ℕ} {targets : List String}
    (hseq : seq ∈ s.unsent) (hnodup : targets.Nodup) :
    (s.dispatchWebhooks config seq targets).Booked := by
  have hle := h.unsent.2 seq hseq
  have hstart : ({ s with unsent := s.unsent.erase seq } : Room).Booked :=
    { apart := ⟨h.apart.apart, h.apart.once, h.apart.none⟩
      unsent := ⟨h.unsent.1.erase _, fun x hx => h.unsent.2 x (List.mem_of_mem_erase hx)⟩
      sent := fun seq' name' hbook =>
        ⟨(h.sent seq' name' hbook).1, fun hx => (h.sent seq' name' hbook).2 (List.mem_of_mem_erase hx)⟩ }
  have hlast (targets : List String) (s : Room) :
      (targets.foldl (consider config seq) s).lastSeq = s.lastSeq ∧
        (targets.foldl (consider config seq) s).unsent = s.unsent := by
    induction targets generalizing s with
    | nil => exact ⟨rfl, rfl⟩
    | cons target targets ih =>
      have hone : (s.consider config seq target).lastSeq = s.lastSeq ∧
          (s.consider config seq target).unsent = s.unsent := by
        unfold consider
        split <;> exact ⟨rfl, rfl⟩
      exact ⟨(ih _).1.trans hone.1, (ih _).2.trans hone.2⟩
  have hfree : ∀ name ∈ targets, ¬ s.Held seq name ∧ (seq, name) ∉ s.withheld := by
    intro name' _
    exact ⟨fun hheld => (h.sent seq name' (Or.inl hheld)).2 hseq,
      fun hwithheld => (h.sent seq name' (Or.inr hwithheld)).2 hseq⟩
  unfold Room.dispatchWebhooks
  simp only
  split
  · exact hstart
  · obtain ⟨hapart, hbooks⟩ := apart_foldl config seq hnodup hstart.apart hfree
    obtain ⟨hl, hu⟩ := hlast targets { s with unsent := s.unsent.erase seq }
    refine ⟨hapart, ?_, fun seq' name' hbook => ?_⟩
    · rw [hl, hu]
      exact hstart.unsent
    · rw [hl, hu]
      rcases hbooks seq' name' hbook with hbook | hbook | rfl
      · exact hstart.sent seq' name' (Or.inl hbook)
      · exact hstart.sent seq' name' (Or.inr hbook)
      · exact ⟨hle, fun hx => (h.unsent.1.not_mem_erase) hx⟩

/-- A step that withholds nothing keeps the books if it takes up no new wake. -/
theorem Booked.of_held {s' : Room} (h : s.Booked) (hheld : ∀ seq name, s'.Held seq name → s.Held seq name)
    (hwithheld : s'.withheld = s.withheld)
    (hwritten : ∀ seq name, s'.written.countP (withholds seq name) = s.written.countP (withholds seq name))
    (hunsent : s'.unsent = s.unsent) (hlast : s'.lastSeq = s.lastSeq) : s'.Booked where
  apart :=
    { apart := fun seq name hmem hbook => h.apart.apart seq name (hwithheld ▸ hmem) (hheld seq name hbook)
      once := fun seq name hmem => (hwritten seq name).trans (h.apart.once seq name (hwithheld ▸ hmem))
      none := fun seq name hmem => (hwritten seq name).trans (h.apart.none seq name (hwithheld ▸ hmem)) }
  unsent := by rw [hunsent, hlast]; exact h.unsent
  sent seq name hbook := by
    rw [hunsent, hlast]
    exact h.sent seq name (hbook.imp (hheld seq name) (hwithheld ▸ ·))

theorem held_of_subset {s' : Room} {seq : ℕ} (hwakes : ∀ w ∈ s'.wakes, s.Held w.seq w.name)
    (hstored : ∀ q ∈ s'.stored, s.Held q.seq q.name) (hposts : ∀ p ∈ s'.posts, s.Held p.seq p.name)
    (h : s'.Held seq name) : s.Held seq name := by
  rcases h with ⟨w, hw, rfl, rfl⟩ | ⟨q, hq, rfl, rfl⟩ | ⟨p, hp, rfl, rfl⟩
  · exact hwakes w hw
  · exact hstored q hq
  · exact hposts p hp

theorem held_wake (s : Room) : ∀ w ∈ s.wakes, s.Held w.seq w.name :=
  fun w hw => Or.inl ⟨w, hw, rfl, rfl⟩

theorem held_stored (s : Room) : ∀ q ∈ s.stored, s.Held q.seq q.name :=
  fun q hq => Or.inr (Or.inl ⟨q, hq, rfl, rfl⟩)

theorem held_post (s : Room) : ∀ p ∈ s.posts, s.Held p.seq p.name :=
  fun p hp => Or.inr (Or.inr ⟨p, hp, rfl, rfl⟩)

theorem held_erase (w : Wake) : ∀ v ∈ s.wakes.erase w, s.Held v.seq v.name :=
  fun v hv => held_wake s v (List.mem_of_mem_erase hv)

theorem held_filter {keep : Stored → Bool} : ∀ q ∈ s.stored.filter keep, s.Held q.seq q.name :=
  fun q hq => held_stored s q (List.mem_filter.1 hq).1

theorem written_insertRow (s : Room) {row : WakeRow} (hrow : row.result ≠ .budget) (seq : ℕ)
    (name : String) : (s.insertRow row).written.countP (withholds seq name) =
      s.written.countP (withholds seq name) := by
  simp [insertRow, List.countP_append, withholds, hrow]

theorem Booked.checked (h : s.Booked) {w : Wake} (hw : w ∈ s.wakes) (removed : Bool) :
    (s.checked w removed).Booked := by
  unfold Room.checked
  split
  · exact h.of_held (fun _ _ => held_of_subset (held_erase w) (held_filter (s := s)) (held_post s))
      rfl (fun _ _ => rfl) rfl rfl
  · refine h.of_held (fun _ _ => held_of_subset (fun v hv => ?_) (held_stored s) fun p hp => ?_)
      rfl (fun _ _ => rfl) rfl rfl
    · rcases List.mem_append.1 hv with hv | hv
      · exact held_erase w v hv
      · rw [List.mem_singleton.1 hv]
        exact held_wake s w hw
    · rcases List.mem_append.1 hp with hp | hp
      · exact held_post s p hp
      · rw [List.mem_singleton.1 hp]
        exact held_wake s w hw

theorem Booked.answered (h : s.Booked) {w : Wake} (hw : w ∈ s.wakes) (ok : Bool)
    (error : Option String) : (s.answered w ok error).Booked := by
  have hrow : ((s.drop w).attemptRow w ok error).result ≠ .budget := by
    cases ok <;> simp [attemptRow]
  unfold Room.answered
  simp only
  split_ifs
  · exact h.of_held (fun _ _ => held_of_subset (held_erase w) (held_filter (s := s)) (held_post s))
      rfl (fun _ _ => rfl) rfl rfl
  · exact h.of_held
      (fun _ _ => held_of_subset (held_erase w) (held_stored s) (held_post s))
      rfl (written_insertRow _ hrow) rfl rfl
  · refine h.of_held
      (fun _ _ => held_of_subset (held_erase w) (fun q hq => ?_) (held_post s))
      rfl (written_insertRow _ hrow) rfl rfl
    rcases List.mem_append.1 hq with hq | hq
    · exact held_stored s q hq
    · rw [List.mem_singleton.1 hq]
      exact held_wake s w hw

theorem Booked.next (h : s.Booked) (hready : s.Ready e) : (s.next config e).Booked := by
  cases e with
  | send held =>
    refine ⟨⟨h.apart.apart, h.apart.once, h.apart.none⟩, ⟨?_, fun seq hseq => ?_⟩, fun seq name hbook => ?_⟩
    · refine List.nodup_append.2 ⟨h.unsent.1, List.nodup_singleton _, ?_⟩
      rintro a ha b hb rfl
      have := h.unsent.2 a ha
      rw [List.mem_singleton.1 hb] at this
      omega
    · rcases List.mem_append.1 hseq with hseq | hseq
      · exact (h.unsent.2 seq hseq).trans (Nat.le_succ _)
      · exact (List.mem_singleton.1 hseq).le
    · obtain ⟨hle, hout⟩ := h.sent seq name hbook
      refine ⟨hle.trans (Nat.le_succ _), fun hmem => ?_⟩
      rcases List.mem_append.1 hmem with hmem | hmem
      · exact hout hmem
      · rw [List.mem_singleton.1 hmem] at hle
        omega
  | dispatchWebhooks seq targets => exact h.dispatchWebhooks hready.1 hready.2
  | checked w removed => exact h.checked hready.1 removed
  | answered w ok error => exact h.answered hready.1 ok error
  | retry q =>
    refine h.of_held (fun _ _ => held_of_subset (fun v hv => ?_) (held_stored s) (held_post s))
      rfl (fun _ _ => rfl) rfl rfl
    rcases List.mem_append.1 hv with hv | hv
    · exact held_wake s v hv
    · rw [List.mem_singleton.1 hv]
      exact held_stored s q hready
  | otherWake row =>
    exact h.of_held (fun _ _ hheld => hheld) rfl (written_insertRow s hready.1) rfl rfl
  | forget q =>
    exact h.of_held (fun _ _ => held_of_subset (held_wake s)
      (fun q hq => held_stored s q (List.mem_of_mem_erase hq)) (held_post s)) rfl (fun _ _ => rfl) rfl rfl
  | retract _ | pruneRetainedContent _ | eraseIdentityData _ =>
    exact h.of_held (fun _ _ => held_of_subset (held_wake s) held_filter (held_post s))
      rfl (fun _ _ => rfl) rfl rfl
  | tick _ | pruneWakeLedger =>
    exact h.of_held (fun _ _ hheld => hheld) rfl (fun _ _ => rfl) rfl rfl

end Withheld

end Room

/-- A withheld mention is never posted and has its one row in every run. Where the wakes
under way are counted in, no message is retracted before the row of its wake, and retention
and erasure leave the rows that count, an agent gets at most `limit` first POSTs in every
interval shorter than its window. -/
theorem wake_budget_cap {config : String → Option WakeBudget} {clock : Int} {evs : List Event}
    {s : Room} (h : Run (Room.Step config) (Room.initial clock) evs s) :
    (∀ seq name, (seq, name) ∈ s.withheld → s.written.countP (Room.withholds seq name) = 1 ∧
      ∀ p ∈ s.posts, ¬ (p.seq = seq ∧ p.name = name)) ∧
    (Run (Guarded (Room.Step config) (Room.Counted config)) (Room.initial clock) evs s →
      ∀ name cfg, config name = some cfg → ∀ a b, b - a < cfg.windowMs →
        s.posts.countP (fun p => p.name = name ∧ p.attempt = 1 ∧ a ≤ p.startedAt ∧ p.startedAt ≤ b) ≤
          cfg.limit) := by
  constructor
  · have hbooked : s.Booked := h.invariant
      (fun _ _ _ hi hs => by
        obtain ⟨hready, rfl⟩ := hs
        exact hi.next hready) (Room.Booked.initial clock)
    intro seq name hwithheld
    exact ⟨hbooked.apart.once seq name hwithheld, fun p hp hsame =>
      hbooked.apart.apart seq name hwithheld (Or.inr (Or.inr ⟨p, hp, hsame⟩))⟩
  · intro hguarded name cfg hcfg a b hab
    have hcapped : s.Attempted ∧ Room.Capped cfg name s := hguarded.invariant
      (I := fun s => s.Attempted ∧ Room.Capped cfg name s)
      (fun _ _ _ hi hs => by
        obtain ⟨⟨hready, rfl⟩, hcounted⟩ := hs
        exact ⟨hi.1.next hready, hi.2.next hi.1 hcfg hready hcounted⟩)
      ⟨fun _ hw => absurd hw List.not_mem_nil, Room.Capped.initial cfg name clock⟩
    have hmost := hcapped.2.atMost a b hab
    rw [Room.times, List.countP_map, List.countP_filter] at hmost
    refine le_trans (List.countP_mono_left fun p _ hp => ?_) hmost
    simp only [decide_eq_true_eq] at hp
    simp [hp]

/-- One wake in an hour for one agent. -/
def oneAnHour (name : String) : Option WakeBudget :=
  if name = "bot" then some ⟨1, 3600000, by decide, by decide, by decide⟩ else none

/-- The second mention comes within the hour, the third one after it. -/
def threeMentions : List Event :=
  [.send [], .dispatchWebhooks 1 ["bot"], .checked ⟨1, "bot", 1, .checks⟩ false, .tick 5,
    .answered ⟨1, "bot", 1, .posting⟩ true none, .send [], .dispatchWebhooks 2 ["bot"], .tick 3600001,
    .send [], .dispatchWebhooks 3 ["bot"], .checked ⟨3, "bot", 1, .checks⟩ false]

theorem wake_budget_cap_hour : ∃ s, Run (Room.Step oneAnHour) (Room.initial 0) threeMentions s ∧
    s.withheld = [(2, "bot")] ∧ s.posts.length = 2 ∧
    s.written.countP (Room.withholds 2 "bot") = 1 ∧
    (∀ p ∈ s.posts, ¬ (p.seq = 2 ∧ p.name = "bot")) ∧
    ∀ a b, b - a < 3600000 →
      s.posts.countP (fun p => p.name = "bot" ∧ p.attempt = 1 ∧ a ≤ p.startedAt ∧ p.startedAt ≤ b) ≤ 1 := by
  have hready : AllReady (fun s e => s.Ready e ∧ Room.Counted oneAnHour s e) (Room.next oneAnHour)
      (Room.initial 0) threeMentions := by decide
  have hguarded : Run (Guarded (Room.Step oneAnHour) (Room.Counted oneAnHour)) (Room.initial 0)
      threeMentions (threeMentions.foldl (Room.next oneAnHour) (Room.initial 0)) :=
    run_of_ready (fun _ _ h => ⟨⟨h.1, rfl⟩, h.2⟩) hready
  have hcap := wake_budget_cap hguarded.of_guarded
  have hwithheld : (threeMentions.foldl (Room.next oneAnHour) (Room.initial 0)).withheld = [(2, "bot")] := by
    decide
  have hmention := hcap.1 2 "bot" (by rw [hwithheld]; exact List.mem_singleton_self _)
  exact ⟨_, hguarded.of_guarded, hwithheld, by decide, hmention.1, hmention.2,
    hcap.2 hguarded "bot" _ rfl⟩

/-- The second mention is counted before the first one's POST has its row. -/
def twoMentions : List Event :=
  [.send [], .dispatchWebhooks 1 ["bot"], .checked ⟨1, "bot", 1, .checks⟩ false, .send [],
    .dispatchWebhooks 2 ["bot"], .checked ⟨2, "bot", 1, .checks⟩ false]

theorem two_wakes_at_once : ∃ s, Run (Room.Step oneAnHour) (Room.initial 0) twoMentions s ∧
    (oneAnHour "bot").map (·.limit) = some 1 ∧
    s.posts = [⟨1, "bot", 1, 0⟩, ⟨2, "bot", 1, 0⟩] := by
  have hready : AllReady Room.Ready (Room.next oneAnHour) (Room.initial 0) twoMentions := by
    decide
  exact ⟨_, run_of_ready (fun _ _ h => ⟨h, rfl⟩) hready, rfl, by decide⟩

end Wakes
end AgentParty
