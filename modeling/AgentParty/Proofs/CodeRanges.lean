import AgentParty.Shared.Mentions
import Mathlib.Data.List.Range
import Mathlib.Data.List.TakeWhile

/-! The code ranges of a text: inline code is what a search forward from each run of backticks
gives, the ranges are in order, and so the scan of the mentions that moves over them once finds
what a look at every position finds. -/

namespace AgentParty
namespace Mentions

section Positions

variable {text : Text} {unit start stop pos at' : ℕ}

theorem indexOf_eq_some (h : indexOf text unit start = some pos) :
    start ≤ pos ∧ text[pos]? = some unit ∧ ∀ i, start ≤ i → i < pos → text[i]? ≠ some unit := by
  unfold indexOf at h
  obtain ⟨k, hk, rfl⟩ := Option.map_eq_some_iff.1 h
  obtain ⟨hlt, hat, hbefore⟩ := List.findIdx?_eq_some_iff_getElem.1 hk
  rw [List.getElem_drop, decide_eq_true_eq] at hat
  have hlen : start + k < text.length := by simpa [List.length_drop, Nat.lt_sub_iff_add_lt'] using hlt
  refine ⟨by omega, ?_, fun i hi hik hat' => ?_⟩
  · rw [Nat.add_comm, List.getElem?_eq_getElem hlen, hat]
  · have hj := hbefore (i - start) (by omega)
    rw [List.getElem_drop, decide_eq_true_eq] at hj
    obtain ⟨hi', heq⟩ := List.getElem?_eq_some_iff.1 hat'
    exact hj (by simpa [show start + (i - start) = i by omega] using heq)

theorem indexOf_eq_none (h : indexOf text unit start = none) {i : ℕ} (hi : start ≤ i) :
    text[i]? ≠ some unit := by
  intro hat
  unfold indexOf at h
  rw [Option.map_eq_none_iff, List.findIdx?_eq_none_iff] at h
  have hmem : unit ∈ text.drop start := by
    refine List.mem_of_getElem? (i := i - start) ?_
    rw [List.getElem?_drop, show start + (i - start) = i by omega, hat]
  simpa using h unit hmem

theorem takeWhile_spec {α : Type} (p : α → Bool) (l : List α) :
    (∀ i < (l.takeWhile p).length, ∃ u, l[i]? = some u ∧ p u = true) ∧
      ∀ u, l[(l.takeWhile p).length]? = some u → p u = false := by
  induction l with
  | nil => simp
  | cons v l ih =>
    cases hp : p v with
    | false => simp [hp]
    | true =>
      rw [List.takeWhile_cons_of_pos hp, List.length_cons]
      refine ⟨fun i hi => ?_, fun u hu => ih.2 u (by simpa using hu)⟩
      cases i with
      | zero => exact ⟨v, rfl, hp⟩
      | succ i => simpa using ih.1 i (by omega)

theorem getElem?_slice (text : Text) (start stop i : ℕ) :
    (slice text start stop)[i]? = if start + i < stop then text[start + i]? else none := by
  unfold slice
  rw [List.getElem?_drop, List.getElem?_take]

/-- A run is the units from `start` on, and ends at `stop` or before another unit. -/
theorem runLength_spec (text : Text) (start unit stop : ℕ) :
    (∀ i, start ≤ i → i < start + runLength text start unit stop →
      i < stop ∧ text[i]? = some unit) ∧
      (start + runLength text start unit stop < stop →
        text[start + runLength text start unit stop]? ≠ some unit) := by
  obtain ⟨hin, hout⟩ := takeWhile_spec (fun u => u = unit) (slice text start stop)
  refine ⟨fun i hi hlt => ?_, fun hlt hat => ?_⟩
  · obtain ⟨u, hu, heq⟩ := hin (i - start) (by unfold runLength at hlt; omega)
    rw [getElem?_slice, show start + (i - start) = i by omega] at hu
    split_ifs at hu with hstop
    rw [decide_eq_true_eq] at heq
    exact ⟨hstop, heq ▸ hu⟩
  · have hunit := hout unit (by
      rw [getElem?_slice]
      exact (if_pos hlt).trans hat)
    simp at hunit

theorem runLength_pos {text : Text} {start unit stop : ℕ} (hlt : start < stop)
    (hat : text[start]? = some unit) : 0 < runLength text start unit stop := by
  by_contra hzero
  have hnot := (runLength_spec text start unit stop).2
  rw [show runLength text start unit stop = 0 by omega] at hnot
  exact hnot hlt hat

theorem runLength_le (text : Text) (start unit stop : ℕ) (h : start ≤ stop) :
    start + runLength text start unit stop ≤ stop := by
  have hlen := (List.takeWhile_sublist (l := slice text start stop) fun u => u = unit).length_le
  simp only [slice, List.length_drop, List.length_take] at hlen
  unfold runLength slice
  omega

end Positions

theorem filterMap_range_of_none {α : Type} {g : ℕ → Option α} {a b : ℕ} (hab : a ≤ b)
    (h : ∀ i, a ≤ i → i < b → g i = none) :
    (List.range b).filterMap g = (List.range a).filterMap g := by
  induction b, hab using Nat.le_induction with
  | base => rfl
  | succ b hab ih =>
    rw [List.range_succ, List.filterMap_append, ih fun i hi hib => h i hi (by omega)]
    simp [h b hab (by omega)]

theorem filterMap_range_succ {α : Type} (g : ℕ → Option α) (b : ℕ) :
    (List.range (b + 1)).filterMap g = (List.range b).filterMap g ++ (g b).toList := by
  rw [List.range_succ, List.filterMap_append]
  cases hb : g b <;> simp [hb]

section Runs

variable (text : Text) (start stop : ℕ)

/-- A maximal run of backticks of the segment starts here, and is not escaped. -/
def opensRun (pos : ℕ) : Bool :=
  start ≤ pos && text[pos]? = some BACKTICK &&
    (pos = start || text[pos - 1]? ≠ some BACKTICK) && !isEscaped text pos

/-- The runs of a segment by a look at each position. -/
def directRuns : List Run :=
  (List.range stop).filterMap fun pos =>
    if opensRun text start pos then some ⟨pos, runLength text pos BACKTICK stop⟩ else none

/-- The pairing by a search forward from each run. -/
def directPairs : List Run → List TextRange
  | [] => []
  | opener :: runs =>
    match _h : runs.dropWhile fun run => run.length ≠ opener.length with
    | [] => directPairs runs
    | closer :: after => ⟨opener.start, closer.start + closer.length⟩ :: directPairs after
termination_by runs => runs.length
decreasing_by
  · simp
  · have hle := (List.dropWhile_suffix (l := runs) fun run => run.length ≠ opener.length).length_le
    rw [_h] at hle
    simp only [List.length_cons] at hle ⊢
    omega

variable {text start stop}

theorem opensRun_iff {pos : ℕ} : opensRun text start pos = true ↔ start ≤ pos ∧
    text[pos]? = some BACKTICK ∧ (pos = start ∨ text[pos - 1]? ≠ some BACKTICK) ∧
      isEscaped text pos = false := by
  simp [opensRun, and_assoc]

/-- The runs before the cursor are found, and no run goes on at the cursor. -/
structure RunScan.Found (text : Text) (start stop : ℕ) (s : RunScan) : Prop where
  runs : s.runs = (List.range s.cursor).filterMap fun pos =>
    if opensRun text start pos then some ⟨pos, runLength text pos BACKTICK stop⟩ else none
  from_start : start ≤ s.cursor
  edge : s.cursor = start ∨
    s.cursor ≤ stop ∧ (s.cursor < stop → text[s.cursor]? ≠ some BACKTICK)

theorem found_initial : RunScan.Found text start stop ⟨[], start⟩ where
  runs := by
    refine (filterMap_range_of_none (Nat.zero_le start) fun i _ hi => if_neg fun h => ?_).symm
    exact absurd (opensRun_iff.1 h).1 (by omega)
  from_start := le_rfl
  edge := Or.inl rfl

/-- Where the rest of the segment has no backtick, the runs are all found. -/
theorem RunScan.Found.complete {s : RunScan} (h : s.Found text start stop)
    (hnone : ∀ i, s.cursor ≤ i → i < stop → text[i]? ≠ some BACKTICK) :
    s.runs = directRuns text start stop := by
  rw [h.runs]
  have hrest : ∀ i, s.cursor ≤ i → i < stop → (if opensRun text start i then
      some (⟨i, runLength text i BACKTICK stop⟩ : Run) else none) = none :=
    fun i hi hlt => if_neg fun hopen => hnone i hi hlt (opensRun_iff.1 hopen).2.1
  rcases Nat.le_total s.cursor stop with hle | hle
  · exact (filterMap_range_of_none hle hrest).symm
  · have hcursor : s.cursor = start ∨ s.cursor = stop := h.edge.imp_right fun hedge => by omega
    rcases hcursor with hcursor | hcursor
    · refine filterMap_range_of_none hle fun i hi hlt => if_neg fun hopen => ?_
      have hfrom := (opensRun_iff.1 hopen).1
      omega
    · rw [hcursor]
      rfl

/-- The next backtick starts a run, and the units after it up to the run's end start none. -/
theorem RunScan.Found.run {s : RunScan} (h : s.Found text start stop) {pos : ℕ}
    (hpos : indexOf text BACKTICK s.cursor = some pos) (hlt : pos < stop) :
    RunScan.Found text start stop
      ⟨if isEscaped text pos then s.runs
        else s.runs ++ [⟨pos, runLength text pos BACKTICK stop⟩],
        pos + runLength text pos BACKTICK stop⟩ := by
  obtain ⟨hle, hat, hbefore⟩ := indexOf_eq_some hpos
  have hlen := runLength_pos hlt hat
  obtain ⟨hin, hend⟩ := runLength_spec text pos BACKTICK stop
  have hstop := runLength_le text pos BACKTICK stop hlt.le
  have hfrom := h.from_start
  refine ⟨?_, by simp only; omega, Or.inr ⟨hstop, hend⟩⟩
  have hfirst : pos = start ∨ text[pos - 1]? ≠ some BACKTICK := by
    rcases hle.lt_or_eq with hlt' | heq
    · exact Or.inr (hbefore (pos - 1) (by omega) (by omega))
    · rcases h.edge with hstart | ⟨-, hedge⟩
      · exact Or.inl (heq.symm.trans hstart)
      · exact absurd hat (heq ▸ hedge (by omega))
  have hinside : ∀ i, pos + 1 ≤ i → i < pos + runLength text pos BACKTICK stop →
      (if opensRun text start i then some (⟨i, runLength text i BACKTICK stop⟩ : Run) else none) =
        none := by
    refine fun i hi hilt => if_neg fun hopen => ?_
    rcases (opensRun_iff.1 hopen).2.2.1 with rfl | hnot
    · omega
    · exact hnot (hin (i - 1) (by omega) (by omega)).2
  rw [filterMap_range_of_none (show pos + 1 ≤ pos + runLength text pos BACKTICK stop by omega)
    hinside, filterMap_range_succ, filterMap_range_of_none hle fun i hi hilt => if_neg fun hopen =>
      hbefore i hi hilt (opensRun_iff.1 hopen).2.1, ← h.runs]
  cases hescaped : isEscaped text pos with
  | true => simp [opensRun, hescaped]
  | false =>
    have hopen : opensRun text start pos = true :=
      opensRun_iff.2 ⟨hfrom.trans hle, hat, hfirst, hescaped⟩
    simp [hopen]

theorem backtickRuns_eq : backtickRuns text start stop = some (directRuns text start stop) := by
  have hstep : ∀ s s' : RunScan, s.Found text start stop → runStep text stop s = .inl s' →
      s'.Found text start stop ∧ stop - s'.cursor < stop - s.cursor := by
    intro s s' h hs
    unfold runStep at hs
    split_ifs at hs with hcursor
    split at hs
    · exact nomatch hs
    · rename_i pos hpos
      by_cases hlt : stop ≤ pos
      · rw [if_pos hlt] at hs
        exact nomatch hs
      · rw [if_neg hlt] at hs
        obtain rfl := Sum.inl.inj hs
        obtain ⟨hle, hat, -⟩ := indexOf_eq_some hpos
        have hlen := runLength_pos (not_le.1 hlt) hat
        exact ⟨h.run hpos (not_le.1 hlt), by simp only; omega⟩
  have hexit : ∀ (s : RunScan) runs, s.Found text start stop → runStep text stop s = .inr runs →
      runs = directRuns text start stop := by
    intro s runs h hs
    unfold runStep at hs
    split_ifs at hs with hcursor
    · split at hs
      · rename_i hnone
        cases hs
        exact h.complete fun i hi _ => indexOf_eq_none hnone hi
      · rename_i pos hpos
        split_ifs at hs with hlt
        cases hs
        exact h.complete fun i hi hilt =>
          (indexOf_eq_some hpos).2.2 i hi (by omega)
    · cases hs
      exact h.complete fun i hi hilt => by omega
  obtain ⟨runs, hruns⟩ := WhileLoop.run_terminates (n := stop + 1) hstep found_initial
    (by simp only; omega)
  rw [backtickRuns, hruns]
  exact congrArg some (WhileLoop.run_invariant (fun s s' h hs => (hstep s s' h hs).1) hexit
    found_initial hruns)

end Runs

section Pairs

theorem linkRuns_next (index : ℕ) (runs : List Run) (length : ℕ) :
    (linkRuns index runs).2 length =
      (runs.findIdx? fun run => run.length = length).map (· + index) := by
  induction runs generalizing index with
  | nil => rfl
  | cons run runs ih =>
    simp only [linkRuns, List.findIdx?_cons, ih]
    by_cases hlength : length = run.length
    · simp [hlength]
    · rw [if_neg hlength, if_neg (by simpa using fun h => hlength h.symm)]
      cases runs.findIdx? fun run => run.length = length with
      | none => rfl
      | some k => simp; omega

/-- The link of a run is the next one of its length. -/
theorem linkRuns_getElem? (index : ℕ) (runs : List Run) (i : ℕ) :
    (linkRuns index runs).1[i]? = runs[i]?.map fun run =>
      ⟨run, ((runs.drop (i + 1)).findIdx? fun other => other.length = run.length).map
        (· + (index + i + 1))⟩ := by
  induction runs generalizing index i with
  | nil => rfl
  | cons run runs ih =>
    cases i with
    | zero => simp [linkRuns, linkRuns_next]
    | succ i =>
      simp only [linkRuns, List.getElem?_cons_succ, ih, List.drop_succ_cons]
      refine Option.map_congr fun run' _ => ?_
      rw [show index + 1 + i + 1 = index + (i + 1) + 1 by omega]

theorem directPairs_cons_none {opener : Run} {runs : List Run}
    (h : (runs.findIdx? fun run => run.length = opener.length) = none) :
    directPairs (opener :: runs) = directPairs runs := by
  have hdrop : (runs.dropWhile fun run => run.length ≠ opener.length) = [] := by
    rw [List.dropWhile_eq_nil_iff]
    intro run hrun
    simpa using List.findIdx?_eq_none_iff.1 h run hrun
  rw [directPairs]
  split
  · rfl
  · rename_i heq
    rw [hdrop] at heq
    exact nomatch heq

theorem directPairs_cons_some {opener closer : Run} {runs : List Run} {k : ℕ}
    (h : (runs.findIdx? fun run => run.length = opener.length) = some k)
    (hcloser : runs[k]? = some closer) :
    directPairs (opener :: runs) =
      ⟨opener.start, closer.start + closer.length⟩ :: directPairs (runs.drop (k + 1)) := by
  have hdrop : (runs.dropWhile fun run => run.length ≠ opener.length) =
      closer :: runs.drop (k + 1) := by
    rw [List.dropWhile_eq_drop_findIdx_not]
    have hidx : (runs.findIdx fun run => !decide (run.length ≠ opener.length)) = k := by
      rw [← (List.findIdx?_eq_some_iff_findIdx_eq.1 h).2]
      exact congrArg (runs.findIdx ·) (funext fun run => by simp)
    obtain ⟨hk, heq⟩ := List.getElem?_eq_some_iff.1 hcloser
    rw [hidx, List.drop_eq_getElem_cons hk, heq]
  rw [directPairs]
  split
  · rename_i heq
    rw [hdrop] at heq
    exact nomatch heq
  · rename_i closer' after heq
    rw [hdrop] at heq
    obtain ⟨rfl, rfl⟩ := List.cons.inj heq
    rfl

/-- What the pairing loop has and what the direct pairing makes of the runs that are left. -/
def PairScan.Paired (runs : List Run) (s : PairScan) : Prop :=
  s.ranges ++ directPairs (runs.drop s.index) = directPairs runs

/-- One turn of the pairing loop moves forward and keeps what is still to come. -/
theorem pairStep_cases {runs : List Run} {s : PairScan} (h : s.Paired runs) :
    (∃ s', pairStep (linkRuns 0 runs).1 s = .inl s' ∧ s'.Paired runs ∧ s.index < s'.index ∧
      s.index < runs.length) ∨
      pairStep (linkRuns 0 runs).1 s = .inr (some (directPairs runs)) := by
  unfold PairScan.Paired at h ⊢
  unfold pairStep
  rw [linkRuns_getElem?]
  cases hopener : runs[s.index]? with
  | none =>
    rw [List.drop_eq_nil_of_le (List.getElem?_eq_none_iff.1 hopener), directPairs,
      List.append_nil] at h
    exact Or.inr (by rw [h]; rfl)
  | some opener =>
    obtain ⟨hlt, hat⟩ := List.getElem?_eq_some_iff.1 hopener
    rw [List.drop_eq_getElem_cons hlt, hat] at h
    simp only [Option.map_some]
    cases hnext : (runs.drop (s.index + 1)).findIdx? fun other => other.length = opener.length with
    | none =>
      rw [directPairs_cons_none hnext] at h
      exact Or.inl ⟨⟨s.ranges, s.index + 1⟩, rfl, h, Nat.lt_succ_self _, hlt⟩
    | some k =>
      have hk : k < (runs.drop (s.index + 1)).length := by
        obtain ⟨hk, -⟩ := List.findIdx?_eq_some_iff_getElem.1 hnext
        exact hk
      have hcloser := List.getElem?_eq_getElem hk
      rw [directPairs_cons_some hnext hcloser, List.drop_drop] at h
      simp only [Option.map_some, linkRuns_getElem?]
      rw [List.getElem?_drop, show s.index + 1 + k = k + (0 + s.index + 1) by omega] at hcloser
      rw [hcloser]
      refine Or.inl ⟨_, rfl, ?_, by simp only; omega, hlt⟩
      simp only [List.append_assoc, List.singleton_append]
      rw [← h, show k + (0 + s.index + 1) + 1 = s.index + 1 + (k + 1) by omega]

theorem pairLoop_eq (runs : List Run) :
    WhileLoop.run (pairStep (linkRuns 0 runs).1) (runs.length + 1) ⟨[], 0⟩ =
      some (some (directPairs runs)) := by
  have hinitial : PairScan.Paired runs ⟨[], 0⟩ := rfl
  have hstep : ∀ s s' : PairScan, s.Paired runs → pairStep (linkRuns 0 runs).1 s = .inl s' →
      s'.Paired runs ∧ runs.length - s'.index < runs.length - s.index := by
    intro s s' h hs
    rcases pairStep_cases h with ⟨s₁, hs₁, hpaired, hindex, hlt⟩ | hdone
    · obtain rfl := Sum.inl.inj (hs.symm.trans hs₁)
      exact ⟨hpaired, by omega⟩
    · exact nomatch hs.symm.trans hdone
  have hexit : ∀ (s : PairScan) result, s.Paired runs →
      pairStep (linkRuns 0 runs).1 s = .inr result → result = some (directPairs runs) := by
    intro s result h hs
    rcases pairStep_cases h with ⟨s₁, hs₁, -⟩ | hdone
    · exact nomatch hs.symm.trans hs₁
    · exact Sum.inr.inj (hs.symm.trans hdone)
  obtain ⟨result, hresult⟩ := WhileLoop.run_terminates (n := runs.length + 1) hstep hinitial
    (by simp only; omega)
  rw [hresult]
  exact congrArg some (WhileLoop.run_invariant (fun s s' h hs => (hstep s s' h hs).1) hexit
    hinitial hresult)

theorem pairStep_lt {runs : List Run} {s s' : PairScan}
    (h : pairStep (linkRuns 0 runs).1 s = .inl s') : s.index < s'.index := by
  unfold pairStep at h
  rw [linkRuns_getElem?] at h
  cases hopener : runs[s.index]? with
  | none =>
    rw [hopener] at h
    exact nomatch h
  | some opener =>
    rw [hopener] at h
    simp only [Option.map_some] at h
    cases hnext : (runs.drop (s.index + 1)).findIdx? fun other => other.length = opener.length with
    | none =>
      rw [hnext] at h
      obtain rfl := Sum.inl.inj h
      exact Nat.lt_succ_self _
    | some k =>
      rw [hnext] at h
      simp only [Option.map_some] at h
      split at h
      · exact nomatch h
      · obtain rfl := Sum.inl.inj h
        simp only
        omega

/-- Inline code is the leftmost pairing of runs of one length, and the loop that pairs them only
moves forward. -/
theorem inlineCodeRanges_eq (text : Text) (start stop : ℕ) :
    inlineCodeRanges text start stop = some (directPairs (directRuns text start stop)) ∧
      ∀ runs s s', pairStep (linkRuns 0 runs).1 s = .inl s' → s.index < s'.index := by
  refine ⟨?_, fun runs s s' h => pairStep_lt h⟩
  rw [inlineCodeRanges, backtickRuns_eq, Option.bind_some, pairLoop_eq]
  rfl

end Pairs

/-- The ranges are in order, apart from each other, not empty, and between the bounds. -/
structure Ordered (lo hi : ℕ) (ranges : List TextRange) : Prop where
  within : ∀ range ∈ ranges, lo ≤ range.start ∧ range.start < range.stop ∧ range.stop ≤ hi
  apart : ranges.Pairwise fun a b => a.stop ≤ b.start

section Order

variable {text : Text} {lo mid hi : ℕ} {ranges ranges' : List TextRange}

theorem Ordered.nil (lo hi : ℕ) : Ordered lo hi [] := ⟨by simp, List.Pairwise.nil⟩

theorem Ordered.append (h : Ordered lo mid ranges) (h' : Ordered mid hi ranges') (hlo : lo ≤ mid)
    (hhi : mid ≤ hi) : Ordered lo hi (ranges ++ ranges') where
  within range hmem := by
    rcases List.mem_append.1 hmem with hmem | hmem
    · obtain ⟨h₁, h₂, h₃⟩ := h.within range hmem
      exact ⟨h₁, h₂, h₃.trans hhi⟩
    · obtain ⟨h₁, h₂, h₃⟩ := h'.within range hmem
      exact ⟨hlo.trans h₁, h₂, h₃⟩
  apart := List.pairwise_append.2 ⟨h.apart, h'.apart, fun a ha b hb =>
    (h.within a ha).2.2.trans (h'.within b hb).1⟩

theorem Ordered.cons {range : TextRange} (hlo : lo ≤ range.start) (hlt : range.start < range.stop)
    (h : Ordered range.stop hi ranges) (hhi : range.stop ≤ hi) : Ordered lo hi (range :: ranges) where
  within other hmem := by
    rcases List.mem_cons.1 hmem with rfl | hmem
    · exact ⟨hlo, hlt, hhi⟩
    · obtain ⟨h₁, h₂, h₃⟩ := h.within other hmem
      exact ⟨by omega, h₂, h₃⟩
  apart := List.pairwise_cons.2 ⟨fun other hmem => (h.within other hmem).1, h.apart⟩

theorem Ordered.mono {lo' hi' : ℕ} (h : Ordered lo hi ranges) (hlo : lo' ≤ lo) (hhi : hi ≤ hi') :
    Ordered lo' hi' ranges where
  within range hmem := by
    obtain ⟨h₁, h₂, h₃⟩ := h.within range hmem
    exact ⟨hlo.trans h₁, h₂, h₃.trans hhi⟩
  apart := h.apart

/-- The runs are in order, apart from each other, not empty, and between the bounds. -/
structure RunsOrdered (lo hi : ℕ) (runs : List Run) : Prop where
  within : ∀ run ∈ runs, lo ≤ run.start ∧ 0 < run.length ∧ run.start + run.length ≤ hi
  apart : runs.Pairwise fun a b => a.start + a.length ≤ b.start

theorem runsOrdered_directRuns (text : Text) (start stop : ℕ) :
    RunsOrdered start stop (directRuns text start stop) where
  within run hmem := by
    obtain ⟨pos, hpos, hrun⟩ := List.mem_filterMap.1 hmem
    split_ifs at hrun with hopen
    obtain rfl := Option.some.inj hrun
    obtain ⟨hle, hat, -⟩ := opensRun_iff.1 hopen
    have hlt := List.mem_range.1 hpos
    exact ⟨hle, runLength_pos hlt hat, runLength_le _ _ _ _ hlt.le⟩
  apart := by
    unfold directRuns
    rw [List.pairwise_filterMap]
    refine List.pairwise_lt_range.imp_of_mem fun {pos pos'} hpos hpos' hlt run hrun run' hrun' => ?_
    split_ifs at hrun with hopen
    split_ifs at hrun' with hopen'
    obtain rfl := Option.some.inj hrun
    obtain rfl := Option.some.inj hrun'
    obtain ⟨-, -, hfirst, -⟩ := opensRun_iff.1 hopen'
    -- a run that starts inside another one would not be maximal
    by_contra hinside
    have hfrom := (opensRun_iff.1 hopen).1
    obtain ⟨hin, -⟩ := runLength_spec text pos BACKTICK stop
    rcases hfirst with rfl | hnot
    · omega
    · exact hnot (hin (pos' - 1) (by omega) (by simp only at hinside; omega)).2

theorem RunsOrdered.suffix {runs runs' : List Run} (h : RunsOrdered lo hi runs)
    (hsuffix : runs' <:+ runs) : RunsOrdered lo hi runs' :=
  ⟨fun run hmem => h.within run (hsuffix.subset hmem), h.apart.sublist hsuffix.sublist⟩

theorem RunsOrdered.tail {run : Run} {runs : List Run} (h : RunsOrdered lo hi (run :: runs)) :
    RunsOrdered (run.start + run.length) hi runs where
  within other hmem := ⟨(List.pairwise_cons.1 h.apart).1 other hmem,
    (h.within other (List.mem_cons_of_mem _ hmem)).2⟩
  apart := (List.pairwise_cons.1 h.apart).2

/-- Pairing keeps the order of the runs; what lies in a span is skipped with it. -/
theorem ordered_directPairs {runs : List Run} (h : RunsOrdered lo hi runs) :
    Ordered lo hi (directPairs runs) := by
  induction runs using directPairs.induct generalizing lo with
  | case1 =>
    rw [directPairs]
    exact Ordered.nil lo hi
  | case2 opener runs hdrop ih =>
    rw [directPairs]
    split
    · exact ih (h.suffix (List.suffix_cons _ _))
    · rename_i heq
      rw [hdrop] at heq
      exact nomatch heq
  | case3 opener runs closer after hdrop ih =>
    rw [directPairs]
    split
    · rename_i heq
      rw [hdrop] at heq
      exact nomatch heq
    · rename_i closer' after' heq
      rw [hdrop] at heq
      obtain ⟨rfl, rfl⟩ := List.cons.inj heq
      have hrest : RunsOrdered (opener.start + opener.length) hi (closer :: after) :=
        h.tail.suffix (hdrop ▸ List.dropWhile_suffix _)
      obtain ⟨hlo, hpos, -⟩ := h.within opener List.mem_cons_self
      obtain ⟨hcloser, hpos', hhi⟩ := hrest.within closer List.mem_cons_self
      exact Ordered.cons hlo (by simp only; omega) (ih hrest.tail) hhi

theorem ordered_inlineCodeRanges (text : Text) (start stop : ℕ) :
    ∃ ranges, inlineCodeRanges text start stop = some ranges ∧ Ordered start stop ranges :=
  ⟨_, (inlineCodeRanges_eq text start stop).1,
    ordered_directPairs (runsOrdered_directRuns text start stop)⟩

/-- The fences before the line are in order, and the open one starts after them. -/
structure FenceScan.Sound (text : Text) (s : FenceScan) : Prop where
  line : s.lineStart ≤ text.length
  closed : s.opened = none → Ordered 0 s.lineStart s.ranges
  opened : ∀ fence, s.opened = some fence →
    fence.start < s.lineStart ∧ Ordered 0 fence.start s.ranges

theorem FenceScan.Sound.turn {s : FenceScan} (h : s.Sound text) {marker : Option FenceMarker}
    {nextLine : ℕ} (hlt : s.lineStart < nextLine) (hle : nextLine ≤ text.length) :
    (s.turn marker nextLine).Sound text := by
  unfold FenceScan.turn
  cases hopen : s.opened with
  | none =>
    simp only
    split
    · exact ⟨hle, fun _ => (h.closed hopen).mono le_rfl hlt.le, nofun⟩
    · refine ⟨hle, nofun, fun fence hsome => ?_⟩
      obtain rfl := Option.some.inj hsome
      exact ⟨hlt, h.closed hopen⟩
  | some fence =>
    obtain ⟨hstart, hranges⟩ := h.opened fence hopen
    simp only
    split
    · refine ⟨hle, nofun, fun fence' hsome => ?_⟩
      obtain rfl := Option.some.inj hsome
      exact ⟨hstart.trans hlt, hranges⟩
    · refine ⟨hle, fun _ => ?_, nofun⟩
      exact hranges.append (Ordered.cons le_rfl (hstart.trans hlt) (Ordered.nil _ _) le_rfl)
        (Nat.zero_le _) (hstart.trans hlt).le

theorem fenceStep_cases {s : FenceScan} (h : s.Sound text) :
    (∃ s', fenceStep text s = .inl s' ∧ s'.Sound text ∧
      text.length - s'.lineStart < text.length - s.lineStart) ∨
      ∃ ranges, fenceStep text s = .inr ranges ∧ Ordered 0 text.length ranges := by
  unfold fenceStep
  by_cases hline : s.lineStart < text.length
  · rw [if_pos hline]
    refine Or.inl ⟨_, rfl, ?_⟩
    set nextLine := ((indexOf text NEWLINE s.lineStart).map (· + 1)).getD text.length with hnext
    have hbounds : s.lineStart < nextLine ∧ nextLine ≤ text.length := by
      cases hnewline : indexOf text NEWLINE s.lineStart with
      | none => simpa [hnext, hnewline] using hline
      | some pos =>
        obtain ⟨hle, hat, -⟩ := indexOf_eq_some hnewline
        obtain ⟨hlt, -⟩ := List.getElem?_eq_some_iff.1 hat
        simp only [hnext, hnewline, Option.map_some, Option.getD_some]
        omega
    refine ⟨h.turn hbounds.1 hbounds.2, ?_⟩
    have hturn (marker : Option FenceMarker) : (s.turn marker nextLine).lineStart = nextLine := by
      unfold FenceScan.turn
      repeat' split
      all_goals rfl
    rw [hturn]
    omega
  · rw [if_neg hline]
    have hend : s.lineStart = text.length := le_antisymm h.line (not_lt.1 hline)
    refine Or.inr ?_
    cases hopen : s.opened with
    | none => exact ⟨_, rfl, hend ▸ h.closed hopen⟩
    | some fence =>
      obtain ⟨hstart, hranges⟩ := h.opened fence hopen
      exact ⟨_, rfl, hranges.append (Ordered.cons le_rfl (hend ▸ hstart) (Ordered.nil _ _) le_rfl)
        (Nat.zero_le _) (by omega)⟩

theorem ordered_fencedCodeRanges (text : Text) :
    ∃ ranges, fencedCodeRanges text = some ranges ∧ Ordered 0 text.length ranges := by
  have hinitial : FenceScan.Sound text ⟨[], none, 0⟩ :=
    ⟨Nat.zero_le _, fun _ => Ordered.nil _ _, nofun⟩
  have hstep : ∀ s s' : FenceScan, s.Sound text → fenceStep text s = .inl s' →
      s'.Sound text ∧ text.length - s'.lineStart < text.length - s.lineStart := by
    intro s s' h hs
    rcases fenceStep_cases h with ⟨s₁, hs₁, hsound⟩ | ⟨ranges, hdone, -⟩
    · obtain rfl := Sum.inl.inj (hs.symm.trans hs₁)
      exact hsound
    · exact nomatch hs.symm.trans hdone
  have hexit : ∀ (s : FenceScan) ranges, s.Sound text → fenceStep text s = .inr ranges →
      Ordered 0 text.length ranges := by
    intro s ranges h hs
    rcases fenceStep_cases h with ⟨s₁, hs₁, -⟩ | ⟨ranges', hdone, hordered⟩
    · exact nomatch hs.symm.trans hs₁
    · obtain rfl := Sum.inr.inj (hs.symm.trans hdone)
      exact hordered
  obtain ⟨ranges, hranges⟩ := WhileLoop.run_terminates (n := text.length + 1) hstep hinitial
    (by simp only; omega)
  exact ⟨ranges, hranges, WhileLoop.run_invariant (fun s s' h hs => (hstep s s' h hs).1) hexit
    hinitial hranges⟩

theorem ordered_spliceFences (text : Text) {fences : List TextRange} {cursor : ℕ}
    (h : Ordered cursor text.length fences) (hcursor : cursor ≤ text.length) :
    ∃ ranges, spliceFences text cursor fences = some ranges ∧
      Ordered cursor text.length ranges := by
  induction fences generalizing cursor with
  | nil => exact ordered_inlineCodeRanges text cursor text.length
  | cons fence fences ih =>
    obtain ⟨hlo, hlt, hhi⟩ := h.within fence List.mem_cons_self
    have hrest : Ordered fence.stop text.length fences := by
      refine ⟨fun range hmem => ?_, (List.pairwise_cons.1 h.apart).2⟩
      exact ⟨(List.pairwise_cons.1 h.apart).1 range hmem,
        (h.within range (List.mem_cons_of_mem _ hmem)).2⟩
    obtain ⟨spans, hspans, hspansOrdered⟩ := ordered_inlineCodeRanges text cursor fence.start
    obtain ⟨rest, hrest', hrestOrdered⟩ := ih hrest hhi
    refine ⟨spans ++ fence :: rest, ?_, ?_⟩
    · simp only [spliceFences, hspans, hrest', Option.bind_some, Option.map_some]
    · exact hspansOrdered.append (Ordered.cons le_rfl hlt hrestOrdered hhi) hlo (by omega)

/-- Code ranges are found, in order, apart from each other and within the text. -/
theorem ordered_markdownCodeRanges (text : Text) :
    ∃ ranges, markdownCodeRanges text = some ranges ∧ Ordered 0 text.length ranges := by
  obtain ⟨fences, hfences, hordered⟩ := ordered_fencedCodeRanges text
  rw [markdownCodeRanges, hfences]
  exact ordered_spliceFences text hordered (Nat.zero_le _)

end Order

section Scan

variable {L : Lexis} {text : Text} {ranges : List TextRange} {index pos : ℕ}

/-- The range that the pointer stops at alone decides whether a position is inside code. -/
theorem insideRanges_eq {n : ℕ} (h : Ordered 0 n ranges)
    (hbefore : ∀ range ∈ ranges.take index, range.stop ≤ pos) {next : ℕ}
    (hnext : next =
      index + ((ranges.drop index).takeWhile fun range => range.stop ≤ pos).length) :
    (ranges[next]?.any fun range => range.start ≤ pos && pos < range.stop) =
      insideRanges pos ranges ∧ ∀ range ∈ ranges.take next, range.stop ≤ pos := by
  have hpast : ∀ range ∈ ranges.take next, range.stop ≤ pos := by
    intro range hmem
    rw [hnext, List.take_add] at hmem
    rcases List.mem_append.1 hmem with hmem | hmem
    · exact hbefore range hmem
    · obtain ⟨i, hi⟩ := List.mem_iff_getElem?.1 hmem
      rw [List.getElem?_take] at hi
      split_ifs at hi with hlt
      obtain ⟨found, hfound, hstop⟩ :=
        (takeWhile_spec (fun range : TextRange => range.stop ≤ pos) (ranges.drop index)).1 i hlt
      obtain rfl := Option.some.inj (hi.symm.trans hfound)
      simpa using hstop
  refine ⟨?_, hpast⟩
  have hsplit : insideRanges pos ranges =
      (ranges.drop next).any fun range => range.start ≤ pos && pos < range.stop := by
    unfold insideRanges
    conv_lhs => rw [← List.take_append_drop next ranges, List.any_append]
    rw [List.any_eq_false.2 fun range hmem => ?_, Bool.false_or]
    simpa using fun _ => hpast range hmem
  rw [hsplit]
  cases hrange : ranges[next]? with
  | none => simp [List.drop_eq_nil_of_le (List.getElem?_eq_none_iff.1 hrange)]
  | some range =>
    obtain ⟨hlt, hat⟩ := List.getElem?_eq_some_iff.1 hrange
    have hstop : pos < range.stop := by
      have hnot := (takeWhile_spec (fun range : TextRange => range.stop ≤ pos)
        (ranges.drop index)).2 range (by rw [List.getElem?_drop, ← hnext, hrange])
      simpa using hnot
    rw [List.drop_eq_getElem_cons hlt, hat, List.any_cons, Option.any_some]
    rw [List.any_eq_false.2 fun other hmem => ?_, Bool.or_false]
    -- the ranges behind it start after it ends
    have hapart := h.apart
    rw [← List.take_append_drop next ranges, List.pairwise_append] at hapart
    have hlater := hapart.2.1
    rw [List.drop_eq_getElem_cons hlt, hat] at hlater
    have hle := (List.pairwise_cons.1 hlater).1 other hmem
    simp only [Bool.and_eq_true, decide_eq_true_eq, not_and, not_lt]
    omega

/-- The token at a position, if a mention starts there. -/
def mentionAt (L : Lexis) (text : Text) (ranges : List TextRange) (pos : ℕ) :
    Option ParsedMentionToken :=
  if isMentionStartWithCodeRanges L text pos ranges then readMentionToken L text pos else none

theorem mentionAt_of_ne (h : text[pos]? ≠ some AT) : mentionAt L text ranges pos = none := by
  simp [mentionAt, isMentionStartWithCodeRanges, isMentionStartOutsideCode, h]

/-- The tokens before the scan's position are found, and the pointer has passed no range that goes
on there. -/
structure MentionScan.Seen (L : Lexis) (text : Text) (ranges : List TextRange) (s : MentionScan) :
    Prop where
  out : s.out = (List.range (s.pos.getD text.length)).filterMap (mentionAt L text ranges)
  at_sign : ∀ pos, s.pos = some pos → text[pos]? = some AT
  passed : ∀ pos, s.pos = some pos →
    ∀ range ∈ ranges.take s.codeRangeIndex, range.stop ≤ pos

/-- What is left of the text. -/
def MentionScan.left (text : Text) (s : MentionScan) : ℕ :=
  match s.pos with
  | none => 0
  | some pos => text.length - pos

theorem seen_initial : MentionScan.Seen L text ranges ⟨[], indexOf text AT 0, 0⟩ where
  out := by
    refine (filterMap_range_of_none (Nat.zero_le _) fun i _ hi => mentionAt_of_ne ?_).symm
    cases hpos : indexOf text AT 0 with
    | none => exact indexOf_eq_none hpos (Nat.zero_le _)
    | some pos =>
      rw [hpos] at hi
      exact (indexOf_eq_some hpos).2.2 i (Nat.zero_le _) hi
  at_sign pos hpos := (indexOf_eq_some hpos).2.1
  passed pos hpos range hmem := by simp at hmem

/-- One turn of the scan: the next position has one more token behind it at most. -/
theorem mentionStep_cases (hordered : Ordered 0 text.length ranges) {s : MentionScan}
    (h : s.Seen L text ranges) :
    (∃ s', mentionStep L text ranges s = .inl s' ∧ s'.Seen L text ranges ∧
      s'.left text < s.left text) ∨
      mentionStep L text ranges s =
        .inr ((List.range text.length).filterMap (mentionAt L text ranges)) := by
  unfold mentionStep
  cases hpos : s.pos with
  | none =>
    have hout := h.out
    rw [hpos] at hout
    exact Or.inr (congrArg Sum.inr hout)
  | some pos =>
    have hat := h.at_sign pos hpos
    obtain ⟨hlt, -⟩ := List.getElem?_eq_some_iff.1 hat
    simp only
    set next := s.codeRangeIndex +
      ((ranges.drop s.codeRangeIndex).takeWhile fun range => range.stop ≤ pos).length with hnext
    obtain ⟨hinside, hpast⟩ := insideRanges_eq hordered (h.passed pos hpos) hnext
    rw [hinside]
    have hturn (out : List ParsedMentionToken)
        (hout : out = s.out ++ (mentionAt L text ranges pos).toList) :
        MentionScan.Seen L text ranges ⟨out, indexOf text AT (pos + 1), next⟩ ∧
          MentionScan.left text ⟨out, indexOf text AT (pos + 1), next⟩ < s.left text := by
      have hbound : pos + 1 ≤ (indexOf text AT (pos + 1)).getD text.length := by
        cases hfound : indexOf text AT (pos + 1) with
        | none => exact hlt
        | some found => exact (indexOf_eq_some hfound).1
      refine ⟨⟨?_, fun found hfound => (indexOf_eq_some hfound).2.1,
        fun found hfound range hmem => ?_⟩, ?_⟩
      · have hbetween : ∀ i, pos + 1 ≤ i → i < (indexOf text AT (pos + 1)).getD text.length →
            mentionAt L text ranges i = none := by
          intro i hi hilt
          refine mentionAt_of_ne ?_
          cases hfound : indexOf text AT (pos + 1) with
          | none => exact indexOf_eq_none hfound hi
          | some found =>
            rw [hfound] at hilt
            exact (indexOf_eq_some hfound).2.2 i hi hilt
        have hbefore := h.out
        rw [hpos] at hbefore
        simp only
        rw [filterMap_range_of_none hbound hbetween, filterMap_range_succ, hout, hbefore]
        rfl
      · have hle := (indexOf_eq_some hfound).1
        have hstop := hpast range hmem
        omega
      · simp only [MentionScan.left, hpos]
        cases hfound : indexOf text AT (pos + 1) with
        | none => simp only; omega
        | some found =>
          have hle := (indexOf_eq_some hfound).1
          simp only
          omega
    refine Or.inl ?_
    cases hin : insideRanges pos ranges with
    | true =>
      refine ⟨_, if_pos rfl, hturn _ ?_⟩
      simp [mentionAt, isMentionStartWithCodeRanges, hin]
    | false =>
      rw [if_neg Bool.false_ne_true]
      cases hstart : isMentionStartOutsideCode L text pos with
      | false =>
        refine ⟨_, if_pos rfl, hturn _ ?_⟩
        simp [mentionAt, isMentionStartWithCodeRanges, hstart]
      | true =>
        refine ⟨_, if_neg (by simp), hturn _ ?_⟩
        simp [mentionAt, isMentionStartWithCodeRanges, hin, hstart]

theorem readMentionToken_start {token : ParsedMentionToken}
    (h : readMentionToken L text pos = some token) : token.start = pos := by
  unfold readMentionToken at h
  simp only at h
  split_ifs at h
  exact (congrArg ParsedMentionToken.start (Option.some.inj h)).symm

/-- The scan ends, with the tokens of all positions. -/
theorem extractMentionTokens_scan (hranges : markdownCodeRanges text = some ranges)
    (hordered : Ordered 0 text.length ranges) :
    extractMentionTokens L text =
      some ((List.range text.length).filterMap (mentionAt L text ranges)) := by
  have hstep : ∀ s s' : MentionScan, s.Seen L text ranges →
      mentionStep L text ranges s = .inl s' →
        s'.Seen L text ranges ∧ s'.left text < s.left text := by
    intro s s' h hs
    rcases mentionStep_cases hordered h with ⟨s₁, hs₁, hseen⟩ | hdone
    · obtain rfl := Sum.inl.inj (hs.symm.trans hs₁)
      exact hseen
    · exact nomatch hs.symm.trans hdone
  have hexit : ∀ (s : MentionScan) tokens, s.Seen L text ranges →
      mentionStep L text ranges s = .inr tokens →
        tokens = (List.range text.length).filterMap (mentionAt L text ranges) := by
    intro s tokens h hs
    rcases mentionStep_cases hordered h with ⟨s₁, hs₁, -⟩ | hdone
    · exact nomatch hs.symm.trans hs₁
    · exact Sum.inr.inj (hs.symm.trans hdone)
  have hfuel : MentionScan.left text ⟨[], indexOf text AT 0, 0⟩ < text.length + 2 := by
    simp only [MentionScan.left]
    split <;> omega
  obtain ⟨tokens, htokens⟩ := WhileLoop.run_terminates (n := text.length + 2) hstep
    seen_initial hfuel
  rw [extractMentionTokens, hranges, Option.bind_some, htokens]
  exact congrArg some (WhileLoop.run_invariant (fun s s' h hs => (hstep s s' h hs).1) hexit
    seen_initial htokens)

/-- The code ranges of a text are in order, and the scan that passes over them once reads the
tokens at exactly the positions where a mention starts, from left to right. -/
theorem extractMentionTokens_eq (L : Lexis) (text : Text) :
    (∃ ranges, markdownCodeRanges text = some ranges ∧ Ordered 0 text.length ranges) ∧
    ∃ tokens, extractMentionTokens L text = some tokens ∧
      tokens = ((List.range text.length).filterMap fun pos =>
        if isMentionStart L text pos = some true then readMentionToken L text pos else none) ∧
      tokens.Pairwise fun a b => a.start < b.start := by
  obtain ⟨ranges, hranges, hordered⟩ := ordered_markdownCodeRanges text
  refine ⟨⟨ranges, hranges, hordered⟩, _, ?_, rfl, ?_⟩
  · have hspec : (fun pos => if isMentionStart L text pos = some true then
        readMentionToken L text pos else none) = mentionAt L text ranges := by
      funext pos
      simp [isMentionStart, hranges, mentionAt]
    rw [extractMentionTokens_scan hranges hordered, hspec]
  · rw [List.pairwise_filterMap]
    refine List.pairwise_lt_range.imp fun {pos pos'} hlt token htoken token' htoken' => ?_
    split_ifs at htoken
    split_ifs at htoken'
    rw [readMentionToken_start htoken, readMentionToken_start htoken']
    exact hlt

end Scan

end Mentions
end AgentParty
