import AgentParty.Lib.Run
import Mathlib.Data.List.DropRight

/-! What a buffer of the `n` last entries holds of a history. Such a buffer sees
every repetition of a period of at most `n` entries, and takes no entry for a
repetition when entries at most `n` apart are different. A `Detector` counts the
frames since the last new entry, and trips at a limit. -/

namespace Recent

variable {α : Type*} {n p : ℕ} {l l' : List α} {a : α}

/-- From entry `p` on, every entry is the one `p` places before it. -/
def Periodic (p : ℕ) (l : List α) : Prop := ∀ i, i + p < l.length → l[i + p]? = l[i]?

/-- Entries at most `n` places apart are different. -/
def DistinctWithin (n : ℕ) (l : List α) : Prop :=
  ∀ i j, i < j → j ≤ i + n → j < l.length → l[i]? ≠ l[j]?

theorem Periodic.of_prefix (h : Periodic p l) (hpre : l' <+: l) : Periodic p l' := by
  obtain ⟨rest, rfl⟩ := hpre
  intro i hi
  have := h i (by simp only [List.length_append]; omega)
  rwa [List.getElem?_append_left hi, List.getElem?_append_left (by omega)] at this

theorem Periodic.map {β : Type*} (h : Periodic p l) (f : α → β) : Periodic p (l.map f) := by
  intro i hi
  rw [List.length_map] at hi
  rw [List.getElem?_map, List.getElem?_map, h i hi]

theorem length_rtake (n : ℕ) (l : List α) : (l.rtake n).length ≤ n := by
  simp only [List.rtake, List.length_drop]
  omega

theorem rtake_eq_self (h : l.length ≤ n) : l.rtake n = l := by
  rw [List.rtake, Nat.sub_eq_zero_of_le h, List.drop_zero]

/-- The buffer after a push is the end of the longer history. -/
theorem rtake_rtake_concat (n : ℕ) (l : List α) (a : α) :
    (l.rtake n ++ [a]).rtake n = (l ++ [a]).rtake n := by
  simp only [List.rtake_eq_reverse_take_reverse, List.reverse_append, List.reverse_reverse,
    List.reverse_singleton, List.singleton_append]
  cases n with
  | zero => simp
  | succ n => simp [List.take_take]

theorem rtake_rtake_append (n : ℕ) (l l' : List α) :
    (l.rtake n ++ l').rtake n = (l ++ l').rtake n := by
  induction l' using List.reverseRecOn with
  | nil => rw [List.append_nil, List.append_nil, rtake_eq_self (length_rtake n l)]
  | append_singleton l' a ih =>
    rw [← List.append_assoc, ← List.append_assoc, ← rtake_rtake_concat, ih, rtake_rtake_concat]

/-- The keys of the last entries pick out the last entries. -/
theorem filter_mem_rtake {κ : Type*} [DecidableEq κ] {key : α → κ} (h : (l.map key).Nodup) :
    l.filter (fun a => key a ∈ (l.rtake n).map key) = l.rtake n := by
  obtain ⟨front, back, rfl, hlast⟩ : ∃ front back, l = front ++ back ∧ l.rtake n = back :=
    ⟨_, _, (List.take_append_drop _ l).symm, rfl⟩
  rw [hlast, List.filter_append]
  rw [List.map_append, List.nodup_append] at h
  have hfront : front.filter (fun a => key a ∈ back.map key) = [] :=
    List.filter_eq_nil_iff.2 fun a ha hmem =>
      h.2.2 _ (List.mem_map_of_mem ha) _ (of_decide_eq_true hmem) rfl
  have hback : back.filter (fun a => key a ∈ back.map key) = back :=
    List.filter_eq_self.2 fun a ha => decide_eq_true (List.mem_map_of_mem ha)
  rw [hfront, hback, List.nil_append]

theorem mem_rtake : a ∈ l.rtake n ↔ ∃ i, l.length ≤ i + n ∧ l[i]? = some a := by
  simp only [List.rtake, List.mem_iff_getElem?, List.getElem?_drop]
  constructor
  · rintro ⟨i, hi⟩
    exact ⟨l.length - n + i, by omega, hi⟩
  · rintro ⟨i, hle, hi⟩
    refine ⟨i - (l.length - n), ?_⟩
    rwa [Nat.add_sub_cancel' (by omega)]

/-- An entry that continues the period is in the buffer. -/
theorem Periodic.mem_rtake (h : Periodic p (l ++ [a])) (hpos : 0 < p) (hpn : p ≤ n)
    (hl : p ≤ l.length) : a ∈ l.rtake n := by
  refine Recent.mem_rtake.2 ⟨l.length - p, by omega, ?_⟩
  have hlast := h (l.length - p) (by simp only [List.length_append, List.length_singleton]; omega)
  rw [Nat.sub_add_cancel hl, List.getElem?_concat_length,
    List.getElem?_append_left (by omega)] at hlast
  exact hlast.symm

theorem DistinctWithin.not_mem_rtake (h : DistinctWithin n (l ++ [a])) : a ∉ l.rtake n := by
  rw [Recent.mem_rtake]
  rintro ⟨i, hle, hi⟩
  have hlt : i < l.length := (List.getElem?_eq_some_iff.1 hi).1
  refine h i l.length hlt hle (by simp) ?_
  rw [List.getElem?_concat_length, List.getElem?_append_left hlt, hi]

/-- A frame repeats or brings an entry, has none, or is the last of its kind, which counts as
new whatever it brings. -/
inductive Frame (α : Type*)
  | entry (a : α)
  | final (a : α)
  | plain

def Frame.entry? : Frame α → Option α
  | .entry a => some a
  | .final a => some a
  | .plain => none

def entries (frames : List (Frame α)) : List α := frames.filterMap Frame.entry?

theorem entries_append (frames frames' : List (Frame α)) :
    entries (frames ++ frames') = entries frames ++ entries frames' := List.filterMap_append

structure Detector (α : Type*) where
  recent : List α
  count : ℕ
  tripped : Bool

namespace Detector

variable [DecidableEq α] {limit : ℕ}

/-- The next frame is one more without progress. -/
def tick (limit : ℕ) (d : Detector α) (recent : List α) : Detector α :=
  ⟨recent, d.count + 1, d.tripped || limit ≤ d.count + 1⟩

def frame (n limit : ℕ) (d : Detector α) : Frame α → Detector α
  | .entry a =>
    if a ∈ d.recent then d.tick limit ((d.recent ++ [a]).rtake n)
    else ⟨(d.recent ++ [a]).rtake n, 0, false⟩
  | .final a => ⟨(d.recent ++ [a]).rtake n, 0, false⟩
  | .plain => d.tick limit d.recent

theorem recent_frame (d : Detector α) (hd : d.recent.length ≤ n) (f : Frame α) :
    (d.frame n limit f).recent = (d.recent ++ entries [f]).rtake n := by
  cases f with
  | entry a =>
    simp only [frame]
    split <;> rfl
  | final a => rfl
  | plain =>
    show d.recent = (d.recent ++ []).rtake n
    rw [List.append_nil, rtake_eq_self hd]

/-- The buffer holds the end of the history. -/
theorem recent_foldl (d : Detector α) (hd : d.recent.length ≤ n) (frames : List (Frame α)) :
    (frames.foldl (frame n limit) d).recent = (d.recent ++ entries frames).rtake n := by
  induction frames using List.reverseRecOn with
  | nil =>
    show d.recent = (d.recent ++ []).rtake n
    rw [List.append_nil, rtake_eq_self hd]
  | append_singleton frames f ih =>
    rw [List.foldl_append, List.foldl_cons, List.foldl_nil, recent_frame _ (ih ▸ length_rtake n _),
      ih, entries_append, ← List.append_assoc]
    cases f with
    | entry a => exact rtake_rtake_concat n _ a
    | final a => exact rtake_rtake_concat n _ a
    | plain =>
      show ((d.recent ++ entries frames).rtake n ++ []).rtake n = (d.recent ++ entries frames ++ []).rtake n
      rw [List.append_nil, List.append_nil, rtake_eq_self (length_rtake n _)]

/-- What brings no new entry is counted. -/
theorem frame_eq_tick {d : Detector α} {f : Frame α} (hf : ∀ a, f ≠ .final a)
    (hold : ∀ a, f.entry? = some a → a ∈ d.recent) :
    ∃ recent, d.frame n limit f = d.tick limit recent := by
  cases f with
  | entry a => exact ⟨_, if_pos (hold a rfl)⟩
  | final a => exact (hf a rfl).elim
  | plain => exact ⟨_, rfl⟩

/-- Behind a whole period every entry is an old one. -/
theorem mem_recent_of_periodic (hpos : 0 < p) (hpn : p ≤ n) {d : Detector α}
    (hd : d.recent.length ≤ n) {frames : List (Frame α)} {a : α}
    (hperiodic : Periodic p (entries frames ++ [a])) (hlong : p ≤ (entries frames).length) :
    a ∈ (frames.foldl (frame n limit) d).recent := by
  rw [recent_foldl d hd]
  obtain ⟨i, hi, hget⟩ := Recent.mem_rtake.1 (hperiodic.mem_rtake hpos hpn hlong)
  refine Recent.mem_rtake.2 ⟨d.recent.length + i, by rw [List.length_append]; omega, ?_⟩
  rw [List.getElem?_append_right (by omega), Nat.add_sub_cancel_left, hget]

/-- No frame behind a whole period brings a new entry, so as many of them as the limit trip
the detector. -/
theorem tripped_of_periodic (hpos : 0 < p) (hpn : p ≤ n) (hlimit : 0 < limit) (d : Detector α)
    (hd : d.recent.length ≤ n) {before after : List (Frame α)}
    (hfinal : ∀ f ∈ before ++ after, ∀ a, f ≠ .final a)
    (hperiodic : Periodic p (entries (before ++ after))) (hbefore : p ≤ (entries before).length)
    (hafter : limit ≤ after.length) :
    ((before ++ after).foldl (frame n limit) d).tripped = true := by
  have hinv : ((before ++ after).foldl (frame n limit) d).tripped = true ∨
      after.length ≤ ((before ++ after).foldl (frame n limit) d).count ∧
        (0 < after.length → ((before ++ after).foldl (frame n limit) d).count < limit) := by
    clear hafter
    induction after using List.reverseRecOn with
    | nil => exact .inr ⟨Nat.zero_le _, nofun⟩
    | append_singleton after f ih =>
      have hpre : entries (before ++ after) <+: entries (before ++ (after ++ [f])) := by
        rw [← List.append_assoc, entries_append (before ++ after)]
        exact List.prefix_append _ _
      have hold : ∀ a, f.entry? = some a →
          a ∈ ((before ++ after).foldl (frame n limit) d).recent := by
        intro a ha
        refine mem_recent_of_periodic hpos hpn hd ?_ ?_
        · rw [← List.append_assoc, entries_append (before ++ after), entries, entries,
            List.filterMap_cons_some ha] at hperiodic
          exact hperiodic
        · rw [entries_append, List.length_append]
          omega
      obtain ⟨recent, htick⟩ := @frame_eq_tick _ n _ limit _ _
        (hfinal f (by simp)) hold
      rw [← List.append_assoc, List.foldl_append, List.foldl_cons, List.foldl_nil, htick]
      simp only [tick, Bool.or_eq_true, decide_eq_true_eq, List.length_append,
        List.length_singleton]
      obtain htripped | ⟨hcount, -⟩ := ih
        (fun f' hf' => hfinal f' (by
          rw [← List.append_assoc]
          exact List.mem_append_left _ hf'))
        (hperiodic.of_prefix hpre)
      · exact .inl (.inl htripped)
      · omega
  obtain htripped | ⟨hcount, hlt⟩ := hinv
  · exact htripped
  · have := hlt (by omega)
    omega

/-- Where entries close together are different, no frame with an entry is counted. -/
theorem count_frame_of_distinct {d : Detector α} (hd : d.recent.length ≤ n)
    {frames : List (Frame α)} {f : Frame α} {a : α} (ha : f.entry? = some a)
    (hdistinct : DistinctWithin n (d.recent ++ entries frames ++ [a])) :
    ((frames.foldl (frame n limit) d).frame n limit f).count = 0 := by
  have hnew : a ∉ (frames.foldl (frame n limit) d).recent := by
    rw [recent_foldl d hd]
    exact hdistinct.not_mem_rtake
  cases f with
  | entry b =>
    obtain rfl : b = a := Option.some.inj ha
    simp only [frame, if_neg hnew]
  | final b => rfl
  | plain => nomatch ha

end Detector

end Recent
