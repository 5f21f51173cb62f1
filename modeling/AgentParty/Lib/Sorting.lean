import Mathlib.Data.List.Sort

/-! Stable insertion sort by a total preorder: which element comes out first, that filtering and
sorting commute, and that the order of the input shows in ties only. -/

namespace List

theorem nodup_eraseDups {α : Type*} [BEq α] [LawfulBEq α] (l : List α) : l.eraseDups.Nodup := by
  induction hn : l.length using Nat.strong_induction_on generalizing l with
  | h n ih =>
    cases l with
    | nil => simp
    | cons a l =>
      rw [List.eraseDups_cons, List.nodup_cons]
      refine ⟨by simp [List.mem_eraseDups], ih _ ?_ _ rfl⟩
      rw [← hn]
      exact Nat.lt_succ_of_le (List.length_filter_le _ l)

variable {α : Type*} {r : α → α → Prop}

/-- `c` is in front of `l`: nothing before it is as small, nothing after it is smaller. -/
def Foremost (r : α → α → Prop) (p : α → Prop) (l : List α) (c : α) : Prop :=
  ∃ pre post, l = pre ++ c :: post ∧ (∀ d ∈ pre, p d → ¬ r d c) ∧ ∀ d ∈ post, p d → r c d

/-- Being in front of a sublist is a matter of its members only. -/
theorem foremost_filter {p : α → Bool} {l : List α} {c : α} (hc : p c = true) :
    Foremost r (fun _ => True) (l.filter p) c ↔ Foremost r (fun d => p d = true) l c := by
  constructor
  · rintro ⟨pre, post, h, hpre, hpost⟩
    obtain ⟨l₁, l₂, rfl, rfl, h₂⟩ := filter_eq_append_iff.1 h
    obtain ⟨m₁, m₂, rfl, hm₁, -, rfl⟩ := filter_eq_cons_iff.1 h₂
    refine ⟨l₁ ++ m₁, m₂, by simp, fun d hd hp => ?_, fun d hd hp => ?_⟩
    · rcases mem_append.1 hd with hd | hd
      · exact hpre d (mem_filter.2 ⟨hd, hp⟩) trivial
      · exact absurd hp (hm₁ d hd)
    · exact hpost d (mem_filter.2 ⟨hd, hp⟩) trivial
  · rintro ⟨pre, post, rfl, hpre, hpost⟩
    refine ⟨pre.filter p, post.filter p, by simp [hc], fun d hd _ => ?_, fun d hd _ => ?_⟩
    · exact hpre d (mem_filter.1 hd).1 (mem_filter.1 hd).2
    · exact hpost d (mem_filter.1 hd).1 (mem_filter.1 hd).2

variable [DecidableRel r]

theorem head?_insertionSort (htotal : ∀ a b, r a b ∨ r b a) (htrans : ∀ a b c, r a b → r b c → r a c)
    (l : List α) (c : α) : (l.insertionSort r).head? = some c ↔ Foremost r (fun _ => True) l c := by
  induction l generalizing c with
  | nil => simp [Foremost]
  | cons a l ih =>
    cases hs : l.insertionSort r with
    | nil =>
      have hl : l = [] := by
        rw [← length_eq_zero_iff, ← length_insertionSort r l, hs, length_nil]
      subst hl
      constructor
      · intro h
        obtain rfl : a = c := by simpa using h
        exact ⟨[], [], rfl, by simp, by simp⟩
      · rintro ⟨pre, post, h, -, -⟩
        cases pre with
        | nil =>
          cases h
          rfl
        | cons x pre => simp at h
    | cons b t =>
      have hb := (ih b).1 (by rw [hs]; rfl)
      have hmin : ∀ d ∈ l, r b d := by
        obtain ⟨pre, post, rfl, hpre, hpost⟩ := hb
        intro d hd
        rcases mem_append.1 hd with hd | hd
        · exact (htotal b d).resolve_right (hpre d hd trivial)
        · rcases mem_cons.1 hd with rfl | hd
          · exact (htotal d d).elim id id
          · exact hpost d hd trivial
      have hbl : b ∈ l := (mem_insertionSort r).1 (hs ▸ mem_cons_self)
      rw [insertionSort_cons, hs, orderedInsert_cons]
      by_cases hab : r a b
      · rw [if_pos hab]
        constructor
        · intro h
          obtain rfl : a = c := by simpa using h
          exact ⟨[], l, rfl, by simp, fun d hd _ => htrans _ _ _ hab (hmin d hd)⟩
        · rintro ⟨pre, post, h, hpre, -⟩
          cases pre with
          | nil =>
            cases h
            rfl
          | cons x pre =>
            cases h
            exact absurd (htrans _ _ _ hab (hmin c (by simp))) (hpre a (by simp) trivial)
      · rw [if_neg hab]
        constructor
        · intro h
          obtain rfl : b = c := by simpa using h
          obtain ⟨pre, post, rfl, hpre, hpost⟩ := hb
          refine ⟨a :: pre, post, rfl, fun d hd _ => ?_, hpost⟩
          rcases mem_cons.1 hd with rfl | hd
          · exact hab
          · exact hpre d hd trivial
        · rintro ⟨pre, post, h, hpre, hpost⟩
          cases pre with
          | nil =>
            cases h
            exact absurd (hpost b hbl trivial) hab
          | cons x pre =>
            cases h
            have hc := (ih c).2 ⟨pre, post, rfl, fun d hd => hpre d (mem_cons_of_mem _ hd), hpost⟩
            rw [hs] at hc
            exact hc

theorem filter_orderedInsert (htrans : ∀ a b c, r a b → r b c → r a c) (p : α → Bool) (a : α)
    {l : List α} (hl : l.Pairwise r) : (l.orderedInsert r a).filter p =
      if p a then (l.filter p).orderedInsert r a else l.filter p := by
  induction l with
  | nil => cases hp : p a <;> simp [hp]
  | cons b l ih =>
    obtain ⟨hbl, hl⟩ := pairwise_cons.1 hl
    rw [orderedInsert_cons]
    by_cases hab : r a b
    · rw [if_pos hab]
      have hmin : ∀ d ∈ (b :: l).filter p, r a d := by
        intro d hd
        rcases mem_cons.1 (mem_filter.1 hd).1 with rfl | hd
        · exact hab
        · exact htrans _ _ _ hab (hbl d hd)
      cases hp : p a with
      | false => simp [hp]
      | true =>
        rw [filter_cons_of_pos (by simpa using hp), if_pos rfl]
        generalize (b :: l).filter p = l' at hmin ⊢
        cases l' with
        | nil => rfl
        | cons x l' => rw [orderedInsert_cons, if_pos (hmin x mem_cons_self)]
    · rw [if_neg hab]
      cases hb : p b with
      | false => rw [filter_cons_of_neg (by simp [hb]), ih hl, filter_cons_of_neg (by simp [hb])]
      | true =>
        rw [filter_cons_of_pos (by simpa using hb), ih hl, filter_cons_of_pos (by simpa using hb)]
        split_ifs
        · rw [orderedInsert_cons, if_neg hab]
        · rfl

theorem filter_insertionSort (htotal : ∀ a b, r a b ∨ r b a)
    (htrans : ∀ a b c, r a b → r b c → r a c) (p : α → Bool) (l : List α) :
    (l.insertionSort r).filter p = (l.filter p).insertionSort r := by
  have : Std.Total r := ⟨htotal⟩
  have : IsTrans α r := ⟨htrans⟩
  induction l with
  | nil => rfl
  | cons a l ih =>
    rw [insertionSort_cons, filter_orderedInsert htrans p a (pairwise_insertionSort r l), ih]
    cases hp : p a with
    | false => simp [hp]
    | true =>
      rw [if_pos rfl, filter_cons_of_pos (by simpa using hp), insertionSort_cons]

/-- Where the preorder tells the elements apart, only they matter, not how they were listed. -/
theorem insertionSort_eq_of_perm (htotal : ∀ a b, r a b ∨ r b a)
    (htrans : ∀ a b c, r a b → r b c → r a c) {l l' : List α} (h : l.Perm l')
    (hanti : ∀ a ∈ l, ∀ b ∈ l, r a b → r b a → a = b) :
    l.insertionSort r = l'.insertionSort r := by
  have : Std.Total r := ⟨htotal⟩
  have : IsTrans α r := ⟨htrans⟩
  have hperm : (l.insertionSort r).Perm (l'.insertionSort r) :=
    ((perm_insertionSort r l).trans h).trans (perm_insertionSort r l').symm
  refine hperm.eq_of_pairwise (fun a b ha hb => ?_) (pairwise_insertionSort r l)
    (pairwise_insertionSort r l')
  exact hanti a ((mem_insertionSort r).1 ha) b (h.mem_iff.2 ((mem_insertionSort r).1 hb))

end List
