import AgentParty.Lib.Sorting
import Mathlib.Data.List.DropRight

/-! Keyset queries: rows with distinct keys in a linear order, the rows on one side of a bound,
nearest first, cut to a limit. A bound splits the ordered rows, and each query is the piece of
them next to the cut. -/

namespace Keyset

variable {α κ : Type*} [LinearOrder κ] (key : α → κ)

/-- `ORDER BY key`. -/
def ascending (rows : List α) : List α := rows.insertionSort fun a b => key a ≤ key b

/-- `ORDER BY key DESC`. -/
def descending (rows : List α) : List α := rows.insertionSort fun a b => key b ≤ key a

/-- `LIMIT n`: a negative one is none. -/
def limit (n : ℤ) (rows : List α) : List α := if n < 0 then rows else rows.take n.toNat

abbrev Increasing (rows : List α) : Prop := rows.Pairwise fun a b => key a < key b

variable {key}

theorem ascending_perm (rows : List α) : (ascending key rows).Perm rows :=
  List.perm_insertionSort _ rows

theorem mem_ascending {rows : List α} {a : α} : a ∈ ascending key rows ↔ a ∈ rows :=
  (ascending_perm rows).mem_iff

theorem ascending_sorted (rows : List α) :
    (ascending key rows).Pairwise fun a b => key a ≤ key b :=
  @List.pairwise_insertionSort _ _ _ ⟨fun a b => le_total (key a) (key b)⟩
    ⟨fun _ _ _ h h' => le_trans h h'⟩ rows

theorem increasing_ascending {rows : List α} (h : (rows.map key).Nodup) :
    Increasing key (ascending key rows) := by
  have hnodup : ((ascending key rows).map key).Nodup :=
    ((ascending_perm rows).map key).nodup_iff.2 h
  have hne : (ascending key rows).Pairwise fun a b => key a ≠ key b := List.pairwise_map.1 hnodup
  exact (ascending_sorted rows).imp₂ (fun _ _ hle hne => lt_of_le_of_ne hle hne) hne

theorem descending_eq {rows : List α} (h : (rows.map key).Nodup) :
    descending key rows = (ascending key rows).reverse := by
  have hsorted : (descending key rows).Pairwise fun a b => key b ≤ key a :=
    @List.pairwise_insertionSort _ _ _ ⟨fun a b => le_total (key b) (key a)⟩
      ⟨fun _ _ _ h h' => le_trans h' h⟩ rows
  have hperm : (descending key rows).Perm (ascending key rows).reverse :=
    ((List.perm_insertionSort _ rows).trans (ascending_perm rows).symm).trans
      (List.reverse_perm _).symm
  refine hperm.eq_of_pairwise (fun a b ha hb hba hab => ?_) hsorted
    (List.pairwise_reverse.2 (ascending_sorted rows))
  have ha' : a ∈ rows := (List.mem_insertionSort _).1 ha
  have hb' : b ∈ rows := mem_ascending.1 (List.mem_reverse.1 hb)
  exact List.inj_on_of_nodup_map h ha' hb' (le_antisymm hab hba)

/-- The nearest rows of a descending query, put back in order, are the last ones. -/
theorem ascending_limit_descending {rows : List α} (h : (rows.map key).Nodup) {n : ℤ}
    (hn : 0 ≤ n) :
    ascending key (limit n (descending key rows)) = (ascending key rows).rtake n.toNat := by
  rw [limit, if_neg (by omega), descending_eq h, List.rtake_eq_reverse_take_reverse]
  have hperm : ((ascending key rows).reverse.take n.toNat).Perm
      ((ascending key rows).reverse.take n.toNat).reverse := (List.reverse_perm _).symm
  have hlast : Increasing key ((ascending key rows).reverse.take n.toNat).reverse := by
    rw [← List.rtake_eq_reverse_take_reverse]
    exact (increasing_ascending h).sublist (List.drop_sublist _ _)
  refine ((ascending_perm _).trans hperm).eq_of_pairwise (fun a b _ _ hab hba => ?_)
    (increasing_ascending ?_) hlast
  · exact absurd hab (lt_asymm hba)
  · exact (List.pairwise_map.2 ((List.pairwise_reverse.1 hlast).imp ne_of_gt))

theorem getLast?_rtake {rows : List α} {n : ℕ} (hn : 0 < n) :
    (rows.rtake n).getLast? = rows.getLast? := by
  rw [List.rtake, List.getLast?_drop]
  split_ifs with h
  · rw [List.length_eq_zero_iff.1 (by omega : rows.length = 0), List.getLast?_nil]
  · rfl

theorem ascending_filter (p : α → Bool) (rows : List α) :
    ascending key (rows.filter p) = (ascending key rows).filter p :=
  (List.filter_insertionSort (fun a b => le_total (key a) (key b))
    (fun _ _ _ h h' => le_trans h h') p rows).symm

section Cut

variable {rows : List α} (h : Increasing key rows)
include h

theorem filter_le_append_filter_lt (k : κ) :
    (rows.filter fun a => key a ≤ k) ++ (rows.filter fun a => k < key a) = rows := by
  induction rows with
  | nil => rfl
  | cons a rows ih =>
    obtain ⟨ha, h⟩ := List.pairwise_cons.1 h
    by_cases hk : key a ≤ k
    · rw [List.filter_cons_of_pos (by simpa using hk),
        List.filter_cons_of_neg (by simpa using hk), List.cons_append, ih h]
    · have hlt : k < key a := lt_of_not_ge hk
      have hnone : (rows.filter fun a => key a ≤ k) = [] :=
        List.filter_eq_nil_iff.2 fun b hb => by simpa using hlt.trans (ha b hb)
      have hall : (rows.filter fun a => k < key a) = rows :=
        List.filter_eq_self.2 fun b hb => by simpa using hlt.trans (ha b hb)
      rw [List.filter_cons_of_neg (by simpa using hlt), hnone,
        List.filter_cons_of_pos (by simpa using hlt), hall, List.nil_append]

/-- The rows below one of the rows are those in front of it. -/
theorem filter_lt_of_append {front back : List α} {a : α} (hrows : rows = front ++ a :: back) :
    (rows.filter fun b => key b < key a) = front := by
  subst hrows
  obtain ⟨-, hback, hcross⟩ := List.pairwise_append.1 h
  have hfront : (front.filter fun b => key b < key a) = front :=
    List.filter_eq_self.2 fun b hb => by simpa using hcross b hb a List.mem_cons_self
  have hnone : (back.filter fun b => key b < key a) = [] :=
    List.filter_eq_nil_iff.2 fun b hb => by
      simpa using le_of_lt ((List.pairwise_cons.1 hback).1 b hb)
  rw [List.filter_append, hfront, List.filter_cons_of_neg (by simp), hnone, List.append_nil]

end Cut

section Window

variable (below above : List α) {half size : ℕ}

/-- The last `half` rows below a cut, as many above it as fit a page of `size`, and in front of
them what the page still has room for. -/
def window (half size : ℕ) : List α :=
  let lower := below.rtake half
  let upper := above.take (size - lower.length)
  (below.take (below.length - half)).rtake (size - lower.length - upper.length) ++ lower ++ upper

theorem window_eq (half size : ℕ) : ∃ i j, window below above half size =
    below.drop i ++ above.take j ∧ i ≤ below.length ∧
      (half ≤ size → below.length - i + min j above.length =
        min size (below.length + above.length)) := by
  let missing := size - (below.rtake half).length - min (size - (below.rtake half).length) above.length
  have hlower : (below.rtake half).length = min half below.length := by
    simp only [List.rtake, List.length_drop]
    omega
  refine ⟨below.length - half - missing, size - (below.rtake half).length, ?_, by omega,
    fun _ => by omega⟩
  have hlength : (below.take (below.length - half)).length = below.length - half := by
    rw [List.length_take]
    omega
  have hsplit {i k : ℕ} (hk : k ≤ (below.take i).length) :
      (below.take i).drop k ++ below.drop i = below.drop k := by
    rw [← List.drop_append_of_le_length hk, List.take_append_drop]
  have hback : (below.take (below.length - half)).rtake missing ++ below.rtake half =
      below.drop (below.length - half - missing) := by
    rw [List.rtake, hlength, List.rtake]
    exact hsplit (by omega)
  rw [← hback, window, List.length_take]

theorem window_infix (half size : ℕ) : window below above half size <:+: below ++ above := by
  obtain ⟨i, j, h, -, -⟩ := window_eq below above half size
  refine ⟨below.take i, above.drop j, ?_⟩
  rw [h, ← List.append_assoc, List.take_append_drop, List.append_assoc, List.take_append_drop]

theorem length_window (h : half ≤ size) :
    (window below above half size).length = min size (below.length + above.length) := by
  obtain ⟨i, j, hw, -, hlength⟩ := window_eq below above half size
  rw [hw, List.length_append, List.length_drop, List.length_take, hlength h]

variable {below} in
/-- The row at the cut is on the page. -/
theorem mem_window_last {x : α} (hhalf : 0 < half) (hlast : below.getLast? = some x) :
    x ∈ window below above half size := by
  have hx : x ∈ below.rtake half := List.mem_of_getLast? ((getLast?_rtake hhalf).trans hlast)
  exact List.mem_append_left _ (List.mem_append_right _ hx)

end Window

end Keyset
