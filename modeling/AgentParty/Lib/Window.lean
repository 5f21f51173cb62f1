import Mathlib.Data.Int.Order.Basic
import Mathlib.Data.List.Count

/-! Sliding windows over a list of times. `AtMost limit width times` bounds the number of
times in every interval shorter than `width`; a new latest time keeps the bound when fewer
than `limit` times lie less than `width` before it. -/

namespace Window

/-- The times from `since` on. -/
def countFrom (times : List Int) (since : Int) : ℕ := times.countP (since ≤ ·)

def AtMost (limit : ℕ) (width : Int) (times : List Int) : Prop :=
  ∀ a b, b - a < width → times.countP (fun t => a ≤ t ∧ t ≤ b) ≤ limit

variable {limit : ℕ} {width now since since' : Int} {times : List Int}

theorem countFrom_anti (times : List Int) (h : since ≤ since') :
    countFrom times since' ≤ countFrom times since :=
  List.countP_mono_left fun t _ ht => by
    simp only [decide_eq_true_eq] at ht ⊢
    omega

theorem countFrom_concat (times : List Int) (t since : Int) :
    countFrom (times ++ [t]) since = countFrom times since + if since ≤ t then 1 else 0 := by
  simp [countFrom, List.countP_append, List.countP_singleton]

theorem countFrom_eq_zero (h : ∀ t ∈ times, t < since) : countFrom times since = 0 := by
  rw [countFrom, List.countP_eq_zero]
  intro t ht
  simpa using h t ht

theorem atMost_nil : AtMost limit width [] := by
  intro a b _
  simp

theorem AtMost.concat (h : AtMost limit width times)
    (hroom : countFrom times (now - width + 1) + 1 ≤ limit) : AtMost limit width (times ++ [now]) := by
  intro a b hab
  rw [List.countP_append, List.countP_singleton]
  split_ifs with hnow
  · -- the interval reaches the new time, so it starts less than `width` before it
    simp only [decide_eq_true_eq] at hnow
    have hle : times.countP (fun t => a ≤ t ∧ t ≤ b) ≤ countFrom times (now - width + 1) :=
      List.countP_mono_left fun t _ ht => by
        simp only [decide_eq_true_eq] at ht ⊢
        omega
    omega
  · exact h a b hab

end Window
