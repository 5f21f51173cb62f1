import Mathlib.Data.List.Basic

/-! Texts written symbol by symbol in a prefix code: a code in which no code word starts another.
Such a text can be read back. -/

namespace PrefixCode

variable {α β : Type*}

/-- The first code word of a text tells its symbol. -/
def PrefixFree (code : α → List β) : Prop :=
  ∀ a b rest rest', code a ++ rest = code b ++ rest' → a = b

theorem flatMap_injective {code : α → List β} (hcode : PrefixFree code) (hne : ∀ a, code a ≠ [])
    {as bs : List α} (h : as.flatMap code = bs.flatMap code) : as = bs := by
  induction as generalizing bs with
  | nil =>
    cases bs with
    | nil => rfl
    | cons b bs => exact absurd (List.append_eq_nil_iff.1 h.symm).1 (hne b)
  | cons a as ih =>
    cases bs with
    | nil => exact absurd (List.append_eq_nil_iff.1 h).1 (hne a)
    | cons b bs =>
      rw [List.flatMap_cons, List.flatMap_cons] at h
      obtain rfl := hcode a b _ _ h
      rw [ih (List.append_cancel_left h)]

theorem not_mem_flatMap {code : α → List β} {b : β} (h : ∀ a, b ∉ code a) (as : List α) :
    b ∉ as.flatMap code := by
  simp [h]

/-- A text ends where the first mark stands. -/
theorem append_mark_inj {mark : β} {as bs rest rest' : List β} (ha : mark ∉ as) (hb : mark ∉ bs)
    (h : as ++ mark :: rest = bs ++ mark :: rest') : as = bs ∧ rest = rest' := by
  have hno : ∀ {xs ys : List β} {c : List β}, mark ∉ ys → ys = xs ++ c →
      ∀ {r r' : List β}, mark :: r = c ++ mark :: r' → c = [] := by
    intro xs ys c hys hsplit r r' hc
    cases c with
    | nil => rfl
    | cons x c =>
      obtain rfl : mark = x := (List.cons.inj hc).1
      exact absurd (by simp [hsplit]) hys
  obtain rfl : as = bs := by
    rcases List.append_eq_append_iff.1 h with ⟨c, hbs, hc⟩ | ⟨c, has, hc⟩
    · rw [hbs, hno hb hbs hc, List.append_nil]
    · rw [has, hno ha has hc, List.append_nil]
  exact ⟨rfl, (List.cons.inj (List.append_cancel_left h)).2⟩

end PrefixCode
