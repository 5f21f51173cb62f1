import Mathlib.Data.Nat.Basic

/-! While loops as fuel-bounded iteration. A body either continues with a new
state (`inl`) or leaves the loop with a result (`inr`). A measure that the body
lowers bounds the fuel, an invariant of the body holds at the exit. -/

namespace WhileLoop

variable {σ β : Type*}

def run (body : σ → σ ⊕ β) : ℕ → σ → Option β
  | 0, _ => none
  | fuel + 1, s =>
    match body s with
    | .inl s' => run body fuel s'
    | .inr b => some b

theorem run_succ (body : σ → σ ⊕ β) (fuel : ℕ) (s : σ) :
    run body (fuel + 1) s = match body s with
      | .inl s' => run body fuel s'
      | .inr b => some b := rfl

theorem run_mono {body : σ → σ ⊕ β} {n m : ℕ} (hnm : n ≤ m) {s : σ} {b : β}
    (h : run body n s = some b) : run body m s = some b := by
  induction n generalizing m s with
  | zero => simp [run] at h
  | succ n ih =>
    obtain ⟨m, rfl⟩ : ∃ k, m = k + 1 := ⟨m - 1, by omega⟩
    rw [run_succ] at h ⊢
    cases hb : body s with
    | inl s' =>
      rw [hb] at h
      exact ih (by omega) h
    | inr b' =>
      rw [hb] at h
      exact h

/-- Under an invariant, a measure that every continuing pass lowers is enough fuel. -/
theorem run_terminates {body : σ → σ ⊕ β} {I : σ → Prop} {μ : σ → ℕ}
    (hstep : ∀ s s', I s → body s = .inl s' → I s' ∧ μ s' < μ s) {s : σ} (hi : I s) {n : ℕ}
    (hn : μ s < n) : ∃ b, run body n s = some b := by
  induction n generalizing s with
  | zero => omega
  | succ n ih =>
    rw [run_succ]
    cases hb : body s with
    | inl s' =>
      obtain ⟨hi', hlt⟩ := hstep s s' hi hb
      exact ih hi' (by omega)
    | inr b => exact ⟨b, rfl⟩

/-- What every continuing pass keeps and every exit turns into `Q` holds of the result. -/
theorem run_invariant {body : σ → σ ⊕ β} {I : σ → Prop} {Q : β → Prop}
    (hstep : ∀ s s', I s → body s = .inl s' → I s')
    (hexit : ∀ s b, I s → body s = .inr b → Q b) {n : ℕ} {s : σ} {b : β} (hi : I s)
    (h : run body n s = some b) : Q b := by
  induction n generalizing s with
  | zero => simp [run] at h
  | succ n ih =>
    rw [run_succ] at h
    cases hb : body s with
    | inl s' =>
      rw [hb] at h
      exact ih (hstep s s' hi hb) h
    | inr b' =>
      rw [hb] at h
      obtain rfl : b' = b := by simpa using h
      exact hexit s b' hi hb

end WhileLoop
