import Mathlib.Data.List.Infix

/-! Programs that call an outside world. The world answers as it likes and may change with every
call; the program keeps the trace of its calls with their answers. `Wp m Q t` says that the program
`m`, started after the calls `t`, ends in `Q` whatever the world answers. -/

namespace Calls

universe u

variable {W E α β σ : Type u}

abbrev Prog (W E : Type u) := StateM (W × List E)

/-- One call: the world answers, and the call goes on the trace with its answer. -/
def call (op : W → α × W) (event : α → E) : Prog W E α := fun s =>
  let (a, w) := op s.1
  (a, w, s.2 ++ [event a])

def Wp (m : Prog W E α) (Q : α → List E → Prop) (t : List E) : Prop :=
  ∀ w, Q (m (w, t)).1 (m (w, t)).2.2

variable {Q : β → List E → Prop} {t : List E}

theorem wp_pure {a : β} (h : Q a t) : Wp (W := W) (pure a) Q t := fun _ => h

theorem wp_call {op : W → β × W} {event : β → E} (h : ∀ a, Q a (t ++ [event a])) :
    Wp (call op event) Q t := fun _ => h _

theorem wp_bind {m : Prog W E α} {k : α → Prog W E β}
    (h : Wp m (fun a => Wp (k a) Q) t) : Wp (m >>= k) Q t := fun w => h w _

theorem wp_mono {m : Prog W E β} {P : β → List E → Prop} (h : Wp m P t)
    (himp : ∀ a t, P a t → Q a t) : Wp m Q t := fun w => himp _ _ (h w)

/-- A loop over a list keeps what every turn extends from the elements done so far. -/
theorem wp_foldlM {body : σ → α → Prog W E σ} {I : List α → σ → List E → Prop} {l : List α}
    {s : σ} (hinit : I [] s t)
    (hstep : ∀ done x rest s t, l = done ++ x :: rest → I done s t →
      Wp (body s x) (I (done ++ [x])) t) :
    Wp (l.foldlM body s) (I l) t := by
  suffices h : ∀ rest done s t, l = done ++ rest → I done s t →
      Wp (rest.foldlM body s) (I l) t from h l [] s t rfl hinit
  intro rest
  induction rest with
  | nil =>
    intro done s t hl hi
    obtain rfl : l = done := by simpa using hl
    exact wp_pure hi
  | cons x rest ih =>
    intro done s t hl hi
    rw [List.foldlM_cons]
    refine wp_bind (wp_mono (hstep done x rest s t hl hi) fun s' t' hi' => ?_)
    exact ih (done ++ [x]) s' t' (by simpa using hl) hi'

/-- The latest call that `sel` selects. -/
def last (sel : E → Option α) (t : List E) : Option α := (t.filterMap sel).getLast?

theorem last_snoc (sel : E → Option α) (t : List E) (e : E) :
    last sel (t ++ [e]) = (sel e).or (last sel t) := by
  cases h : sel e <;> simp [last, List.filterMap_append, h]

/-- Every call of the trace is one that the calls before it allow. -/
def Each (Legal : List E → E → Prop) (t : List E) : Prop :=
  ∀ pre e post, t = pre ++ e :: post → Legal pre e

theorem Each.nil {Legal : List E → E → Prop} : Each Legal [] := by
  intro pre e post h
  simp at h

theorem Each.snoc {Legal : List E → E → Prop} {e : E} (h : Each Legal t) (he : Legal t e) :
    Each Legal (t ++ [e]) := by
  intro pre e' post heq
  rcases List.eq_nil_or_concat post with rfl | ⟨post', e'', rfl⟩
  · obtain ⟨rfl, rfl⟩ : t = pre ∧ e = e' := by simpa using List.append_inj' heq rfl
    exact he
  · obtain ⟨rfl, -⟩ : t = pre ++ e' :: post' ∧ [e] = [e''] :=
      List.append_inj' (by simpa using heq) rfl
    exact h pre e' post' rfl

/-- Where a call of a kind is allowed only as the first of its kind, there is at most one. -/
theorem Each.countP_le_one {Legal : List E → E → Prop} {p : E → Bool} (h : Each Legal t)
    (hp : ∀ pre e, Legal pre e → p e = true → ∀ e' ∈ pre, p e' = false) : t.countP p ≤ 1 := by
  induction t using List.reverseRecOn with
  | nil => simp
  | append_singleton t e ih =>
    have hlegal : Legal t e := h t e [] rfl
    have ht : Each Legal t := fun pre e' post heq => h pre e' (post ++ [e]) (by simp [heq])
    rw [List.countP_append]
    cases he : p e with
    | false => simpa [he] using ih ht
    | true =>
      have hzero : t.countP p = 0 := by
        rw [List.countP_eq_zero]
        intro e' he'
        simp [hp t e hlegal he e' he']
      simp [hzero, he]

end Calls
