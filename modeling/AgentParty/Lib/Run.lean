import Mathlib.Data.List.Infix
import Mathlib.Logic.Relation

/-! Runs of event-labelled transition systems. A system is a relation
`Step s e s'`; a run lists its events oldest first. `Guarded` keeps only the
steps whose event meets a condition on the state before it, so a run of the
guarded system is a run all of whose steps meet that condition. -/

namespace EventSystem

variable {σ ε : Type*} {Step : σ → ε → σ → Prop}

inductive Run (Step : σ → ε → σ → Prop) (s : σ) : List ε → σ → Prop
  | nil : Run Step s [] s
  | snoc {evs : List ε} {t t' : σ} {e : ε} :
      Run Step s evs t → Step t e t' → Run Step s (evs ++ [e]) t'

/-- The steps of `Step` whose event meets `C` in the state before it. -/
def Guarded (Step : σ → ε → σ → Prop) (C : σ → ε → Prop) (s : σ) (e : ε) (s' : σ) : Prop :=
  Step s e s' ∧ C s e

theorem Run.single {s s' : σ} {e : ε} (h : Step s e s') : Run Step s [e] s' := by
  simpa using Run.snoc Run.nil h

theorem Run.append {s t u : σ} {evs evs' : List ε} (h : Run Step s evs t)
    (h' : Run Step t evs' u) : Run Step s (evs ++ evs') u := by
  induction h' with
  | nil => simpa using h
  | snoc _ hs ih => simpa [List.append_assoc] using Run.snoc ih hs

theorem Run.mono {Step' : σ → ε → σ → Prop} (hsub : ∀ s e s', Step s e s' → Step' s e s')
    {s t : σ} {evs : List ε} (h : Run Step s evs t) : Run Step' s evs t := by
  induction h with
  | nil => exact Run.nil
  | snoc _ hs ih => exact Run.snoc ih (hsub _ _ _ hs)

theorem Run.of_guarded {C : σ → ε → Prop} {s t : σ} {evs : List ε}
    (h : Run (Guarded Step C) s evs t) : Run Step s evs t :=
  h.mono fun _ _ _ hs => hs.1

/-- What every step preserves holds at the end of every run. -/
theorem Run.invariant {I : σ → Prop} (hstep : ∀ s e s', I s → Step s e s' → I s')
    {s t : σ} {evs : List ε} (h : Run Step s evs t) (hi : I s) : I t := by
  induction h with
  | nil => exact hi
  | snoc _ hs ih => exact hstep _ _ _ ih hs

/-- A relation to the starting state that every step extends relates the two
ends of every run. -/
theorem Run.rel {R : σ → σ → Prop} (hrefl : ∀ s, R s s)
    (hstep : ∀ s t e t', R s t → Step t e t' → R s t')
    {s t : σ} {evs : List ε} (h : Run Step s evs t) : R s t := by
  induction h with
  | nil => exact hrefl _
  | snoc _ hs ih => exact hstep _ _ _ _ ih hs

/-- A run of a list in two parts is two runs. -/
theorem Run.split {s t : σ} {evs evs' : List ε} (h : Run Step s (evs ++ evs') t) :
    ∃ u, Run Step s evs u ∧ Run Step u evs' t := by
  induction evs' using List.reverseRecOn generalizing t with
  | nil => exact ⟨t, by simpa using h, Run.nil⟩
  | append_singleton evs' e ih =>
    rw [← List.append_assoc] at h
    generalize hall : evs ++ evs' ++ [e] = all at h
    cases h with
    | nil => simp at hall
    | @snoc evs'' u _ e' hbefore hstep =>
      obtain ⟨rfl, hlast⟩ := List.append_inj' hall rfl
      obtain rfl : e = e' := by simpa using hlast
      obtain ⟨v, hv, hrest⟩ := ih hbefore
      exact ⟨v, hv, Run.snoc hrest hstep⟩

theorem Run.last {s t : σ} {evs : List ε} {e : ε} (h : Run Step s (evs ++ [e]) t) :
    ∃ u, Run Step s evs u ∧ Step u e t := by
  generalize hall : evs ++ [e] = all at h
  cases h with
  | nil => simp at hall
  | @snoc evs' u _ e' hbefore hstep =>
    obtain ⟨rfl, hlast⟩ := List.append_inj' hall rfl
    obtain rfl : e = e' := by simpa using hlast
    exact ⟨u, hbefore, hstep⟩

section Ready

variable {Ready : σ → ε → Prop} {next : σ → ε → σ}

/-- Every event of the list is ready when its turn comes. -/
def AllReady (Ready : σ → ε → Prop) (next : σ → ε → σ) : σ → List ε → Prop
  | _, [] => True
  | s, e :: evs => Ready s e ∧ AllReady Ready next (next s e) evs

instance decidableAllReady [∀ s e, Decidable (Ready s e)] :
    (s : σ) → (evs : List ε) → Decidable (AllReady Ready next s evs)
  | _, [] => inferInstanceAs (Decidable True)
  | s, e :: evs =>
    have := decidableAllReady (next s e) evs
    inferInstanceAs (Decidable (Ready s e ∧ AllReady Ready next (next s e) evs))

/-- Ready events run. -/
theorem run_of_ready (hstep : ∀ s e, Ready s e → Step s e (next s e)) {s : σ} {evs : List ε}
    (h : AllReady Ready next s evs) : Run Step s evs (evs.foldl next s) := by
  induction evs generalizing s with
  | nil => exact Run.nil
  | cons e evs ih => exact (Run.single (hstep s e h.1)).append (ih h.2)

/-- Where readiness is what keeps `I`, a list of ready events is one after whose every prefix
`I` holds; `J` holds in any case. -/
theorem allReady_iff {I J : σ → Prop} (hJ : ∀ s e, J s → J (next s e))
    (hI : ∀ s e, J s → I s → (I (next s e) ↔ Ready s e)) {s : σ} (hj : J s) (hi : I s)
    {evs : List ε} :
    AllReady Ready next s evs ↔ ∀ pre, pre <+: evs → I (pre.foldl next s) := by
  induction evs generalizing s with
  | nil =>
    refine iff_of_true trivial fun pre hpre => ?_
    rw [List.prefix_nil.1 hpre]
    exact hi
  | cons e evs ih =>
    constructor
    · intro h pre hpre
      rcases List.prefix_cons_iff.1 hpre with rfl | ⟨pre', rfl, hpre'⟩
      · exact hi
      · exact (ih (hJ s e hj) ((hI s e hj hi).2 h.1)).1 h.2 pre' hpre'
    · intro h
      have hnext : I (next s e) := h [e] (List.prefix_cons_inj e |>.2 (List.nil_prefix))
      refine ⟨(hI s e hj hi).1 hnext, (ih (hJ s e hj) hnext).2 fun pre hpre => ?_⟩
      exact h (e :: pre) (List.prefix_cons_inj e |>.2 hpre)

end Ready

section Deterministic

variable {next : σ → ε → σ}

theorem run_foldl (hstep : ∀ s e, Step s e (next s e)) (s : σ) (evs : List ε) :
    Run Step s evs (evs.foldl next s) := by
  induction evs generalizing s with
  | nil => exact Run.nil
  | cons e evs ih => exact (Run.single (hstep s e)).append (ih (next s e))

theorem Run.eq_foldl (hstep : ∀ s e s', Step s e s' → s' = next s e) {s t : σ} {evs : List ε}
    (h : Run Step s evs t) : t = evs.foldl next s := by
  induction h with
  | nil => rfl
  | snoc _ hs ih => rw [hstep _ _ _ hs, ih, List.foldl_append, List.foldl_cons, List.foldl_nil]

/-- `C` holds of every event of the list in the state before it. -/
def Throughout (next : σ → ε → σ) (C : σ → ε → Prop) (s : σ) (evs : List ε) : Prop :=
  ∀ pre e, pre ++ [e] <+: evs → C (pre.foldl next s) e

theorem Throughout.nil (C : σ → ε → Prop) (s : σ) : Throughout next C s [] := by
  intro pre e hpre
  simp at hpre

theorem throughout_snoc {C : σ → ε → Prop} {s : σ} {evs : List ε} {e : ε} :
    Throughout next C s (evs ++ [e]) ↔
      Throughout next C s evs ∧ C (evs.foldl next s) e := by
  constructor
  · intro h
    exact ⟨fun pre e' hpre => h pre e' (hpre.trans (List.prefix_append _ _)),
      h evs e (List.prefix_refl _)⟩
  · rintro ⟨h, he⟩ pre e' hpre
    rcases List.prefix_concat_iff.1 hpre with heq | hpre'
    · obtain ⟨rfl, hlast⟩ := List.append_inj' heq rfl
      obtain rfl : e' = e := by simpa using hlast
      exact he
    · exact h pre e' hpre'

theorem throughout_iff_allReady {C : σ → ε → Prop} {s : σ} {evs : List ε} :
    Throughout next C s evs ↔ AllReady C next s evs := by
  induction evs generalizing s with
  | nil => exact iff_of_true (Throughout.nil C s) trivial
  | cons e evs ih =>
    constructor
    · intro h
      refine ⟨h [] e (List.prefix_append [e] evs), ih.1 fun pre e' hpre => ?_⟩
      exact h (e :: pre) e' ((List.prefix_cons_inj e).2 hpre)
    · rintro ⟨he, hrest⟩ pre e' hpre
      cases pre with
      | nil =>
        obtain rfl : e' = e := (List.cons_prefix_cons.1 hpre).1
        exact he
      | cons e₀ pre =>
        obtain ⟨rfl, hpre'⟩ := List.cons_prefix_cons.1 hpre
        exact ih.2 hrest pre e' hpre'

theorem Throughout.imp {C D : σ → ε → Prop} {s : σ} {evs : List ε}
    (h : Throughout next C s evs) (himp : ∀ s e, C s e → D s e) : Throughout next D s evs :=
  fun pre e hpre => himp _ _ (h pre e hpre)

/-- The run up to a prefix of its events. -/
theorem Run.upTo (hstep : ∀ s e s', Step s e s' → s' = next s e) {s t : σ} {evs pre : List ε}
    (h : Run Step s evs t) (hpre : pre <+: evs) : Run Step s pre (pre.foldl next s) := by
  obtain ⟨rest, rfl⟩ := hpre
  obtain ⟨u, hu, -⟩ := h.split
  rwa [← hu.eq_foldl hstep]

theorem Run.guarded (hstep : ∀ s e s', Step s e s' → s' = next s e) {C : σ → ε → Prop} {s t : σ}
    {evs : List ε} (h : Run Step s evs t) (hC : Throughout next C s evs) :
    Run (Guarded Step C) s evs t := by
  induction h with
  | nil => exact Run.nil
  | @snoc evs t t' e hrun hs ih =>
    obtain ⟨hbefore, he⟩ := throughout_snoc.1 hC
    rw [← hrun.eq_foldl hstep] at he
    exact Run.snoc (ih hbefore) ⟨hs, he⟩

end Deterministic

end EventSystem
