import Mathlib.Data.List.Nodup
import Mathlib.Data.List.Perm.Subperm

/-! Tables with a primary key: a list of rows whose keys are pairwise distinct.
The operations are those of a relational store (`get?`, `insert` that ignores a
taken key, `update … where`, `delete … where`) and keep the key constraint by
construction. `Evolves R` says that every row of the later table continues a row
of the earlier one under the row relation `R`. -/

structure Table (α : Type*) {κ : Type*} (key : α → κ) where
  rows : List α
  nodup : (rows.map key).Nodup

namespace Table

variable {α κ : Type*} {key : α → κ}

instance : Membership α (Table α key) := ⟨fun t a => a ∈ t.rows⟩

theorem mem_def {t : Table α key} {a : α} : a ∈ t ↔ a ∈ t.rows := Iff.rfl

instance decidableForall {t : Table α key} {p : α → Prop} [DecidablePred p] :
    Decidable (∀ a ∈ t, p a) :=
  inferInstanceAs (Decidable (∀ a ∈ t.rows, p a))

instance decidableExists {t : Table α key} {p : α → Prop} [DecidablePred p] :
    Decidable (∃ a ∈ t, p a) :=
  inferInstanceAs (Decidable (∃ a ∈ t.rows, p a))

theorem eq_of_key {t : Table α key} {a b : α} (ha : a ∈ t) (hb : b ∈ t) (h : key a = key b) :
    a = b :=
  List.inj_on_of_nodup_map t.nodup ha hb h

def empty : Table α key := ⟨[], List.nodup_nil⟩

@[simp] theorem not_mem_empty (a : α) : a ∉ (empty : Table α key) := List.not_mem_nil

/-- `UPDATE … SET f WHERE p`, for an `f` that leaves the key alone. -/
def update (t : Table α key) (p : α → Bool) (f : α → α)
    (hf : ∀ a, key (f a) = key a) : Table α key :=
  ⟨t.rows.map fun a => if p a then f a else a, by
    have : (t.rows.map fun a => if p a then f a else a).map key = t.rows.map key := by
      rw [List.map_map]
      refine List.map_congr_left fun a _ => ?_
      by_cases hp : p a <;> simp [hp, hf]
    rw [this]
    exact t.nodup⟩

theorem mem_update {t : Table α key} {p : α → Bool} {f : α → α}
    (hf : ∀ a, key (f a) = key a) {b : α} :
    b ∈ t.update p f hf ↔ ∃ a ∈ t, b = if p a then f a else a := by
  simp only [mem_def, update, List.mem_map, eq_comm]

theorem update_eq_self {t : Table α key} {p : α → Bool} {f : α → α}
    {hf : ∀ a, key (f a) = key a} (h : ∀ a ∈ t, p a = false) : t.update p f hf = t := by
  have hrows : (t.rows.map fun a => if p a then f a else a) = t.rows.map id :=
    List.map_congr_left fun a ha => by rw [h a ha]; rfl
  obtain ⟨rows, hnodup⟩ := t
  simp only [update, hrows, List.map_id]

/-- `DELETE … WHERE p`. -/
def delete (t : Table α key) (p : α → Bool) : Table α key :=
  ⟨t.rows.filter fun a => !p a, t.nodup.sublist (List.filter_sublist.map key)⟩

theorem mem_delete {t : Table α key} {p : α → Bool} {a : α} :
    a ∈ t.delete p ↔ a ∈ t ∧ p a = false := by
  simp [mem_def, delete]

section Lookup

variable [DecidableEq κ]

/-- `SELECT * … WHERE key = k`. -/
def get? (t : Table α key) (k : κ) : Option α := t.rows.find? fun a => key a = k

theorem get?_eq_some {t : Table α key} {k : κ} {a : α} : t.get? k = some a ↔ a ∈ t ∧ key a = k := by
  constructor
  · intro h
    exact ⟨List.mem_of_find?_eq_some h, by simpa using List.find?_some h⟩
  · rintro ⟨ha, rfl⟩
    cases h : t.get? (key a) with
    | none => exact absurd (List.find?_eq_none.1 h a ha) (by simp)
    | some b =>
      have hb : b ∈ t := List.mem_of_find?_eq_some h
      have hk : key b = key a := by simpa using List.find?_some h
      rw [eq_of_key hb ha hk]

theorem get?_eq_none {t : Table α key} {k : κ} : t.get? k = none ↔ ∀ a ∈ t, key a ≠ k := by
  simp only [get?, List.find?_eq_none, decide_eq_true_eq, mem_def, ne_eq]

theorem get?_key {t : Table α key} {a : α} (ha : a ∈ t) : t.get? (key a) = some a :=
  get?_eq_some.2 ⟨ha, rfl⟩

theorem get?_update {t : Table α key} {p : α → Bool} {f : α → α}
    {hf : ∀ a, key (f a) = key a} (k : κ) :
    (t.update p f hf).get? k = (t.get? k).map fun a => if p a then f a else a := by
  cases h : t.get? k with
  | none =>
    rw [Option.map_none, get?_eq_none]
    intro b hb
    obtain ⟨a, ha, rfl⟩ := (mem_update hf).1 hb
    have := get?_eq_none.1 h a ha
    by_cases hp : p a <;> simpa [hp, hf] using this
  | some a =>
    obtain ⟨ha, rfl⟩ := get?_eq_some.1 h
    rw [Option.map_some, get?_eq_some]
    refine ⟨(mem_update hf).2 ⟨a, ha, rfl⟩, ?_⟩
    by_cases hp : p a <;> simp [hp, hf]

/-- `INSERT OR IGNORE`: a taken key leaves the table as it is. -/
def insert (t : Table α key) (a : α) : Table α key :=
  if h : (t.get? (key a)).isSome then t
  else ⟨t.rows ++ [a], by
    have hn : ∀ b ∈ t, key b ≠ key a := get?_eq_none.1 (by simpa using h)
    rw [List.map_append, List.nodup_append]
    refine ⟨t.nodup, by simp, ?_⟩
    rintro k hk k' hk' rfl
    obtain ⟨b, hb, hbk⟩ := List.mem_map.1 hk
    exact hn b hb (hbk.trans (by simpa using hk'))⟩

theorem mem_insert {t : Table α key} {a b : α} :
    b ∈ t.insert a ↔ b ∈ t ∨ (b = a ∧ ∀ c ∈ t, key c ≠ key a) := by
  unfold insert
  split
  · rename_i h
    constructor
    · exact Or.inl
    · rintro (hb | ⟨-, hn⟩)
      · exact hb
      · rw [get?_eq_none.2 hn] at h
        simp at h
  · rename_i h
    have hn : ∀ c ∈ t, key c ≠ key a := get?_eq_none.1 (by simpa using h)
    simp only [mem_def, List.mem_append, List.mem_singleton]
    constructor
    · rintro (hb | hb)
      · exact Or.inl hb
      · exact Or.inr ⟨hb, hn⟩
    · rintro (hb | ⟨hb, -⟩)
      · exact Or.inl hb
      · exact Or.inr hb

theorem insert_rows {t : Table α key} {a : α} (h : t.get? (key a) = none) :
    (t.insert a).rows = t.rows ++ [a] := by
  simp [insert, h]

theorem filter_key (t : Table α key) (k : κ) :
    (t.rows.filter fun a => key a = k) = (t.get? k).toList := by
  obtain ⟨rows, hnodup⟩ := t
  simp only [get?]
  induction rows with
  | nil => rfl
  | cons a rows ih =>
    rw [List.map_cons, List.nodup_cons] at hnodup
    by_cases hk : key a = k
    · have hrest : (rows.filter fun b => key b = k) = [] := by
        rw [List.filter_eq_nil_iff]
        intro b hb hbk
        rw [decide_eq_true_eq, ← hk] at hbk
        exact hnodup.1 (List.mem_map.2 ⟨b, hb, hbk⟩)
      simp [hk, hrest]
    · simpa [hk] using ih hnodup.2

theorem length_delete_key {t : Table α key} {a : α} (ha : a ∈ t) :
    (t.delete fun b => key b = key a).rows.length + 1 = t.rows.length := by
  have hlength := t.rows.length_eq_length_filter_add fun b => key b = key a
  rw [filter_key, get?_key ha] at hlength
  simp only [delete, Option.toList_some, List.length_singleton] at hlength ⊢
  omega

/-- A condition that only rows of one key meet counts one row. -/
theorem countP_eq_one {t : Table α key} {p : α → Bool} {a : α} (ha : a ∈ t) (hp : p a = true)
    (hkey : ∀ b ∈ t, p b = true → key b = key a) : t.rows.countP p = 1 := by
  have hiff : ∀ b ∈ t.rows, p b = true ↔ decide (key b = key a) = true := by
    intro b hb
    rw [decide_eq_true_eq]
    exact ⟨hkey b hb, fun hk => by rwa [eq_of_key hb ha hk]⟩
  rw [List.countP_congr hiff, List.countP_eq_length_filter, filter_key, get?_key ha]
  rfl

/-- A row takes the place of the row with its key, or comes last. -/
def put (t : Table α key) (a : α) : Table α key :=
  if (t.get? (key a)).isSome then
    t.update (fun _ => true) (fun b => if key b = key a then a else b) fun b => by
      split_ifs with h
      · exact h.symm
      · rfl
  else t.insert a

theorem put_rows {t : Table α key} {a : α} (h : t.get? (key a) = none) :
    (t.put a).rows = t.rows ++ [a] := by
  simp [put, h, insert_rows h]

theorem map_key_put {t : Table α key} {a : α} (h : (t.get? (key a)).isSome) :
    (t.put a).rows.map key = t.rows.map key := by
  simp only [put, h, if_true, update, List.map_map]
  refine List.map_congr_left fun b _ => ?_
  by_cases hb : key b = key a <;> simp [hb]

theorem length_put_le {t : Table α key} (a : α) : (t.put a).rows.length ≤ t.rows.length + 1 := by
  cases h : t.get? (key a) with
  | none => simp only [put_rows h, List.length_append, List.length_singleton, Nat.le_refl]
  | some b =>
    have hkeys := congrArg List.length (map_key_put (t := t) (a := a) (by rw [h]; rfl))
    rw [List.length_map, List.length_map] at hkeys
    omega

theorem mem_put {t : Table α key} {a b : α} :
    b ∈ t.put a ↔ b = a ∨ (b ∈ t ∧ key b ≠ key a) := by
  unfold put
  split
  · rename_i h
    obtain ⟨c, hc⟩ := Option.isSome_iff_exists.1 h
    obtain ⟨hct, hck⟩ := get?_eq_some.1 hc
    rw [mem_update]
    constructor
    · rintro ⟨d, hd, rfl⟩
      by_cases hk : key d = key a
      · simp [hk]
      · simp [hk, hd]
    · rintro (rfl | ⟨hb, hk⟩)
      · exact ⟨c, hct, by simp [hck]⟩
      · exact ⟨b, hb, by simp [hk]⟩
  · rename_i h
    have hn : ∀ c ∈ t, key c ≠ key a := get?_eq_none.1 (by simpa using h)
    rw [mem_insert]
    constructor
    · rintro (hb | ⟨rfl, -⟩)
      · exact Or.inr ⟨hb, hn b hb⟩
      · exact Or.inl rfl
    · rintro (rfl | ⟨hb, -⟩)
      · exact Or.inr ⟨rfl, hn⟩
      · exact Or.inl hb

theorem get?_put {t : Table α key} (a : α) (k : κ) :
    (t.put a).get? k = if k = key a then some a else t.get? k := by
  split_ifs with h
  · exact get?_eq_some.2 ⟨mem_put.2 (Or.inl rfl), h.symm⟩
  · cases hk : t.get? k with
    | none =>
      refine get?_eq_none.2 fun b hb hbk => ?_
      rcases mem_put.1 hb with rfl | ⟨hb, -⟩
      · exact h hbk.symm
      · exact get?_eq_none.1 hk b hb hbk
    | some b =>
      obtain ⟨hb, rfl⟩ := get?_eq_some.1 hk
      exact get?_eq_some.2 ⟨mem_put.2 (Or.inr ⟨hb, h⟩), rfl⟩

theorem get?_delete {t : Table α key} (k k' : κ) :
    (t.delete fun a => key a = k').get? k = if k = k' then none else t.get? k := by
  split_ifs with h
  · refine get?_eq_none.2 fun b hb hbk => ?_
    simpa [hbk, h] using (mem_delete.1 hb).2
  · cases hk : t.get? k with
    | none => exact get?_eq_none.2 fun b hb => get?_eq_none.1 hk b (mem_delete.1 hb).1
    | some b =>
      obtain ⟨hb, rfl⟩ := get?_eq_some.1 hk
      exact get?_eq_some.2 ⟨mem_delete.2 ⟨hb, by simpa using h⟩, rfl⟩

end Lookup

theorem mem_iff_of_get? {t t' : Table α key} [DecidableEq κ] (h : ∀ k, t.get? k = t'.get? k)
    (a : α) : a ∈ t ↔ a ∈ t' := by
  constructor
  · intro ha
    exact (get?_eq_some.1 ((h (key a)).symm.trans (get?_key ha))).1
  · intro ha
    exact (get?_eq_some.1 ((h (key a)).trans (get?_key ha))).1

theorem perm_of_mem_iff {t t' : Table α key} (h : ∀ a, a ∈ t ↔ a ∈ t') : t.rows.Perm t'.rows :=
  (List.perm_ext_iff_of_nodup (List.Nodup.of_map key t.nodup)
    (List.Nodup.of_map key t'.nodup)).2 h

/-- The tables hold the same keys, and rows of one key are related by `R`. -/
def Pointwise [DecidableEq κ] (R : α → α → Prop) (t t' : Table α key) : Prop :=
  ∀ k, Option.Rel R (t.get? k) (t'.get? k)

section Pointwise

variable [DecidableEq κ] {R S : α → α → Prop} {t t' t'' : Table α key}

theorem Pointwise.refl (hR : ∀ a ∈ t, R a a) : Pointwise R t t := by
  intro k
  cases h : t.get? k with
  | none => exact .none
  | some a => exact .some (hR a (get?_eq_some.1 h).1)

theorem Pointwise.comp {T : α → α → Prop} (hT : ∀ a b c, R a b → S b c → T a c)
    (h : Pointwise R t t') (h' : Pointwise S t' t'') : Pointwise T t t'' := by
  intro k
  have h1 := h k
  have h2 := h' k
  generalize t.get? k = x at h1
  generalize t'.get? k = y at h1 h2
  generalize t''.get? k = z at h2
  cases h1 with
  | none =>
    cases h2
    exact .none
  | some hab =>
    cases h2 with
    | some hbc => exact .some (hT _ _ _ hab hbc)

theorem Pointwise.trans (hR : ∀ a b c, R a b → R b c → R a c) (h : Pointwise R t t')
    (h' : Pointwise R t' t'') : Pointwise R t t'' :=
  h.comp hR h'

theorem Pointwise.mono (hRS : ∀ a ∈ t, ∀ b, R a b → S a b) (h : Pointwise R t t') :
    Pointwise S t t' := by
  intro k
  have h1 := h k
  generalize ha : t.get? k = x at h1
  generalize t'.get? k = y at h1
  cases h1 with
  | none => exact .none
  | some hab => exact .some (hRS _ (get?_eq_some.1 ha).1 _ hab)

/-- The row of the later table with the key of `a`. -/
theorem Pointwise.forward (h : Pointwise R t t') {a : α} (ha : a ∈ t) :
    ∃ b ∈ t', key b = key a ∧ R a b := by
  have h1 := h (key a)
  rw [get?_key ha] at h1
  generalize hb : t'.get? (key a) = y at h1
  cases h1 with
  | some hab => exact ⟨_, (get?_eq_some.1 hb).1, (get?_eq_some.1 hb).2, hab⟩

theorem Pointwise.backward (h : Pointwise R t t') {b : α} (hb : b ∈ t') :
    ∃ a ∈ t, key a = key b ∧ R a b := by
  have h1 := h (key b)
  rw [get?_key hb] at h1
  generalize ha : t.get? (key b) = x at h1
  cases h1 with
  | some hab => exact ⟨_, (get?_eq_some.1 ha).1, (get?_eq_some.1 ha).2, hab⟩

theorem Pointwise.get? (h : Pointwise R t t') {k : κ} {a b : α} (ha : t.get? k = some a)
    (hb : t'.get? k = some b) : R a b := by
  have h1 := h k
  rw [ha, hb] at h1
  cases h1 with
  | some hab => exact hab

theorem Pointwise.length_eq (h : Pointwise R t t') : t'.rows.length = t.rows.length := by
  have hsub : t.rows.map key ⊆ t'.rows.map key := by
    intro k hk
    obtain ⟨a, ha, rfl⟩ := List.mem_map.1 hk
    obtain ⟨b, hb, hbk, -⟩ := h.forward ha
    exact List.mem_map.2 ⟨b, hb, hbk⟩
  have hsub' : t'.rows.map key ⊆ t.rows.map key := by
    intro k hk
    obtain ⟨b, hb, rfl⟩ := List.mem_map.1 hk
    obtain ⟨a, ha, hak, -⟩ := h.backward hb
    exact List.mem_map.2 ⟨a, ha, hak⟩
  have h1 := (List.subperm_of_subset t.nodup hsub).length_le
  have h2 := (List.subperm_of_subset t'.nodup hsub').length_le
  simp only [List.length_map] at h1 h2
  omega

theorem pointwise_update {p : α → Bool} {f : α → α} (hf : ∀ a, key (f a) = key a)
    (h : ∀ a ∈ t, R a (if p a then f a else a)) : Pointwise R t (t.update p f hf) := by
  intro k
  rw [get?_update]
  cases ha : t.get? k with
  | none => exact .none
  | some a => exact .some (h a (get?_eq_some.1 ha).1)

end Pointwise

/-- Every row of `t'` continues, under `R`, the row of `t` with its key. -/
def Evolves (R : α → α → Prop) (t t' : Table α key) : Prop :=
  ∀ b ∈ t', ∃ a ∈ t, key a = key b ∧ R a b

theorem Evolves.refl {R : α → α → Prop} (hR : ∀ a, R a a) (t : Table α key) : Evolves R t t :=
  fun a ha => ⟨a, ha, rfl, hR a⟩

theorem Evolves.trans {R : α → α → Prop} (hR : ∀ a b c, R a b → R b c → R a c)
    {t t' t'' : Table α key} (h : Evolves R t t') (h' : Evolves R t' t'') : Evolves R t t'' := by
  intro c hc
  obtain ⟨b, hb, hk, hbc⟩ := h' c hc
  obtain ⟨a, ha, hk', hab⟩ := h b hb
  exact ⟨a, ha, hk'.trans hk, hR _ _ _ hab hbc⟩

theorem Evolves.mono {R S : α → α → Prop} (hRS : ∀ a b, R a b → S a b) {t t' : Table α key}
    (h : Evolves R t t') : Evolves S t t' := by
  intro b hb
  obtain ⟨a, ha, hk, hab⟩ := h b hb
  exact ⟨a, ha, hk, hRS _ _ hab⟩

theorem evolves_update {R : α → α → Prop} (hR : ∀ a, R a a) {t : Table α key} {p : α → Bool}
    {f : α → α} (hf : ∀ a, key (f a) = key a) (h : ∀ a ∈ t, p a = true → R a (f a)) :
    Evolves R t (t.update p f hf) := by
  intro b hb
  obtain ⟨a, ha, rfl⟩ := (mem_update hf).1 hb
  by_cases hp : p a
  · exact ⟨a, ha, by simp [hp, hf], by simpa [hp] using h a ha hp⟩
  · exact ⟨a, ha, by simp [hp], by simpa [hp] using hR a⟩

theorem evolves_delete {R : α → α → Prop} (hR : ∀ a, R a a) (t : Table α key) (p : α → Bool) :
    Evolves R t (t.delete p) :=
  fun a ha => ⟨a, (mem_delete.1 ha).1, rfl, hR a⟩

end Table
