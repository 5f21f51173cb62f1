import AgentParty.Lib.Table
import Mathlib.Data.Finset.Sort

/-! Secondary indexes. An index of a table pairs each term of a row with the key of the row;
it is exact when these are its pairs. Writers of the table keep the index along with it:
`add` for a new row, `drop` and `add` for a changed one, `dropOrphans` after a deletion. -/

namespace SecondaryIndex

variable {α κ ι : Type*} {key : α → κ}

/-- The pairs of the index are the terms of the rows, each with the key of its row. -/
def Exact (terms : α → Finset ι) (t : Table α key) (index : Finset (ι × κ)) : Prop :=
  ∀ i k, (i, k) ∈ index ↔ ∃ a ∈ t, key a = k ∧ i ∈ terms a

variable {terms : α → Finset ι} {t : Table α key} {index : Finset (ι × κ)} {i : ι} {k k' : κ}
  {is : Finset ι}

theorem exact_empty : Exact terms (Table.empty : Table α key) ∅ := by
  intro i k
  simp [Table.empty, Table.mem_def]

/-- An update that leaves the terms of every row alone. -/
theorem Exact.update (h : Exact terms t index) {p : α → Bool} {f : α → α}
    (hf : ∀ a, key (f a) = key a) (hterms : ∀ a ∈ t, p a = true → terms (f a) = terms a) :
    Exact terms (t.update p f hf) index := by
  intro i k
  rw [h i k]
  constructor
  · rintro ⟨a, ha, hkey, hi⟩
    refine ⟨_, (Table.mem_update hf).2 ⟨a, ha, rfl⟩, ?_, ?_⟩
    · split_ifs
      · rw [hf, hkey]
      · exact hkey
    · split_ifs with hp
      · rwa [hterms a ha hp]
      · exact hi
  · rintro ⟨b, hb, hkey, hi⟩
    obtain ⟨a, ha, rfl⟩ := (Table.mem_update hf).1 hb
    refine ⟨a, ha, ?_⟩
    split_ifs at hkey hi with hp
    · exact ⟨(hf a).symm.trans hkey, hterms a ha hp ▸ hi⟩
    · exact ⟨hkey, hi⟩

/-- An update that takes all terms of the rows it changes, and their pairs with them. -/
theorem Exact.clear (h : Exact terms t index) {p : α → Bool} {f : α → α}
    (hf : ∀ a, key (f a) = key a) (hterms : ∀ a, terms (f a) = ∅) {index' : Finset (ι × κ)}
    (hindex : ∀ i k, (i, k) ∈ index' ↔ (i, k) ∈ index ∧ ∀ a ∈ t, key a = k → p a = false) :
    Exact terms (t.update p f hf) index' := by
  intro i k
  rw [hindex, h i k]
  constructor
  · rintro ⟨⟨a, ha, hkey, hi⟩, hkept⟩
    exact ⟨a, (Table.mem_update hf).2 ⟨a, ha, by simp [hkept a ha hkey]⟩, hkey, hi⟩
  · rintro ⟨b, hb, hkey, hi⟩
    obtain ⟨a, ha, rfl⟩ := (Table.mem_update hf).1 hb
    cases hp : p a with
    | true => simp [hp, hterms] at hi
    | false =>
      simp only [hp, Bool.false_eq_true, if_false] at hkey hi
      refine ⟨⟨a, ha, hkey, hi⟩, fun a' ha' hkey' => ?_⟩
      rwa [Table.eq_of_key ha' ha (hkey'.trans hkey.symm)]

section Keys

variable [DecidableEq κ]

/-- `DELETE … WHERE key = k`. -/
def drop (index : Finset (ι × κ)) (k : κ) : Finset (ι × κ) := index.filter (·.2 ≠ k)

/-- `DELETE … WHERE key NOT IN (SELECT key …)`. -/
def dropOrphans (t : Table α key) (index : Finset (ι × κ)) : Finset (ι × κ) :=
  index.filter fun p => (t.get? p.2).isSome

@[simp] theorem mem_drop : (i, k) ∈ drop index k' ↔ (i, k) ∈ index ∧ k ≠ k' := by
  simp [drop]

theorem Exact.delete (h : Exact terms t index) (p : α → Bool) :
    Exact terms (t.delete p) (dropOrphans (t.delete p) index) := by
  intro i k
  rw [dropOrphans, Finset.mem_filter, h i k]
  constructor
  · rintro ⟨⟨a, ha, hkey, hi⟩, hsome⟩
    obtain ⟨b, hb⟩ := Option.isSome_iff_exists.1 hsome
    obtain ⟨hmem, hbkey⟩ := Table.get?_eq_some.1 hb
    rw [Table.eq_of_key ha (Table.mem_delete.1 hmem).1 (hkey.trans hbkey.symm)] at hi
    exact ⟨b, hmem, hbkey, hi⟩
  · rintro ⟨a, ha, hkey, hi⟩
    refine ⟨⟨a, (Table.mem_delete.1 ha).1, hkey, hi⟩, ?_⟩
    rw [← hkey, Table.get?_key ha, Option.isSome_some]

end Keys

variable [DecidableEq κ] [DecidableEq ι]

/-- `INSERT OR IGNORE` of a pair for each term. -/
def add (index : Finset (ι × κ)) (k : κ) (is : Finset ι) : Finset (ι × κ) :=
  index ∪ is.image fun i => (i, k)

@[simp] theorem mem_add : (i, k) ∈ add index k' is ↔ (i, k) ∈ index ∨ (i ∈ is ∧ k' = k) := by
  simp [add]

theorem Exact.insert (h : Exact terms t index) {a : α} (hnew : t.get? (key a) = none) :
    Exact terms (t.insert a) (add index (key a) (terms a)) := by
  intro i k
  rw [mem_add, h i k]
  constructor
  · rintro (⟨b, hb, hkey, hi⟩ | ⟨hi, hkey⟩)
    · exact ⟨b, Table.mem_insert.2 (Or.inl hb), hkey, hi⟩
    · exact ⟨a, Table.mem_insert.2 (Or.inr ⟨rfl, Table.get?_eq_none.1 hnew⟩), hkey, hi⟩
  · rintro ⟨b, hb, hkey, hi⟩
    rcases Table.mem_insert.1 hb with hb | ⟨rfl, -⟩
    · exact Or.inl ⟨b, hb, hkey, hi⟩
    · exact Or.inr ⟨hi, hkey⟩

/-- An update of one row, and the index rebuilt for it. -/
theorem Exact.rebuild (h : Exact terms t index) {f : α → α} (hf : ∀ a, key (f a) = key a)
    (his : ∀ a ∈ t, key a = k → terms (f a) = is) (hrow : ∃ a ∈ t, key a = k) :
    Exact terms (t.update (fun a => key a = k) f hf) (add (drop index k) k is) := by
  intro i k'
  rw [mem_add, mem_drop, h i k']
  constructor
  · rintro (⟨⟨a, ha, hkey, hi⟩, hne⟩ | ⟨hi, rfl⟩)
    · refine ⟨a, (Table.mem_update hf).2 ⟨a, ha, ?_⟩, hkey, hi⟩
      rw [if_neg (by simpa [hkey] using hne)]
    · obtain ⟨a, ha, hkey⟩ := hrow
      refine ⟨f a, (Table.mem_update hf).2 ⟨a, ha, by simp [hkey]⟩, (hf a).trans hkey, ?_⟩
      rwa [his a ha hkey]
  · rintro ⟨b, hb, hkey, hi⟩
    obtain ⟨a, ha, rfl⟩ := (Table.mem_update hf).1 hb
    by_cases hk : key a = k
    · simp only [hk, decide_true, if_true] at hkey hi
      exact Or.inr ⟨his a ha hk ▸ hi, hk.symm.trans ((hf a).symm.trans hkey)⟩
    · simp only [hk, decide_false, Bool.false_eq_true, if_false] at hkey hi
      exact Or.inl ⟨⟨a, ha, hkey, hi⟩, hkey ▸ hk⟩

/-- The keys that the index has for a term. -/
def lookup (index : Finset (ι × κ)) (i : ι) : Finset κ := (index.filter (·.1 = i)).image (·.2)

theorem mem_lookup : k ∈ lookup index i ↔ (i, k) ∈ index := by
  simp [lookup]

theorem Exact.mem_lookup (h : Exact terms t index) :
    k ∈ lookup index i ↔ ∃ a ∈ t, key a = k ∧ i ∈ terms a :=
  SecondaryIndex.mem_lookup.trans (h i k)

theorem sort_filter [LinearOrder κ] (s : Finset κ) (q : κ → Bool) :
    (s.sort (· ≤ ·)).filter q = (s.filter fun k => q k = true).sort (· ≤ ·) := by
  have hfilter : (s.filter fun k => q k = true) = ((s.sort (· ≤ ·)).filter q).toFinset := by
    ext k
    simp
  rw [hfilter]
  exact ((List.toFinset_sort _ ((s.sort_nodup _).filter _)).2 ((s.pairwise_sort _).filter _)).symm

theorem map_key_filterMap_get? (t : Table α key) (p : α → Bool) (ks : List κ) :
    ((ks.filterMap t.get?).filter p).map key = ks.filter fun k => (t.get? k).any p := by
  induction ks with
  | nil => rfl
  | cons k ks ih =>
    cases ha : t.get? k with
    | none => simpa [ha] using ih
    | some a =>
      have hkey : key a = k := (Table.get?_eq_some.1 ha).2
      cases hp : p a <;> simpa [ha, hp, hkey] using ih

/-- Looking a term up in an exact index and fetching the rows selects the rows with the term. -/
theorem Exact.select [LinearOrder κ] (h : Exact terms t index) (i : ι) (q : κ → Prop)
    [DecidablePred q] (p : α → Bool) :
    (((((lookup index i).filter q).sort (· ≤ ·)).filterMap t.get?).filter p).map key =
      ((t.rows.filter fun a => i ∈ terms a && q (key a) && p a).map key).toFinset.sort (· ≤ ·) := by
  rw [map_key_filterMap_get?, sort_filter]
  congr 1
  ext k
  simp only [Finset.mem_filter, h.mem_lookup, List.mem_toFinset, List.mem_map, List.mem_filter,
    Bool.and_eq_true, decide_eq_true_eq, Table.mem_def, Option.any_eq_true_iff_get]
  constructor
  · rintro ⟨⟨⟨a, ha, hkey, hi⟩, hq⟩, hsome, hp⟩
    refine ⟨a, ⟨ha, ⟨hi, hkey ▸ hq⟩, ?_⟩, hkey⟩
    have hget : t.get? k = some a := hkey ▸ Table.get?_key ha
    simpa only [hget, Option.get_some] using hp
  · rintro ⟨a, ⟨ha, ⟨hi, hq⟩, hp⟩, rfl⟩
    have hget : t.get? (key a) = some a := Table.get?_key ha
    refine ⟨⟨⟨a, ha, rfl, hi⟩, hq⟩, by rw [hget]; rfl, ?_⟩
    simpa only [hget, Option.get_some] using hp

end SecondaryIndex
