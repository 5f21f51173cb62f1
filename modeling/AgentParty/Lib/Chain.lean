import Mathlib.Data.List.Basic

/-! Records that name their predecessor. `Linked` says that a list of records, oldest first,
is one chain: each record names the one before it, and only the first names none. A store
that files its records under a class of keys keeps a chain for each class, as long as a new
record names the newest one of its class. -/

namespace Chain

variable {α ι κ : Type*} (id : α → ι) (prev : α → Option ι)

def Linked (l : List α) : Prop :=
  ∀ before a after, l = before ++ a :: after → prev a = before.getLast?.map id

theorem linked_nil : Linked id prev [] := by
  intro before a after h
  simp at h

variable {id prev} {l : List α} {a : α}

theorem Linked.concat (h : Linked id prev l) (ha : prev a = l.getLast?.map id) :
    Linked id prev (l ++ [a]) := by
  intro before b after hb
  rcases List.eq_nil_or_concat after with rfl | ⟨after, c, rfl⟩
  · obtain ⟨rfl, hb⟩ := List.append_inj' hb rfl
    obtain rfl : a = b := by simpa using hb
    exact ha
  · rw [List.concat_eq_append, ← List.cons_append, ← List.append_assoc] at hb
    exact h before b after (List.append_inj' hb rfl).1

section Classes

variable [DecidableEq κ] (key : α → κ)

/-- The records of a class, oldest first. -/
def ofClass (rows : List α) (k : κ) : List α := rows.filter fun a => key a = k

variable {key} {rows : List α} {k : κ}

theorem mem_ofClass : a ∈ ofClass key rows k ↔ a ∈ rows ∧ key a = k := by
  simp [ofClass]

theorem ofClass_concat_self : ofClass key (rows ++ [a]) (key a) = ofClass key rows (key a) ++ [a] := by
  simp [ofClass]

theorem ofClass_concat_other (h : k ≠ key a) :
    ofClass key (rows ++ [a]) k = ofClass key rows k := by
  simp [ofClass, h.symm]

theorem linked_ofClass_concat (h : ∀ k, Linked id prev (ofClass key rows k))
    (ha : prev a = (ofClass key rows (key a)).getLast?.map id) (k : κ) :
    Linked id prev (ofClass key (rows ++ [a]) k) := by
  by_cases hk : k = key a
  · subst hk
    rw [ofClass_concat_self]
    exact (h _).concat ha
  · rw [ofClass_concat_other hk]
    exact h k

end Classes

end Chain
