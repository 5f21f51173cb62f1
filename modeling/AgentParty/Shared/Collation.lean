import AgentParty.Lib.Sorting
import AgentParty.Shared.Mentions

/-! `localeCompare`, the order in which texts are listed to a reader. It is consistent, and it may
find different texts equal: the sort then leaves them as it finds them. -/

namespace AgentParty

open Mentions (Text)

structure Collation where
  localeCompare : Text → Text → ℤ
  swap : ∀ a b, localeCompare a b ≤ 0 ↔ 0 ≤ localeCompare b a
  trans : ∀ a b c, localeCompare a b ≤ 0 → localeCompare b c ≤ 0 → localeCompare a c ≤ 0

namespace Collation

variable (L : Collation)

/-- `sort((a, b) => f(a).localeCompare(f(b)))`. -/
def sortBy {α : Type*} (f : α → Text) (l : List α) : List α :=
  l.insertionSort fun a b => L.localeCompare (f a) (f b) ≤ 0

/-- Different texts of the list are not found equal. -/
def Separates (l : List Text) : Prop := ∀ a ∈ l, ∀ b ∈ l, L.localeCompare a b = 0 → a = b

variable {L}

theorem total (a b : Text) : L.localeCompare a b ≤ 0 ∨ L.localeCompare b a ≤ 0 := by
  rcases le_total (L.localeCompare b a) 0 with h | h
  · exact Or.inr h
  · exact Or.inl ((L.swap a b).2 h)

theorem sortBy_perm {α : Type*} (f : α → Text) (l : List α) : (L.sortBy f l).Perm l :=
  List.perm_insertionSort _ l

theorem pairwise_sortBy {α : Type*} (f : α → Text) (l : List α) :
    (L.sortBy f l).Pairwise fun a b => L.localeCompare (f a) (f b) ≤ 0 :=
  @List.pairwise_insertionSort _ _ _ ⟨fun a b => total (f a) (f b)⟩
    ⟨fun a b c => L.trans (f a) (f b) (f c)⟩ l

theorem sortBy_eq_of_perm {α : Type*} {f : α → Text} {l l' : List α} (h : l.Perm l')
    (hf : ∀ a ∈ l, ∀ b ∈ l, f a = f b → a = b) (hsep : L.Separates (l.map f)) :
    L.sortBy f l = L.sortBy f l' := by
  refine List.insertionSort_eq_of_perm (fun a b => total (f a) (f b))
    (fun a b c => L.trans (f a) (f b) (f c)) h fun a ha b hb hab hba => hf a ha b hb ?_
  exact hsep _ (List.mem_map_of_mem ha) _ (List.mem_map_of_mem hb)
    (le_antisymm hab ((L.swap _ _).1 hba))

end Collation
end AgentParty
