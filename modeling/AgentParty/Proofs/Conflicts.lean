import AgentParty.Proofs.Aliases
import AgentParty.Shared.Conflicts

/-! The conflict report: a group holds the claims that meet another owner's claim in its scope,
and how the claims are listed shows in nothing but ties. -/

namespace AgentParty
namespace Conflicts

open Mentions (Text)

/-- `s` is one of the two scopes, and each of them is `s` or lies below it. -/
def Overlap (x y s : Text) : Prop :=
  (normalizeScope x ≠ [] ∧ normalizeScope y ≠ []) ∧
    (s = normalizeScope x ∨ s = normalizeScope y) ∧
    (s = normalizeScope x ∨ s ++ [SLASH] <+: normalizeScope x) ∧
    (s = normalizeScope y ∨ s ++ [SLASH] <+: normalizeScope y)

theorem Overlap.symm {x y s : Text} (h : Overlap x y s) : Overlap y x s :=
  ⟨h.1.symm, h.2.1.symm, h.2.2.2, h.2.2.1⟩

theorem below_asymm {p q : Text} (h : p ++ [SLASH] <+: q) : ¬ q ++ [SLASH] <+: p := fun h' => by
  have := h.length_le
  have := h'.length_le
  simp only [List.length_append, List.length_singleton] at *
  omega

theorem overlapScope_eq_some {x y s : Text} : overlapScope x y = some s ↔ Overlap x y s := by
  simp only [overlapScope, Overlap]
  generalize normalizeScope x = p
  generalize normalizeScope y = q
  by_cases hempty : p = [] ∨ q = []
  · rw [if_pos hempty]
    exact iff_of_false nofun fun h => hempty.elim h.1.1 h.1.2
  rw [if_neg hempty, and_iff_right (not_or.1 hempty)]
  by_cases heq : p = q
  · rw [if_pos heq, heq, Option.some_inj]
    exact ⟨fun h => by simp [h], fun h => h.1.elim Eq.symm Eq.symm⟩
  rw [if_neg heq]
  by_cases hright : q ++ [SLASH] <+: p
  · rw [if_pos hright, Option.some_inj]
    refine ⟨fun h => h ▸ ⟨Or.inr rfl, Or.inr hright, Or.inl rfl⟩, ?_⟩
    rintro ⟨rfl | rfl, -, hq⟩
    · exact (hq.elim heq (below_asymm hright)).elim
    · rfl
  rw [if_neg hright]
  by_cases hleft : p ++ [SLASH] <+: q
  · rw [if_pos hleft, Option.some_inj]
    refine ⟨fun h => h ▸ ⟨Or.inl rfl, Or.inl rfl, Or.inr hleft⟩, ?_⟩
    rintro ⟨rfl | rfl, hp, -⟩
    · rfl
    · exact (hp.elim (fun h => heq h.symm) hright).elim
  rw [if_neg hleft]
  refine iff_of_false nofun ?_
  rintro ⟨rfl | rfl, hp, hq⟩
  · exact hq.elim heq hleft
  · exact hp.elim (fun h => heq h.symm) hright

section Keys

variable {S : Type*}

theorem zero_notMem_decimal (n : ℕ) : 0 ∉ decimal n := by
  unfold decimal
  split_ifs <;> simp

theorem ofDigits_decimal (n : ℕ) :
    Nat.ofDigits 10 ((decimal n).reverse.map (· - 48)) = n := by
  unfold decimal
  split_ifs with hn
  · simp [hn]
  · have hback : (fun u => u - 48) ∘ (fun u => u + 48) = (id : ℕ → ℕ) :=
      funext fun u => Nat.add_sub_cancel u 48
    rw [List.reverse_reverse, List.map_map, hback, List.map_id, Nat.ofDigits_digits]

theorem decimal_injective {m n : ℕ} (h : decimal m = decimal n) : m = n := by
  rw [← ofDigits_decimal m, h, ofDigits_decimal]

/-- The number behind the last NUL tells the keys apart. -/
theorem seq_of_key {c c' : ConflictClaimSummary S} (h : c.key = c'.key) : c.seq = c'.seq := by
  have hlast (owner : Text) (n : ℕ) :
      (owner ++ 0 :: decimal n).reverse.takeWhile (fun u => u ≠ 0) = (decimal n).reverse := by
    rw [List.reverse_append, List.reverse_cons, List.append_assoc,
      List.takeWhile_append_of_pos fun u hu => ?_]
    · simp
    · have : u ∈ decimal n := List.mem_reverse.1 hu
      simpa using ne_of_mem_of_not_mem this (zero_notMem_decimal n)
  have := congrArg (fun l : Text => l.reverse.takeWhile fun u => u ≠ 0) h
  simp only [ConflictClaimSummary.key, hlast] at this
  exact decimal_injective (List.reverse_injective this)

end Keys

section Meeting

variable {S : Type*}

def Meets (a b : ClaimSummary S) (s : Text) : Prop :=
  ∃ x ∈ a.scope, ∃ y ∈ b.scope, Overlap x y s

theorem Meets.symm {a b : ClaimSummary S} {s : Text} (h : Meets a b s) : Meets b a s := by
  obtain ⟨x, hx, y, hy, hover⟩ := h
  exact ⟨y, hy, x, hx, hover.symm⟩

/-- Another owner's claim meets this one in `s`. -/
def Joined (claims : List (ClaimSummary S)) (a : ClaimSummary S) (s : Text) : Prop :=
  ∃ b ∈ claims, b.owner ≠ a.owner ∧ Meets a b s

/-- The group of `s` lists `c`. -/
def Groups.Has (groups : Groups S) (s : Text) (c : ConflictClaimSummary S) : Prop :=
  ∃ g ∈ groups, g.scope = s ∧ c ∈ g.claims

/-- Only claims of the list are recorded, and no group is empty. -/
structure Groups.Known (claims : List (ClaimSummary S)) (groups : Groups S) : Prop where
  claimed : ∀ s c, groups.Has s c → ∃ a ∈ claims, c = a.conflict
  filled : ∀ g ∈ groups, ∃ c, c ∈ g.claims

/-- What a part of the loops records. -/
structure Adds (claims : List (ClaimSummary S)) (F : Text → ConflictClaimSummary S → Prop)
    (groups groups' : Groups S) : Prop where
  known : groups'.Known claims
  has : ∀ s c, groups'.Has s c ↔ groups.Has s c ∨ F s c

variable {claims : List (ClaimSummary S)} {groups groups' : Groups S}
  {F : Text → ConflictClaimSummary S → Prop}

theorem Adds.refl (h : groups.Known claims) (hF : ∀ s c, ¬ F s c) : Adds claims F groups groups :=
  ⟨h, fun s c => by simp [hF]⟩

theorem Adds.congr {F' : Text → ConflictClaimSummary S → Prop} (h : Adds claims F groups groups')
    (hF : ∀ s c, F s c ↔ F' s c) : Adds claims F' groups groups' :=
  ⟨h.known, fun s c => by rw [h.has, hF]⟩

theorem Adds.foldl {β : Type*} {step : Groups S → β → Groups S}
    {F : β → Text → ConflictClaimSummary S → Prop} {l : List β}
    (h : ∀ groups, groups.Known claims → ∀ b ∈ l, Adds claims (F b) groups (step groups b))
    (hk : groups.Known claims) :
    Adds claims (fun s c => ∃ b ∈ l, F b s c) groups (l.foldl step groups) := by
  induction l generalizing groups with
  | nil => exact Adds.refl hk fun s c => by simp
  | cons b l ih =>
    have hb := h groups hk b List.mem_cons_self
    have hl := ih (fun groups hk b' hb' => h groups hk b' (List.mem_cons_of_mem _ hb')) hb.known
    refine ⟨hl.known, fun s c => ?_⟩
    rw [List.foldl_cons, hl.has, hb.has, List.exists_mem_cons_iff, or_assoc]

theorem mem_claimsOf {s : Text} {c : ConflictClaimSummary S} :
    c ∈ groups.claimsOf s ↔ groups.Has s c := by
  unfold Groups.claimsOf Groups.Has
  cases hget : groups.get? s with
  | none =>
    rw [Table.get?_eq_none] at hget
    refine iff_of_false (Table.not_mem_empty c) ?_
    rintro ⟨g, hg, rfl, -⟩
    exact hget g hg rfl
  | some g =>
    obtain ⟨hg, rfl⟩ := Table.get?_eq_some.1 hget
    refine ⟨fun hc => ⟨g, hg, rfl, hc⟩, ?_⟩
    rintro ⟨g', hg', hscope, hc⟩
    rwa [Table.eq_of_key hg' hg hscope] at hc

variable (hseq : (claims.map ClaimSummary.seq).Nodup)
include hseq

theorem eq_of_conflict_key {a b : ClaimSummary S} (ha : a ∈ claims) (hb : b ∈ claims)
    (h : a.conflict.key = b.conflict.key) : a = b :=
  List.inj_on_of_nodup_map hseq ha hb (seq_of_key h)

theorem record_adds {left right : ClaimSummary S} (hl : left ∈ claims) (hr : right ∈ claims)
    (hk : groups.Known claims) (s : Text) :
    Adds claims (fun s' c => s' = s ∧ (c = left.conflict ∨ c = right.conflict)) groups
      (groups.record left right s) := by
  have hput {t : Claims S} {a : ClaimSummary S} (ha : a ∈ claims)
      (ht : ∀ c ∈ t, ∃ b ∈ claims, c = b.conflict) {c : ConflictClaimSummary S} :
      c ∈ t.put a.conflict ↔ c = a.conflict ∨ c ∈ t := by
    rw [Table.mem_put]
    refine or_congr_right' fun hne => ⟨And.left, fun hc => ⟨hc, fun hkey => hne ?_⟩⟩
    obtain ⟨b, hb, rfl⟩ := ht c hc
    rw [eq_of_conflict_key hseq hb ha hkey]
  have hbefore : ∀ c ∈ groups.claimsOf s, ∃ b ∈ claims, c = b.conflict := fun c hc =>
    hk.claimed s c (mem_claimsOf.1 hc)
  have hleft : ∀ c ∈ (groups.claimsOf s).put left.conflict, ∃ b ∈ claims, c = b.conflict :=
    fun c hc => ((hput hl hbefore).1 hc).elim (fun h => ⟨left, hl, h⟩) (hbefore c)
  have hhas (s' : Text) (c : ConflictClaimSummary S) : (groups.record left right s).Has s' c ↔
      groups.Has s' c ∨ s' = s ∧ (c = left.conflict ∨ c = right.conflict) := by
    rw [← mem_claimsOf, ← mem_claimsOf, Groups.record, Groups.claimsOf, Table.get?_put]
    by_cases hs : s' = s
    · subst hs
      rw [if_pos rfl, Option.map_some, Option.getD_some, hput hr hleft, hput hl hbefore]
      tauto
    · rw [if_neg hs]
      simp only [hs, false_and, or_false]
      rfl
  refine ⟨⟨fun s' c hc => ?_, fun g hg => ?_⟩, hhas⟩
  · rcases (hhas s' c).1 hc with hc | ⟨-, rfl | rfl⟩
    · exact hk.claimed s' c hc
    · exact ⟨left, hl, rfl⟩
    · exact ⟨right, hr, rfl⟩
  · rcases Table.mem_put.1 hg with rfl | ⟨hg, -⟩
    · exact ⟨right.conflict, Table.mem_put.2 (Or.inl rfl)⟩
    · exact hk.filled g hg

theorem compareScopes_adds {left right : ClaimSummary S} (hl : left ∈ claims)
    (hr : right ∈ claims) (hk : groups.Known claims) (x y : Text) :
    Adds claims (fun s c => Overlap x y s ∧ (c = left.conflict ∨ c = right.conflict)) groups
      (groups.compareScopes left right x y) := by
  unfold Groups.compareScopes
  cases hover : overlapScope x y with
  | none =>
    refine Adds.refl hk fun s c h => ?_
    rw [← overlapScope_eq_some, hover] at h
    cases h.1
  | some s =>
    refine (record_adds hseq hl hr hk s).congr fun s' c => and_congr_left' ?_
    rw [← overlapScope_eq_some, hover, Option.some_inj, eq_comm]

theorem compare_adds {left right : ClaimSummary S} (hl : left ∈ claims) (hr : right ∈ claims)
    (hk : groups.Known claims) :
    Adds claims (fun s c => right.owner ≠ left.owner ∧ Meets left right s ∧
      (c = left.conflict ∨ c = right.conflict)) groups (groups.compare left right) := by
  unfold Groups.compare
  by_cases howner : left.owner = right.owner
  · rw [if_pos howner]
    exact Adds.refl hk fun s c h => h.1 howner.symm
  · rw [if_neg howner]
    refine (Adds.foldl (fun groups hk x _ => Adds.foldl (fun groups hk y _ =>
      compareScopes_adds hseq hl hr hk x y) hk) hk).congr fun s c => ?_
    rw [and_iff_right (Ne.symm howner)]
    constructor
    · rintro ⟨x, hx, y, hy, hover, hc⟩
      exact ⟨⟨x, hx, y, hy, hover⟩, hc⟩
    · rintro ⟨⟨x, hx, y, hy, hover⟩, hc⟩
      exact ⟨x, hx, y, hy, hover, hc⟩

/-- The loops record every claim in the scopes in which it is joined. -/
theorem conflictGroups_adds {l : List (ClaimSummary S)} (hl : ∀ a ∈ l, a ∈ claims)
    (hk : groups.Known claims) :
    Adds claims (fun s c => ∃ a ∈ l, c = a.conflict ∧ Joined l a s) groups
      (conflictGroups groups l) := by
  induction l generalizing groups with
  | nil => exact Adds.refl hk fun s c => by simp
  | cons left rest ih =>
    have hleft := hl left List.mem_cons_self
    have hrest : ∀ a ∈ rest, a ∈ claims := fun a ha => hl a (List.mem_cons_of_mem _ ha)
    have hfold := Adds.foldl (l := rest)
      (fun (groups : Groups S) hk right hr => compare_adds hseq hleft (hrest right hr) hk) hk
    have htail := ih hrest hfold.known
    refine ⟨htail.known, fun s c => ?_⟩
    rw [conflictGroups, htail.has, hfold.has, or_assoc]
    refine or_congr_right ⟨?_, ?_⟩
    · rintro (⟨right, hr, howner, hmeets, rfl | rfl⟩ | ⟨a, ha, rfl, b, hb, hj⟩)
      · exact ⟨left, by simp, rfl, right, by simp [hr], howner, hmeets⟩
      · exact ⟨right, by simp [hr], rfl, left, by simp, howner.symm, hmeets.symm⟩
      · exact ⟨a, by simp [ha], rfl, b, by simp [hb], hj⟩
    · rintro ⟨a, ha, rfl, b, hb, howner, hmeets⟩
      rcases List.mem_cons.1 ha with hal | ha'
      · rcases List.mem_cons.1 hb with hbl | hb'
        · exact absurd (by rw [hal, hbl]) howner
        · exact Or.inl ⟨b, hb', hal ▸ howner, hal ▸ hmeets, Or.inl (by rw [hal])⟩
      · rcases List.mem_cons.1 hb with hbl | hb'
        · exact Or.inl ⟨a, ha', hbl ▸ howner.symm, hbl ▸ hmeets.symm, Or.inr rfl⟩
        · exact Or.inr ⟨a, ha', rfl, b, hb', howner, hmeets⟩

theorem has_conflictGroups {s : Text} {c : ConflictClaimSummary S} :
    (conflictGroups Table.empty claims).Has s c ↔
      ∃ a ∈ claims, c = a.conflict ∧ Joined claims a s := by
  have hempty (s : Text) (c : ConflictClaimSummary S) :
      ¬ Groups.Has (Table.empty : Groups S) s c := by
    rintro ⟨g, hg, -⟩
    exact Table.not_mem_empty g hg
  have hknown : Groups.Known claims (Table.empty : Groups S) :=
    ⟨fun s c h => (hempty s c h).elim, fun g hg => (Table.not_mem_empty g hg).elim⟩
  rw [(conflictGroups_adds hseq (fun a ha => ha) hknown).has, or_iff_right (hempty s c)]

theorem conflictGroups_filled : ∀ g ∈ conflictGroups Table.empty claims, ∃ c, c ∈ g.claims :=
  (conflictGroups_adds hseq (fun _ ha => ha) ⟨fun _ _ ⟨g, hg, _⟩ =>
    (Table.not_mem_empty g hg).elim, fun g hg => (Table.not_mem_empty g hg).elim⟩).known.filled

end Meeting

section Report

variable {S : Type*} {L : Collation} {claims claims' : List (ClaimSummary S)}
  {g g' : ConflictSummary S}

theorem mem_summarizeConflicts : g ∈ summarizeConflicts L claims ↔
    ∃ group ∈ conflictGroups Table.empty claims, g = summarizeGroup L group := by
  rw [summarizeConflicts, (Collation.sortBy_perm _ _).mem_iff, List.mem_map]
  simp only [Table.mem_def, eq_comm]

theorem mem_summarizeGroup {group : Group S} {c : ConflictClaimSummary S} :
    c ∈ (summarizeGroup L group).claims ↔ c ∈ group.claims :=
  List.mem_insertionSort _

theorem scopes_nodup : ((summarizeConflicts L claims).map ConflictSummary.scope).Nodup := by
  have hscopes : ((conflictGroups Table.empty claims).rows.map (summarizeGroup L)).map
      ConflictSummary.scope = (conflictGroups Table.empty claims).rows.map Group.scope := by
    rw [List.map_map]
    rfl
  refine ((Collation.sortBy_perm _ _).map _).nodup_iff.2 ?_
  rw [hscopes]
  exact (conflictGroups Table.empty claims).nodup

theorem eq_of_scope (hg : g ∈ summarizeConflicts L claims)
    (hg' : g' ∈ summarizeConflicts L claims) (h : g.scope = g'.scope) : g = g' :=
  List.inj_on_of_nodup_map scopes_nodup hg hg' h

theorem owners_eq (hg : g ∈ summarizeConflicts L claims) : g.owners =
    (g.claims.map fun c => c.owner).eraseDups.insertionSort (· ≤ ·) := by
  obtain ⟨group, -, rfl⟩ := mem_summarizeConflicts.1 hg
  rfl

theorem mem_owners (hg : g ∈ summarizeConflicts L claims) {o : Text} :
    o ∈ g.owners ↔ ∃ c ∈ g.claims, c.owner = o := by
  rw [owners_eq hg, List.mem_insertionSort, List.mem_eraseDups, List.mem_map]

theorem owners_nodup (hg : g ∈ summarizeConflicts L claims) : g.owners.Nodup := by
  rw [owners_eq hg, (List.perm_insertionSort _ _).nodup_iff]
  exact List.nodup_eraseDups _

variable (hseq : (claims.map ClaimSummary.seq).Nodup)
include hseq

theorem mem_claims_iff {s : Text} {c : ConflictClaimSummary S} :
    (∃ g ∈ summarizeConflicts L claims, g.scope = s ∧ c ∈ g.claims) ↔
      ∃ a ∈ claims, c = a.conflict ∧ Joined claims a s := by
  rw [← has_conflictGroups hseq]
  constructor
  · rintro ⟨g, hg, rfl, hc⟩
    obtain ⟨group, hgroup, rfl⟩ := mem_summarizeConflicts.1 hg
    exact ⟨group, hgroup, rfl, mem_summarizeGroup.1 hc⟩
  · rintro ⟨group, hgroup, rfl, hc⟩
    exact ⟨_, mem_summarizeConflicts.2 ⟨group, hgroup, rfl⟩, rfl, mem_summarizeGroup.2 hc⟩

theorem mem_claims (hg : g ∈ summarizeConflicts L claims) {c : ConflictClaimSummary S} :
    c ∈ g.claims ↔ ∃ a ∈ claims, c = a.conflict ∧ Joined claims a g.scope := by
  rw [← mem_claims_iff (L := L) hseq]
  refine ⟨fun hc => ⟨g, hg, rfl, hc⟩, ?_⟩
  rintro ⟨g', hg', hscope, hc⟩
  rwa [eq_of_scope hg' hg hscope] at hc

/-- The claims of a group come newest first. -/
theorem claims_sorted (hg : g ∈ summarizeConflicts L claims) :
    g.claims.Pairwise fun c c' => c'.seq < c.seq := by
  obtain ⟨group, hgroup, rfl⟩ := mem_summarizeConflicts.1 hg
  have : Std.Total (claimOrder (S := S) L) := ⟨fun c c' => by
    rcases lt_trichotomy c.seq c'.seq with h | h | h
    · exact Or.inr (Or.inl h)
    · exact (Collation.total c.owner c'.owner).imp (fun ho => Or.inr ⟨h.symm, ho⟩)
        fun ho => Or.inr ⟨h, ho⟩
    · exact Or.inl (Or.inl h)⟩
  have : IsTrans _ (claimOrder (S := S) L) := ⟨fun c c' c'' h h' => by
    rcases h with h | ⟨h, ho⟩
    · exact Or.inl (h'.elim (fun h' => h'.trans h) fun h' => h'.1 ▸ h)
    · rcases h' with h' | ⟨h', ho'⟩
      · exact Or.inl (h ▸ h')
      · exact Or.inr ⟨h'.trans h, L.trans _ _ _ ho ho'⟩⟩
  have hsorted : (summarizeGroup L group).claims.Pairwise (claimOrder L) :=
    List.pairwise_insertionSort _ _
  have hkeys : (summarizeGroup L group).claims.Pairwise fun c c' => c.key ≠ c'.key := by
    refine List.pairwise_map.1 ?_
    exact ((List.perm_insertionSort _ _).map _).nodup_iff.2 group.claims.nodup
  refine (hsorted.and hkeys).imp_of_mem fun {c c'} hc hc' h => ?_
  rcases h.1 with hlt | ⟨heq, -⟩
  · exact hlt
  · obtain ⟨a, ha, rfl, -⟩ := (mem_claims hseq hg).1 hc
    obtain ⟨a', ha', rfl, -⟩ := (mem_claims hseq hg).1 hc'
    have : a' = a := List.inj_on_of_nodup_map hseq ha' ha heq
    exact absurd (by rw [this]) h.2

theorem exists_joined (hg : g ∈ summarizeConflicts L claims) :
    ∃ a ∈ claims, ∃ b ∈ claims, a.owner ≠ b.owner ∧ a.conflict ∈ g.claims ∧
      b.conflict ∈ g.claims := by
  obtain ⟨group, hgroup, rfl⟩ := mem_summarizeConflicts.1 hg
  obtain ⟨c, hc⟩ := conflictGroups_filled hseq group hgroup
  obtain ⟨a, ha, -, b, hb, howner, hmeets⟩ :=
    (mem_claims hseq hg).1 ((mem_summarizeGroup (L := L)).2 hc)
  exact ⟨a, ha, b, hb, howner.symm,
    (mem_claims hseq hg).2 ⟨a, ha, rfl, b, hb, howner, hmeets⟩,
    (mem_claims hseq hg).2 ⟨b, hb, rfl, a, ha, howner.symm, hmeets.symm⟩⟩

end Report

section Order

variable {S : Type*} {L : Collation} {claims claims' : List (ClaimSummary S)}
  {f : ConflictClaimSummary S → ConflictClaimSummary S}

/-- The group with `f` applied to its claims. -/
def ConflictSummary.relabel (f : ConflictClaimSummary S → ConflictClaimSummary S)
    (g : ConflictSummary S) : ConflictSummary S :=
  { g with claims := g.claims.map f }

/-- A claim for each, that `f` does not tell apart and that has the same scopes. -/
def Covers (f : ConflictClaimSummary S → ConflictClaimSummary S)
    (claims claims' : List (ClaimSummary S)) : Prop :=
  ∀ a ∈ claims, ∃ a' ∈ claims', f a'.conflict = f a.conflict ∧ ∀ x, x ∈ a'.scope ↔ x ∈ a.scope

variable (hfseq : ∀ c, (f c).seq = c.seq) (hfowner : ∀ c, (f c).owner = c.owner)

include hfowner in
theorem Covers.joined (h : Covers f claims claims') {a : ClaimSummary S} {s : Text}
    (ha : a ∈ claims) (hj : Joined claims a s) :
    ∃ a' ∈ claims', f a'.conflict = f a.conflict ∧ Joined claims' a' s := by
  obtain ⟨b, hb, howner, x, hx, y, hy, hover⟩ := hj
  obtain ⟨a', ha', hfa, hsa⟩ := h a ha
  obtain ⟨b', hb', hfb, hsb⟩ := h b hb
  have howners {c c' : ClaimSummary S} (h : f c'.conflict = f c.conflict) : c'.owner = c.owner :=
    (hfowner c'.conflict).symm.trans ((congrArg (fun c => c.owner) h).trans (hfowner c.conflict))
  refine ⟨a', ha', hfa, b', hb', ?_, x, (hsa x).2 hx, y, (hsb y).2 hy, hover⟩
  rwa [howners hfb, howners hfa]

variable (hseq : (claims.map ClaimSummary.seq).Nodup)
  (hseq' : (claims'.map ClaimSummary.seq).Nodup) (h : Covers f claims claims')
  (h' : Covers f claims' claims)
include hfseq hfowner hseq hseq' h h'

theorem relabel_claims {g g' : ConflictSummary S} (hg : g ∈ summarizeConflicts L claims)
    (hg' : g' ∈ summarizeConflicts L claims') (hscope : g'.scope = g.scope) :
    g'.claims.map f = g.claims.map f := by
  have hsorted {claims : List (ClaimSummary S)} {g : ConflictSummary S}
      (hseq : (claims.map ClaimSummary.seq).Nodup) (hg : g ∈ summarizeConflicts L claims) :
      (g.claims.map f).Pairwise fun c c' => c'.seq < c.seq := by
    refine List.pairwise_map.2 ((claims_sorted hseq hg).imp fun hlt => ?_)
    rwa [hfseq, hfseq]
  have hmem (c : ConflictClaimSummary S) : c ∈ g'.claims.map f ↔ c ∈ g.claims.map f := by
    simp only [List.mem_map, mem_claims hseq hg, mem_claims hseq' hg', hscope]
    constructor
    · rintro ⟨_, ⟨a', ha', rfl, hj⟩, rfl⟩
      obtain ⟨a, ha, hfa, hj⟩ := h'.joined hfowner ha' hj
      exact ⟨_, ⟨a, ha, rfl, hj⟩, hfa⟩
    · rintro ⟨_, ⟨a, ha, rfl, hj⟩, rfl⟩
      obtain ⟨a', ha', hfa, hj⟩ := h.joined hfowner ha hj
      exact ⟨_, ⟨a', ha', rfl, hj⟩, hfa⟩
  have hnodup {l : List (ConflictClaimSummary S)}
      (h : l.Pairwise fun c c' => c'.seq < c.seq) : l.Nodup :=
    h.imp fun {c c'} hlt (heq : c = c') => lt_irrefl c.seq (heq ▸ hlt)
  refine ((List.perm_ext_iff_of_nodup (hnodup (hsorted hseq' hg')) (hnodup (hsorted hseq hg))).2
    hmem).eq_of_pairwise (fun a b _ _ hab hba => ?_) (hsorted hseq' hg') (hsorted hseq hg)
  exact absurd hab (lt_asymm hba)

theorem exists_relabel {g : ConflictSummary S} (hg : g ∈ summarizeConflicts L claims) :
    ∃ g' ∈ summarizeConflicts L claims', g'.relabel f = g.relabel f := by
  obtain ⟨a, ha, -, -, -, hac, -⟩ := exists_joined hseq hg
  obtain ⟨-, hj⟩ : a.conflict = a.conflict ∧ Joined claims a g.scope := by
    obtain ⟨b, hb, hbc, hj⟩ := (mem_claims hseq hg).1 hac
    have : a = b := List.inj_on_of_nodup_map hseq ha hb (congrArg (fun c => c.seq) hbc)
    exact ⟨rfl, this ▸ hj⟩
  obtain ⟨a', ha', -, hj'⟩ := h.joined hfowner ha hj
  obtain ⟨g', hg', hscope, -⟩ := (mem_claims_iff (L := L) hseq').2 ⟨a', ha', rfl, hj'⟩
  have hclaims := relabel_claims hfseq hfowner hseq hseq' h h' hg hg' hscope
  have howners : g'.owners = g.owners := by
    have hmap (l : List (ConflictClaimSummary S)) :
        l.map (fun c => c.owner) = (l.map f).map fun c => c.owner := by
      rw [List.map_map]
      exact List.map_congr_left fun c _ => (hfowner c).symm
    rw [owners_eq hg, owners_eq hg', hmap, hclaims, ← hmap]
  refine ⟨g', hg', ?_⟩
  simp only [ConflictSummary.relabel, hscope, howners, hclaims]

theorem relabel_perm : ((summarizeConflicts L claims).map (ConflictSummary.relabel f)).Perm
    ((summarizeConflicts L claims').map (ConflictSummary.relabel f)) := by
  have hnodup (claims : List (ClaimSummary S)) :
      ((summarizeConflicts L claims).map (ConflictSummary.relabel f)).Nodup := by
    refine List.Nodup.of_map ConflictSummary.scope ?_
    rw [List.map_map]
    exact scopes_nodup
  refine (List.perm_ext_iff_of_nodup (hnodup _) (hnodup _)).2 fun g => ?_
  simp only [List.mem_map]
  constructor
  · rintro ⟨g, hg, rfl⟩
    exact exists_relabel hfseq hfowner hseq hseq' h h' hg
  · rintro ⟨g, hg, rfl⟩
    exact exists_relabel hfseq hfowner hseq' hseq h' h hg

/-- Where `localeCompare` tells the scopes apart, the groups come in the same order. -/
theorem relabel_eq (hsep : L.Separates ((summarizeConflicts L claims).map ConflictSummary.scope)) :
    (summarizeConflicts L claims).map (ConflictSummary.relabel f) =
      (summarizeConflicts L claims').map (ConflictSummary.relabel f) := by
  have hsorted (claims : List (ClaimSummary S)) :
      ((summarizeConflicts L claims).map (ConflictSummary.relabel f)).Pairwise fun g g' =>
        L.localeCompare g.scope g'.scope ≤ 0 :=
    List.pairwise_map.2 (Collation.pairwise_sortBy _ _)
  have hperm := relabel_perm (L := L) hfseq hfowner hseq hseq' h h'
  refine hperm.eq_of_pairwise (fun a b ha hb hab hba => ?_) (hsorted _) (hsorted _)
  obtain ⟨g, hg, rfl⟩ := List.mem_map.1 ha
  obtain ⟨g', hg', rfl⟩ := List.mem_map.1 (hperm.mem_iff.2 hb)
  have hscope : g.scope = g'.scope :=
    hsep _ (List.mem_map_of_mem hg) _ (List.mem_map_of_mem hg')
      (le_antisymm hab ((L.swap _ _).1 hba))
  rw [eq_of_scope hg hg' hscope]

end Order

section Main

variable {S : Type*}

/-- The scopes of each claim in another order. -/
def ScopesPermuted (claims claims' : List (ClaimSummary S)) : Prop :=
  List.Forall₂ (fun a a' => a' = { a with scope := a'.scope } ∧ a.scope.Perm a'.scope)
    claims claims'

def ConflictClaimSummary.withoutScope (c : ConflictClaimSummary S) : ConflictClaimSummary S :=
  { c with scope := [] }

/-- The group without the scopes that its claims echo. -/
abbrev ConflictSummary.withoutScopes (g : ConflictSummary S) : ConflictSummary S :=
  g.relabel ConflictClaimSummary.withoutScope

theorem ScopesPermuted.seq_eq {claims claims' : List (ClaimSummary S)}
    (h : ScopesPermuted claims claims') :
    claims'.map ClaimSummary.seq = claims.map ClaimSummary.seq := by
  induction h with
  | nil => rfl
  | @cons a a' claims claims' hhead _ ih =>
    have : a'.seq = a.seq := by rw [hhead.1]
    rw [List.map_cons, List.map_cons, ih, this]

theorem ScopesPermuted.covers {claims claims' : List (ClaimSummary S)}
    (h : ScopesPermuted claims claims') :
    Covers ConflictClaimSummary.withoutScope claims claims' ∧
      Covers ConflictClaimSummary.withoutScope claims' claims := by
  have hboth {a a' : ClaimSummary S}
      (h : a' = { a with scope := a'.scope } ∧ a.scope.Perm a'.scope) :
      a'.conflict.withoutScope = a.conflict.withoutScope ∧ ∀ x, x ∈ a'.scope ↔ x ∈ a.scope := by
    refine ⟨?_, fun x => h.2.symm.mem_iff⟩
    rw [h.1]
    rfl
  induction h with
  | nil => exact ⟨nofun, nofun⟩
  | @cons a a' claims claims' hhead _ ih =>
    obtain ⟨hfwd, hback⟩ := hboth hhead
    constructor
    · intro b hb
      rcases List.mem_cons.1 hb with rfl | hb
      · exact ⟨a', List.mem_cons_self, hfwd, hback⟩
      · obtain ⟨b', hb', h⟩ := ih.1 b hb
        exact ⟨b', List.mem_cons_of_mem _ hb', h⟩
    · intro b hb
      rcases List.mem_cons.1 hb with rfl | hb
      · exact ⟨a, List.mem_cons_self, hfwd.symm, fun x => (hback x).symm⟩
      · obtain ⟨b', hb', h⟩ := ih.2 b hb
        exact ⟨b', List.mem_cons_of_mem _ hb', h⟩

theorem covers_of_perm {claims claims' : List (ClaimSummary S)} (h : claims.Perm claims')
    (f : ConflictClaimSummary S → ConflictClaimSummary S) : Covers f claims claims' :=
  fun a ha => ⟨a, h.mem_iff.1 ha, rfl, fun _ => Iff.rfl⟩

theorem map_relabel_id (l : List (ConflictSummary S)) : l.map (ConflictSummary.relabel id) = l := by
  have : ConflictSummary.relabel (S := S) id = id :=
    funext fun g => by simp [ConflictSummary.relabel]
  rw [this, List.map_id]

/-- The report is sound and complete, each group lists its claims once and their owners, and the
order of the claims shows only in that of scopes that `localeCompare` finds equal; the order of a
claim's scopes also in what the report echoes of the claim. -/
theorem conflicts_sound_complete (L : Collation) (claims : List (ClaimSummary S))
    (hseq : (claims.map ClaimSummary.seq).Nodup) :
    (∀ s, ∀ a ∈ claims, ∀ b ∈ claims, a.owner ≠ b.owner →
      ((∃ g ∈ summarizeConflicts L claims, g.scope = s ∧ a.conflict ∈ g.claims ∧
        b.conflict ∈ g.claims) ↔ Meets a b s ∨ Joined claims a s ∧ Joined claims b s)) ∧
    (∀ g ∈ summarizeConflicts L claims, g.claims.Nodup ∧
      (∀ c ∈ g.claims, ∃ a ∈ claims, c = a.conflict ∧ Joined claims a g.scope) ∧
      (∀ o, o ∈ g.owners ↔ ∃ c ∈ g.claims, c.owner = o) ∧ g.owners.Nodup ∧ 2 ≤ g.owners.length) ∧
    ((summarizeConflicts L claims).map ConflictSummary.scope).Nodup ∧
    (∀ claims', claims.Perm claims' →
      (summarizeConflicts L claims).Perm (summarizeConflicts L claims') ∧
      (L.Separates ((summarizeConflicts L claims).map ConflictSummary.scope) →
        summarizeConflicts L claims = summarizeConflicts L claims')) ∧
    ∀ claims', ScopesPermuted claims claims' →
      ((summarizeConflicts L claims).map ConflictSummary.withoutScopes).Perm
        ((summarizeConflicts L claims').map ConflictSummary.withoutScopes) ∧
      (L.Separates ((summarizeConflicts L claims).map ConflictSummary.scope) →
        (summarizeConflicts L claims).map ConflictSummary.withoutScopes =
          (summarizeConflicts L claims').map ConflictSummary.withoutScopes) := by
  refine ⟨fun s a ha b hb howner => ?_, fun g hg => ?_, scopes_nodup, fun claims' h => ?_,
    fun claims' h => ?_⟩
  · have heq {a b : ClaimSummary S} (ha : a ∈ claims) (hb : b ∈ claims)
        (h : a.conflict = b.conflict) : a = b :=
      List.inj_on_of_nodup_map hseq ha hb (congrArg (fun c => c.seq) h)
    constructor
    · rintro ⟨g, hg, rfl, hac, hbc⟩
      obtain ⟨a', ha', haeq, hja⟩ := (mem_claims hseq hg).1 hac
      obtain ⟨b', hb', hbeq, hjb⟩ := (mem_claims hseq hg).1 hbc
      exact Or.inr ⟨heq ha ha' haeq ▸ hja, heq hb hb' hbeq ▸ hjb⟩
    · intro h
      obtain ⟨hja, hjb⟩ : Joined claims a s ∧ Joined claims b s := by
        rcases h with h | h
        · exact ⟨⟨b, hb, howner.symm, h⟩, ⟨a, ha, howner, h.symm⟩⟩
        · exact h
      obtain ⟨g, hg, rfl, hac⟩ := (mem_claims_iff (L := L) hseq).2 ⟨a, ha, rfl, hja⟩
      exact ⟨g, hg, rfl, hac, (mem_claims hseq hg).2 ⟨b, hb, rfl, hjb⟩⟩
  · refine ⟨?_, fun c hc => (mem_claims hseq hg).1 hc, fun o => mem_owners hg, owners_nodup hg, ?_⟩
    · exact (claims_sorted hseq hg).imp fun {c c'} hlt (heq : c = c') =>
        lt_irrefl c.seq (heq ▸ hlt)
    · obtain ⟨a, -, b, -, howner, hac, hbc⟩ := exists_joined hseq hg
      have hsub : [a.owner, b.owner] ⊆ g.owners := by
        intro o ho
        rcases List.mem_pair.1 ho with rfl | rfl
        · exact (mem_owners hg).2 ⟨_, hac, rfl⟩
        · exact (mem_owners hg).2 ⟨_, hbc, rfl⟩
      exact ((List.nodup_cons.2 ⟨by simpa using howner, List.nodup_singleton _⟩).subperm
        hsub).length_le
  · have hseq' := (h.map ClaimSummary.seq).nodup_iff.1 hseq
    have hfwd := covers_of_perm h id
    have hback := covers_of_perm h.symm id
    have hperm := relabel_perm (L := L) (f := id) (fun _ => rfl) (fun _ => rfl) hseq hseq' hfwd hback
    have heq := relabel_eq (L := L) (f := id) (fun _ => rfl) (fun _ => rfl) hseq hseq' hfwd hback
    rw [map_relabel_id, map_relabel_id] at hperm heq
    exact ⟨hperm, heq⟩
  · have hseq' : (claims'.map ClaimSummary.seq).Nodup := h.seq_eq ▸ hseq
    obtain ⟨hfwd, hback⟩ := h.covers
    exact ⟨relabel_perm (fun _ => rfl) (fun _ => rfl) hseq hseq' hfwd hback,
      relabel_eq (fun _ => rfl) (fun _ => rfl) hseq hseq' hfwd hback⟩

def sampleClaim (seq owner : ℕ) (scope : List Text) : ClaimSummary Unit :=
  ⟨seq, some seq, [owner], (), scope⟩

/-- `s/` and `t` of one owner, `s/t` of another. -/
def nestedClaims : List (ClaimSummary Unit) :=
  [sampleClaim 1 97 [[115, 47], [116]], sampleClaim 2 98 [[115, 47, 116]]]

theorem conflicts_sound_complete_nested :
    ((summarizeConflicts Mentions.latin.collation nestedClaims).map fun g =>
        (g.scope, g.owners, g.claims.map fun c => c.seq)) =
        [([115], [[97], [98]], [2, 1])] ∧
      (summarizeConflicts Mentions.latin.collation nestedClaims).Perm
        (summarizeConflicts Mentions.latin.collation nestedClaims.reverse) :=
  ⟨by decide, ((conflicts_sound_complete Mentions.latin.collation nestedClaims
    (by decide)).2.2.2.1 _ (List.reverse_perm _).symm).1⟩

/-- Two pairs of claims in scopes that are written differently and read the same, `é`. -/
def acuteClaims : List (ClaimSummary Unit) × List (ClaimSummary Unit) :=
  ([sampleClaim 1 97 [[0xe9]], sampleClaim 2 98 [[0xe9]]],
    [sampleClaim 3 97 [[0x65, 0x301]], sampleClaim 4 98 [[0x65, 0x301]]])

/-- The order of the claims shows in that of the groups, and the order of a claim's scopes in what
a group echoes of the claim. -/
theorem report_follows_order :
    (¬ ∀ (L : Collation) (claims claims' : List (ClaimSummary Unit)),
      (claims.map ClaimSummary.seq).Nodup → claims.Perm claims' →
      summarizeConflicts L claims = summarizeConflicts L claims') ∧
    ¬ ∀ (L : Collation) (claims claims' : List (ClaimSummary Unit)),
      (claims.map ClaimSummary.seq).Nodup → ScopesPermuted claims claims' →
      summarizeConflicts L claims = summarizeConflicts L claims' := by
  constructor
  · intro hclaim
    have h := hclaim Mentions.latin.collation (acuteClaims.1 ++ acuteClaims.2) _ (by decide)
      List.perm_append_comm
    exact absurd h (by decide)
  · intro hclaim
    have hswap : ScopesPermuted
        [sampleClaim 1 97 [[115], [116]], sampleClaim 2 98 [[115]]]
        [sampleClaim 1 97 [[116], [115]], sampleClaim 2 98 [[115]]] :=
      .cons ⟨rfl, List.Perm.swap _ _ _⟩ (.cons ⟨rfl, List.Perm.refl _⟩ .nil)
    exact absurd (hclaim Mentions.latin.collation _ _ (by decide) hswap) (by decide)

end Main

end Conflicts
end AgentParty
