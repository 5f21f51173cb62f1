import AgentParty.Shared.Aliases
import Mathlib.Data.List.Lex

/-! The answer of `resolveMentionToken`: the classes of matches in their order, and that only which
aliases there are matters, not how they are listed. -/

namespace AgentParty
namespace Mentions

inductive MatchClass
  | exactStrong
  | exactDisplay
  | prefixStrong
  | prefixDisplay
  deriving DecidableEq

namespace MatchClass

def order : List MatchClass := [exactStrong, exactDisplay, prefixStrong, prefixDisplay]

def rank : MatchClass → ℕ
  | exactStrong => 0
  | exactDisplay => 1
  | prefixStrong => 2
  | prefixDisplay => 3

end MatchClass

variable (U : Unicode) (value : Text)

/-- How an alias matches in a class. -/
def classMatch (entry : MentionAlias) : MatchClass → Option MentionAliasMatch
  | .exactStrong =>
    if mentionMatchKey U entry.aliasName = mentionMatchKey U value ∧ entry.kind ≠ .display then
      some ⟨entry, value.length⟩
    else none
  | .exactDisplay =>
    if mentionMatchKey U entry.aliasName = mentionMatchKey U value ∧ entry.kind = .display then
      some ⟨entry, value.length⟩
    else none
  | .prefixStrong => if entry.kind ≠ .display then prefixMatch U value entry else none
  | .prefixDisplay => if entry.kind = .display then prefixMatch U value entry else none

def found (aliases : List MentionAlias) (c : MatchClass) : List MentionAliasMatch :=
  aliases.filterMap fun entry => classMatch U value entry c

/-- The first class with a match. -/
structure Best (aliases : List MentionAlias) (c : MatchClass) : Prop where
  found : found U value aliases c ≠ []
  first : ∀ c', c'.rank < c.rank → Mentions.found U value aliases c' = []

section Classes

variable {U value}

theorem prefixMatch_cases {entry : MentionAlias} {m : MentionAliasMatch}
    (h : prefixMatch U value entry = some m) : ∃ stop,
      originalPrefixEnd U value (mentionMatchKey U entry.aliasName) = some stop ∧
        m = ⟨entry, stop⟩ := by
  simp only [prefixMatch] at h
  split at h
  · cases h
  · cases hstop : originalPrefixEnd U value (mentionMatchKey U entry.aliasName) with
    | none =>
      rw [hstop] at h
      cases h
    | some stop =>
      simp only [hstop] at h
      split_ifs at h
      exact ⟨stop, rfl, (Option.some.inj h).symm⟩

theorem prefixMatch_entry {entry : MentionAlias} {m : MentionAliasMatch}
    (h : prefixMatch U value entry = some m) : m.entry = entry := by
  obtain ⟨stop, -, rfl⟩ := prefixMatch_cases h
  rfl

theorem filter_prefixMatch (entry : MentionAlias) (p : MentionAlias → Bool) :
    (prefixMatch U value entry).filter (fun m => p m.entry) =
      if p entry then prefixMatch U value entry else none := by
  cases hm : prefixMatch U value entry with
  | none => simp
  | some m => simp [Option.filter, prefixMatch_entry hm]

theorem filter_exact (aliases : List MentionAlias) (p : MentionAlias → Bool) :
    (((aliases.filter fun entry => mentionMatchKey U entry.aliasName = mentionMatchKey U value).map
      fun entry => MentionAliasMatch.mk entry value.length).filter fun m => p m.entry) =
      aliases.filterMap fun entry =>
        if mentionMatchKey U entry.aliasName = mentionMatchKey U value ∧ p entry then
          some ⟨entry, value.length⟩
        else none := by
  induction aliases with
  | nil => rfl
  | cons entry aliases ih =>
    by_cases hkey : mentionMatchKey U entry.aliasName = mentionMatchKey U value
    · cases hp : p entry <;> simp [hkey, hp, ih]
    · simp [hkey, ih]

theorem filter_prefixes (aliases : List MentionAlias) (p : MentionAlias → Bool) :
    ((aliases.filterMap (prefixMatch U value)).filter fun m => p m.entry) =
      aliases.filterMap fun entry => if p entry then prefixMatch U value entry else none := by
  rw [List.filter_filterMap]
  simp only [filter_prefixMatch]

/-- The four branches look for the first class with a match. -/
theorem resolveMentionToken_eq (aliases : List MentionAlias) :
    resolveMentionToken U value aliases =
      (MatchClass.order.findSome? fun c => finish U (found U value aliases c)).getD .unknown := by
  have hexact := @filter_exact U value aliases
  have hprefixes := @filter_prefixes U value aliases
  have h₁ := hexact fun entry => !decide (entry.kind = .display)
  have h₂ := hexact fun entry => decide (entry.kind = .display)
  have h₃ := hprefixes fun entry => !decide (entry.kind = .display)
  have h₄ := hprefixes fun entry => decide (entry.kind = .display)
  simp only [Bool.not_eq_true', decide_eq_false_iff_not, decide_eq_true_eq] at h₁ h₂ h₃ h₄
  simp only [resolveMentionToken, MentionAliasMatch.isDisplay, h₁, h₂, h₃, h₄]
  simp only [MatchClass.order, List.findSome?_cons, List.findSome?_nil, found, classMatch, ne_eq]
  split
  · rename_i h
    simp only [h, Option.getD_some]
  · rename_i hstrong
    split
    · rename_i h
      simp only [hstrong, h, Option.getD_some]
    · rename_i hdisplay
      split
      · rename_i h
        simp only [hstrong, hdisplay, h, Option.getD_some]
      · rename_i hprefix
        simp only [hstrong, hdisplay, hprefix]
        split
        · rename_i h
          rw [h]
        · rename_i h
          rw [h]

end Classes

section Finish

variable {U} {ms ms' : List MentionAliasMatch}

theorem mem_uniqueTargets {t : Text} :
    t ∈ uniqueTargets U ms ↔ ∃ m ∈ ms, m.entry.target = t := by
  rw [uniqueTargets, (Collation.sortBy_perm id _).mem_iff, List.mem_eraseDups, List.mem_map]

theorem uniqueTargets_nodup : (uniqueTargets U ms).Nodup :=
  (Collation.sortBy_perm id _).nodup_iff.2 (List.nodup_eraseDups _)

theorem uniqueTargets_perm (h : ∀ m, m ∈ ms ↔ m ∈ ms') :
    (uniqueTargets U ms).Perm (uniqueTargets U ms') := by
  refine (List.perm_ext_iff_of_nodup uniqueTargets_nodup uniqueTargets_nodup).2 fun t => ?_
  simp only [mem_uniqueTargets, h]

theorem preferred_spec (ms : List MentionAliasMatch) (first : MentionAliasMatch) :
    preferred ms first ∈ first :: ms ∧
      ∀ m ∈ first :: ms, m.matchedEnd ≤ (preferred ms first).matchedEnd := by
  induction ms generalizing first with
  | nil => simp [preferred]
  | cons m ms ih =>
    obtain ⟨hmem, hmax⟩ := ih (if first.matchedEnd < m.matchedEnd then m else first)
    have hstep : preferred (m :: ms) first =
        preferred ms (if first.matchedEnd < m.matchedEnd then m else first) := rfl
    rw [hstep]
    split_ifs at hmem hmax ⊢ with hlt
    · refine ⟨by simp_all, fun m' hm' => ?_⟩
      rcases List.mem_cons.1 hm' with rfl | hm'
      · exact hlt.le.trans (hmax m List.mem_cons_self)
      · exact hmax m' hm'
    · refine ⟨?_, fun m' hm' => ?_⟩
      · rcases List.mem_cons.1 hmem with h | h
        · simp [h]
        · simp [h]
      · rcases List.mem_cons.1 hm' with rfl | hm'
        · exact hmax _ List.mem_cons_self
        · rcases List.mem_cons.1 hm' with rfl | hm'
          · exact (not_lt.1 hlt).trans (hmax _ List.mem_cons_self)
          · exact hmax m' (List.mem_cons_of_mem _ hm')

/-- What `finish` says of a class. -/
inductive Finished (U : Unicode) (ms : List MentionAliasMatch) : Option MentionResolution → Prop
  | nothing : ms = [] → Finished U ms none
  | one (m : MentionAliasMatch) : m ∈ ms → (∀ m' ∈ ms, m'.entry.target = m.entry.target) →
      (∀ m' ∈ ms, m'.matchedEnd ≤ m.matchedEnd) →
      Finished U ms (some (.resolved m.entry.target m.entry.aliasName m.matchedEnd))
  | several (m m' : MentionAliasMatch) : m ∈ ms → m' ∈ ms → m.entry.target ≠ m'.entry.target →
      Finished U ms (some (.ambiguous (uniqueTargets U ms)))

theorem finish_finished : Finished U ms (finish U ms) := by
  cases ms with
  | nil => exact .nothing rfl
  | cons first rest =>
    have hfirst : first.entry.target ∈ uniqueTargets U (first :: rest) :=
      mem_uniqueTargets.2 ⟨first, List.mem_cons_self, rfl⟩
    cases htargets : uniqueTargets U (first :: rest) with
    | nil => simp [htargets] at hfirst
    | cons t ts =>
      cases ts with
      | nil =>
        obtain ⟨hmem, hmax⟩ := preferred_spec rest first
        have hall : ∀ m ∈ first :: rest, m.entry.target = t := fun m hm => by
          have := mem_uniqueTargets (U := U).2 ⟨m, hm, rfl⟩
          simpa [htargets] using this
        have h := Finished.one (U := U) _ hmem
          (fun m hm => (hall m hm).trans (hall _ hmem).symm) hmax
        simpa only [finish, htargets, hall _ hmem] using h
      | cons t' ts =>
        have hnodup := @uniqueTargets_nodup U (first :: rest)
        obtain ⟨m, hm, hmt⟩ := mem_uniqueTargets (U := U).1 (htargets ▸ List.mem_cons_self :
          t ∈ uniqueTargets U (first :: rest))
        obtain ⟨m', hm', hmt'⟩ := mem_uniqueTargets (U := U).1 (htargets ▸ by simp :
          t' ∈ uniqueTargets U (first :: rest))
        have hne : m.entry.target ≠ m'.entry.target := by
          rw [htargets] at hnodup
          rw [hmt, hmt']
          exact fun h => (List.nodup_cons.1 hnodup).1 (h ▸ List.mem_cons_self)
        have h := Finished.several (U := U) m m' hm hm' hne
        simpa only [finish, htargets] using h

end Finish

/-- The same answer, up to the alias it quotes and the order of targets that `localeCompare` finds
equal. -/
def MentionResolution.Same (L : Collation) : MentionResolution → MentionResolution → Prop
  | .resolved target _ matchedEnd, .resolved target' _ matchedEnd' =>
    target = target' ∧ matchedEnd = matchedEnd'
  | .unknown, .unknown => True
  | .ambiguous targets, .ambiguous targets' =>
    targets.Perm targets' ∧ (L.Separates targets → targets = targets')
  | _, _ => False

section Order

variable {U} {value} {ms ms' : List MentionAliasMatch}

/-- The same matches finish in the same way. -/
theorem Finished.same {o o' : Option MentionResolution} (h : Finished U ms o)
    (h' : Finished U ms' o') (hms : ∀ m, m ∈ ms ↔ m ∈ ms') :
    Option.Rel (MentionResolution.Same U.collation) o o' := by
  cases h with
  | nothing hnil =>
    cases h' with
    | nothing => exact .none
    | one m hm => simp [← hms, hnil] at hm
    | several m _ hm => simp [← hms, hnil] at hm
  | one m hm hall hmax =>
    cases h' with
    | nothing hnil => simp [hms, hnil] at hm
    | one m' hm' hall' hmax' =>
      refine .some ⟨(hall m' ((hms m').2 hm')).symm, ?_⟩
      exact le_antisymm (hmax' m ((hms m).1 hm)) (hmax m' ((hms m').2 hm'))
    | several m₁ m₂ h₁ h₂ hne =>
      exact absurd ((hall m₁ ((hms m₁).2 h₁)).trans (hall m₂ ((hms m₂).2 h₂)).symm) hne
  | several m₁ m₂ h₁ h₂ hne =>
    cases h' with
    | nothing hnil => simp [hms, hnil] at h₁
    | one m hm hall hmax =>
      exact absurd ((hall m₁ ((hms m₁).1 h₁)).trans (hall m₂ ((hms m₂).1 h₂)).symm) hne
    | several =>
      refine .some ⟨uniqueTargets_perm hms, fun hsep => ?_⟩
      refine Collation.sortBy_eq_of_perm ?_ (fun a _ b _ h => h) ?_
      · refine (List.perm_ext_iff_of_nodup (List.nodup_eraseDups _) (List.nodup_eraseDups _)).2
          fun t => ?_
        simp only [List.mem_eraseDups, List.mem_map, hms]
      · intro a ha b hb
        rw [List.map_id] at ha hb
        exact hsep a ((Collation.sortBy_perm id _).mem_iff.2 ha) b
          ((Collation.sortBy_perm id _).mem_iff.2 hb)

theorem findSome?_same {aliases aliases' : List MentionAlias} (h : ∀ e, e ∈ aliases ↔ e ∈ aliases')
    (cs : List MatchClass) : MentionResolution.Same U.collation
      ((cs.findSome? fun c => finish U (found U value aliases c)).getD .unknown)
      ((cs.findSome? fun c => finish U (found U value aliases' c)).getD .unknown) := by
  induction cs with
  | nil => trivial
  | cons c cs ih =>
    have hms : ∀ m, m ∈ found U value aliases c ↔ m ∈ found U value aliases' c := fun m => by
      simp only [found, List.mem_filterMap, h]
    have hsame := (finish_finished (U := U)).same finish_finished hms
    rw [List.findSome?_cons, List.findSome?_cons]
    cases ho : finish U (found U value aliases c) with
    | none =>
      rw [ho] at hsame
      cases ho' : finish U (found U value aliases' c) with
      | none => exact ih
      | some r' =>
        rw [ho'] at hsame
        cases hsame
    | some r =>
      rw [ho] at hsame
      cases ho' : finish U (found U value aliases' c) with
      | none =>
        rw [ho'] at hsame
        cases hsame
      | some r' =>
        rw [ho'] at hsame
        cases hsame with
        | some hr => exact hr

end Order

section Answer

variable {U} {value} {aliases : List MentionAlias} {c : MatchClass}

theorem finish_eq_none {ms : List MentionAliasMatch} (h : finish U ms = none) : ms = [] := by
  have hfin := @finish_finished U ms
  rw [h] at hfin
  cases hfin with
  | nothing hnil => exact hnil

/-- The best class gives the answer. -/
theorem resolveMentionToken_best (h : Best U value aliases c) :
    some (resolveMentionToken U value aliases) = finish U (found U value aliases c) := by
  have hnone : finish U [] = none := rfl
  obtain ⟨r, hr⟩ : ∃ r, finish U (found U value aliases c) = some r :=
    Option.ne_none_iff_exists'.1 fun hnil => h.found (finish_eq_none hnil)
  rw [resolveMentionToken_eq, hr]
  have hbefore := h.first
  cases c with
  | exactStrong => simp [MatchClass.order, hr]
  | exactDisplay => simp [MatchClass.order, hr, hbefore .exactStrong (by decide), hnone]
  | prefixStrong =>
    simp [MatchClass.order, hr, hbefore .exactStrong (by decide),
      hbefore .exactDisplay (by decide), hnone]
  | prefixDisplay =>
    simp [MatchClass.order, hr, hbefore .exactStrong (by decide),
      hbefore .exactDisplay (by decide), hbefore .prefixStrong (by decide), hnone]

theorem exists_best (h : resolveMentionToken U value aliases ≠ .unknown) :
    ∃ c, Best U value aliases c := by
  rw [resolveMentionToken_eq] at h
  cases hfind : MatchClass.order.findSome? fun c => finish U (found U value aliases c) with
  | none =>
    rw [hfind] at h
    exact absurd rfl h
  | some r =>
    obtain ⟨before, c, behind, horder, hr, hbefore⟩ := List.findSome?_eq_some_iff.1 hfind
    refine ⟨c, ⟨fun hnil => ?_, fun c' hlt => ?_⟩⟩
    · rw [hnil] at hr
      cases hr
    · refine finish_eq_none (hbefore c' ?_)
      have hmem : c' ∈ before ++ c :: behind := horder ▸ by cases c' <;> decide
      have hsorted : (before ++ c :: behind).Pairwise fun a b => a.rank < b.rank :=
        horder ▸ by decide
      rcases List.mem_append.1 hmem with hmem | hmem
      · exact hmem
      · rcases List.mem_cons.1 hmem with rfl | hmem
        · exact absurd hlt (lt_irrefl _)
        · have := (List.pairwise_cons.1 (List.pairwise_append.1 hsorted).2.1).1 c' hmem
          omega

theorem originalPrefixEndFrom_key {key : Text} {points : List Text} {start stop : ℕ}
    (h : originalPrefixEndFrom U value key points start = some stop) :
    mentionMatchKey U (slice value 0 stop) = key := by
  induction points generalizing start with
  | nil => cases h
  | cons point points ih =>
    rw [originalPrefixEndFrom] at h
    split_ifs at h with hkey
    · cases h
      exact hkey
    · exact ih h

/-- What is consumed has the key of the alias. -/
theorem found_key {m : MentionAliasMatch} (h : m ∈ found U value aliases c) :
    m.entry ∈ aliases ∧
      mentionMatchKey U (slice value 0 m.matchedEnd) = mentionMatchKey U m.entry.aliasName := by
  obtain ⟨entry, hentry, hm⟩ := List.mem_filterMap.1 h
  have hexact {p : Prop} [Decidable p]
      (hm : (if mentionMatchKey U entry.aliasName = mentionMatchKey U value ∧ p then
        some (MentionAliasMatch.mk entry value.length) else none) = some m) :
      m.entry ∈ aliases ∧
        mentionMatchKey U (slice value 0 m.matchedEnd) = mentionMatchKey U m.entry.aliasName := by
    split_ifs at hm with hkey
    cases hm
    refine ⟨hentry, ?_⟩
    rw [slice, List.take_length, List.drop_zero, hkey.1]
  have hprefix {p : Prop} [Decidable p]
      (hm : (if p then prefixMatch U value entry else none) = some m) :
      m.entry ∈ aliases ∧
        mentionMatchKey U (slice value 0 m.matchedEnd) = mentionMatchKey U m.entry.aliasName := by
    split_ifs at hm
    obtain ⟨stop, hstop, rfl⟩ := prefixMatch_cases hm
    exact ⟨hentry, originalPrefixEndFrom_key hstop⟩
  cases c with
  | exactStrong => exact hexact hm
  | exactDisplay => exact hexact hm
  | prefixStrong => exact hprefix hm
  | prefixDisplay => exact hprefix hm

end Answer

/-- Only which aliases there are matters: the status, the target, the set of the targets and what
is consumed are the same however they are listed. A target is answered if all matches of the best
class name it, and what is consumed has the key of one of their aliases; two targets in the best
class are both answered as ambiguous. -/
theorem resolveMentionToken_order :
    (∀ aliases aliases' : List MentionAlias, (∀ e, e ∈ aliases ↔ e ∈ aliases') →
      MentionResolution.Same U.collation (resolveMentionToken U value aliases)
        (resolveMentionToken U value aliases')) ∧
    (∀ aliases target matchedAlias matchedEnd,
      resolveMentionToken U value aliases = .resolved target matchedAlias matchedEnd →
      ∃ c, Best U value aliases c ∧ (∀ m ∈ found U value aliases c, m.entry.target = target) ∧
        (∃ entry ∈ aliases, ⟨entry, matchedEnd⟩ ∈ found U value aliases c ∧
          entry.aliasName = matchedAlias) ∧
        mentionMatchKey U (slice value 0 matchedEnd) = mentionMatchKey U matchedAlias) ∧
    ∀ aliases c, Best U value aliases c → ∀ m ∈ found U value aliases c,
      ∀ m' ∈ found U value aliases c, m.entry.target ≠ m'.entry.target →
      ∃ targets, resolveMentionToken U value aliases = .ambiguous targets ∧
        m.entry.target ∈ targets ∧ m'.entry.target ∈ targets := by
  refine ⟨fun aliases aliases' h => ?_, fun aliases target matchedAlias matchedEnd hres => ?_,
    fun aliases c hbest m hm m' hm' hne => ?_⟩
  · rw [resolveMentionToken_eq, resolveMentionToken_eq]
    exact findSome?_same h _
  · obtain ⟨c, hbest⟩ := @exists_best U value aliases
      (by simp [hres])
    have hfin := @finish_finished U (found U value aliases c)
    rw [← resolveMentionToken_best hbest, hres] at hfin
    cases hfin with
    | one m hm hall hmax =>
      obtain ⟨hentry, hkey⟩ := found_key hm
      exact ⟨c, hbest, hall, ⟨m.entry, hentry, hm, rfl⟩, hkey⟩
  · have hfin := @finish_finished U (found U value aliases c)
    rw [← resolveMentionToken_best hbest] at hfin
    generalize resolveMentionToken U value aliases = answer at hfin
    cases hfin with
    | one m₁ _ hall _ => exact absurd ((hall m hm).trans (hall m' hm').symm) hne
    | several =>
      exact ⟨_, rfl, mem_uniqueTargets.2 ⟨m, hm, rfl⟩, mem_uniqueTargets.2 ⟨m', hm', rfl⟩⟩

section Samples

/-- `é`, written as one code point or as two. -/
def composeAcute : Text → Text
  | 0x65 :: 0x301 :: rest => 0xe9 :: composeAcute rest
  | u :: rest => u :: composeAcute rest
  | [] => []

def compareTexts (a b : Text) : ℤ :=
  if composeAcute a = composeAcute b then 0 else if composeAcute a < composeAcute b then -1 else 1

theorem compareTexts_le {a b : Text} :
    compareTexts a b ≤ 0 ↔ composeAcute a ≤ composeAcute b := by
  unfold compareTexts
  split_ifs with heq hlt
  · simp [heq]
  · simp [hlt.le]
  · simp [lt_of_le_of_ne (not_lt.1 hlt) (Ne.symm heq)]

theorem le_compareTexts {a b : Text} :
    0 ≤ compareTexts a b ↔ composeAcute b ≤ composeAcute a := by
  unfold compareTexts
  split_ifs with heq hlt
  · simp [heq]
  · simp [hlt]
  · simp [not_lt.1 hlt]

theorem compareTexts_swap (a b : Text) : compareTexts a b ≤ 0 ↔ 0 ≤ compareTexts b a :=
  compareTexts_le.trans le_compareTexts.symm

theorem compareTexts_trans (a b c : Text) (hab : compareTexts a b ≤ 0)
    (hbc : compareTexts b c ≤ 0) : compareTexts a c ≤ 0 :=
  compareTexts_le.2 ((compareTexts_le.1 hab).trans (compareTexts_le.1 hbc))

def latin : Unicode where
  nfc := composeAcute
  isCjk text := text.any fun u => 0x4e00 ≤ u && u ≤ 0x9fff
  collation := ⟨compareTexts, compareTexts_swap, compareTexts_trans⟩

/-- A nickname and a display name of one target, both in front of `看`. -/
def bobAliases : List MentionAlias :=
  [⟨[98, 111, 98], [98, 111, 98, 98, 121], .nickname⟩, ⟨[98, 111], [98, 111], .display⟩]

theorem resolveMentionToken_order_bob :
    resolveMentionToken latin [98, 111, 98, 0x770b] bobAliases =
        .resolved [98, 111, 98, 98, 121] [98, 111, 98] 3 ∧
      MentionResolution.Same latin.collation
        (resolveMentionToken latin [98, 111, 98, 0x770b] bobAliases)
        (resolveMentionToken latin [98, 111, 98, 0x770b] (bobAliases.reverse ++ bobAliases)) :=
  ⟨by decide, (resolveMentionToken_order latin [98, 111, 98, 0x770b]).1 _ _ fun e => by simp⟩

def MentionResolution.targets : MentionResolution → List Text
  | .resolved target _ _ => [target]
  | .unknown => []
  | .ambiguous targets => targets

/-- Two targets that are written differently and read the same, `é`, keep the order in which they
are listed. -/
theorem ambiguous_targets_listed_in_order :
    ¬ ∀ (U : Unicode) (value : Text) (aliases aliases' : List MentionAlias),
      aliases.Perm aliases' → (resolveMentionToken U value aliases).targets =
        (resolveMentionToken U value aliases').targets := by
  intro hclaim
  have h := hclaim latin [120] [⟨[120], [0xe9], .nickname⟩, ⟨[120], [0x65, 0x301], .nickname⟩] _
    (List.Perm.swap _ _ _)
  exact absurd h (by decide)

end Samples

end Mentions
end AgentParty
