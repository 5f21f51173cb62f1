import AgentParty.Shared.Collation

/-! Which target an `@` names, `mentions.ts`: the aliases whose match key is the mention's, and
for CJK prose those that are a prefix of it. -/

namespace AgentParty
namespace Mentions

/-- What comes from the tables of Unicode: the normal form NFC, the CJK scripts and an order. -/
structure Unicode where
  nfc : Text → Text
  isCjk : Text → Bool
  collation : Collation

inductive MentionAliasKind
  | canonical
  | nickname
  | display
  deriving DecidableEq

structure MentionAlias where
  aliasName : Text
  target : Text
  kind : MentionAliasKind
  deriving DecidableEq

inductive MentionResolution
  | resolved (target matchedAlias : Text) (matchedEnd : ℕ)
  | unknown
  | ambiguous (targets : List Text)
  deriving DecidableEq

/-- `[A-Za-z0-9._-]`. -/
def isIdentifierUnit (u : ℕ) : Bool :=
  (65 ≤ u && u ≤ 90) || (97 ≤ u && u ≤ 122) || (48 ≤ u && u ≤ 57) || u = 46 || u = 95 || u = 45

def toLowerUnit (u : ℕ) : ℕ := if 65 ≤ u ∧ u ≤ 90 then u + 32 else u

/-- The code points of a text; a surrogate that is not one of a pair stands alone. -/
def codePoints : Text → List Text
  | [] => []
  | [u] => [[u]]
  | u :: v :: rest =>
    if (0xd800 ≤ u ∧ u ≤ 0xdbff) ∧ 0xdc00 ≤ v ∧ v ≤ 0xdfff then [u, v] :: codePoints rest
    else [u] :: codePoints (v :: rest)

structure MentionAliasMatch where
  entry : MentionAlias
  /-- An offset in the mention as it was written. -/
  matchedEnd : ℕ
  deriving DecidableEq

def MentionAliasMatch.isDisplay (m : MentionAliasMatch) : Bool := m.entry.kind = .display

variable (U : Unicode)

def mentionMatchKey (value : Text) : Text :=
  let normalized := U.nfc value
  if normalized ≠ [] ∧ normalized.all isIdentifierUnit then normalized.map toLowerUnit
  else normalized

def uniqueTargets (found : List MentionAliasMatch) : List Text :=
  U.collation.sortBy id (found.map fun m => m.entry.target).eraseDups

/-- The match that takes most of the mention, the first of them. -/
def preferred (found : List MentionAliasMatch) (first : MentionAliasMatch) : MentionAliasMatch :=
  found.foldl (fun best m => if best.matchedEnd < m.matchedEnd then m else best) first

def finish (found : List MentionAliasMatch) : Option MentionResolution :=
  match uniqueTargets U found, found with
  | [target], first :: rest =>
    let best := preferred rest first
    some (.resolved target best.entry.aliasName best.matchedEnd)
  | [], _ | [_], [] => none
  | targets, _ => some (.ambiguous targets)

def originalPrefixEndFrom (value normalizedAlias : Text) : List Text → ℕ → Option ℕ
  | [], _ => none
  | codePoint :: rest, stop =>
    if mentionMatchKey U (slice value 0 (stop + codePoint.length)) = normalizedAlias then
      some (stop + codePoint.length)
    else originalPrefixEndFrom value normalizedAlias rest (stop + codePoint.length)

/-- The end of the shortest piece of `value` with the key of the alias. -/
def originalPrefixEnd (value normalizedAlias : Text) : Option ℕ :=
  originalPrefixEndFrom U value normalizedAlias (codePoints value) 0

/-- An alias with CJK text right after it. -/
def prefixMatch (value : Text) (entry : MentionAlias) : Option MentionAliasMatch :=
  let normalized := mentionMatchKey U value
  let key := mentionMatchKey U entry.aliasName
  if key = [] ∨ normalized.length ≤ key.length ∨ ¬ key <+: normalized then none
  else
    match originalPrefixEnd U value key with
    | none => none
    | some matchedEnd =>
      if value.length ≤ matchedEnd then none
      else if U.isCjk ((codePoints (value.drop matchedEnd)).headD []) then
        some ⟨entry, matchedEnd⟩
      else none

def resolveMentionToken (value : Text) (aliases : List MentionAlias) : MentionResolution :=
  let normalized := mentionMatchKey U value
  let exact := (aliases.filter fun entry => mentionMatchKey U entry.aliasName = normalized).map
    fun entry => MentionAliasMatch.mk entry value.length
  match finish U (exact.filter fun m => !m.isDisplay) with
  | some exactStrong => exactStrong
  | none =>
    match finish U (exact.filter fun m => m.isDisplay) with
    | some exactDisplay => exactDisplay
    | none =>
      let prefixes := aliases.filterMap (prefixMatch U value)
      match finish U (prefixes.filter fun m => !m.isDisplay) with
      | some prefixStrong => prefixStrong
      | none => (finish U (prefixes.filter fun m => m.isDisplay)).getD .unknown

end Mentions
end AgentParty
