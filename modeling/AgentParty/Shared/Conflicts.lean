import AgentParty.Lib.Table
import AgentParty.Shared.Collation
import Mathlib.Data.List.DropRight
import Mathlib.Data.List.Lex
import Mathlib.Data.Nat.Digits.Defs

/-! Which open claims overlap, `summarizeConflicts` of `protocol.ts`: claims of different owners,
grouped by the scope that one of them shares with the other. -/

namespace AgentParty
namespace Conflicts

open Mentions (Text)

def SLASH : ℕ := 47

/-- `S` is what a claim says of its state. -/
structure ClaimSummary (S : Type*) where
  seq : ℕ
  taskId : Option ℕ
  owner : Text
  state : S
  scope : List Text
  deriving DecidableEq

structure ConflictClaimSummary (S : Type*) where
  seq : ℕ
  taskId : Option ℕ
  owner : Text
  state : S
  scope : List Text
  deriving DecidableEq

structure ConflictSummary (S : Type*) where
  scope : Text
  owners : List Text
  claims : List (ConflictClaimSummary S)
  deriving DecidableEq

variable {S : Type*}

/-- `replace(/\/+$/g, "")`. -/
def normalizeScope (scope : Text) : Text := scope.rdropWhile fun u => u = SLASH

def overlapScope (a b : Text) : Option Text :=
  let left := normalizeScope a
  let right := normalizeScope b
  if left = [] ∨ right = [] then none
  else if left = right then some left
  else if right ++ [SLASH] <+: left then some right
  else if left ++ [SLASH] <+: right then some left
  else none

/-- `String(n)`. -/
def decimal (n : ℕ) : Text := if n = 0 then [48] else ((Nat.digits 10 n).map (· + 48)).reverse

/-- A claim's key in its group, the owner and the number with a NUL between them. -/
def ConflictClaimSummary.key (c : ConflictClaimSummary S) : Text := c.owner ++ 0 :: decimal c.seq

def ClaimSummary.conflict (c : ClaimSummary S) : ConflictClaimSummary S :=
  ⟨c.seq, c.taskId, c.owner, c.state, c.scope⟩

abbrev Claims (S : Type*) := Table (ConflictClaimSummary S) ConflictClaimSummary.key

structure Group (S : Type*) where
  scope : Text
  claims : Claims S

abbrev Groups (S : Type*) := Table (Group S) Group.scope

def Groups.claimsOf (groups : Groups S) (scope : Text) : Claims S :=
  ((groups.get? scope).map Group.claims).getD Table.empty

/-- The two claims in the group of their common scope. -/
def Groups.record (groups : Groups S) (left right : ClaimSummary S) (scope : Text) : Groups S :=
  groups.put ⟨scope, ((groups.claimsOf scope).put left.conflict).put right.conflict⟩

def Groups.compareScopes (left right : ClaimSummary S) (groups : Groups S)
    (leftScope rightScope : Text) : Groups S :=
  match overlapScope leftScope rightScope with
  | none => groups
  | some scope => groups.record left right scope

def Groups.compare (left : ClaimSummary S) (groups : Groups S) (right : ClaimSummary S) :
    Groups S :=
  if left.owner = right.owner then groups
  else
    left.scope.foldl (fun groups leftScope =>
      right.scope.foldl (fun groups rightScope =>
        groups.compareScopes left right leftScope rightScope) groups) groups

/-- Every claim with those behind it. -/
def conflictGroups : Groups S → List (ClaimSummary S) → Groups S
  | groups, [] => groups
  | groups, left :: rest => conflictGroups (rest.foldl (Groups.compare left) groups) rest

variable (L : Collation)

/-- `b.seq - a.seq || a.owner.localeCompare(b.owner)`, at most zero. -/
def claimOrder (a b : ConflictClaimSummary S) : Prop :=
  b.seq < a.seq ∨ b.seq = a.seq ∧ L.localeCompare a.owner b.owner ≤ 0

instance : DecidableRel (claimOrder (S := S) L) :=
  fun _ _ => inferInstanceAs (Decidable (_ ∨ _))

def summarizeGroup (group : Group S) : ConflictSummary S :=
  let sortedClaims := group.claims.rows.insertionSort (claimOrder L)
  ⟨group.scope,
    (sortedClaims.map fun claim => claim.owner).eraseDups.insertionSort (· ≤ ·), sortedClaims⟩

def summarizeConflicts (openClaims : List (ClaimSummary S)) : List (ConflictSummary S) :=
  L.sortBy ConflictSummary.scope
    ((conflictGroups Table.empty openClaims).rows.map (summarizeGroup L))

end Conflicts
end AgentParty
