import AgentParty.Lib.Keyset
import AgentParty.Lib.Loop
import AgentParty.Lib.Table

/-! `GET /internal/messages`: the history of a channel, page by page. A page is the rows after
`since`, the rows in front of `before`, or a window around one row. -/

namespace AgentParty
namespace History

/-- A row of `messages`; `C` is what its other columns hold. -/
structure MessageRow (C : Type*) where
  seq : ℤ
  /-- `nextSeq` counts from one. -/
  seq_pos : 0 < seq
  completionArtifactJson : Option String
  columns : C

abbrev Messages (C : Type*) := Table (MessageRow C) MessageRow.seq

/-- The search parameters, a number as `parseInt` reads it. -/
structure MessagesQuery where
  since : Option ℤ
  before : Option ℤ
  around : Option ℤ
  limit : Option ℤ
  completionOnly : Bool

def toInt (value : Option ℤ) (fallback : ℤ) : ℤ := value.getD fallback

variable {C : Type*}

/-- `AND completion_artifact_json IS NOT NULL`. -/
def completionClause (completionOnly : Bool) (r : MessageRow C) : Bool :=
  !completionOnly || r.completionArtifactJson.isSome

section Select

variable (t : Messages C) (completionOnly : Bool)

def select (p : MessageRow C → Bool) : List (MessageRow C) :=
  t.rows.filter fun r => p r && completionClause completionOnly r

/-- `WHERE p ORDER BY seq LIMIT n`. -/
def selectFirst (p : MessageRow C → Bool) (n : ℤ) : List (MessageRow C) :=
  Keyset.limit n (Keyset.ascending MessageRow.seq (select t completionOnly p))

/-- `SELECT * FROM (… WHERE p ORDER BY seq DESC LIMIT n) ORDER BY seq`. -/
def selectLast (p : MessageRow C → Bool) (n : ℤ) : List (MessageRow C) :=
  Keyset.ascending MessageRow.seq
    (Keyset.limit n (Keyset.descending MessageRow.seq (select t completionOnly p)))

/-- Half of the page up to the anchor, the rest after it, and what is missing from further back. -/
def aroundRows (around limit : ℤ) : List (MessageRow C) :=
  let lowerLimit := max 1 ((limit + 1) / 2)
  let lowerRows := selectLast t completionOnly (fun r => r.seq ≤ around) lowerLimit
  if (lowerRows.getLast?.map MessageRow.seq).getD 0 ≠ around then []
  else
    let upperRows :=
      selectFirst t completionOnly (fun r => around < r.seq) (limit - lowerRows.length)
    let missing := limit - lowerRows.length - upperRows.length
    -- `lowerRows` ends in the anchor, so it has a first row
    let oldest := (lowerRows.head?.map MessageRow.seq).getD 0
    let backfillRows :=
      if 0 < missing then selectLast t completionOnly (fun r => r.seq < oldest) missing else []
    backfillRows ++ lowerRows ++ upperRows

end Select

def getMessages (t : Messages C) (q : MessagesQuery) : List (MessageRow C) :=
  let since := max (toInt q.since 0) 0
  let before := max (toInt q.before 0) 0
  let around := max (toInt q.around 0) 0
  let limit := min (max (toInt q.limit 100) 1) 1000
  if around ≤ 0 then
    if 0 < before then selectLast t q.completionOnly (fun r => r.seq < before) limit
    else selectFirst t q.completionOnly (fun r => since < r.seq) limit
  else aroundRows t q.completionOnly around limit

/-- What a reader has who pages back: the first row it shows, and the older rows it loaded. -/
structure Reader (C : Type*) where
  first : ℤ
  loaded : List (MessageRow C)

/-- The request for the page in front of the first row shown; the reader picks its size. -/
def olderQuery (completionOnly : Bool) (limit : ℤ → ℤ) (first : ℤ) : MessagesQuery :=
  ⟨none, some first, none, some (limit first), completionOnly⟩

/-- One page further back; an empty page ends it. -/
def loadOlder (t : Messages C) (completionOnly : Bool) (limit : ℤ → ℤ) (s : Reader C) :
    Reader C ⊕ List (MessageRow C) :=
  match getMessages t (olderQuery completionOnly limit s.first) with
  | [] => .inr s.loaded
  | r :: rows => .inl ⟨r.seq, r :: rows ++ s.loaded⟩

/-- The filtered table in the order of its numbers. -/
def history (t : Messages C) (completionOnly : Bool) : List (MessageRow C) :=
  Keyset.ascending MessageRow.seq (t.rows.filter (completionClause completionOnly))

end History
end AgentParty
