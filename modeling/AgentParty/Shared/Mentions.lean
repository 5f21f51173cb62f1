import AgentParty.Lib.Loop

/-! The mention lexer, `mentions.ts`: the code ranges of a Markdown text, fenced and inline, and
the tokens after an `@` outside of them. A text is its UTF-16 code units. -/

namespace AgentParty
namespace Mentions

abbrev Text := List ℕ

def NEWLINE : ℕ := 10
def CARRIAGE_RETURN : ℕ := 13
def SPACE : ℕ := 32
def DOT : ℕ := 46
def AT : ℕ := 64
def BACKSLASH : ℕ := 92
def BACKTICK : ℕ := 96
def TILDE : ℕ := 126

structure TextRange where
  start : ℕ
  stop : ℕ
  deriving DecidableEq

/-- `text.indexOf(unit, start)`. -/
def indexOf (text : Text) (unit start : ℕ) : Option ℕ :=
  ((text.drop start).findIdx? fun u => u = unit).map (· + start)

def slice (text : Text) (start stop : ℕ) : Text := (text.take stop).drop start

def runLength (text : Text) (start unit stop : ℕ) : ℕ :=
  ((slice text start stop).takeWhile fun u => u = unit).length

/-- What `trim` takes away. -/
def isTrimmed (u : ℕ) : Bool :=
  (9 ≤ u && u ≤ 13) || u = 32 || u = 160 || u = 0x1680 || (0x2000 ≤ u && u ≤ 0x200a) ||
    u = 0x2028 || u = 0x2029 || u = 0x202f || u = 0x205f || u = 0x3000 || u = 0xfeff

section Fences

structure FenceMarker where
  char : ℕ
  length : ℕ
  rest : Text
  deriving DecidableEq

def fenceMarker (line : Text) : Option FenceMarker :=
  let cursor := ((line.take 3).takeWhile fun u => u = SPACE).length
  match (line)[cursor]? with
  | none => none
  | some char =>
    if char ≠ BACKTICK ∧ char ≠ TILDE then none
    else
      let length := runLength line cursor char line.length
      if length < 3 then none else some ⟨char, length, line.drop (cursor + length)⟩

structure Fence where
  start : ℕ
  char : ℕ
  length : ℕ
  deriving DecidableEq

/-- The loop of `fencedCodeRanges` at the start of a line. -/
structure FenceScan where
  ranges : List TextRange
  opened : Option Fence
  lineStart : ℕ

/-- `replace(/\r$/, "")`. -/
def dropReturn (line : Text) : Text :=
  if line.getLast? = some CARRIAGE_RETURN then line.dropLast else line

/-- What a line does to the fence that is open, or to none. -/
def FenceScan.turn (s : FenceScan) (marker : Option FenceMarker) (nextLine : ℕ) : FenceScan :=
  match s.opened with
  | none =>
    -- the info string of a backtick fence holds no backtick
    match marker.filter fun m => m.char = TILDE || !m.rest.contains BACKTICK with
    | none => { s with lineStart := nextLine }
    | some m => ⟨s.ranges, some ⟨s.lineStart, m.char, m.length⟩, nextLine⟩
  | some fence =>
    match marker.filter fun m =>
      m.char = fence.char && fence.length ≤ m.length && m.rest.all isTrimmed with
    | none => { s with lineStart := nextLine }
    | some _ => ⟨s.ranges ++ [⟨fence.start, nextLine⟩], none, nextLine⟩

def fenceStep (text : Text) (s : FenceScan) : FenceScan ⊕ List TextRange :=
  if s.lineStart < text.length then
    let newline := indexOf text NEWLINE s.lineStart
    let line := dropReturn (slice text s.lineStart (newline.getD text.length))
    .inl (s.turn (fenceMarker line) ((newline.map (· + 1)).getD text.length))
  else
    match s.opened with
    | none => .inr s.ranges
    | some fence => .inr (s.ranges ++ [⟨fence.start, text.length⟩])

/-- `none` would be a scan that does not end. -/
def fencedCodeRanges (text : Text) : Option (List TextRange) :=
  WhileLoop.run (fenceStep text) (text.length + 1) ⟨[], none, 0⟩

end Fences

section Inline

def isEscaped (text : Text) (pos : ℕ) : Bool :=
  ((text.take pos).reverse.takeWhile fun u => u = BACKSLASH).length % 2 = 1

/-- A run of backticks. -/
structure Run where
  start : ℕ
  length : ℕ
  deriving DecidableEq

/-- The first loop of `inlineCodeRanges`. -/
structure RunScan where
  runs : List Run
  cursor : ℕ

def runStep (text : Text) (stop : ℕ) (s : RunScan) : RunScan ⊕ List Run :=
  if s.cursor < stop then
    match indexOf text BACKTICK s.cursor with
    | none => .inr s.runs
    | some pos =>
      if stop ≤ pos then .inr s.runs
      else
        let length := runLength text pos BACKTICK stop
        .inl ⟨if isEscaped text pos then s.runs else s.runs ++ [⟨pos, length⟩], pos + length⟩
  else .inr s.runs

def backtickRuns (text : Text) (start stop : ℕ) : Option (List Run) :=
  WhileLoop.run (runStep text stop) (stop + 1) ⟨[], start⟩

structure LinkedRun extends Run where
  nextSame : Option ℕ
  deriving DecidableEq

/-- The second loop, from the last run down: the linked runs from `index` on, and
`nextByLength`. -/
def linkRuns (index : ℕ) : List Run → List LinkedRun × (ℕ → Option ℕ)
  | [] => ([], fun _ => none)
  | run :: runs =>
    let rest := linkRuns (index + 1) runs
    (⟨run, rest.2 run.length⟩ :: rest.1,
      fun length => if length = run.length then some index else rest.2 length)

/-- The third loop. -/
structure PairScan where
  ranges : List TextRange
  index : ℕ

/-- `none` would be a link to no run, on which the code throws. -/
def pairStep (runs : List LinkedRun) (s : PairScan) : PairScan ⊕ Option (List TextRange) :=
  match runs[s.index]? with
  | none => .inr (some s.ranges)
  | some opener =>
    match opener.nextSame with
    | none => .inl ⟨s.ranges, s.index + 1⟩
    | some next =>
      match runs[next]? with
      | none => .inr none
      | some closer =>
        .inl ⟨s.ranges ++ [⟨opener.start, closer.start + closer.length⟩], next + 1⟩

def inlineCodeRanges (text : Text) (start stop : ℕ) : Option (List TextRange) :=
  (backtickRuns text start stop).bind fun runs =>
    (WhileLoop.run (pairStep (linkRuns 0 runs).1) (runs.length + 1) ⟨[], 0⟩).join

end Inline

/-- The loop of `markdownCodeRanges`: inline code between the fences. -/
def spliceFences (text : Text) (cursor : ℕ) : List TextRange → Option (List TextRange)
  | [] => inlineCodeRanges text cursor text.length
  | fence :: fences =>
    (inlineCodeRanges text cursor fence.start).bind fun spans =>
      (spliceFences text fence.stop fences).map fun rest => spans ++ fence :: rest

def markdownCodeRanges (text : Text) : Option (List TextRange) :=
  (fencedCodeRanges text).bind (spliceFences text 0)

def insideRanges (pos : ℕ) (ranges : List TextRange) : Bool :=
  ranges.any fun range => range.start ≤ pos && pos < range.stop

section Tokens

/-- The Unicode classes of code points, and the tests of a position in a text. -/
structure Lexis where
  /-- `[\p{L}\p{N}]`. -/
  valueStart : ℕ → Bool
  /-- `[\p{L}\p{N}\p{M}._-]`. -/
  valueRest : ℕ → Bool
  isNpmScopedPackage : Text → ℕ → Bool
  isMentionInEmail : Text → ℕ → Bool
  isMentionInUrl : Text → ℕ → Bool

variable (L : Lexis)

structure ParsedMentionToken where
  value : Text
  start : ℕ
  stop : ℕ
  deriving DecidableEq

/-- `/[A-Za-z0-9._@-]/`. -/
def isAsciiNameChar (u : ℕ) : Bool :=
  (65 ≤ u && u ≤ 90) || (97 ≤ u && u ≤ 122) || (48 ≤ u && u ≤ 57) || u = 46 || u = 95 ||
    u = 64 || u = 45

def isMentionBoundaryChar (previous : Option ℕ) : Bool := !previous.any isAsciiNameChar

def isMentionStartOutsideCode (text : Text) (pos : ℕ) : Bool :=
  if text[pos]? ≠ some AT then false
  else if L.isNpmScopedPackage text pos || L.isMentionInEmail text pos ||
      L.isMentionInUrl text pos then false
  else isMentionBoundaryChar (if pos = 0 then none else text[pos - 1]?)

def isMentionStartWithCodeRanges (text : Text) (pos : ℕ) (codeRanges : List TextRange) : Bool :=
  !insideRanges pos codeRanges && isMentionStartOutsideCode L text pos

def isMentionStart (text : Text) (pos : ℕ) : Option Bool :=
  (markdownCodeRanges text).map (isMentionStartWithCodeRanges L text pos)

def isLead (u : ℕ) : Bool := 0xd800 ≤ u && u ≤ 0xdbff
def isTrail (u : ℕ) : Bool := 0xdc00 ≤ u && u ≤ 0xdfff

/-- The units of the longest prefix of code points in a class. -/
def classRun (p : ℕ → Bool) : Text → ℕ
  | [] => 0
  | [u] => if p u then 1 else 0
  | u :: v :: rest =>
    if isLead u && isTrail v then
      if p (0x10000 + (u - 0xd800) * 0x400 + (v - 0xdc00)) then 2 + classRun p rest else 0
    else if p u then 1 + classRun p (v :: rest) else 0

/-- The units of the first code point, if it is in the class. -/
def classFirst (p : ℕ → Bool) (text : Text) : ℕ :=
  match text with
  | [] => 0
  | [u] => if p u then 1 else 0
  | u :: v :: _ =>
    if isLead u && isTrail v then
      if p (0x10000 + (u - 0xd800) * 0x400 + (v - 0xdc00)) then 2 else 0
    else if p u then 1 else 0

/-- `MENTION_VALUE_RE.exec`, as the units of the match. -/
def valueLength (text : Text) : ℕ :=
  let first := classFirst L.valueStart text
  if first = 0 then 0 else first + classRun L.valueRest (text.drop first)

/-- `replace(/\.+$/u, "")`. -/
def dropDots (value : Text) : Text := (value.reverse.dropWhile fun u => u = DOT).reverse

def readMentionToken (text : Text) (pos : ℕ) : Option ParsedMentionToken :=
  if text[pos]? ≠ some AT then none
  else
    let rest := text.drop (pos + 1)
    let value := dropDots (rest.take (valueLength L rest))
    if value = [] then none else some ⟨value, pos, pos + 1 + value.length⟩

/-- The loop of `extractMentionTokens`. -/
structure MentionScan where
  out : List ParsedMentionToken
  pos : Option ℕ
  codeRangeIndex : ℕ

def mentionStep (text : Text) (codeRanges : List TextRange) (s : MentionScan) :
    MentionScan ⊕ List ParsedMentionToken :=
  match s.pos with
  | none => .inr s.out
  | some pos =>
    let index := s.codeRangeIndex +
      ((codeRanges.drop s.codeRangeIndex).takeWhile fun range => range.stop ≤ pos).length
    let next := indexOf text AT (pos + 1)
    if codeRanges[index]?.any fun range => range.start ≤ pos && pos < range.stop then
      .inl ⟨s.out, next, index⟩
    else if isMentionStartOutsideCode L text pos = false then .inl ⟨s.out, next, index⟩
    else .inl ⟨s.out ++ (readMentionToken L text pos).toList, next, index⟩

def extractMentionTokens (text : Text) : Option (List ParsedMentionToken) :=
  (markdownCodeRanges text).bind fun codeRanges =>
    WhileLoop.run (mentionStep L text codeRanges) (text.length + 2) ⟨[], indexOf text AT 0, 0⟩

end Tokens

end Mentions
end AgentParty
