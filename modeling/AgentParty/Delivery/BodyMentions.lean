import AgentParty.Shared.Aliases
import Mathlib.Algebra.GroupWithZero.Nat

/-! The mentions in the body of a message: the hints that a client sends along
(`extractMentionTokens` of `protocol.ts`), and what `parseSendFrame` of `do.ts` makes of them. -/

namespace AgentParty
namespace Mentions

def MAX_MENTIONS : ℕ := 50
def MENTIONS_JSON_LIMIT : ℕ := 4096

/-- `system`. -/
def SYSTEM : Text := [115, 121, 115, 116, 101, 109]

def codePointAt : Text → ℕ
  | [] => 0
  | [u] => u
  | u :: v :: _ => 0x10000 + (u - 0xd800) * 0x400 + (v - 0xdc00)

/-- `/[A-Za-z0-9]/`. -/
def isAsciiAlphanumeric (u : ℕ) : Bool :=
  (65 ≤ u && u ≤ 90) || (97 ≤ u && u ≤ 122) || (48 ≤ u && u ≤ 57)

/-- The classes of Unicode, whose letters and numbers are those of ASCII too. -/
structure Classes extends Lexis where
  ascii_start : ∀ u, isAsciiAlphanumeric u = true → valueStart u = true

variable (L : Classes) (U : Unicode)

/-- The values of the lexer's tokens; its scan always ends. -/
def tokenValues (text : Text) : List Text :=
  ((extractMentionTokens L.toLexis text).getD []).map ParsedMentionToken.value

namespace Protocol

/-- `/^[A-Za-z0-9][A-Za-z0-9._-]{0,63}/.exec(value)?.[0]`. -/
def asciiPrefixOf : Text → Option Text
  | [] => none
  | u :: rest =>
    if isAsciiAlphanumeric u then some (u :: (rest.take 63).takeWhile isIdentifierUnit) else none

def hintOf (value : Text) : Text :=
  (asciiPrefixOf value).getD ((codePoints value).take 64).flatten

structure Hints where
  out : List Text
  seen : List Text

def extractLoop (limit : ℤ) : List Text → Hints → List Text
  | [], h => h.out
  | token :: tokens, h =>
    let value := hintOf token
    let key := mentionMatchKey U value
    if key = SYSTEM ∨ key ∈ h.seen then extractLoop limit tokens h
    else
      let h := { out := h.out ++ [value], seen := h.seen ++ [key] : Hints }
      if limit ≤ h.out.length then h.out else extractLoop limit tokens h

def extractMentionTokens (text : Text) (limit : ℤ) : List Text :=
  if limit ≤ 0 then [] else extractLoop U limit (tokenValues L text) ⟨[], []⟩

end Protocol

section Bytes

/-- The bytes of a code point in a string of `JSON.stringify`, in UTF-8. -/
def jsonCodePointBytes (c : ℕ) : ℕ :=
  if c = 34 ∨ c = 92 ∨ c = 8 ∨ c = 9 ∨ c = 10 ∨ c = 12 ∨ c = 13 then 2
  else if c < 32 ∨ (0xd800 ≤ c ∧ c ≤ 0xdfff) then 6
  else if c < 0x80 then 1
  else if c < 0x800 then 2
  else if c < 0x10000 then 3
  else 4

def jsonStringBytes (s : Text) : ℕ :=
  2 + ((codePoints s).map fun p => jsonCodePointBytes (codePointAt p)).sum

/-- `byteLength(JSON.stringify(list))`. -/
def jsonBytes (list : List Text) : ℕ :=
  2 + (list.map jsonStringBytes).sum + (list.length - 1)

end Bytes

section Server

/-- `[\p{L}\p{N}._-]`. -/
def isServerUnit (c : ℕ) : Bool := L.valueStart c || c = DOT || c = 95 || c = 45

/-- `/^[\p{L}\p{N}][\p{L}\p{N}._-]{0,63}$/u`. -/
def MENTION_TOKEN_RE (s : Text) : Bool :=
  match (codePoints s).map codePointAt with
  | [] => false
  | c :: cs => L.valueStart c && cs.all (isServerUnit L) && cs.length ≤ 63

/-- What a payload has for an array of strings; an element is `none` where it is no string. -/
inductive Field
  | missing
  | other
  | array (elements : List (Option Text))

def parseMentions : Field → Option (List Text)
  | .missing => some []
  | .other => none
  | .array elements =>
    let input := elements.filterMap id
    if MAX_MENTIONS < elements.length ∨
        elements.any (fun m => !m.any (MENTION_TOKEN_RE L)) ∨
        MENTIONS_JSON_LIMIT < jsonBytes input then none
    else some input

structure Collected where
  seen : List Text
  out : List Text

/-- `push` of `collectBodyMentions`; `none` is over the limit. -/
def push (explicit : List Text) (c : Collected) (name : Text) : Option Collected :=
  let key := mentionMatchKey U name
  if key ∈ explicit.map (mentionMatchKey U) ∨ key ∈ c.seen then some c
  else if MAX_MENTIONS ≤ explicit.length + c.out.length then none
  else some ⟨c.seen ++ [key], c.out ++ [name]⟩

def collectBodyMentions (explicit clientBody : List Text) (text : Text) : Option (List Text) := do
  let extracted := tokenValues L text
  let inBody := clientBody.filter fun name =>
    mentionMatchKey U name ∈ extracted.map (mentionMatchKey U)
  let c ← inBody.foldlM (push U explicit) ⟨[], []⟩
  let c ← extracted.foldlM (push U explicit) c
  if jsonBytes c.out ≤ MENTIONS_JSON_LIMIT then some c.out else none

/-- A payload of the kind `message`; `others` are the fields that are no mentions. -/
structure SendPayload (ρ : Type*) where
  body : Option Text
  mentions : Field
  bodyMentions : Field
  others : ρ

structure SendFrame (φ : Type) where
  body : Text
  mentions : List Text
  bodyMentions : List Text
  others : φ

/-- The branch of the messages; `parseOthers` checks the other fields. -/
def parseSendFrame {ρ : Type*} {φ : Type} (parseOthers : ρ → Option φ) (f : SendPayload ρ) :
    Option (SendFrame φ) := do
  let body ← f.body
  let explicit ← parseMentions L f.mentions
  let clientBodyMentions ← parseMentions L f.bodyMentions
  let bodyMentions ← collectBodyMentions L U explicit clientBodyMentions body
  let others ← parseOthers f.others
  some ⟨body, explicit, bodyMentions, others⟩

end Server

section Named

variable (U : Unicode)

/-- The names whose keys are neither known nor those of a name before. -/
def firsts (known : List Text) : List Text → List Text
  | [] => []
  | name :: names =>
    if mentionMatchKey U name ∈ known then firsts known names
    else name :: firsts (known ++ [mentionMatchKey U name]) names

def keys (names : List Text) : List Text := names.map (mentionMatchKey U)

end Named

def namesInBody (L : Classes) (U : Unicode) (clientBody : List Text) (text : Text) : List Text :=
  (clientBody.filter fun name => mentionMatchKey U name ∈ keys U (tokenValues L text)) ++
    tokenValues L text

end Mentions
end AgentParty
