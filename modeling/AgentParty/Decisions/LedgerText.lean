import Mathlib.Data.List.Infix
import Mathlib.Algebra.BigOperators.Group.List.Basic
import Mathlib.Algebra.GroupWithZero.Nat

/-! The texts of the decision ledger, `decision-ledger.ts`: how the prompt of a decision
request becomes a topic and its answer a summary. -/

namespace AgentParty
namespace Decisions

def CHANNEL_DECISION_TOPIC_LIMIT : ℕ := 200
def CHANNEL_DECISION_SUMMARY_LIMIT : ℕ := 2000
def CHANNEL_DECISION_ACTIVE_MAX : ℕ := 100

/-- A code point of a JavaScript string, in which a surrogate may stand alone. -/
inductive CodePoint
  | scalar (c : Char)
  | surrogate (n : Fin 2048)
  deriving DecidableEq

abbrev JsString := List CodePoint

def js (text : String) : JsString := text.toList.map .scalar

/-- The character `TextEncoder` writes; a lone surrogate becomes U+FFFD. -/
def CodePoint.encoded : CodePoint → Char
  | .scalar c => c
  | .surrogate _ => '\uFFFD'

/-- The text as the database stores it. -/
def bound (value : JsString) : List Char := value.map CodePoint.encoded

def utf8Length (text : List Char) : ℕ := (text.map Char.utf8Size).sum

def byteLength (value : JsString) : ℕ := utf8Length (bound value)

/-- The loop of `truncateToBytes`. -/
def takeBytes (maxBytes used : ℕ) : JsString → JsString
  | [] => []
  | ch :: rest =>
    let size := byteLength [ch]
    if used + size > maxBytes then [] else ch :: takeBytes maxBytes (used + size) rest

def truncateToBytes (value : JsString) (maxBytes : ℕ) : JsString :=
  if maxBytes = 0 then []
  else if byteLength value ≤ maxBytes then value
  else takeBytes maxBytes 0 value

/-- `[\u0000-\u001f\u007f-\u009f]`. -/
def isControl : CodePoint → Bool
  | .scalar c => c.toNat ≤ 0x1f || (0x7f ≤ c.toNat && c.toNat ≤ 0x9f)
  | .surrogate _ => false

/-- What `\s` matches and `trim` strips. -/
def isSpace : CodePoint → Bool
  | .scalar c =>
    (0x9 ≤ c.toNat && c.toNat ≤ 0xd) || (0x2000 ≤ c.toNat && c.toNat ≤ 0x200a) ||
      [0x20, 0xa0, 0x1680, 0x2028, 0x2029, 0x202f, 0x205f, 0x3000, 0xfeff].contains c.toNat
  | .surrogate _ => false

/-- A run of white space becomes one blank, written where the run ends. -/
def collapseSpaces : JsString → JsString
  | [] => []
  | ch :: rest =>
    if !isSpace ch then ch :: collapseSpaces rest
    else if rest.head?.any isSpace then collapseSpaces rest
    else .scalar ' ' :: collapseSpaces rest

def trim (value : JsString) : JsString :=
  ((value.dropWhile isSpace).reverse.dropWhile isSpace).reverse

def flattenPrompt (prompt : JsString) : JsString :=
  trim (collapseSpaces (prompt.map fun ch => if isControl ch then .scalar ' ' else ch))

def DECISION_ASK_TOPIC_PREFIX : JsString := js "ask:"

def decisionAskLedgerTopic (prompt : JsString) : JsString :=
  let room := CHANNEL_DECISION_TOPIC_LIMIT - byteLength DECISION_ASK_TOPIC_PREFIX
  DECISION_ASK_TOPIC_PREFIX ++ truncateToBytes (flattenPrompt prompt) room

inductive DecisionKind
  | approval
  | choice
  deriving DecidableEq

structure DecisionLedgerSummaryInput where
  kind : DecisionKind
  chosenIndex : ℕ
  chosenOption : JsString
  responder : JsString
  seq : ℕ
  reason : Option JsString

def decisionAskLedgerSummary (input : DecisionLedgerSummaryInput) : JsString :=
  let verb :=
    match input.kind with
    | .approval => if input.chosenIndex = 0 then js "approved" else js "rejected"
    | .choice => js "chose \"" ++ input.chosenOption ++ js "\""
  let reason :=
    match input.reason with
    | none => []
    | some reason => if trim reason = [] then [] else js ": " ++ trim reason
  let text := verb ++ js " by " ++ input.responder ++ js " on decision request #" ++
    js (toString input.seq) ++ reason
  truncateToBytes (flattenPrompt text) CHANNEL_DECISION_SUMMARY_LIMIT

theorem utf8Length_append (a b : List Char) : utf8Length (a ++ b) = utf8Length a + utf8Length b := by
  simp [utf8Length]

theorem bound_append (a b : JsString) : bound (a ++ b) = bound a ++ bound b := by
  simp [bound]

theorem byteLength_cons (ch : CodePoint) (rest : JsString) :
    byteLength (ch :: rest) = byteLength [ch] + byteLength rest :=
  utf8Length_append (bound [ch]) (bound rest)

theorem byteLength_append (a b : JsString) : byteLength (a ++ b) = byteLength a + byteLength b := by
  rw [byteLength, bound_append, utf8Length_append, byteLength, byteLength]

theorem takeBytes_le (maxBytes : ℕ) (value : JsString) (used : ℕ) (h : used ≤ maxBytes) :
    used + byteLength (takeBytes maxBytes used value) ≤ maxBytes := by
  induction value generalizing used with
  | nil => simpa [takeBytes, byteLength, bound, utf8Length] using h
  | cons ch rest ih =>
    simp only [takeBytes]
    split_ifs with hfull
    · simpa [byteLength, bound, utf8Length] using h
    · have := ih (used + byteLength [ch]) (by omega)
      rw [byteLength_cons]
      omega

theorem byteLength_truncateToBytes (value : JsString) (maxBytes : ℕ) :
    byteLength (truncateToBytes value maxBytes) ≤ maxBytes := by
  unfold truncateToBytes
  split_ifs with hzero hfits
  · simp [byteLength, bound, utf8Length]
  · exact hfits
  · simpa using takeBytes_le maxBytes value 0 (Nat.zero_le _)

theorem decisionAskLedgerTopic_prefix_of (prompt : JsString) :
    DECISION_ASK_TOPIC_PREFIX <+: decisionAskLedgerTopic prompt :=
  List.prefix_append _ _

theorem byteLength_decisionAskLedgerTopic (prompt : JsString) :
    byteLength (decisionAskLedgerTopic prompt) ≤ CHANNEL_DECISION_TOPIC_LIMIT := by
  have h := byteLength_truncateToBytes (flattenPrompt prompt)
    (CHANNEL_DECISION_TOPIC_LIMIT - byteLength DECISION_ASK_TOPIC_PREFIX)
  have hroom : byteLength DECISION_ASK_TOPIC_PREFIX ≤ CHANNEL_DECISION_TOPIC_LIMIT := by decide
  rw [decisionAskLedgerTopic, byteLength_append]
  omega

end Decisions
end AgentParty
