import AgentParty.Lib.Lines
import AgentParty.Shared.Json

/-! The parser of Claude's `stream-json` output, `claude-stream-json.ts`: one JSON event a line, whose
text goes out line by line while it is being written. -/

namespace AgentParty
namespace ClaudeStream

open Mentions (Text isTrimmed NEWLINE SPACE)

def CLAUDE_STREAM_LINE_MAX_BYTES : ℕ := 4 * 1024 * 1024

def CLAUDE_STREAM_SOFT_WRAP_CHARS : ℕ := 120

def trim (text : Text) : Text := ((text.dropWhile isTrimmed).reverse.dropWhile isTrimmed).reverse

section Events

/-- What the parser reads from an event. -/
inductive StreamEvent
  | messageStart (id : Text)
  | textDelta (text : Text)
  | stop
  | assistant (id : Option Text) (blocks : List Text)
  | other

/-- The texts of the text blocks of a message. -/
def textBlocks (content : List Json) : List Text :=
  content.filterMap fun block =>
    if (block.get "type").isText "text" then (block.get "text").str? else none

def readStreamEvent (inner : Json) : StreamEvent :=
  let type := inner.get "type"
  let delta := inner.get "delta"
  match type.isText "message_start", ((inner.get "message").get "id").str? with
  | true, some id => .messageStart id
  | _, _ =>
    if type.isText "content_block_delta" ∧ (delta.get "type").isText "text_delta" then
      match (delta.get "text").str? with
      | some text => .textDelta text
      | none => .other
    else if type.isText "content_block_stop" ∨ type.isText "message_stop" then .stop
    else .other

def readEvent (event : Json) : StreamEvent :=
  let inner := event.get "event"
  let message := event.get "message"
  if (event.get "type").isText "stream_event" ∧ inner.isObject then readStreamEvent inner
  else if (event.get "type").isText "assistant" ∧ message.isObject then
    .assistant (message.get "id").str? (textBlocks ((message.get "content").arr?.getD []))
  else .other

end Events

/-- The fields of `ClaudeStreamJsonParser` but its buffer, and the lines its sink was given. -/
structure Speaker where
  text : Text
  streamedMessages : List Text
  currentMessage : Option Text
  emitted : List Text

namespace Speaker

def new : Speaker := ⟨[], [], none, []⟩

def emit (s : Speaker) (text : Text) : Speaker :=
  if trim text = [] then s else { s with emitted := s.emitted ++ [text] }

def lastIndexOf (text : Text) (unit : ℕ) : Option ℕ :=
  (text.reverse.findIdx? fun u => u = unit).map fun i => text.length - 1 - i

/-- `replace(/^ /, "")`. -/
def dropSpace : Text → Text
  | [] => []
  | u :: text => if u = SPACE then text else u :: text

theorem length_dropSpace_le (text : Text) : (dropSpace text).length ≤ text.length := by
  unfold dropSpace
  split
  · exact Nat.le_refl _
  · split <;> simp

/-- The loop of `flushText` that wraps what has no newline yet; what is left becomes the text. -/
def wrap (s : Speaker) (rest : Text) : Speaker :=
  if rest.length < CLAUDE_STREAM_SOFT_WRAP_CHARS then { s with text := rest }
  else
    match lastIndexOf rest SPACE with
    | some (cut + 1) => wrap (s.emit (rest.take (cut + 1))) (dropSpace (rest.drop (cut + 1)))
    | _ => { s.emit rest with text := [] }
termination_by rest.length
decreasing_by
  rename_i hlong
  have hdrop := length_dropSpace_le (rest.drop (cut + 1))
  have hpos : 0 < rest.length := lt_of_lt_of_le (by decide) (Nat.not_lt.1 hlong)
  rw [List.length_drop] at hdrop
  omega

def flushText (s : Speaker) (all : Bool) : Speaker :=
  if all then { (s.text.splitOn NEWLINE).foldl emit s with text := [] }
  else ((Lines.whole NEWLINE s.text).foldl emit s).wrap (Lines.unfinished NEWLINE s.text)

def handleEvent (s : Speaker) : StreamEvent → Speaker
  | .messageStart id => { s with currentMessage := some id }
  | .textDelta text =>
    { s with
      streamedMessages := s.currentMessage.toList ++ s.streamedMessages
      text := s.text ++ text }.flushText false
  | .stop => s.flushText true
  | .assistant id blocks =>
    if id.any fun id => id ∈ s.streamedMessages then s
    else (blocks.flatMap fun block => block.splitOn NEWLINE).foldl emit s
  | .other => s

variable (parse : Text → Option Json)

/-- The event of a line, if there is one. -/
def eventOf (raw : Text) : Option StreamEvent :=
  let trimmed := trim raw
  if trimmed.head? = some 123 then (parse trimmed).map readEvent else none

def handleLine (s : Speaker) (raw : Text) : Speaker :=
  match eventOf parse raw with
  | some event => s.handleEvent event
  | none => s

end Speaker

/-- `ClaudeStreamJsonParser`: its buffer, and the rest of its fields. -/
abbrev ClaudeStreamJsonParser := Framing.Reader ℕ Speaker

namespace ClaudeStreamJsonParser

variable (parse : Text → Option Json)

def new : ClaudeStreamJsonParser := ⟨Speaker.new, []⟩

def feed (p : ClaudeStreamJsonParser) (chunk : Text) : ClaudeStreamJsonParser :=
  let parts := Lines.whole NEWLINE (p.buffer ++ chunk)
  let rest := Lines.unfinished NEWLINE (p.buffer ++ chunk)
  let short := parts.filter fun part => part.length ≤ CLAUDE_STREAM_LINE_MAX_BYTES
  ⟨short.foldl (Speaker.handleLine parse) p.state,
    if CLAUDE_STREAM_LINE_MAX_BYTES < rest.length then [] else rest⟩

/-- `end`. -/
def finish (p : ClaudeStreamJsonParser) : Speaker :=
  (if trim p.buffer = [] then p.state else p.state.handleLine parse p.buffer).flushText true

end ClaudeStreamJsonParser

end ClaudeStream
end AgentParty
