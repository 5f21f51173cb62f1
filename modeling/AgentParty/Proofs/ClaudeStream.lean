import AgentParty.Cli.ClaudeStream
import Mathlib.Data.List.Perm.Basic
import Mathlib.Data.List.TakeWhile

/-! The parser of Claude's stream over a whole output. The chunks in which the output arrives do not
matter while its lines are within the limit, no character of what Claude said is lost or said twice,
and the parser holds a bounded part of any output. -/

namespace AgentParty
namespace ClaudeStream

open Mentions (Text isTrimmed NEWLINE SPACE)

section Blanks

/-- The characters of a text that no trim takes away. -/
def solid (text : Text) : Text := text.filter fun u => !isTrimmed u

@[simp] theorem solid_nil : solid [] = [] := rfl

@[simp] theorem solid_append (text text' : Text) :
    solid (text ++ text') = solid text ++ solid text' := List.filter_append _ _

theorem solid_eq_nil {text : Text} : solid text = [] ↔ ∀ u ∈ text, isTrimmed u = true := by
  simp [solid, List.filter_eq_nil_iff]

theorem trim_eq_nil {text : Text} : trim text = [] ↔ solid text = [] := by
  rw [solid_eq_nil, trim, List.reverse_eq_nil_iff, List.dropWhile_eq_nil_iff]
  constructor
  · intro h u hu
    rw [← List.takeWhile_append_dropWhile (p := isTrimmed) (l := text)] at hu
    rcases List.mem_append.1 hu with hleft | hright
    · exact List.mem_takeWhile_imp hleft
    · exact h u (List.mem_reverse.2 hright)
  · exact fun h u hu => h u ((List.dropWhile_suffix _).subset (List.mem_reverse.1 hu))

theorem solid_newlines (text : Text) : solid (text.splitOn NEWLINE).flatten = solid text := by
  rw [Lines.flatten_splitOn, solid, solid, List.filter_filter]
  refine List.filter_congr fun u _ => ?_
  by_cases hu : u = NEWLINE
  · subst hu
    decide
  · simp [hu]

end Blanks

section Speech

namespace Speaker

/-- What was said so far: the lines that went out, and the text that waits. -/
def content (s : Speaker) : Text := solid s.emitted.flatten ++ solid s.text

@[simp] theorem emit_text (s : Speaker) (text : Text) : (s.emit text).text = s.text := by
  unfold emit; split <;> rfl

theorem emit_emitted (s : Speaker) (text : Text) :
    solid (s.emit text).emitted.flatten = solid s.emitted.flatten ++ solid text := by
  unfold emit
  split
  · rename_i h
    rw [trim_eq_nil.1 h, List.append_nil]
  · simp

@[simp] theorem emitAll_text (s : Speaker) (pieces : List Text) :
    (pieces.foldl emit s).text = s.text := by
  induction pieces generalizing s with
  | nil => rfl
  | cons piece pieces ih => exact (ih _).trans (emit_text s piece)

theorem emitAll_emitted (s : Speaker) (pieces : List Text) :
    solid (pieces.foldl emit s).emitted.flatten =
      solid s.emitted.flatten ++ solid pieces.flatten := by
  induction pieces generalizing s with
  | nil => simp
  | cons piece pieces ih =>
    rw [List.foldl_cons, ih, emit_emitted, List.flatten_cons, solid_append, List.append_assoc]

theorem solid_dropSpace (text : Text) : solid (dropSpace text) = solid text := by
  unfold dropSpace
  split
  · rfl
  · split
    · rename_i h
      subst h
      rfl
    · rfl

theorem wrap_content (s : Speaker) (rest : Text) :
    (s.wrap rest).content = solid s.emitted.flatten ++ solid rest := by
  induction hn : rest.length using Nat.strong_induction_on generalizing rest s with
  | _ n ih =>
    rw [wrap]
    split
    · rfl
    · rename_i hlong
      split
      · rename_i cut hcut
        have hpos : 0 < rest.length := lt_of_lt_of_le (by decide) (Nat.not_lt.1 hlong)
        have hdrop := length_dropSpace_le (rest.drop (cut + 1))
        rw [List.length_drop] at hdrop
        rw [ih _ (by omega) _ _ rfl, emit_emitted, solid_dropSpace, List.append_assoc,
          ← solid_append, List.take_append_drop]
      · rw [content, emit_emitted]
        simp

theorem flushText_content (s : Speaker) (all : Bool) : (s.flushText all).content = s.content := by
  cases all with
  | true =>
    rw [flushText, if_pos rfl, content, content, emitAll_emitted, solid_newlines]
    simp
  | false =>
    have hsplit := solid_newlines s.text
    rw [Lines.splitOn_eq_append, List.flatten_append, solid_append] at hsplit
    rw [flushText, if_neg (by simp), wrap_content, emitAll_emitted, content, ← hsplit,
      List.append_assoc]
    simp

/-- What an event says: the text of a delta, or a whole message of which no delta was seen. -/
def said (s : Speaker) : StreamEvent → Text
  | .textDelta text => text
  | .assistant id blocks => if id.any fun id => id ∈ s.streamedMessages then [] else blocks.flatten
  | _ => []

theorem solid_blocks (blocks : List Text) :
    solid (blocks.flatMap fun block => block.splitOn NEWLINE).flatten = solid blocks.flatten := by
  induction blocks with
  | nil => rfl
  | cons block blocks ih =>
    rw [List.flatMap_cons, List.flatten_append, solid_append, solid_newlines, ih,
      List.flatten_cons, solid_append]

theorem handleEvent_content (s : Speaker) (event : StreamEvent) :
    ((s.handleEvent event).content).Perm (s.content ++ solid (s.said event)) ∧
    (solid s.text = [] ∨ (∀ id blocks, event ≠ .assistant id blocks) →
      (s.handleEvent event).content = s.content ++ solid (s.said event)) := by
  have hexact : ∀ {t : Text}, (s.handleEvent event).content = s.content ++ solid t →
      s.said event = t → ((s.handleEvent event).content).Perm (s.content ++ solid (s.said event)) ∧
        (solid s.text = [] ∨ (∀ id blocks, event ≠ .assistant id blocks) →
          (s.handleEvent event).content = s.content ++ solid (s.said event)) := by
    rintro t h rfl
    exact ⟨h ▸ .refl _, fun _ => h⟩
  cases event with
  | messageStart id => exact hexact (t := []) (by simp [handleEvent, content]) rfl
  | textDelta text =>
    refine hexact (t := text) ?_ rfl
    rw [handleEvent, flushText_content]
    simp [content]
  | stop => exact hexact (t := []) (by simp [handleEvent, flushText_content]) rfl
  | other => exact hexact (t := []) (by simp [handleEvent]) rfl
  | assistant id blocks =>
    rw [handleEvent, said]
    split
    · simp
    · rw [content, content, emitAll_text, emitAll_emitted, solid_blocks]
      constructor
      · rw [List.append_assoc, List.append_assoc]
        exact List.perm_append_comm.append_left _
      · rintro (hblank | hnot)
        · simp [hblank]
        · exact absurd rfl (hnot id blocks)

/-- What a list of events says, after a start of a message and deltas of some messages. -/
def speech (current : Option Text) (streamed : List Text) : List StreamEvent → Text
  | [] => []
  | .messageStart id :: events => speech (some id) streamed events
  | .textDelta text :: events => text ++ speech current (current.toList ++ streamed) events
  | .assistant id blocks :: events =>
    (if id.any fun id => id ∈ streamed then [] else blocks.flatten) ++
      speech current streamed events
  | _ :: events => speech current streamed events

/-- A whole message comes when the deltas before it were stopped. -/
def InTurn : Bool → List StreamEvent → Bool
  | _, [] => true
  | _, .textDelta _ :: events => InTurn true events
  | _, .stop :: events => InTurn false events
  | delta, .assistant _ _ :: events => !delta && InTurn delta events
  | delta, _ :: events => InTurn delta events

@[simp] theorem emit_known (s : Speaker) (text : Text) :
    (s.emit text).currentMessage = s.currentMessage ∧
      (s.emit text).streamedMessages = s.streamedMessages := by
  unfold emit; split <;> exact ⟨rfl, rfl⟩

theorem emitAll_known (s : Speaker) (pieces : List Text) :
    (pieces.foldl emit s).currentMessage = s.currentMessage ∧
      (pieces.foldl emit s).streamedMessages = s.streamedMessages := by
  induction pieces generalizing s with
  | nil => exact ⟨rfl, rfl⟩
  | cons piece pieces ih =>
    exact ⟨(ih _).1.trans (emit_known s piece).1, (ih _).2.trans (emit_known s piece).2⟩

theorem wrap_known (s : Speaker) (rest : Text) :
    (s.wrap rest).currentMessage = s.currentMessage ∧
      (s.wrap rest).streamedMessages = s.streamedMessages := by
  induction hn : rest.length using Nat.strong_induction_on generalizing rest s with
  | _ n ih =>
    rw [wrap]
    split
    · exact ⟨rfl, rfl⟩
    · rename_i hlong
      split
      · rename_i cut hcut
        have hpos : 0 < rest.length := lt_of_lt_of_le (by decide) (Nat.not_lt.1 hlong)
        have hdrop := length_dropSpace_le (rest.drop (cut + 1))
        rw [List.length_drop] at hdrop
        have hrest := ih (dropSpace (rest.drop (cut + 1))).length (by omega)
          (s.emit (rest.take (cut + 1))) _ rfl
        exact ⟨hrest.1.trans (emit_known ..).1, hrest.2.trans (emit_known ..).2⟩
      · exact emit_known s rest

theorem flushText_known (s : Speaker) (all : Bool) :
    (s.flushText all).currentMessage = s.currentMessage ∧
      (s.flushText all).streamedMessages = s.streamedMessages := by
  unfold flushText
  split
  · exact emitAll_known s _
  · exact ⟨(wrap_known _ _).1.trans (emitAll_known s _).1,
      (wrap_known _ _).2.trans (emitAll_known s _).2⟩

theorem speech_cons (s : Speaker) (event : StreamEvent) (events : List StreamEvent) :
    speech s.currentMessage s.streamedMessages (event :: events) =
      s.said event ++ speech (s.handleEvent event).currentMessage
        (s.handleEvent event).streamedMessages events := by
  cases event with
  | messageStart id => rfl
  | textDelta text =>
    rw [handleEvent, (flushText_known _ _).1, (flushText_known _ _).2]
    rfl
  | stop =>
    rw [handleEvent, (flushText_known _ _).1, (flushText_known _ _).2]
    rfl
  | other => rfl
  | assistant id blocks =>
    rw [handleEvent, speech, said]
    split
    · rfl
    · rw [(emitAll_known _ _).1, (emitAll_known _ _).2]

theorem flushText_true_text (s : Speaker) : (s.flushText true).text = [] := rfl

/-- A run over events says what they say; in their order, where whole messages come in turn. -/
theorem handleEvents_content (s : Speaker) (events : List StreamEvent) :
    ((events.foldl handleEvent s).content).Perm
      (s.content ++ solid (speech s.currentMessage s.streamedMessages events)) ∧
    ∀ delta, (delta = false → solid s.text = []) → InTurn delta events = true →
      (events.foldl handleEvent s).content =
        s.content ++ solid (speech s.currentMessage s.streamedMessages events) := by
  induction events generalizing s with
  | nil => exact ⟨by simp [speech], fun _ _ _ => by simp [speech]⟩
  | cons event events ih =>
    obtain ⟨hperm, hexact⟩ := handleEvent_content s event
    obtain ⟨hperm', hexact'⟩ := ih (s.handleEvent event)
    rw [List.foldl_cons, speech_cons, solid_append, ← List.append_assoc]
    refine ⟨hperm'.trans (hperm.append_right _), fun delta htext hturn => ?_⟩
    cases event with
    | messageStart id =>
      rw [hexact' delta htext hturn, hexact (.inr fun _ _ => nofun)]
    | textDelta text =>
      rw [hexact' true (by simp) hturn, hexact (.inr fun _ _ => nofun)]
    | stop =>
      rw [hexact' false (fun _ => rfl) hturn, hexact (.inr fun _ _ => nofun)]
    | other =>
      rw [hexact' delta htext hturn, hexact (.inr fun _ _ => nofun)]
    | assistant id blocks =>
      obtain ⟨hstopped, hturn⟩ : delta = false ∧ InTurn delta events = true := by
        simpa [InTurn] using hturn
      have hblank := htext hstopped
      refine (hexact' delta (fun _ => ?_) hturn).trans (by rw [hexact (.inl hblank)])
      rw [handleEvent]
      split
      · exact hblank
      · rwa [emitAll_text]

end Speaker

end Speech

section Chunks

variable (parse : Text → Option Json)

/-- The lines of an output within the limit. -/
def Short (text : Text) : Prop :=
  ∀ line ∈ text.splitOn NEWLINE, line.length ≤ CLAUDE_STREAM_LINE_MAX_BYTES

theorem Short.part {text tail : Text} (h : Short (text ++ tail)) : Short text := by
  intro line hline
  rw [Lines.splitOn_eq_append] at hline
  rcases List.mem_append.1 hline with hwhole | hlast
  · refine h line ?_
    rw [Lines.splitOn_append]
    exact List.mem_append_left _ hwhole
  · obtain ⟨line', hline', hprefix⟩ := Lines.unfinished_prefix NEWLINE text tail
    rw [List.mem_singleton.1 hlast]
    exact hprefix.length_le.trans (h line' hline')

/-- A reader of lines that hands every line on. -/
abbrev read : ClaudeStreamJsonParser → Text → ClaudeStreamJsonParser :=
  Framing.feed (Lines.splitter NEWLINE) (Lines.consumer (Speaker.handleLine parse))

theorem read_eq (p : ClaudeStreamJsonParser) (chunk : Text) :
    read parse p chunk =
      ⟨(Lines.whole NEWLINE (p.buffer ++ chunk)).foldl (Speaker.handleLine parse) p.state,
        Lines.unfinished NEWLINE (p.buffer ++ chunk)⟩ := by
  rw [read, Framing.feed_going rfl, Lines.drain_eq]

theorem feed_eq_read {p : ClaudeStreamJsonParser} {chunk : Text} (h : Short (p.buffer ++ chunk)) :
    p.feed parse chunk = read parse p chunk := by
  rw [read_eq, ClaudeStreamJsonParser.feed]
  have hall : ∀ line ∈ Lines.whole NEWLINE (p.buffer ++ chunk),
      line.length ≤ CLAUDE_STREAM_LINE_MAX_BYTES := fun line hline => h line (by
    rw [Lines.splitOn_eq_append]
    exact List.mem_append_left _ hline)
  have hlast := h (Lines.unfinished NEWLINE (p.buffer ++ chunk)) (by
    rw [Lines.splitOn_eq_append]
    exact List.mem_append_right _ (List.mem_singleton.2 rfl))
  rw [List.filter_eq_self.2 fun line hline => decide_eq_true (hall line hline),
    if_neg (Nat.not_lt.2 hlast)]

theorem Short.rest {text tail : Text} (h : Short (text ++ tail)) :
    Short (Lines.unfinished NEWLINE text ++ tail) := by
  intro line hline
  refine h line ?_
  rw [Lines.splitOn_append]
  exact List.mem_append_right _ hline

theorem feed_chunks_eq_read {p : ClaudeStreamJsonParser} {chunks : List Text}
    (h : Short (p.buffer ++ chunks.flatten)) :
    chunks.foldl (ClaudeStreamJsonParser.feed parse) p = chunks.foldl (read parse) p := by
  induction chunks generalizing p with
  | nil => rfl
  | cons chunk chunks ih =>
    rw [List.flatten_cons, ← List.append_assoc] at h
    rw [List.foldl_cons, List.foldl_cons, feed_eq_read parse h.part]
    refine ih ?_
    rw [read_eq]
    exact h.rest

/-- An output within the limit is read as one chunk, however it was cut. -/
theorem feed_chunks {chunks : List Text} (h : Short chunks.flatten) :
    chunks.foldl (ClaudeStreamJsonParser.feed parse) .new =
      ⟨(Lines.whole NEWLINE chunks.flatten).foldl (Speaker.handleLine parse) .new,
        Lines.unfinished NEWLINE chunks.flatten⟩ := by
  have hsame := Framing.feed_chunks (Lines.consumer_lawful NEWLINE (Speaker.handleLine parse))
    (r := ClaudeStreamJsonParser.new) (fun _ => rfl) chunks
  have hone := read_eq parse .new chunks.flatten
  rw [feed_chunks_eq_read parse (p := .new) h]
  have hstate := hsame.1.2.2 rfl
  have hbuffer := hsame.2 rfl
  rw [show ClaudeStreamJsonParser.new.buffer ++ chunks.flatten = chunks.flatten from rfl] at hone
  rw [← show ClaudeStreamJsonParser.new.state = Speaker.new from rfl, ← hone]
  exact congrArg₂ Framing.Reader.mk hstate hbuffer

theorem handleLines_eq (s : Speaker) (lines : List Text) :
    lines.foldl (Speaker.handleLine parse) s =
      (lines.filterMap (Speaker.eventOf parse)).foldl Speaker.handleEvent s := by
  induction lines generalizing s with
  | nil => rfl
  | cons line lines ih =>
    rw [List.foldl_cons, ih, List.filterMap_cons, Speaker.handleLine]
    split <;> simp_all

/-- At the end of an output within the limit, what went out is what its events say: the text deltas,
and the messages of which no delta was streamed. No character but blanks is lost, added or said
twice; and where whole messages come after the deltas before them were stopped, they are in order. -/
theorem speech_reported (chunks : List Text) (h : Short chunks.flatten) :
    let out := ((chunks.foldl (ClaudeStreamJsonParser.feed parse) .new).finish parse).emitted
    let events := (chunks.flatten.splitOn NEWLINE).filterMap (Speaker.eventOf parse)
    (solid out.flatten).Perm (solid (Speaker.speech none [] events)) ∧
    (Speaker.InTurn false events = true →
      solid out.flatten = solid (Speaker.speech none [] events)) := by
  intro out events
  have hlast : (chunks.foldl (ClaudeStreamJsonParser.feed parse) .new).finish parse =
      (events.foldl Speaker.handleEvent .new).flushText true := by
    have hevents : events.foldl Speaker.handleEvent .new =
        ((Lines.whole NEWLINE chunks.flatten).foldl (Speaker.handleLine parse) .new).handleLine
          parse (Lines.unfinished NEWLINE chunks.flatten) := by
      rw [← handleLines_eq, Lines.splitOn_eq_append, List.foldl_append]
      rfl
    rw [feed_chunks parse h, ClaudeStreamJsonParser.finish, hevents]
    dsimp only
    split
    · rename_i hblank
      have hnone : Speaker.eventOf parse (Lines.unfinished NEWLINE chunks.flatten) = none := by
        rw [Speaker.eventOf, hblank]
        rfl
      rw [Speaker.handleLine, hnone]
    · rfl
  have hcontent : solid out.flatten = (events.foldl Speaker.handleEvent .new).content := by
    rw [← Speaker.flushText_content _ true, ← hlast, Speaker.content, hlast,
      Speaker.flushText_true_text, solid_nil, List.append_nil, ← hlast]
  obtain ⟨hperm, hexact⟩ := Speaker.handleEvents_content .new events
  rw [hcontent]
  exact ⟨by simpa [Speaker.content, Speaker.new] using hperm, fun hturn => by
    simpa [Speaker.content, Speaker.new] using hexact false (fun _ => rfl) hturn⟩

/-- A line with one delta. -/
def deltaLine (text : Text) : Text :=
  lit "\x7b\"type\":\"stream_event\",\"event\":\x7b\"type\":\"content_block_delta\"," ++
    lit "\"delta\":\x7b\"type\":\"text_delta\",\"text\":\"" ++ text ++ lit "\"\x7d\x7d\x7d"

/-- `JSON.parse` of the lines with one delta whose text needs no escapes. -/
def parseDelta (raw : Text) : Option Json :=
  let frame := (deltaLine []).length
  let text := (raw.drop (frame - 4)).take (raw.length - frame)
  if raw = deltaLine text ∧ ∀ u ∈ text, 32 ≤ u ∧ u ≠ 34 ∧ u ≠ 92 then
    some (.obj [(lit "type", .str (lit "stream_event")),
      (lit "event", .obj [(lit "type", .str (lit "content_block_delta")),
        (lit "delta", .obj [(lit "type", .str (lit "text_delta")), (lit "text", .str text)])])])
  else none

/-- Two lines, cut within the first and behind the first unit of the second. -/
def deltaChunks : List Text :=
  [(deltaLine (lit "Hello")).take 60,
    (deltaLine (lit "Hello")).drop 60 ++ [NEWLINE] ++ (deltaLine (lit " world")).take 1,
    (deltaLine (lit " world")).drop 1]

theorem speech_reported_deltas :
    let events := (deltaChunks.flatten.splitOn NEWLINE).filterMap (Speaker.eventOf parseDelta)
    let parsed := deltaChunks.foldl (ClaudeStreamJsonParser.feed parseDelta) .new
    let out := (parsed.finish parseDelta).emitted
    solid out.flatten = solid (Speaker.speech none [] events) ∧
      Speaker.speech none [] events = lit "Hello world" :=
  ⟨(speech_reported parseDelta deltaChunks (by unfold Short; decide +kernel)).2 (by decide +kernel),
    by decide +kernel⟩

end Chunks

section Bounds

namespace Speaker

/-- What went out are lines, and none of them is blank. -/
def Emitted (s : Speaker) : Prop := ∀ line ∈ s.emitted, trim line ≠ [] ∧ NEWLINE ∉ line

structure Bounded (s : Speaker) : Prop where
  text : s.text.length < CLAUDE_STREAM_SOFT_WRAP_CHARS
  lines : s.Emitted

variable {s : Speaker}

theorem Emitted.emit (h : s.Emitted) {text : Text} (htext : NEWLINE ∉ text) :
    (s.emit text).Emitted := by
  unfold Speaker.emit
  split
  · exact h
  · rename_i hsolid
    intro line hline
    rcases List.mem_append.1 hline with hold | hnew
    · exact h line hold
    · rw [List.mem_singleton.1 hnew]
      exact ⟨hsolid, htext⟩

theorem Emitted.emitAll (h : s.Emitted) {pieces : List Text}
    (hpieces : ∀ piece ∈ pieces, NEWLINE ∉ piece) : (pieces.foldl Speaker.emit s).Emitted := by
  induction pieces generalizing s with
  | nil => exact h
  | cons piece pieces ih =>
    exact ih (h.emit (hpieces piece List.mem_cons_self))
      fun piece' hpiece' => hpieces piece' (List.mem_cons_of_mem piece hpiece')

theorem mem_of_mem_dropSpace {text : Text} {u : ℕ} (h : u ∈ dropSpace text) : u ∈ text := by
  unfold dropSpace at h
  split at h
  · exact h
  · split at h
    · exact List.mem_cons_of_mem _ h
    · exact h

theorem Emitted.wrap (h : s.Emitted) {rest : Text} (hrest : NEWLINE ∉ rest) :
    (s.wrap rest).Bounded := by
  induction hn : rest.length using Nat.strong_induction_on generalizing rest s with
  | _ n ih =>
    rw [Speaker.wrap]
    split
    · rename_i hshort
      exact ⟨hshort, h⟩
    · rename_i hlong
      split
      · rename_i cut hcut
        have hpos : 0 < rest.length := lt_of_lt_of_le (by decide) (Nat.not_lt.1 hlong)
        have hdrop := length_dropSpace_le (rest.drop (cut + 1))
        rw [List.length_drop] at hdrop
        exact ih (dropSpace (rest.drop (cut + 1))).length (by omega)
          (h.emit fun hmem => hrest (List.mem_of_mem_take hmem))
          (fun hmem => hrest (List.mem_of_mem_drop (mem_of_mem_dropSpace hmem))) rfl
      · exact ⟨Nat.zero_lt_succ _, h.emit hrest⟩

theorem Emitted.flushText (h : s.Emitted) (all : Bool) : (s.flushText all).Bounded := by
  cases all with
  | true =>
    exact ⟨Nat.zero_lt_succ _, h.emitAll fun piece hpiece => Lines.notMem_of_mem_splitOn hpiece⟩
  | false =>
    have hlines : ∀ piece ∈ Lines.whole NEWLINE s.text, NEWLINE ∉ piece := fun piece hpiece =>
      Lines.notMem_of_mem_splitOn (List.mem_of_mem_dropLast hpiece)
    have hlast : NEWLINE ∉ Lines.unfinished NEWLINE s.text :=
      Lines.notMem_of_mem_splitOn (List.getLast_mem (List.splitOn_ne_nil NEWLINE s.text))
    exact (h.emitAll hlines).wrap hlast

theorem Bounded.handleEvent (h : s.Bounded) (event : StreamEvent) :
    (s.handleEvent event).Bounded := by
  cases event with
  | messageStart id => exact ⟨h.text, h.lines⟩
  | textDelta text => exact Emitted.flushText (s := { s with
      streamedMessages := s.currentMessage.toList ++ s.streamedMessages
      text := s.text ++ text }) h.lines false
  | stop => exact Emitted.flushText h.lines true
  | other => exact h
  | assistant id blocks =>
    rw [Speaker.handleEvent]
    split
    · exact h
    · refine ⟨by rw [emitAll_text]; exact h.text, Emitted.emitAll h.lines fun piece hpiece => ?_⟩
      obtain ⟨block, -, hblock⟩ := List.mem_flatMap.1 hpiece
      exact Lines.notMem_of_mem_splitOn hblock

theorem Bounded.handleLine (h : s.Bounded) (parse : Text → Option Json) (raw : Text) :
    (s.handleLine parse raw).Bounded := by
  unfold Speaker.handleLine
  split
  · exact h.handleEvent _
  · exact h

end Speaker

/-- Of any output, in any chunks, at most a line of the limit and less than a wrapped line of text
are kept between two chunks; and what goes out are lines, none of them blank. -/
theorem parser_bounded (parse : Text → Option Json) (chunks : List Text) :
    let p := chunks.foldl (ClaudeStreamJsonParser.feed parse) .new
    p.buffer.length ≤ CLAUDE_STREAM_LINE_MAX_BYTES ∧
    p.state.text.length < CLAUDE_STREAM_SOFT_WRAP_CHARS ∧
    ∀ line ∈ (p.finish parse).emitted, trim line ≠ [] ∧ NEWLINE ∉ line := by
  have hstep : ∀ (p : ClaudeStreamJsonParser) (chunk : Text), p.state.Bounded →
      (p.feed parse chunk).state.Bounded ∧
        (p.feed parse chunk).buffer.length ≤ CLAUDE_STREAM_LINE_MAX_BYTES := by
    intro p chunk hp
    constructor
    · show Speaker.Bounded (List.foldl _ _ _)
      generalize List.filter _ (Lines.whole NEWLINE (p.buffer ++ chunk)) = lines
      generalize p.state = s at hp
      induction lines generalizing s with
      | nil => exact hp
      | cons line lines ih => exact ih _ (hp.handleLine parse line)
    · show (if _ then _ else _ : Text).length ≤ _
      split
      · exact Nat.zero_le _
      · rename_i hlength
        exact Nat.not_lt.1 hlength
  have hrun : ∀ p : ClaudeStreamJsonParser, p.state.Bounded →
      p.buffer.length ≤ CLAUDE_STREAM_LINE_MAX_BYTES →
      (chunks.foldl (ClaudeStreamJsonParser.feed parse) p).state.Bounded ∧
        (chunks.foldl (ClaudeStreamJsonParser.feed parse) p).buffer.length ≤
          CLAUDE_STREAM_LINE_MAX_BYTES := by
    induction chunks with
    | nil => exact fun p hp hbuffer => ⟨hp, hbuffer⟩
    | cons chunk chunks ih => exact fun p hp _ => ih _ (hstep p chunk hp).1 (hstep p chunk hp).2
  obtain ⟨hbounded, hbuffer⟩ := hrun .new ⟨by decide, fun line hline => by cases hline⟩
    (Nat.zero_le _)
  refine ⟨hbuffer, hbounded.text, ?_⟩
  unfold ClaudeStreamJsonParser.finish
  split
  · exact (Speaker.Emitted.flushText hbounded.lines true).lines
  · exact (Speaker.Emitted.flushText (hbounded.handleLine parse _).lines true).lines

end Bounds

end ClaudeStream
end AgentParty
