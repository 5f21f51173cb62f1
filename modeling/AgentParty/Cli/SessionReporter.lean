import AgentParty.Lib.Lines
import AgentParty.Shared.Json
import AgentParty.Web.SessionOutputRing

/-! The reporter of a live session, `session-output.ts`: what a runner prints becomes bounded frames
for the channel, and the frames that end a session are kept until the connection takes them. -/

namespace AgentParty
namespace Reporter

open Mentions (Text isTrimmed NEWLINE CARRIAGE_RETURN)
open Web (SessionOutputKind SessionOutputLine SessionOutputState SessionOutputClientFrame)

@[irreducible] def SESSION_OUTPUT_PENDING_MAX : ℕ := 400
def SESSION_OUTPUT_TERMINAL_RETRIES : ℕ := 240
def SESSION_OUTPUT_LINE_MAX_CHARS : ℕ := 2000
def SESSION_OUTPUT_LINES_PER_FRAME : ℕ := 50

section Output

/-- What `\r?\n` leaves of a line that it ends. -/
def endedLine (line : Text) : Text :=
  if line.getLast? = some CARRIAGE_RETURN then line.dropLast else line

/-- The loop that cuts what has no newline: the pieces and the rest. -/
def cut (rest : Text) : List Text × Text :=
  if rest.length < SESSION_OUTPUT_LINE_MAX_CHARS then ([], rest)
  else
    let later := cut (rest.drop SESSION_OUTPUT_LINE_MAX_CHARS)
    (rest.take SESSION_OUTPUT_LINE_MAX_CHARS :: later.1, later.2)
termination_by rest.length
decreasing_by
  have hpos : 0 < SESSION_OUTPUT_LINE_MAX_CHARS := by decide
  rw [List.length_drop]
  omega

/-- A chunk behind what is left of the chunks before it: the lines it ends and what is left. -/
def splitOutput (partialLine text : Text) : List Text × Text :=
  let combined := partialLine ++ text
  let ended := (Lines.whole NEWLINE combined).map endedLine
  let rest := cut (Lines.unfinished NEWLINE combined)
  (ended ++ rest.1, rest.2)

end Output

inductive StreamName
  | stdout
  | stderr
  deriving DecidableEq

def StreamName.kind : StreamName → SessionOutputKind
  | .stdout => .stdout
  | .stderr => .stderr

/-- What is around the reporter: the sanitised text of a line, unless it is blank, and whether the
connection takes the frame of the n-th attempt to send. -/
structure Around where
  clean : Text → Option String
  takes : ℕ → Bool

/-- `SessionOutputReporter`. The last four fields are the trace of what happened: the attempts to
send, the frames that were taken, the lines the session was given and the lines of its frames. -/
structure SessionOutputReporter where
  sessionId : Option String
  taskSeq : Option ℕ
  pending : List SessionOutputLine
  stdout : Text
  stderr : Text
  dropped : ℕ
  timer : Bool
  lastTool : Option Text
  terminalBacklog : List SessionOutputClientFrame
  retryTimer : Bool
  retries : ℕ
  attempts : ℕ
  delivered : List SessionOutputClientFrame
  said : List SessionOutputLine
  flushed : List SessionOutputLine

namespace SessionOutputReporter

def new : SessionOutputReporter where
  sessionId := none
  taskSeq := none
  pending := []
  stdout := []
  stderr := []
  dropped := 0
  timer := false
  lastTool := none
  terminalBacklog := []
  retryTimer := false
  retries := 0
  attempts := 0
  delivered := []
  said := []
  flushed := []

variable (a : Around)

def trySend (s : SessionOutputReporter) (frame : SessionOutputClientFrame) :
    SessionOutputReporter × Bool :=
  if a.takes s.attempts then
    ({ s with attempts := s.attempts + 1, delivered := s.delivered ++ [frame] }, true)
  else ({ s with attempts := s.attempts + 1 }, false)

/-- The loop of `retryTerminal` over the backlog. -/
def sendBacklog (s : SessionOutputReporter) : List SessionOutputClientFrame → SessionOutputReporter
  | [] => { s with terminalBacklog := [] }
  | frame :: backlog =>
    let sent := s.trySend a frame
    if sent.2 then sendBacklog sent.1 backlog
    else { sent.1 with terminalBacklog := frame :: backlog }

def dropTerminalBacklog (s : SessionOutputReporter) : SessionOutputReporter :=
  { s with terminalBacklog := [], retryTimer := false }

def retryTerminal (s : SessionOutputReporter) : SessionOutputReporter :=
  let s := s.sendBacklog a s.terminalBacklog
  if s.terminalBacklog = [] then { s with retryTimer := false }
  else if s.retryTimer then s
  else if SESSION_OUTPUT_TERMINAL_RETRIES ≤ s.retries then s.dropTerminalBacklog
  else { s with retries := s.retries + 1, retryTimer := true }

/-- A line joins those that wait; of too many, the oldest are dropped. -/
def wait (s : SessionOutputReporter) (line : SessionOutputLine) : SessionOutputReporter :=
  let pending := s.pending ++ [line]
  let excess := pending.length - SESSION_OUTPUT_PENDING_MAX
  { s with
    pending := pending.drop excess
    dropped := s.dropped + excess
    timer := true
    said := s.said ++ [line] }

def enqueue (s : SessionOutputReporter) (kind : SessionOutputKind) (raw : Text) (now : Int) :
    SessionOutputReporter :=
  match a.clean raw with
  | none => s
  | some text => s.wait ⟨kind, text, now⟩

/-- The line that stands for `dropped` lines. -/
def dropNote (dropped : ℕ) (now : Int) : SessionOutputLine :=
  ⟨.system, "… " ++ toString dropped ++ " line(s) dropped (output rate limit)", now⟩

/-- The lines to send, with the note of what was dropped in front. -/
def noted (s : SessionOutputReporter) (now : Int) : List SessionOutputLine :=
  if 0 < s.dropped then dropNote s.dropped now :: s.pending else s.pending

/-- The frames of the end of a session: all of them but the last still say running. -/
def terminalFrames (sessionId : String) (taskSeq : Option ℕ) (state : SessionOutputState)
    (lines : List SessionOutputLine) : List SessionOutputClientFrame :=
  if lines.length ≤ SESSION_OUTPUT_LINES_PER_FRAME then [⟨sessionId, taskSeq, state, lines⟩]
  else
    ⟨sessionId, taskSeq, .running, lines.take SESSION_OUTPUT_LINES_PER_FRAME⟩ ::
      terminalFrames sessionId taskSeq state (lines.drop SESSION_OUTPUT_LINES_PER_FRAME)
termination_by lines.length
decreasing_by
  have hpos : 0 < SESSION_OUTPUT_LINES_PER_FRAME := by decide
  rw [List.length_drop]
  omega

/-- The frame of a session that goes on; what it does not hold waits for the next one. -/
def flushBatch (s : SessionOutputReporter) (sessionId : String) (now : Int) :
    SessionOutputReporter :=
  let lines := s.noted now
  let batch := lines.take SESSION_OUTPUT_LINES_PER_FRAME
  let rest := lines.drop SESSION_OUTPUT_LINES_PER_FRAME
  let s := { s with pending := rest, dropped := 0, flushed := s.flushed ++ batch }
  let s := (s.trySend a ⟨sessionId, s.taskSeq, .running, batch⟩).1
  { s with timer := s.timer || !rest.isEmpty }

/-- The frames of the end of a session, kept until they are taken. -/
def flushEnd (s : SessionOutputReporter) (sessionId : String) (state : SessionOutputState)
    (now : Int) : SessionOutputReporter :=
  let lines := s.noted now
  let s := { s with
    pending := [], dropped := 0, flushed := s.flushed ++ lines
    terminalBacklog := s.terminalBacklog ++ terminalFrames sessionId s.taskSeq state lines
    retries := 0 }
  { s.retryTerminal a with timer := false }

def flush (s : SessionOutputReporter) (state : SessionOutputState) (now : Int) :
    SessionOutputReporter :=
  match s.sessionId with
  | none => s
  | some sessionId =>
    if state = .running then s.flushBatch a sessionId now else s.flushEnd a sessionId state now

/-- The session id is gone: what is printed now belongs to no session. -/
def leave (s : SessionOutputReporter) : SessionOutputReporter :=
  { s with sessionId := none, taskSeq := none }

/-- What the loop of `end` does with a stream that has an unfinished line. -/
def endStream (s : SessionOutputReporter) (stream : StreamName) (now : Int) :
    SessionOutputReporter :=
  match stream with
  | .stdout =>
    { (if s.stdout = [] then s else s.enqueue a .stdout s.stdout now) with stdout := [] }
  | .stderr =>
    { (if s.stderr = [] then s else s.enqueue a .stderr s.stderr now) with stderr := [] }

/-- `end`. -/
def finish (s : SessionOutputReporter) (state : SessionOutputState) (note : Option Text)
    (now : Int) : SessionOutputReporter :=
  if s.sessionId = none then s
  else
    let s := (s.endStream a .stdout now).endStream a .stderr now
    let s := match note with
      | some note => if note = [] then s else s.enqueue a .system note now
      | none => s
    (s.flush a state now).leave

def begin (s : SessionOutputReporter) (taskSeq : Option ℕ) (note : Text) (sessionId : String)
    (now : Int) : SessionOutputReporter :=
  let s := s.finish a .failed (some (lit "superseded by a new run")) now
  let s := (s.retryTerminal a).dropTerminalBacklog
  let s := { s with
    sessionId := some sessionId, taskSeq := taskSeq, pending := [], stdout := [], stderr := []
    dropped := 0, lastTool := none, said := [], flushed := [] }
  (s.enqueue a .system note now).flush a .running now

def chunk (s : SessionOutputReporter) (stream : StreamName) (text : Text) (now : Int) :
    SessionOutputReporter :=
  if s.sessionId = none ∨ text = [] then s
  else
    match stream with
    | .stdout =>
      let out := splitOutput s.stdout text
      out.1.foldl (fun s raw => s.enqueue a .stdout raw now) { s with stdout := out.2 }
    | .stderr =>
      let out := splitOutput s.stderr text
      out.1.foldl (fun s raw => s.enqueue a .stderr raw now) { s with stderr := out.2 }

def line (s : SessionOutputReporter) (kind : SessionOutputKind) (text : Text) (now : Int) :
    SessionOutputReporter :=
  if s.sessionId = none then s else s.enqueue a kind text now

/-- The line of a tool that is called. -/
def toolLine (name : Text) : Text := [0x25b8, Mentions.SPACE] ++ name

def tool (s : SessionOutputReporter) (name : Option Text) (now : Int) : SessionOutputReporter :=
  match name with
  | none => s
  | some name =>
    if s.sessionId = none ∨ s.lastTool = some name then s
    else ({ s with lastTool := some name } : SessionOutputReporter).enqueue a .tool (toolLine name) now

def toolCall (s : SessionOutputReporter) (name : Text) (failed : Bool) (now : Int) :
    SessionOutputReporter :=
  if s.sessionId = none ∨ name.all isTrimmed then s
  else
    ({ s with lastTool := some name } : SessionOutputReporter).enqueue a .tool
      (if failed then [0x2717, Mentions.SPACE] ++ name ++ lit " failed" else toolLine name) now

/-- The timer of `schedule`. -/
def tick (s : SessionOutputReporter) (now : Int) : SessionOutputReporter :=
  if !s.timer then s
  else
    let s := { s with timer := false }
    if s.pending = [] ∧ s.dropped = 0 then s else s.flush a .running now

/-- The timer of `retryTerminal`. -/
def retryTick (s : SessionOutputReporter) : SessionOutputReporter :=
  if s.retryTimer then ({ s with retryTimer := false } : SessionOutputReporter).retryTerminal a else s

inductive Event
  | begin (taskSeq : Option ℕ) (note : Text) (sessionId : String) (now : Int)
  | chunk (stream : StreamName) (text : Text) (now : Int)
  | line (kind : SessionOutputKind) (text : Text) (now : Int)
  | tool (name : Option Text) (now : Int)
  | toolCall (name : Text) (failed : Bool) (now : Int)
  /-- `end`, with a state that is over. -/
  | finish (state : SessionOutputState) (hstate : state ≠ .running) (note : Option Text) (now : Int)
  | tick (now : Int)
  | retryTick

def next (s : SessionOutputReporter) : Event → SessionOutputReporter
  | .begin taskSeq note sessionId now => s.begin a taskSeq note sessionId now
  | .chunk stream text now => s.chunk a stream text now
  | .line kind text now => s.line a kind text now
  | .tool name now => s.tool a name now
  | .toolCall name failed now => s.toolCall a name failed now
  | .finish state _ note now => s.finish a state note now
  | .tick now => s.tick a now
  | .retryTick => s.retryTick a

end SessionOutputReporter

end Reporter
end AgentParty
