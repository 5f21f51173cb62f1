import AgentParty.Cli.SessionReporter

/-! The reporter of live sessions over a whole run. What its frames hold of a session is what the
session was given, but for runs of lines in whose place stands a line with their number. The
connection is given the sessions one after the other, each with its end last, and an end that the
connection does not take is retried until the retries are used up. -/

namespace AgentParty
namespace Reporter

open Mentions (Text isTrimmed NEWLINE CARRIAGE_RETURN)
open Web (SessionOutputKind SessionOutputLine SessionOutputState SessionOutputClientFrame)

section Output

theorem cut_spec (rest : Text) :
    (cut rest).1.flatten ++ (cut rest).2 = rest ∧
      (cut rest).2.length < SESSION_OUTPUT_LINE_MAX_CHARS := by
  induction hn : rest.length using Nat.strong_induction_on generalizing rest with
  | _ n ih =>
    rw [cut]
    split
    · rename_i hshort
      exact ⟨rfl, hshort⟩
    · rename_i hlong
      have hpos : 0 < SESSION_OUTPUT_LINE_MAX_CHARS := by decide
      obtain ⟨hflatten, hlength⟩ := ih (rest.drop SESSION_OUTPUT_LINE_MAX_CHARS).length
        (by rw [List.length_drop]; omega) _ rfl
      refine ⟨?_, hlength⟩
      dsimp only
      rw [List.flatten_cons, List.append_assoc, hflatten, List.take_append_drop]

/-- A text without its line ends. -/
def printed (text : Text) : Text := text.filter fun u => u ≠ NEWLINE ∧ u ≠ CARRIAGE_RETURN

theorem printed_append (text text' : Text) :
    printed (text ++ text') = printed text ++ printed text' := List.filter_append _ _

theorem printed_endedLine (line : Text) : printed (endedLine line) = printed line := by
  unfold endedLine
  split
  · rename_i h
    obtain ⟨front, rfl⟩ : ∃ front, line = front ++ [CARRIAGE_RETURN] :=
      ⟨line.dropLast, (List.dropLast_append_getLast? _ h).symm⟩
    rw [List.dropLast_concat, printed_append]
    simp [printed]
  · rfl

theorem printed_lines (lines : List Text) :
    printed (lines.map endedLine).flatten = printed lines.flatten := by
  induction lines with
  | nil => rfl
  | cons line lines ih =>
    rw [List.map_cons, List.flatten_cons, List.flatten_cons, printed_append, printed_append, ih,
      printed_endedLine]

theorem printed_split (text : Text) : printed (text.splitOn NEWLINE).flatten = printed text := by
  rw [Lines.flatten_splitOn, printed, printed, List.filter_filter]
  refine List.filter_congr fun u _ => ?_
  by_cases hu : u = NEWLINE <;> simp [hu]

/-- A chunk adds to the lines of its stream what it prints, and leaves less than a line. -/
theorem splitOutput_spec (partialLine text : Text) :
    printed ((splitOutput partialLine text).1.flatten ++ (splitOutput partialLine text).2) =
      printed (partialLine ++ text) ∧
    (splitOutput partialLine text).2.length < SESSION_OUTPUT_LINE_MAX_CHARS := by
  obtain ⟨hcut, hlength⟩ := cut_spec (Lines.unfinished NEWLINE (partialLine ++ text))
  refine ⟨?_, hlength⟩
  have hlines := printed_split (partialLine ++ text)
  rw [Lines.splitOn_eq_append, List.flatten_append, printed_append] at hlines
  rw [splitOutput]
  dsimp only
  rw [List.flatten_append, List.append_assoc, hcut, printed_append, printed_lines, ← hlines]
  simp

theorem splitOutput_line (partialLine text : Text) :
    (∀ line ∈ (splitOutput partialLine text).1, NEWLINE ∉ line) ∧
      NEWLINE ∉ (splitOutput partialLine text).2 := by
  obtain ⟨hcut, -⟩ := cut_spec (Lines.unfinished NEWLINE (partialLine ++ text))
  have hsplit := Lines.splitOn_eq_append NEWLINE (partialLine ++ text)
  have hlast : NEWLINE ∉ Lines.unfinished NEWLINE (partialLine ++ text) := by
    have hmem : Lines.unfinished NEWLINE (partialLine ++ text) ∈
        (partialLine ++ text).splitOn NEWLINE :=
      hsplit ▸ List.mem_append_right _ (List.mem_singleton_self _)
    exact Lines.notMem_of_mem_splitOn hmem
  constructor
  · intro line hline hmem
    rcases List.mem_append.1 hline with hended | hpiece
    · obtain ⟨whole, hwhole, rfl⟩ := List.mem_map.1 hended
      have hline' : whole ∈ (partialLine ++ text).splitOn NEWLINE :=
        hsplit ▸ List.mem_append_left _ hwhole
      refine Lines.notMem_of_mem_splitOn hline' ?_
      unfold endedLine at hmem
      split at hmem
      · exact List.dropLast_subset _ hmem
      · exact hmem
    · refine hlast (hcut ▸ List.mem_append_left _ ?_)
      exact List.mem_flatten.2 ⟨line, hpiece, hmem⟩
  · exact fun hmem => hlast (hcut ▸ List.mem_append_right _ hmem)

end Output

section Flow

/-- The second list is the first, where a line of their number stands for each run of lines that was
dropped. -/
inductive Abridged : List SessionOutputLine → List SessionOutputLine → Prop
  | nil : Abridged [] []
  | keep {said shown} (line) : Abridged said shown → Abridged (said ++ [line]) (shown ++ [line])
  | drop {said shown} (run : List SessionOutputLine) (hrun : run ≠ []) (now) :
      Abridged said shown →
      Abridged (said ++ run) (shown ++ [SessionOutputReporter.dropNote run.length now])

theorem Abridged.keepAll {said shown : List SessionOutputLine} (h : Abridged said shown)
    (lines : List SessionOutputLine) : Abridged (said ++ lines) (shown ++ lines) := by
  induction lines using List.reverseRecOn with
  | nil => simpa using h
  | append_singleton lines line ih =>
    rw [← List.append_assoc, ← List.append_assoc]
    exact ih.keep line

namespace SessionOutputReporter

/-- What the session was given is what its frames hold, then the lines that were dropped since, then
those that wait. -/
structure Flow (s : SessionOutputReporter) : Prop where
  said : ∃ sent run, s.said = sent ++ run ++ s.pending ∧ Abridged sent s.flushed ∧
    run.length = s.dropped
  bounded : s.pending.length ≤ SESSION_OUTPUT_PENDING_MAX

variable {a : Around} {s : SessionOutputReporter}

theorem Flow.congr (h : s.Flow) {s' : SessionOutputReporter} (hsaid : s'.said = s.said)
    (hpending : s'.pending = s.pending) (hflushed : s'.flushed = s.flushed)
    (hdropped : s'.dropped = s.dropped) : s'.Flow := by
  constructor
  · rw [hsaid, hpending, hflushed, hdropped]
    exact h.said
  · rw [hpending]
    exact h.bounded

/-- Of the lines that wait, the oldest are dropped. -/
theorem shift (sent run lines : List SessionOutputLine) (most : ℕ) :
    ∃ run', sent ++ run ++ lines = sent ++ run' ++ lines.drop (lines.length - most) ∧
      run'.length = run.length + (lines.length - most) := by
  refine ⟨run ++ lines.take (lines.length - most), ?_, ?_⟩
  · rw [List.append_assoc sent (run ++ _), List.append_assoc run, List.take_append_drop,
      List.append_assoc]
  · rw [List.length_append, List.length_take, Nat.min_eq_left (Nat.sub_le _ _)]

theorem enqueue_none {raw : Text} (h : a.clean raw = none) (kind : SessionOutputKind) (now : Int) :
    s.enqueue a kind raw now = s := by
  rw [SessionOutputReporter.enqueue, h]

theorem enqueue_some {raw : Text} {text : String} (h : a.clean raw = some text)
    (kind : SessionOutputKind) (now : Int) :
    s.enqueue a kind raw now = s.wait ⟨kind, text, now⟩ := by
  rw [SessionOutputReporter.enqueue, h]

theorem Flow.wait (h : s.Flow) (line : SessionOutputLine) : (s.wait line).Flow := by
  obtain ⟨sent, run, hsaid, habridged, hrun⟩ := h.said
  obtain ⟨run', hsplit, hlength⟩ := shift sent run (s.pending ++ [line]) SESSION_OUTPUT_PENDING_MAX
  constructor
  · refine ⟨sent, run', ?_, habridged, ?_⟩
    · show s.said ++ [line] = _
      rw [hsaid, List.append_assoc]
      exact hsplit
    · rw [hlength, hrun]
      rfl
  · show ((s.pending ++ [line]).drop _).length ≤ _
    rw [List.length_drop]
    omega

theorem Flow.enqueue (h : s.Flow) (kind : SessionOutputKind) (raw : Text) (now : Int) :
    (s.enqueue a kind raw now).Flow := by
  cases hclean : a.clean raw with
  | none => rwa [enqueue_none hclean]
  | some text => rw [enqueue_some hclean]; exact h.wait _

theorem Flow.enqueueAll (h : s.Flow) (kind : SessionOutputKind) (raws : List Text) (now : Int) :
    (raws.foldl (fun s raw => s.enqueue a kind raw now) s).Flow := by
  induction raws generalizing s with
  | nil => exact h
  | cons raw raws ih => exact ih (h.enqueue kind raw now)

/-- With the note in front, the lines to send continue what the frames hold. -/
theorem Flow.noted (h : s.Flow) (now : Int) {n : ℕ} (hn : 0 < n) :
    ∃ sent, s.said = sent ++ (s.noted now).drop n ∧
      Abridged sent (s.flushed ++ (s.noted now).take n) := by
  obtain ⟨sent, run, hsaid, habridged, hrun⟩ := h.said
  rw [SessionOutputReporter.noted, hsaid]
  split
  · rename_i hdropped
    obtain ⟨m, rfl⟩ := Nat.exists_eq_succ_of_ne_zero hn.ne'
    refine ⟨sent ++ run ++ s.pending.take m, ?_, ?_⟩
    · rw [List.drop_succ_cons, List.append_assoc _ (s.pending.take m), List.take_append_drop]
    · rw [List.take_succ_cons, List.append_cons, ← hrun]
      have hlines : run ≠ [] := List.ne_nil_of_length_pos (hrun ▸ hdropped)
      exact (habridged.drop run hlines now).keepAll _
  · rename_i hnone
    obtain rfl : run = [] := List.eq_nil_of_length_eq_zero (by omega)
    refine ⟨sent ++ s.pending.take n, ?_, habridged.keepAll _⟩
    rw [List.append_nil, List.append_assoc, List.take_append_drop]

/-- All the lines at once. -/
theorem Flow.notedAll (h : s.Flow) (now : Int) : Abridged s.said (s.flushed ++ s.noted now) := by
  obtain ⟨sent, hsaid, habridged⟩ := h.noted now (Nat.succ_pos (s.noted now).length)
  rw [List.drop_eq_nil_of_le (Nat.le_succ _), List.append_nil] at hsaid
  rw [List.take_of_length_le (Nat.le_succ _)] at habridged
  rwa [hsaid]

theorem noted_length (s : SessionOutputReporter) (now : Int) :
    (s.noted now).length ≤ s.pending.length + 1 := by
  rw [SessionOutputReporter.noted]
  split
  · rfl
  · exact Nat.le_succ _

end SessionOutputReporter

end Flow

section Sending

namespace SessionOutputReporter

variable {a : Around} {s : SessionOutputReporter}

/-- What sending changes: the attempts, the frames taken, the backlog and its retries. -/
structure Sent (s s' : SessionOutputReporter) : Prop where
  sessionId : s'.sessionId = s.sessionId
  pending : s'.pending = s.pending
  dropped : s'.dropped = s.dropped
  said : s'.said = s.said
  flushed : s'.flushed = s.flushed

theorem Sent.flow {s' : SessionOutputReporter} (h : Sent s s') (hs : s.Flow) : s'.Flow :=
  hs.congr h.said h.pending h.flushed h.dropped

theorem trySend_spec (s : SessionOutputReporter) (frame : SessionOutputClientFrame) :
    Sent s (s.trySend a frame).1 ∧
    (s.trySend a frame).1.terminalBacklog = s.terminalBacklog ∧
    (s.trySend a frame).1.retryTimer = s.retryTimer ∧
    (s.trySend a frame).1.retries = s.retries ∧
    (s.trySend a frame).1.delivered =
      s.delivered ++ (if a.takes s.attempts then [frame] else []) := by
  unfold trySend
  split
  · exact ⟨⟨rfl, rfl, rfl, rfl, rfl⟩, rfl, rfl, rfl, rfl⟩
  · exact ⟨⟨rfl, rfl, rfl, rfl, rfl⟩, rfl, rfl, rfl, (List.append_nil _).symm⟩

/-- Of the backlog, a first part is taken and the rest waits. -/
theorem sendBacklog_spec (s : SessionOutputReporter) (backlog : List SessionOutputClientFrame) :
    Sent s (s.sendBacklog a backlog) ∧
    (s.sendBacklog a backlog).retryTimer = s.retryTimer ∧
    (s.sendBacklog a backlog).retries = s.retries ∧
    s.delivered <+: (s.sendBacklog a backlog).delivered ∧
    (s.sendBacklog a backlog).delivered ++ (s.sendBacklog a backlog).terminalBacklog =
      s.delivered ++ backlog ∧
    ((s.sendBacklog a backlog).terminalBacklog = [] ∨
      ∃ front, backlog = front ++ (s.sendBacklog a backlog).terminalBacklog) ∧
    ((∀ n, s.attempts ≤ n → a.takes n = true) →
      (s.sendBacklog a backlog).terminalBacklog = []) := by
  induction backlog generalizing s with
  | nil =>
    exact ⟨⟨rfl, rfl, rfl, rfl, rfl⟩, rfl, rfl, List.prefix_refl _, rfl, .inl rfl, fun _ => rfl⟩
  | cons frame backlog ih =>
    unfold sendBacklog trySend
    split
    · obtain ⟨hsent, htimer, hretries, hkept, hall, hrest, htakes⟩ :=
        ih { s with attempts := s.attempts + 1, delivered := s.delivered ++ [frame] }
      refine ⟨⟨hsent.1, hsent.2, hsent.3, hsent.4, hsent.5⟩, htimer, hretries,
        (List.prefix_append _ _).trans hkept, ?_, ?_,
        fun h => htakes fun n hn => h n ((Nat.le_succ _).trans hn)⟩
      · rw [if_pos rfl, hall, List.append_assoc]
        rfl
      · rw [if_pos rfl]
        rcases hrest with hnil | ⟨front, hfront⟩
        · exact .inl hnil
        · exact .inr ⟨frame :: front, by rw [List.cons_append, ← hfront]⟩
    · rename_i hrefused
      refine ⟨⟨rfl, rfl, rfl, rfl, rfl⟩, rfl, rfl, List.prefix_refl _, rfl, .inr ⟨[], rfl⟩,
        fun htakes => ?_⟩
      exact absurd (htakes s.attempts le_rfl) hrefused

/-- What is left of the backlog waits for an armed retry, or the retries are used up. -/
structure Retried (a : Around) (s s' : SessionOutputReporter) : Prop where
  sent : Sent s s'
  kept : s.delivered <+: s'.delivered
  retries : s.retries ≤ s'.retries
  rest : ∃ lost, s'.delivered ++ s'.terminalBacklog ++ lost = s.delivered ++ s.terminalBacklog ∧
    (lost = [] ∨ SESSION_OUTPUT_TERMINAL_RETRIES ≤ s'.retries ∧ s'.terminalBacklog = [])
  armed : s'.terminalBacklog ≠ [] → s'.retryTimer = true ∧
    ∃ front, s.terminalBacklog = front ++ s'.terminalBacklog
  all : (∀ n, s.attempts ≤ n → a.takes n = true) → s'.terminalBacklog = [] ∧
    s'.delivered = s.delivered ++ s.terminalBacklog

theorem retryTerminal_spec (s : SessionOutputReporter) : Retried a s (s.retryTerminal a) := by
  obtain ⟨hsent, -, hretries, hkept, hall, hrest, htakes⟩ :=
    sendBacklog_spec (a := a) s s.terminalBacklog
  have hdone : (∀ n, s.attempts ≤ n → a.takes n = true) →
      (s.sendBacklog a s.terminalBacklog).terminalBacklog = [] ∧
      (s.sendBacklog a s.terminalBacklog).delivered = s.delivered ++ s.terminalBacklog :=
    fun h => ⟨htakes h, by rw [← hall, htakes h, List.append_nil]⟩
  have hnone : (s.sendBacklog a s.terminalBacklog).delivered ++
      (s.sendBacklog a s.terminalBacklog).terminalBacklog ++ [] =
        s.delivered ++ s.terminalBacklog := by rw [List.append_nil, hall]
  unfold retryTerminal
  dsimp only
  split
  · rename_i hnil
    exact ⟨⟨hsent.1, hsent.2, hsent.3, hsent.4, hsent.5⟩, hkept, hretries.ge, ⟨[], hnone, .inl rfl⟩,
      fun h => absurd hnil h, hdone⟩
  · rename_i hleft
    have hfront := hrest.resolve_left hleft
    split
    · rename_i htimer
      exact ⟨hsent, hkept, hretries.ge, ⟨[], hnone, .inl rfl⟩, fun _ => ⟨htimer, hfront⟩, hdone⟩
    · split
      · rename_i hused
        exact ⟨⟨hsent.1, hsent.2, hsent.3, hsent.4, hsent.5⟩, hkept, hretries.ge,
          ⟨_, by rw [← hall]; exact congrArg (· ++ _) (List.append_nil _), .inr ⟨hused, rfl⟩⟩,
          fun h => absurd rfl h, fun h => absurd (htakes h) hleft⟩
      · exact ⟨⟨hsent.1, hsent.2, hsent.3, hsent.4, hsent.5⟩, hkept,
          (Nat.le_succ _).trans (by rw [hretries]), ⟨[], hnone, .inl rfl⟩, fun _ => ⟨rfl, hfront⟩,
          fun h => absurd (htakes h) hleft⟩

/-- The frames of an end carry its lines, at most a frame's worth each, and end with the end. -/
theorem terminalFrames_spec (sessionId : String) (taskSeq : Option ℕ) (state : SessionOutputState)
    (lines : List SessionOutputLine) :
    ∃ front last, terminalFrames sessionId taskSeq state lines =
        front ++ [⟨sessionId, taskSeq, state, last⟩] ∧
      (∀ frame ∈ front, frame.sessionId = sessionId ∧ frame.state = .running) ∧
      (∀ frame ∈ terminalFrames sessionId taskSeq state lines,
        frame.sessionId = sessionId ∧ frame.lines.length ≤ SESSION_OUTPUT_LINES_PER_FRAME) ∧
      (terminalFrames sessionId taskSeq state lines).flatMap (·.lines) = lines := by
  induction hn : lines.length using Nat.strong_induction_on generalizing lines with
  | _ n ih =>
    rw [terminalFrames]
    split
    · rename_i hshort
      exact ⟨[], lines, rfl, by simp, by simpa using hshort, by simp⟩
    · rename_i hlong
      have hpos : 0 < SESSION_OUTPUT_LINES_PER_FRAME := by decide
      obtain ⟨front, last, hframes, hfront, hall, hlines⟩ :=
        ih (lines.drop SESSION_OUTPUT_LINES_PER_FRAME).length
          (by rw [List.length_drop]; omega) _ rfl
      refine ⟨_ :: front, last, by rw [hframes]; rfl, ?_, ?_, ?_⟩
      · intro frame hframe
        rcases List.mem_cons.1 hframe with rfl | hframe
        · exact ⟨rfl, rfl⟩
        · exact hfront frame hframe
      · intro frame hframe
        rcases List.mem_cons.1 hframe with rfl | hframe
        · exact ⟨rfl, List.length_take_le _ _⟩
        · exact hall frame hframe
      · rw [List.flatMap_cons, hlines]
        exact List.take_append_drop _ _

end SessionOutputReporter

end Sending

section Frames

/-! The frames on their way to the connection: those it took, and the backlog behind them. -/

variable {begun : List String} {out : List SessionOutputClientFrame} {id : String}

/-- The frames are of sessions that were begun, one session after the other, within the bound of a
frame, and nothing of a session follows its end. -/
structure InOrder (begun : List String) (out : List SessionOutputClientFrame) : Prop where
  known : ∀ f ∈ out, f.sessionId ∈ begun
  size : ∀ f ∈ out, f.lines.length ≤ SESSION_OUTPUT_LINES_PER_FRAME
  ends : out.Pairwise fun f g => f.sessionId = g.sessionId → f.state = .running
  sorted : out.Pairwise fun f g =>
    f.sessionId = g.sessionId ∨ [f.sessionId, g.sessionId].Sublist begun

theorem InOrder.of_prefix (h : InOrder begun out) {out' : List SessionOutputClientFrame}
    (hpre : out' <+: out) : InOrder begun out' :=
  ⟨fun f hf => h.known f (hpre.subset hf), fun f hf => h.size f (hpre.subset hf),
    h.ends.sublist hpre.sublist, h.sorted.sublist hpre.sublist⟩

theorem InOrder.begin (h : InOrder begun out) (id : String) : InOrder (begun ++ [id]) out :=
  ⟨fun f hf => List.mem_append_left _ (h.known f hf), h.size, h.ends,
    h.sorted.imp fun hfg => hfg.imp_right fun hsub =>
      hsub.trans (List.sublist_append_left begun [id])⟩

/-- A frame of the session begun last, which has not ended. -/
theorem InOrder.snoc (h : InOrder begun out) (hlast : begun.getLast? = some id)
    (hopen : ∀ f ∈ out, f.sessionId = id → f.state = .running) {frame : SessionOutputClientFrame}
    (hid : frame.sessionId = id) (hsize : frame.lines.length ≤ SESSION_OUTPUT_LINES_PER_FRAME) :
    InOrder begun (out ++ [frame]) := by
  have hmem : id ∈ begun := List.mem_of_getLast? hlast
  obtain ⟨init, rfl⟩ : ∃ init, begun = init ++ [id] :=
    ⟨begun.dropLast, (List.dropLast_append_getLast? id hlast).symm⟩
  have hnew : ∀ f, f ∈ out ++ [frame] → f ∈ out ∨ f = frame := by simp
  have hpairs : ∀ {R : SessionOutputClientFrame → SessionOutputClientFrame → Prop},
      out.Pairwise R → (∀ f ∈ out, R f frame) → (out ++ [frame]).Pairwise R := by
    intro R hout hframe
    rw [List.pairwise_append]
    refine ⟨hout, List.pairwise_singleton _ _, fun f hf g hg => ?_⟩
    rw [List.mem_singleton.1 hg]
    exact hframe f hf
  constructor
  · intro f hf
    rcases hnew f hf with hold | rfl
    · exact h.known f hold
    · exact hid ▸ hmem
  · intro f hf
    rcases hnew f hf with hold | rfl
    · exact h.size f hold
    · exact hsize
  · exact hpairs h.ends fun f hf hsame => hopen f hf (hsame.trans hid)
  · refine hpairs h.sorted fun f hf => ?_
    rw [hid]
    by_cases hsame : f.sessionId = id
    · exact .inl hsame
    · rcases List.mem_append.1 (h.known f hf) with hinit | hlast
      · exact .inr ((List.singleton_sublist.2 hinit).append (List.Sublist.refl [id]))
      · exact absurd (List.mem_singleton.1 hlast) hsame

/-- The frames of an end behind what is out. -/
theorem InOrder.appendEnd (h : InOrder begun out) (hlast : begun.getLast? = some id)
    (hopen : ∀ f ∈ out, f.sessionId = id → f.state = .running) (taskSeq : Option ℕ)
    (state : SessionOutputState) (lines : List SessionOutputLine) :
    InOrder begun (out ++ SessionOutputReporter.terminalFrames id taskSeq state lines) := by
  obtain ⟨front, last, hframes, hfront, hall, -⟩ :=
    SessionOutputReporter.terminalFrames_spec id taskSeq state lines
  have hgrow : ∀ frames : List SessionOutputClientFrame,
      (∀ f ∈ frames, f.sessionId = id ∧ f.state = .running ∧
        f.lines.length ≤ SESSION_OUTPUT_LINES_PER_FRAME) →
      InOrder begun (out ++ frames) ∧
        ∀ f ∈ out ++ frames, f.sessionId = id → f.state = .running := by
    intro frames
    induction frames using List.reverseRecOn with
    | nil => exact fun _ => by rw [List.append_nil]; exact ⟨h, hopen⟩
    | append_singleton frames frame ih =>
      intro hframes
      obtain ⟨hin, hrunning⟩ := ih fun f hf => hframes f (List.mem_append_left _ hf)
      obtain ⟨hid, hstate, hsize⟩ :=
        hframes frame (List.mem_append_right _ (List.mem_singleton_self _))
      rw [← List.append_assoc]
      refine ⟨hin.snoc hlast hrunning hid hsize, fun f hf hfid => ?_⟩
      rcases List.mem_append.1 hf with hold | hnew
      · exact hrunning f hold hfid
      · rwa [List.mem_singleton.1 hnew]
  have hsizes : ∀ f ∈ front ++ [⟨id, taskSeq, state, last⟩],
      f.sessionId = id ∧ f.lines.length ≤ SESSION_OUTPUT_LINES_PER_FRAME := hframes ▸ hall
  obtain ⟨hin, hrunning⟩ := hgrow front fun f hf =>
    ⟨(hfront f hf).1, (hfront f hf).2, (hsizes f (List.mem_append_left _ hf)).2⟩
  rw [hframes, ← List.append_assoc]
  exact hin.snoc hlast hrunning rfl
    (hsizes _ (List.mem_append_right _ (List.mem_singleton_self _))).2

/-- The frames of a session, and their lines. -/
def linesOf (id : String) (out : List SessionOutputClientFrame) : List SessionOutputLine :=
  (out.filter fun f => f.sessionId = id).flatMap (·.lines)

theorem linesOf_append (out out' : List SessionOutputClientFrame) :
    linesOf id (out ++ out') = linesOf id out ++ linesOf id out' := by
  simp [linesOf, List.filter_append]

theorem linesOf_eq_nil (h : ∀ f ∈ out, f.sessionId ≠ id) : linesOf id out = [] := by
  have hnone : out.filter (fun f => f.sessionId = id) = [] :=
    List.filter_eq_nil_iff.2 fun f hf => by simpa using h f hf
  rw [linesOf, hnone, List.flatMap_nil]

theorem linesOf_all (h : ∀ f ∈ out, f.sessionId = id) : linesOf id out = out.flatMap (·.lines) := by
  have hall : out.filter (fun f => f.sessionId = id) = out :=
    List.filter_eq_self.2 fun f hf => by simpa using h f hf
  rw [linesOf, hall]

end Frames

section Runs

namespace SessionOutputReporter

variable {a : Around} {s s' : SessionOutputReporter} {begun : List String}

/-- The frames that the connection took, and those that wait for it. -/
def out (s : SessionOutputReporter) : List SessionOutputClientFrame :=
  s.delivered ++ s.terminalBacklog

/-- The end of the session was taken, or is the last of what is retried, or was given up. -/
inductive Ended (s : SessionOutputReporter) (id : String) : Prop
  | taken (frame) : frame ∈ s.delivered → frame.sessionId = id → frame.state ≠ .running → Ended s id
  | retried (frame) : s.terminalBacklog.getLast? = some frame → frame.sessionId = id →
      frame.state ≠ .running → Ended s id
  | givenUp : SESSION_OUTPUT_TERMINAL_RETRIES ≤ s.retries → s.terminalBacklog = [] → Ended s id

theorem Ended.retry {id : String} (h : s.Ended id) (hretried : Retried a s s') : s'.Ended id := by
  cases h with
  | taken frame hmem hid hstate => exact .taken frame (hretried.kept.subset hmem) hid hstate
  | givenUp hretries hnil =>
    refine .givenUp (hretries.trans hretried.retries) ?_
    by_contra hleft
    obtain ⟨front, hfront⟩ := (hretried.armed hleft).2
    rw [hnil] at hfront
    exact hleft (List.append_eq_nil_iff.1 hfront.symm).2
  | retried frame hlast hid hstate =>
    by_cases hleft : s'.terminalBacklog = []
    · obtain ⟨lost, hlost, rfl | ⟨hretries, -⟩⟩ := hretried.rest
      · refine .taken frame ?_ hid hstate
        rw [hleft, List.append_nil, List.append_nil] at hlost
        rw [hlost]
        exact List.mem_append_right _ (List.mem_of_getLast? hlast)
      · exact .givenUp hretries hleft
    · obtain ⟨front, hfront⟩ := (hretried.armed hleft).2
      refine .retried frame ?_ hid hstate
      rw [hfront, List.getLast?_append_of_ne_nil _ hleft] at hlast
      exact hlast

/-- What is known of the session begun last. -/
structure Lines (a : Around) (s : SessionOutputReporter) (id : String) : Prop where
  sub : (linesOf id s.out).Sublist s.flushed
  all : (∀ n, a.takes n = true) → linesOf id s.out = s.flushed

theorem Lines.retry {id : String} (h : s.Lines a id) (hretried : Retried a s s') :
    s'.Lines a id := by
  obtain ⟨lost, hlost, -⟩ := hretried.rest
  have hpre : s'.out <+: s.out := ⟨lost, hlost⟩
  constructor
  · rw [hretried.sent.flushed]
    exact ((hpre.sublist.filter _).flatMap _).trans h.sub
  · intro htakes
    obtain ⟨hnil, hdelivered⟩ := hretried.all fun n _ => htakes n
    rw [hretried.sent.flushed, ← h.all htakes, out, hnil, hdelivered, List.append_nil]
    rfl

/-- What a property of the reporter needs, to hold along a session. -/
structure Kept (a : Around) (I : SessionOutputReporter → Prop) : Prop where
  aside : ∀ {s : SessionOutputReporter} (stdout stderr lastTool timer), I s →
    I { s with stdout := stdout, stderr := stderr, lastTool := lastTool, timer := timer }
  enqueue : ∀ {s : SessionOutputReporter} (kind raw now), I s → s.sessionId ≠ none →
    I (s.enqueue a kind raw now)
  flushBatch : ∀ {s : SessionOutputReporter} {id : String} (now), I s → s.sessionId = some id →
    I (s.flushBatch a id now)
  flushEnd : ∀ {s : SessionOutputReporter} {id : String} {state : SessionOutputState} (now), I s →
    s.sessionId = some id → state ≠ .running → I (s.flushEnd a id state now).leave
  retryTick : ∀ {s : SessionOutputReporter}, I s → I (s.retryTick a)

/-- What becomes of the lines of the session; after the end there are none left over. -/
structure Given (s : SessionOutputReporter) : Prop where
  flow : s.Flow
  settled : s.sessionId = none → s.pending = [] ∧ s.dropped = 0

/-- What becomes of the frames of the sessions begun. -/
structure Inv (a : Around) (s : SessionOutputReporter) (begun : List String) : Prop where
  inOrder : InOrder begun s.out
  lines : ∀ id, begun.getLast? = some id → s.Lines a id
  opened : ∀ id, s.sessionId = some id → begun.getLast? = some id ∧ s.terminalBacklog = [] ∧
    ∀ f ∈ s.delivered, f.sessionId = id → f.state = .running
  ended : s.sessionId = none → ∀ id, begun.getLast? = some id → s.Ended id
  armed : s.terminalBacklog ≠ [] → s.retryTimer = true
  closed : (∀ n, a.takes n = true) → ∀ id ∈ begun, s.sessionId ≠ some id →
    ∃ f ∈ s.delivered, f.sessionId = id ∧ f.state ≠ .running
  drained : (∀ n, a.takes n = true) → s.terminalBacklog = []

/-- What is not sent and not given to the session matters to nothing else. -/
theorem Inv.congr (h : s.Inv a begun) (hsession : s'.sessionId = s.sessionId)
    (hdelivered : s'.delivered = s.delivered) (hbacklog : s'.terminalBacklog = s.terminalBacklog)
    (htimer : s'.retryTimer = s.retryTimer) (hretries : s'.retries = s.retries)
    (hflushed : s'.flushed = s.flushed) : s'.Inv a begun := by
  have hout : s'.out = s.out := by rw [out, out, hdelivered, hbacklog]
  constructor
  case inOrder => exact hout ▸ h.inOrder
  case lines =>
    intro id hid
    have hlines := h.lines id hid
    exact ⟨by rw [hout, hflushed]; exact hlines.sub, by rw [hout, hflushed]; exact hlines.all⟩
  case opened =>
    intro id hid
    rw [hbacklog, hdelivered]
    exact h.opened id (hsession ▸ hid)
  case ended =>
    intro hnone id hid
    cases h.ended (hsession ▸ hnone) id hid with
    | taken frame hmem hid hstate => exact .taken frame (hdelivered ▸ hmem) hid hstate
    | retried frame hlast hid hstate => exact .retried frame (hbacklog ▸ hlast) hid hstate
    | givenUp hused hnil => exact .givenUp (hretries ▸ hused) (hbacklog ▸ hnil)
  case armed =>
    rw [hbacklog, htimer]
    exact h.armed
  case closed =>
    rw [hdelivered, hsession]
    exact h.closed
  case drained =>
    rw [hbacklog]
    exact h.drained

theorem enqueue_sessionId (s : SessionOutputReporter) (kind : SessionOutputKind) (raw : Text)
    (now : Int) : (s.enqueue a kind raw now).sessionId = s.sessionId := by
  cases hclean : a.clean raw with
  | none => rw [enqueue_none hclean]
  | some text => rw [enqueue_some hclean]; rfl

theorem Inv.enqueue (h : s.Inv a begun) (kind : SessionOutputKind) (raw : Text) (now : Int) :
    (s.enqueue a kind raw now).Inv a begun := by
  cases hclean : a.clean raw with
  | none => rwa [enqueue_none hclean]
  | some text =>
    rw [enqueue_some hclean]
    exact h.congr rfl rfl rfl rfl rfl rfl

theorem Inv.retryTick (h : s.Inv a begun) : (s.retryTick a).Inv a begun := by
  unfold SessionOutputReporter.retryTick
  split
  · have hretried := retryTerminal_spec (a := a) { s with retryTimer := false }
    obtain ⟨lost, hlost, -⟩ := hretried.rest
    constructor
    case inOrder => exact h.inOrder.of_prefix ⟨lost, hlost⟩
    case lines =>
      intro id hid
      have hlines : ({ s with retryTimer := false } : SessionOutputReporter).Lines a id :=
        ⟨(h.lines id hid).sub, (h.lines id hid).all⟩
      exact hlines.retry hretried
    case opened =>
      intro id hid
      obtain ⟨hlast, hnil, hrunning⟩ := h.opened id (hretried.sent.sessionId ▸ hid)
      have hnil' : (({ s with retryTimer := false } : SessionOutputReporter).retryTerminal
          a).terminalBacklog = [] := by
        by_contra hleft
        obtain ⟨front, hfront⟩ := (hretried.armed hleft).2
        exact hleft (List.append_eq_nil_iff.1 (hfront.symm.trans hnil)).2
      refine ⟨hlast, hnil', fun f hf hfid => hrunning f ?_ hfid⟩
      have hmem : f ∈ s.delivered ++ s.terminalBacklog := by
        rw [← show _ = s.delivered ++ s.terminalBacklog from hlost]
        exact List.mem_append_left _ (List.mem_append_left _ hf)
      rwa [hnil, List.append_nil] at hmem
    case ended =>
      intro hnone id hid
      have hended : ({ s with retryTimer := false } : SessionOutputReporter).Ended id := by
        cases h.ended (hretried.sent.sessionId ▸ hnone) id hid with
        | taken frame hmem hid hstate => exact .taken frame hmem hid hstate
        | retried frame hlast hid hstate => exact .retried frame hlast hid hstate
        | givenUp hused hnil => exact .givenUp hused hnil
      exact hended.retry hretried
    case armed => exact fun hleft => (hretried.armed hleft).1
    case closed =>
      intro htakes id hid hother
      obtain ⟨f, hf, hfid, hstate⟩ := h.closed htakes id hid (hretried.sent.sessionId ▸ hother)
      exact ⟨f, hretried.kept.subset hf, hfid, hstate⟩
    case drained => exact fun htakes => (hretried.all fun n _ => htakes n).1
  · exact h

theorem flushBatch_delivered (s : SessionOutputReporter) (id : String) (now : Int) :
    (s.flushBatch a id now).delivered = s.delivered ++ (if a.takes s.attempts then
      [⟨id, s.taskSeq, .running, (s.noted now).take SESSION_OUTPUT_LINES_PER_FRAME⟩] else []) :=
  (trySend_spec _ _).2.2.2.2

theorem flushBatch_sessionId {id : String} (hid : s.sessionId = some id) (now : Int) :
    (s.flushBatch a id now).sessionId = some id := (trySend_spec _ _).1.sessionId.trans hid

theorem flushBatch_flow (h : s.Flow) (id : String) (now : Int) : (s.flushBatch a id now).Flow := by
  have hpos : 0 < SESSION_OUTPUT_LINES_PER_FRAME := by decide
  obtain ⟨sent, hsaid, habridged⟩ := h.noted now hpos
  have hshort : ((s.noted now).drop SESSION_OUTPUT_LINES_PER_FRAME).length ≤
      SESSION_OUTPUT_PENDING_MAX := by
    have hnoted := s.noted_length now
    have hbounded := h.bounded
    rw [List.length_drop]
    omega
  refine ((trySend_spec _ _).1.flow ⟨⟨sent, [], ?_, habridged, rfl⟩, hshort⟩).congr rfl rfl rfl rfl
  rw [List.append_nil]
  exact hsaid

/-- A frame of the session that runs. -/
theorem Inv.flushBatch (h : s.Inv a begun) {id : String} (hid : s.sessionId = some id) (now : Int) :
    (s.flushBatch a id now).Inv a begun := by
  obtain ⟨hlast, hnil, hrunning⟩ := h.opened id hid
  obtain ⟨hsent, hbacklog, htimer, -, -⟩ := trySend_spec (a := a)
    { s with
      pending := (s.noted now).drop SESSION_OUTPUT_LINES_PER_FRAME, dropped := 0
      flushed := s.flushed ++ (s.noted now).take SESSION_OUTPUT_LINES_PER_FRAME }
    ⟨id, s.taskSeq, .running, (s.noted now).take SESSION_OUTPUT_LINES_PER_FRAME⟩
  have hsession : (s.flushBatch a id now).sessionId = some id := hsent.sessionId.trans hid
  have hnil' : (s.flushBatch a id now).terminalBacklog = [] := hbacklog.trans hnil
  have hout : (s.flushBatch a id now).out = s.out ++ (if a.takes s.attempts then
      [⟨id, s.taskSeq, .running, (s.noted now).take SESSION_OUTPUT_LINES_PER_FRAME⟩] else []) := by
    rw [out, out, hnil', hnil, List.append_nil, List.append_nil, flushBatch_delivered]
  have hflushed : (s.flushBatch a id now).flushed =
      s.flushed ++ (s.noted now).take SESSION_OUTPUT_LINES_PER_FRAME := hsent.flushed
  have hopen : ∀ f ∈ s.out, f.sessionId = id → f.state = .running := by
    rw [out, hnil, List.append_nil]
    exact hrunning
  constructor
  case inOrder =>
    rw [hout]
    split
    · exact h.inOrder.snoc hlast hopen rfl (List.length_take_le _ _)
    · rw [List.append_nil]
      exact h.inOrder
  case lines =>
    intro last hlast'
    obtain rfl : id = last := Option.some.inj (hlast.symm.trans hlast')
    have hlines := h.lines id hlast
    constructor
    · rw [hout, hflushed, linesOf_append]
      refine hlines.sub.append ?_
      split
      · rw [linesOf_all fun f hf => by rw [List.mem_singleton.1 hf]]
        simp
      · exact List.nil_sublist _
    · intro htakes
      rw [hout, hflushed, linesOf_append, hlines.all htakes, if_pos (htakes _),
        linesOf_all fun f hf => by rw [List.mem_singleton.1 hf]]
      simp
  case opened =>
    intro other hother
    obtain rfl : id = other := Option.some.inj (hsession.symm.trans hother)
    refine ⟨hlast, hnil', fun f hf hfid => ?_⟩
    rw [flushBatch_delivered] at hf
    rcases List.mem_append.1 hf with hold | hnew
    · exact hrunning f hold hfid
    · split at hnew
      · rw [List.mem_singleton.1 hnew]
      · exact absurd hnew List.not_mem_nil
  case ended => exact fun hnone => absurd (hsession.symm.trans hnone) (Option.some_ne_none id)
  case armed => exact fun hleft => absurd hnil' hleft
  case closed =>
    intro htakes other hmem hother
    obtain ⟨f, hf, hfid, hstate⟩ := h.closed htakes other hmem (by rwa [hid, ← hsession])
    refine ⟨f, ?_, hfid, hstate⟩
    rw [flushBatch_delivered]
    exact List.mem_append_left _ hf
  case drained => exact fun _ => hnil'

/-- The end of a session. -/
theorem Inv.flushEnd (h : s.Inv a begun) {id : String} (hid : s.sessionId = some id)
    {state : SessionOutputState} (hstate : state ≠ .running) (now : Int) :
    (s.flushEnd a id state now).leave.Inv a begun := by
  obtain ⟨hlast, hnil, hrunning⟩ := h.opened id hid
  obtain ⟨front, last, hframes, -, hall, hcarried⟩ :=
    terminalFrames_spec id s.taskSeq state (s.noted now)
  set t : SessionOutputReporter := { s with
    pending := [], dropped := 0, flushed := s.flushed ++ s.noted now
    terminalBacklog := s.terminalBacklog ++ terminalFrames id s.taskSeq state (s.noted now)
    retries := 0 } with ht
  have hout : t.out = s.out ++ terminalFrames id s.taskSeq state (s.noted now) :=
    (List.append_assoc _ _ _).symm
  have hopen : ∀ f ∈ s.out, f.sessionId = id → f.state = .running := by
    rw [out, hnil, List.append_nil]
    exact hrunning
  have hin : InOrder begun t.out := by
    rw [hout]
    exact h.inOrder.appendEnd hlast hopen s.taskSeq state (s.noted now)
  have hlines : t.Lines a id := by
    have hnew : linesOf id (terminalFrames id s.taskSeq state (s.noted now)) = s.noted now := by
      rw [linesOf_all fun f hf => (hall f hf).1, hcarried]
    constructor
    · rw [hout, linesOf_append, hnew]
      exact (h.lines id hlast).sub.append (List.Sublist.refl _)
    · intro htakes
      rw [hout, linesOf_append, hnew, (h.lines id hlast).all htakes]
  have hended : t.Ended id := by
    refine .retried ⟨id, s.taskSeq, state, last⟩ ?_ rfl hstate
    rw [ht, hframes]
    exact (congrArg List.getLast? (List.append_assoc _ _ _).symm).trans List.getLast?_concat
  have hretried : Retried a t (t.retryTerminal a) := retryTerminal_spec t
  obtain ⟨lost, hlost, -⟩ := hretried.rest
  have hleft : (s.flushEnd a id state now).leave.out = (t.retryTerminal a).out := rfl
  constructor
  case inOrder =>
    rw [hleft]
    exact hin.of_prefix ⟨lost, hlost⟩
  case lines =>
    intro other hother
    obtain rfl : id = other := Option.some.inj (hlast.symm.trans hother)
    exact ⟨(hlines.retry hretried).sub, (hlines.retry hretried).all⟩
  case opened => exact fun other hother => absurd hother.symm (Option.some_ne_none other)
  case ended =>
    intro _ other hother
    obtain rfl : id = other := Option.some.inj (hlast.symm.trans hother)
    cases hended.retry hretried with
    | taken frame hmem hid hstate => exact .taken frame hmem hid hstate
    | retried frame hlast hid hstate => exact .retried frame hlast hid hstate
    | givenUp hused hnil => exact .givenUp hused hnil
  case armed => exact fun hleft => (hretried.armed hleft).1
  case closed =>
    intro htakes other hmem _
    have hdelivered : (s.flushEnd a id state now).leave.delivered = t.delivered ++ t.terminalBacklog :=
      (hretried.all fun n _ => htakes n).2
    by_cases hsame : other = id
    · refine ⟨⟨id, s.taskSeq, state, last⟩, ?_, hsame.symm, hstate⟩
      rw [hdelivered, ht, hframes]
      exact List.mem_append_right _ (List.mem_append_right _
        (List.mem_append_right _ (List.mem_singleton_self _)))
    · obtain ⟨f, hf, hfid, hfstate⟩ := h.closed htakes other hmem
        (by rw [hid]; exact fun hsome => hsame (Option.some.inj hsome).symm)
      exact ⟨f, hdelivered ▸ List.mem_append_left _ hf, hfid, hfstate⟩
  case drained => exact fun htakes => (hretried.all fun n _ => htakes n).1

theorem flush_none (hnone : s.sessionId = none) (state : SessionOutputState) (now : Int) :
    s.flush a state now = s := by
  rw [flush, hnone]

theorem flush_running {id : String} (hid : s.sessionId = some id) (now : Int) :
    s.flush a .running now = s.flushBatch a id now := by
  rw [flush, hid]
  exact if_pos rfl

theorem flush_end {id : String} (hid : s.sessionId = some id) {state : SessionOutputState}
    (hstate : state ≠ .running) (now : Int) : s.flush a state now = s.flushEnd a id state now := by
  rw [flush, hid]
  exact if_neg hstate

theorem endStream_sessionId (s : SessionOutputReporter) (stream : StreamName) (now : Int) :
    (s.endStream a stream now).sessionId = s.sessionId := by
  cases stream
  · show (if s.stdout = [] then s else _).sessionId = _
    split
    · rfl
    · exact enqueue_sessionId _ _ _ _
  · show (if s.stderr = [] then s else _).sessionId = _
    split
    · rfl
    · exact enqueue_sessionId _ _ _ _

theorem kept_inv (a : Around) (begun : List String) : Kept a fun s => s.Inv a begun where
  aside _ _ _ _ h := h.congr rfl rfl rfl rfl rfl rfl
  enqueue kind raw now h _ := h.enqueue kind raw now
  flushBatch now h hid := h.flushBatch hid now
  flushEnd now h hid hstate := h.flushEnd hid hstate now
  retryTick h := h.retryTick

theorem Given.flushEnd (h : s.Given) (id : String) (state : SessionOutputState) (now : Int) :
    (s.flushEnd a id state now).leave.Given := by
  set t : SessionOutputReporter := { s with
    pending := [], dropped := 0, flushed := s.flushed ++ s.noted now
    terminalBacklog := s.terminalBacklog ++ terminalFrames id s.taskSeq state (s.noted now)
    retries := 0 } with ht
  have hflow : t.Flow :=
    ⟨⟨s.said, [], (List.append_nil _).symm.trans (congrArg (· ++ _) (List.append_nil _).symm),
      h.flow.notedAll now, rfl⟩, Nat.zero_le _⟩
  have hsent : Sent t (t.retryTerminal a) := (retryTerminal_spec t).sent
  exact ⟨(hsent.flow hflow).congr rfl rfl rfl rfl, fun _ => ⟨hsent.pending, hsent.dropped⟩⟩

theorem Given.retryTick (h : s.Given) : (s.retryTick a).Given := by
  unfold SessionOutputReporter.retryTick
  split
  · have hsent := (retryTerminal_spec (a := a) { s with retryTimer := false }).sent
    refine ⟨hsent.flow (h.flow.congr rfl rfl rfl rfl), fun hnone => ?_⟩
    rw [hsent.pending, hsent.dropped]
    exact h.settled (hsent.sessionId ▸ hnone)
  · exact h

theorem kept_given (a : Around) : Kept a Given where
  aside _ _ _ _ h := ⟨h.flow.congr rfl rfl rfl rfl, h.settled⟩
  enqueue kind raw now h hopen :=
    ⟨h.flow.enqueue kind raw now, fun hnone => absurd (enqueue_sessionId _ kind raw now ▸ hnone) hopen⟩
  flushBatch now h hid := ⟨flushBatch_flow h.flow _ now, fun hnone =>
    absurd ((flushBatch_sessionId hid now).symm.trans hnone) (Option.some_ne_none _)⟩
  flushEnd now h _ _ := h.flushEnd _ _ now
  retryTick h := h.retryTick

section Kept

variable {I : SessionOutputReporter → Prop} (hk : Kept a I)

include hk

theorem Kept.enqueueAll (h : I s) (hopen : s.sessionId ≠ none) (kind : SessionOutputKind)
    (raws : List Text) (now : Int) : I (raws.foldl (fun s raw => s.enqueue a kind raw now) s) := by
  induction raws generalizing s with
  | nil => exact h
  | cons raw raws ih =>
    exact ih (hk.enqueue kind raw now h hopen) (by rwa [enqueue_sessionId])

theorem Kept.endStream (h : I s) (hopen : s.sessionId ≠ none) (stream : StreamName) (now : Int) :
    I (s.endStream a stream now) := by
  cases stream
  · have hline : I (if s.stdout = [] then s else s.enqueue a .stdout s.stdout now) := by
      split
      · exact h
      · exact hk.enqueue _ _ _ h hopen
    exact hk.aside [] _ _ _ hline
  · have hline : I (if s.stderr = [] then s else s.enqueue a .stderr s.stderr now) := by
      split
      · exact h
      · exact hk.enqueue _ _ _ h hopen
    exact hk.aside _ [] _ _ hline

theorem Kept.flushRunning (h : I s) (now : Int) : I (s.flush a .running now) := by
  cases hid : s.sessionId with
  | none => rwa [flush_none hid]
  | some id =>
    rw [flush_running hid]
    exact hk.flushBatch now h hid

theorem Kept.finish (h : I s) {state : SessionOutputState} (hstate : state ≠ .running)
    (note : Option Text) (now : Int) : I (s.finish a state note now) := by
  rw [SessionOutputReporter.finish]
  split
  · exact h
  · rename_i hopen
    have hout := hk.endStream h hopen .stdout now
    have hopen' : (s.endStream a .stdout now).sessionId ≠ none := by rwa [endStream_sessionId]
    have herr := hk.endStream hout hopen' .stderr now
    have hopen'' : ((s.endStream a .stdout now).endStream a .stderr now).sessionId ≠ none := by
      rwa [endStream_sessionId]
    obtain ⟨id, hid⟩ := Option.ne_none_iff_exists'.1 hopen''
    cases note with
    | none =>
      dsimp only
      rw [flush_end hid hstate]
      exact hk.flushEnd now herr hid hstate
    | some note =>
      dsimp only
      split
      · rw [flush_end hid hstate]
        exact hk.flushEnd now herr hid hstate
      · have hid' := (enqueue_sessionId (a := a) _ .system note now).trans hid
        rw [flush_end hid' hstate]
        exact hk.flushEnd now (hk.enqueue .system note now herr hopen'') hid' hstate

theorem Kept.chunk (h : I s) (stream : StreamName) (text : Text) (now : Int) :
    I (s.chunk a stream text now) := by
  unfold SessionOutputReporter.chunk
  split
  · exact h
  · rename_i hsome
    have hopen : s.sessionId ≠ none := fun hnone => hsome (.inl hnone)
    cases stream
    · exact hk.enqueueAll (hk.aside (splitOutput s.stdout text).2 _ _ _ h) hopen _ _ _
    · exact hk.enqueueAll (hk.aside _ (splitOutput s.stderr text).2 _ _ h) hopen _ _ _

theorem Kept.line (h : I s) (kind : SessionOutputKind) (text : Text) (now : Int) :
    I (s.line a kind text now) := by
  rw [SessionOutputReporter.line]
  split
  · exact h
  · rename_i hopen
    exact hk.enqueue kind text now h hopen

theorem Kept.tool (h : I s) (name : Option Text) (now : Int) : I (s.tool a name now) := by
  cases name with
  | none => exact h
  | some name =>
    rw [SessionOutputReporter.tool]
    split
    · exact h
    · rename_i hnew
      exact hk.enqueue _ _ _ (hk.aside _ _ (some name) _ h) fun hnone => hnew (.inl hnone)

theorem Kept.toolCall (h : I s) (name : Text) (failed : Bool) (now : Int) :
    I (s.toolCall a name failed now) := by
  rw [SessionOutputReporter.toolCall]
  split
  · exact h
  · rename_i hcalled
    exact hk.enqueue _ _ _ (hk.aside _ _ (some name) _ h) fun hnone => hcalled (.inl hnone)

theorem Kept.tick (h : I s) (now : Int) : I (s.tick a now) := by
  rw [SessionOutputReporter.tick]
  split
  · exact h
  · have hfired : I { s with timer := false } := hk.aside _ _ _ false h
    dsimp only
    split
    · exact hfired
    · exact hk.flushRunning hfired now

end Kept

/-- No session runs after an end. -/
theorem finish_sessionId (s : SessionOutputReporter) (state : SessionOutputState)
    (note : Option Text) (now : Int) : (s.finish a state note now).sessionId = none := by
  rw [SessionOutputReporter.finish]
  split
  · assumption
  · rfl

/-- A session begins: what is left of the one before it is tried once more and then dropped. -/
theorem Inv.begin (h : s.Inv a begun) (taskSeq : Option ℕ) (note : Text) {id : String}
    (hfresh : id ∉ begun) (now : Int) :
    (s.begin a taskSeq note id now).Inv a (begun ++ [id]) := by
  have hended := (kept_inv a begun).finish h (nofun : SessionOutputState.failed ≠ .running)
    (some (lit "superseded by a new run")) now
  have hnone := finish_sessionId (a := a) s .failed (some (lit "superseded by a new run")) now
  set u := s.finish a .failed (some (lit "superseded by a new run")) now with hu
  have hretried : Retried a u (u.retryTerminal a) := retryTerminal_spec u
  obtain ⟨lost, hlost, -⟩ := hretried.rest
  set t : SessionOutputReporter := { (u.retryTerminal a).dropTerminalBacklog with
    sessionId := some id, taskSeq := taskSeq, pending := [], stdout := [], stderr := []
    dropped := 0, lastTool := none, said := [], flushed := [] } with ht
  have hin : InOrder begun t.out := by
    refine hended.inOrder.of_prefix ⟨(u.retryTerminal a).terminalBacklog ++ lost, ?_⟩
    rw [← List.append_assoc]
    exact (congrArg (· ++ _ ++ _) (List.append_nil _)).trans hlost
  have hother : ∀ f ∈ t.out, f.sessionId ≠ id := fun f hf hid => hfresh (hid ▸ hin.known f hf)
  have hlines : linesOf id t.out = [] := linesOf_eq_nil hother
  have hbegun : t.Inv a (begun ++ [id]) := by
    constructor
    case inOrder => exact hin.begin id
    case lines =>
      intro last hlast
      obtain rfl : id = last := Option.some.inj (List.getLast?_concat.symm.trans hlast)
      exact ⟨hlines.symm ▸ List.nil_sublist _, fun _ => hlines⟩
    case opened =>
      intro last hlast
      obtain rfl : id = last := Option.some.inj hlast
      exact ⟨List.getLast?_concat, rfl, fun f hf hfid =>
        absurd hfid (hother f (List.mem_append_left _ hf))⟩
    case ended => exact fun hnone => absurd hnone (Option.some_ne_none id)
    case armed => exact fun hleft => absurd rfl hleft
    case closed =>
      intro htakes last hmem hlast
      rcases List.mem_append.1 hmem with hold | hnew
      · obtain ⟨f, hf, hfid, hstate⟩ := hended.closed htakes last hold
          fun hsome => Option.some_ne_none last (hsome.symm.trans hnone)
        exact ⟨f, hretried.kept.subset hf, hfid, hstate⟩
      · exact absurd (congrArg some (List.mem_singleton.1 hnew).symm) hlast
    case drained => exact fun _ => rfl
  have hid : (t.enqueue a .system note now).sessionId = some id := enqueue_sessionId _ _ _ _
  have hbegin : s.begin a taskSeq note id now = (t.enqueue a .system note now).flush a .running now :=
    rfl
  rw [hbegin, flush_running hid]
  exact (hbegun.enqueue .system note now).flushBatch hid now

theorem Given.begin (s : SessionOutputReporter) (taskSeq : Option ℕ) (note : Text) (id : String)
    (now : Int) : (s.begin a taskSeq note id now).Given := by
  set t : SessionOutputReporter := { ((s.finish a .failed (some (lit "superseded by a new run"))
      now).retryTerminal a).dropTerminalBacklog with
    sessionId := some id, taskSeq := taskSeq, pending := [], stdout := [], stderr := []
    dropped := 0, lastTool := none, said := [], flushed := [] } with ht
  have hopen : t.sessionId ≠ none := Option.some_ne_none id
  have hbegun : t.Given :=
    ⟨⟨⟨[], [], rfl, .nil, rfl⟩, Nat.zero_le _⟩, fun hnone => absurd hnone hopen⟩
  exact (kept_given a).flushRunning ((kept_given a).enqueue .system note now hbegun hopen) now

/-- The session that an event begins. -/
def Event.starts : Event → List String
  | .begin _ _ sessionId _ => [sessionId]
  | _ => []

/-- What an event preserves that begins no session. -/
theorem Kept.next {I : SessionOutputReporter → Prop} (hk : Kept a I) (h : I s) (event : Event)
    (hstarts : event.starts = []) : I (s.next a event) := by
  cases event with
  | «begin» taskSeq note sessionId now => exact absurd hstarts (List.cons_ne_nil _ _)
  | chunk stream text now => exact hk.chunk h stream text now
  | line kind text now => exact hk.line h kind text now
  | tool name now => exact hk.tool h name now
  | toolCall name failed now => exact hk.toolCall h name failed now
  | finish state hstate note now => exact hk.finish h hstate note now
  | tick now => exact hk.tick h now
  | retryTick => exact hk.retryTick h

theorem Inv.next (h : s.Inv a begun) (event : Event) (hfresh : ∀ id ∈ event.starts, id ∉ begun) :
    (s.next a event).Inv a (begun ++ event.starts) := by
  by_cases hstarts : event.starts = []
  · rw [hstarts, List.append_nil]
    exact (kept_inv a begun).next h event hstarts
  · cases event with
    | «begin» taskSeq note sessionId now =>
      exact h.begin taskSeq note (hfresh sessionId (List.mem_singleton_self _)) now
    | _ => exact absurd rfl hstarts

theorem Given.next (h : s.Given) (event : Event) : (s.next a event).Given := by
  by_cases hstarts : event.starts = []
  · exact (kept_given a).next h event hstarts
  · cases event with
    | «begin» taskSeq note sessionId now => exact Given.begin s taskSeq note sessionId now
    | _ => exact absurd rfl hstarts

theorem Inv.new : SessionOutputReporter.new.Inv a [] where
  inOrder := ⟨nofun, nofun, .nil, .nil⟩
  lines := fun _ hlast => absurd hlast.symm (Option.some_ne_none _)
  opened := fun _ hid => absurd hid.symm (Option.some_ne_none _)
  ended := fun _ _ hlast => absurd hlast.symm (Option.some_ne_none _)
  armed := fun hleft => absurd rfl hleft
  closed := fun _ _ hmem => absurd hmem List.not_mem_nil
  drained := fun _ => rfl

def run (a : Around) (events : List Event) : SessionOutputReporter :=
  events.foldl (SessionOutputReporter.next a) SessionOutputReporter.new

def sessions (events : List Event) : List String := events.flatMap Event.starts

/-- What a run preserves, by induction on its events from the last one. -/
theorem inv_run (events : List Event) (hids : (sessions events).Nodup) :
    (run a events).Inv a (sessions events) := by
  induction events using List.reverseRecOn with
  | nil => exact Inv.new
  | append_singleton events event ih =>
    have hsessions : sessions (events ++ [event]) = sessions events ++ event.starts := by
      simp [sessions]
    rw [hsessions] at hids ⊢
    obtain ⟨hfirst, -, hdisjoint⟩ := List.nodup_append.1 hids
    have hrun : run a (events ++ [event]) = (run a events).next a event := by simp [run]
    rw [hrun]
    exact (ih hfirst).next event fun id hid hmem => hdisjoint id hmem id hid rfl

/-- The lines are accounted for whatever the sessions are called. -/
theorem given_run (a : Around) (events : List Event) : (run a events).Given := by
  induction events using List.reverseRecOn with
  | nil => exact ⟨⟨⟨[], [], rfl, .nil, rfl⟩, Nat.zero_le _⟩, fun _ => ⟨rfl, rfl⟩⟩
  | append_singleton events event ih =>
    have hrun : run a (events ++ [event]) = (run a events).next a event := by simp [run]
    rw [hrun]
    exact ih.next event

end SessionOutputReporter

open SessionOutputReporter

/-- The frames of the session begun last hold, in their order, what the session was given, where a
line of their number stands for each run of lines that was dropped. The lines that are in no frame
yet are those dropped since and at most `SESSION_OUTPUT_PENDING_MAX` that wait, and after the end
there are none. -/
theorem session_shown (a : Around) (events : List SessionOutputReporter.Event) :
    (∃ sent run, (SessionOutputReporter.run a events).said =
        sent ++ run ++ (SessionOutputReporter.run a events).pending ∧
      Abridged sent (SessionOutputReporter.run a events).flushed ∧
      run.length = (SessionOutputReporter.run a events).dropped) ∧
    (SessionOutputReporter.run a events).pending.length ≤ SESSION_OUTPUT_PENDING_MAX ∧
    ((SessionOutputReporter.run a events).sessionId = none →
      Abridged (SessionOutputReporter.run a events).said
        (SessionOutputReporter.run a events).flushed) ∧
    ((sessions events).Nodup → ∀ id, (sessions events).getLast? = some id →
      (linesOf id (SessionOutputReporter.run a events).delivered).Sublist
        (SessionOutputReporter.run a events).flushed ∧
      ((∀ n, a.takes n = true) → linesOf id (SessionOutputReporter.run a events).delivered =
        (SessionOutputReporter.run a events).flushed)) := by
  have hgiven := given_run a events
  refine ⟨hgiven.flow.said, hgiven.flow.bounded, fun hnone => ?_, fun hids id hlast => ?_⟩
  · obtain ⟨sent, run, hsaid, habridged, hrun⟩ := hgiven.flow.said
    obtain ⟨hpending, hdropped⟩ := hgiven.settled hnone
    obtain rfl : run = [] := List.eq_nil_of_length_eq_zero (hrun.trans hdropped)
    rwa [hsaid, hpending, List.append_nil, List.append_nil]
  · have hinv := inv_run (a := a) events hids
    have hlines := hinv.lines id hlast
    refine ⟨?_, fun htakes => ?_⟩
    · exact (((List.sublist_append_left _ _).filter _).flatMap _).trans hlines.sub
    · rw [← hlines.all htakes, out, hinv.drained htakes, List.append_nil]

/-- A runner that says two words, before a connection that takes every frame. -/
def saysTwoWords : Around where
  clean text := if text = lit "one" then some "one" else if text = lit "two" then some "two" else
    none
  takes _ := true

/-- The words come in chunks that end anywhere. -/
def words : List SessionOutputReporter.Event :=
  [.chunk .stdout (lit "o") 1,
    .chunk .stdout (lit "ne" ++ [CARRIAGE_RETURN, NEWLINE] ++ lit "two") 2, .tick 3]

def twoWords : List SessionOutputReporter.Event :=
  .begin (some 7) [] "run-1" 0 :: words ++ [SessionOutputReporter.Event.finish .done nofun none 4]

/-- Two lines more than wait. -/
def flood : List SessionOutputReporter.Event :=
  .begin (some 7) [] "run-1" 0 ::
    List.replicate 402 (SessionOutputReporter.Event.line .stdout (lit "one") 1) ++
      [SessionOutputReporter.Event.tick 2, .finish .done nofun none 3]

theorem session_shown_flood :
    linesOf "run-1" (SessionOutputReporter.run saysTwoWords flood).delivered =
      (SessionOutputReporter.run saysTwoWords flood).flushed ∧
    (SessionOutputReporter.run saysTwoWords flood).flushed.head? = some (dropNote 2 2) :=
  ⟨((session_shown saysTwoWords flood).2.2.2 (by decide +kernel) "run-1"
    (by decide +kernel)).2 fun _ => rfl, by decide +kernel⟩

/-- The connection is given the sessions one after the other, in frames of a bounded size, and
nothing of a session after its end. When no session runs, the end of the last one was taken, or
waits as the last frame behind an armed retry, which a connection that takes frames again ends, or
was given up after all the retries. A connection that takes every frame is given every end. -/
theorem ends_arrive (a : Around) (events : List SessionOutputReporter.Event)
    (hids : (sessions events).Nodup) :
    InOrder (sessions events) (SessionOutputReporter.run a events).delivered ∧
    ((SessionOutputReporter.run a events).sessionId = none →
      ∀ id, (sessions events).getLast? = some id →
        (SessionOutputReporter.run a events).Ended id ∧
        ((∀ n, (SessionOutputReporter.run a events).attempts ≤ n → a.takes n = true) →
          (SessionOutputReporter.run a events).retries < SESSION_OUTPUT_TERMINAL_RETRIES ∨
            (SessionOutputReporter.run a events).terminalBacklog ≠ [] →
          ∃ f ∈ ((SessionOutputReporter.run a events).next a .retryTick).delivered,
            f.sessionId = id ∧ f.state ≠ .running)) ∧
    ((SessionOutputReporter.run a events).terminalBacklog ≠ [] →
      (SessionOutputReporter.run a events).retryTimer = true) ∧
    ((∀ n, a.takes n = true) → ∀ id ∈ sessions events,
      (SessionOutputReporter.run a events).sessionId ≠ some id →
        ∃ f ∈ (SessionOutputReporter.run a events).delivered,
          f.sessionId = id ∧ f.state ≠ .running) := by
  have hinv := inv_run (a := a) events hids
  refine ⟨hinv.inOrder.of_prefix (List.prefix_append _ _),
    fun hnone id hlast => ⟨hinv.ended hnone id hlast, fun htakes hgoes => ?_⟩, hinv.armed,
    hinv.closed⟩
  set s := SessionOutputReporter.run a events with hs
  have hretried := retryTerminal_spec (a := a) { s with retryTimer := false }
  cases hinv.ended hnone id hlast with
  | taken frame hmem hid hstate =>
    refine ⟨frame, ?_, hid, hstate⟩
    show frame ∈ (s.retryTick a).delivered
    unfold SessionOutputReporter.retryTick
    split
    · exact hretried.kept.subset hmem
    · exact hmem
  | retried frame hend hid hstate =>
    have hleft : s.terminalBacklog ≠ [] := List.ne_nil_of_mem (List.mem_of_getLast? hend)
    have htick : s.next a .retryTick =
        ({ s with retryTimer := false } : SessionOutputReporter).retryTerminal a :=
      if_pos (hinv.armed hleft)
    refine ⟨frame, ?_, hid, hstate⟩
    rw [htick, (hretried.all htakes).2]
    exact List.mem_append_right _ (List.mem_of_getLast? hend)
  | givenUp hused hnil =>
    rcases hgoes with hretries | hleft
    · exact absurd hretries (not_lt.2 hused)
    · exact absurd hnil hleft

theorem ends_arrive_twoWords :
    ∃ f ∈ (SessionOutputReporter.run saysTwoWords twoWords).delivered,
      f.sessionId = "run-1" ∧ f.state ≠ .running :=
  have hnone : (SessionOutputReporter.run saysTwoWords twoWords).sessionId = none :=
    finish_sessionId (SessionOutputReporter.run saysTwoWords
      (.begin (some 7) [] "run-1" 0 :: words)) .done none 4
  (ends_arrive saysTwoWords twoWords (by decide)).2.2.2 (fun _ => rfl) "run-1" (by decide)
    (hnone.trans_ne nofun)

end Runs

section Printing

namespace SessionOutputReporter

variable {a : Around} {s s' : SessionOutputReporter}

/-- A line on its way to the frames, of a stream of the process or of the runner itself. -/
structure Row where
  stream : Option StreamName
  kind : SessionOutputKind
  text : Text
  now : Int

def Row.shown (a : Around) (row : Row) : Option SessionOutputLine :=
  (a.clean row.text).map fun text => ⟨row.kind, text, row.now⟩

/-- What the rows of a stream hold. -/
def textOf (stream : StreamName) (rows : List Row) : Text :=
  ((rows.filter fun row => row.stream = some stream).map (·.text)).flatten

/-- What is left of the last line of a stream. -/
def rest (s : SessionOutputReporter) : StreamName → Text
  | .stdout => s.stdout
  | .stderr => s.stderr

/-- The lines that the session was given are rows, and the rows of a stream and what is left of its
last line print the output of that stream. -/
structure Printing (a : Around) (s : SessionOutputReporter) (output : StreamName → Text) : Prop where
  rows : ∃ rows : List Row, s.said = rows.filterMap (Row.shown a) ∧
    (∀ row ∈ rows, ∀ stream, row.stream = some stream →
      row.kind = stream.kind ∧ NEWLINE ∉ row.text) ∧
    ∀ stream, printed (textOf stream rows ++ s.rest stream) = printed (output stream)
  short : ∀ stream, (s.rest stream).length < SESSION_OUTPUT_LINE_MAX_CHARS ∧
    NEWLINE ∉ s.rest stream

theorem textOf_append (stream : StreamName) (rows rows' : List Row) :
    textOf stream (rows ++ rows') = textOf stream rows ++ textOf stream rows' := by
  simp [textOf, List.filter_append]

theorem textOf_own (stream : StreamName) (kind : SessionOutputKind) (raws : List Text) (now : Int) :
    textOf stream (raws.map fun raw => Row.mk (some stream) kind raw now) = raws.flatten := by
  simp [textOf, List.filter_map, Function.comp_def]

theorem textOf_other {stream other : StreamName} (h : stream ≠ other) (kind : SessionOutputKind)
    (raws : List Text) (now : Int) :
    textOf other (raws.map fun raw => Row.mk (some stream) kind raw now) = [] := by
  simp [textOf, List.filter_map, Function.comp_def, h]

theorem Printing.congr {output : StreamName → Text} (h : s.Printing a output)
    (hsaid : s'.said = s.said) (hrest : s'.rest = s.rest) : s'.Printing a output := by
  constructor
  · rw [hsaid, hrest]
    exact h.rows
  · rw [hrest]
    exact h.short

theorem enqueue_said (s : SessionOutputReporter) (stream : Option StreamName)
    (kind : SessionOutputKind) (raw : Text) (now : Int) :
    (s.enqueue a kind raw now).said = s.said ++ [Row.mk stream kind raw now].filterMap (Row.shown a)
      := by
  cases hclean : a.clean raw with
  | none => rw [enqueue_none hclean]; simp [Row.shown, hclean]
  | some text => rw [enqueue_some hclean]; simp [Row.shown, hclean, SessionOutputReporter.wait]

theorem enqueue_rest (s : SessionOutputReporter) (kind : SessionOutputKind) (raw : Text)
    (now : Int) : (s.enqueue a kind raw now).rest = s.rest := by
  cases hclean : a.clean raw with
  | none => rw [enqueue_none hclean]
  | some text => rw [enqueue_some hclean]; rfl

/-- A line of the runner. -/
theorem Printing.enqueue {output : StreamName → Text} (h : s.Printing a output)
    (kind : SessionOutputKind) (raw : Text) (now : Int) :
    (s.enqueue a kind raw now).Printing a output := by
  obtain ⟨rows, hsaid, hrows, hprinted⟩ := h.rows
  constructor
  · refine ⟨rows ++ [⟨none, kind, raw, now⟩], ?_, ?_, fun stream => ?_⟩
    · rw [enqueue_said s none, hsaid, List.filterMap_append]
    · intro row hrow stream hstream
      rcases List.mem_append.1 hrow with hold | hnew
      · exact hrows row hold stream hstream
      · rw [List.mem_singleton.1 hnew] at hstream
        exact absurd hstream.symm (Option.some_ne_none stream)
    · rw [textOf_append, enqueue_rest]
      simpa [textOf] using hprinted stream
  · rw [enqueue_rest]
    exact h.short

/-- Lines of a stream, all but what is left of the last of them. -/
theorem Printing.split {output : StreamName → Text} (h : s.Printing a output) (stream : StreamName)
    (text : Text) (now : Int) (hsaid : s'.said = s.said ++
      ((splitOutput (s.rest stream) text).1.map fun raw => Row.mk (some stream) stream.kind raw
        now).filterMap (Row.shown a))
    (hrest : s'.rest = Function.update s.rest stream (splitOutput (s.rest stream) text).2) :
    s'.Printing a (Function.update output stream (output stream ++ text)) := by
  obtain ⟨rows, hrowsSaid, hrows, hprinted⟩ := h.rows
  obtain ⟨hsplit, hlength⟩ := splitOutput_spec (s.rest stream) text
  obtain ⟨hlines, hlast⟩ := splitOutput_line (s.rest stream) text
  constructor
  · refine ⟨rows ++ (splitOutput (s.rest stream) text).1.map fun raw =>
      Row.mk (some stream) stream.kind raw now, ?_, ?_, fun other => ?_⟩
    · rw [hsaid, hrowsSaid, List.filterMap_append]
    · intro row hrow other hother
      rcases List.mem_append.1 hrow with hold | hnew
      · exact hrows row hold other hother
      · obtain ⟨raw, hraw, rfl⟩ := List.mem_map.1 hnew
        obtain rfl : stream = other := Option.some.inj hother
        exact ⟨rfl, hlines raw hraw⟩
    · rw [textOf_append, hrest]
      by_cases hsame : other = stream
      · subst hsame
        rw [Function.update_self, Function.update_self, textOf_own, List.append_assoc,
          printed_append, hsplit, ← printed_append, ← List.append_assoc, printed_append,
          hprinted other, ← printed_append]
      · rw [Function.update_of_ne hsame, Function.update_of_ne hsame,
          textOf_other (Ne.symm hsame), List.append_nil]
        exact hprinted other
  · intro other
    rw [hrest]
    by_cases hsame : other = stream
    · subst hsame
      rw [Function.update_self]
      exact ⟨hlength, hlast⟩
    · rw [Function.update_of_ne hsame]
      exact h.short other

theorem enqueueAll_said (s : SessionOutputReporter) (stream : Option StreamName)
    (kind : SessionOutputKind) (raws : List Text) (now : Int) :
    (raws.foldl (fun s raw => s.enqueue a kind raw now) s).said = s.said ++
      (raws.map fun raw => Row.mk stream kind raw now).filterMap (Row.shown a) := by
  induction raws generalizing s with
  | nil => exact (List.append_nil _).symm
  | cons raw raws ih =>
    rw [List.foldl_cons, ih, enqueue_said s stream, List.append_assoc, ← List.filterMap_append]
    rfl

theorem enqueueAll_rest (s : SessionOutputReporter) (kind : SessionOutputKind) (raws : List Text)
    (now : Int) : (raws.foldl (fun s raw => s.enqueue a kind raw now) s).rest = s.rest := by
  induction raws generalizing s with
  | nil => rfl
  | cons raw raws ih => rw [List.foldl_cons, ih, enqueue_rest]

theorem rest_stdout (s : SessionOutputReporter) (text : Text) :
    ({ s with stdout := text } : SessionOutputReporter).rest =
      Function.update s.rest .stdout text := by
  funext stream
  cases stream <;> rfl

theorem rest_stderr (s : SessionOutputReporter) (text : Text) :
    ({ s with stderr := text } : SessionOutputReporter).rest =
      Function.update s.rest .stderr text := by
  funext stream
  cases stream <;> rfl

theorem Printing.chunk {output : StreamName → Text} (h : s.Printing a output)
    (hopen : s.sessionId ≠ none) (stream : StreamName) (text : Text) (now : Int) :
    (s.chunk a stream text now).Printing a
      (Function.update output stream (output stream ++ text)) := by
  unfold SessionOutputReporter.chunk
  split
  · rename_i hnone
    obtain rfl : text = [] := hnone.resolve_left hopen
    rwa [List.append_nil, Function.update_eq_self]
  · cases stream
    · refine h.split .stdout text now ?_ ?_
      · exact enqueueAll_said _ (some .stdout) .stdout _ now
      · rw [enqueueAll_rest, rest_stdout]
        rfl
    · refine h.split .stderr text now ?_ ?_
      · exact enqueueAll_said _ (some .stderr) .stderr _ now
      · rw [enqueueAll_rest, rest_stderr]
        rfl

/-- What an event adds to the output of the streams. -/
def Event.output : Event → (StreamName → Text) → StreamName → Text
  | .chunk stream text _, output => Function.update output stream (output stream ++ text)
  | _, output => output

/-- The events of a session between its begin and its end. -/
def Event.inside : Event → Bool
  | .begin .. => false
  | .finish .. => false
  | _ => true

theorem sendBacklog_rest (s : SessionOutputReporter) (backlog : List SessionOutputClientFrame) :
    (s.sendBacklog a backlog).rest = s.rest := by
  induction backlog generalizing s with
  | nil => rfl
  | cons frame backlog ih =>
    unfold sendBacklog trySend
    split
    · rw [if_pos rfl, ih]
      rfl
    · rfl

theorem retryTerminal_rest (s : SessionOutputReporter) : (s.retryTerminal a).rest = s.rest := by
  have h := sendBacklog_rest (a := a) s s.terminalBacklog
  unfold retryTerminal
  dsimp only
  split
  · exact h
  · split
    · exact h
    · split <;> exact h

theorem trySend_rest (s : SessionOutputReporter) (frame : SessionOutputClientFrame) :
    (s.trySend a frame).1.rest = s.rest := by
  unfold trySend
  split <;> rfl

theorem Printing.flushRunning {output : StreamName → Text} (h : s.Printing a output) (now : Int) :
    (s.flush a .running now).Printing a output := by
  cases hid : s.sessionId with
  | none => rwa [flush_none hid]
  | some id =>
    rw [flush_running hid]
    exact h.congr (trySend_spec _ _).1.said (trySend_rest _ _)

theorem enqueueAll_sessionId (s : SessionOutputReporter) (kind : SessionOutputKind)
    (raws : List Text) (now : Int) :
    (raws.foldl (fun s raw => s.enqueue a kind raw now) s).sessionId = s.sessionId := by
  induction raws generalizing s with
  | nil => rfl
  | cons raw raws ih => rw [List.foldl_cons, ih, enqueue_sessionId]

theorem flushRunning_sessionId (s : SessionOutputReporter) (now : Int) :
    (s.flush a .running now).sessionId = s.sessionId := by
  cases hid : s.sessionId with
  | none => rw [flush_none hid, hid]
  | some id =>
    rw [flush_running hid, ← hid]
    exact (trySend_spec _ _).1.sessionId

theorem next_sessionId (s : SessionOutputReporter) (event : Event) (h : event.inside = true) :
    (s.next a event).sessionId = s.sessionId := by
  cases event with
  | «begin» => exact absurd h Bool.false_ne_true
  | finish => exact absurd h Bool.false_ne_true
  | chunk stream text now =>
    unfold SessionOutputReporter.next SessionOutputReporter.chunk
    dsimp only
    split
    · rfl
    · cases stream <;> exact enqueueAll_sessionId _ _ _ _
  | line kind text now =>
    unfold SessionOutputReporter.next SessionOutputReporter.line
    dsimp only
    split
    · rfl
    · exact enqueue_sessionId _ _ _ _
  | tool name now =>
    cases name with
    | none => rfl
    | some name =>
      unfold SessionOutputReporter.next SessionOutputReporter.tool
      dsimp only
      split
      · rfl
      · exact enqueue_sessionId _ _ _ _
  | toolCall name failed now =>
    unfold SessionOutputReporter.next SessionOutputReporter.toolCall
    dsimp only
    split
    · rfl
    · exact enqueue_sessionId _ _ _ _
  | tick now =>
    unfold SessionOutputReporter.next SessionOutputReporter.tick
    dsimp only
    split
    · rfl
    · split
      · rfl
      · exact flushRunning_sessionId _ _
  | retryTick =>
    unfold SessionOutputReporter.next SessionOutputReporter.retryTick
    dsimp only
    split
    · exact (retryTerminal_spec _).sent.sessionId
    · rfl

/-- What an event inside a session preserves. -/
theorem Printing.next {output : StreamName → Text} (h : s.Printing a output)
    (hopen : s.sessionId ≠ none) (event : Event) (hinside : event.inside = true) :
    (s.next a event).Printing a (event.output output) := by
  have hnamed : ∀ name : Text,
      ({ s with lastTool := some name } : SessionOutputReporter).Printing a output :=
    fun name => h.congr rfl rfl
  have hfired : ({ s with timer := false } : SessionOutputReporter).Printing a output :=
    h.congr rfl rfl
  cases event with
  | «begin» => exact absurd hinside Bool.false_ne_true
  | finish => exact absurd hinside Bool.false_ne_true
  | chunk stream text now => exact h.chunk hopen stream text now
  | line kind text now =>
    unfold SessionOutputReporter.next SessionOutputReporter.line
    dsimp only
    split
    · exact h
    · exact h.enqueue kind text now
  | tool name now =>
    cases name with
    | none => exact h
    | some name =>
      unfold SessionOutputReporter.next SessionOutputReporter.tool
      dsimp only
      split
      · exact h
      · exact (hnamed name).enqueue _ _ _
  | toolCall name failed now =>
    unfold SessionOutputReporter.next SessionOutputReporter.toolCall
    dsimp only
    split
    · exact h
    · exact (hnamed name).enqueue _ _ _
  | tick now =>
    unfold SessionOutputReporter.next SessionOutputReporter.tick
    dsimp only
    split
    · exact h
    · split
      · exact hfired
      · exact hfired.flushRunning now
  | retryTick =>
    unfold SessionOutputReporter.next SessionOutputReporter.retryTick
    dsimp only
    split
    · exact h.congr (retryTerminal_spec _).sent.said (retryTerminal_rest _)
    · exact h

/-- A session begins with nothing printed. -/
theorem Printing.begin (s : SessionOutputReporter) (taskSeq : Option ℕ) (note : Text)
    (sessionId : String) (now : Int) :
    (s.begin a taskSeq note sessionId now).Printing a (fun _ => []) ∧
      (s.begin a taskSeq note sessionId now).sessionId = some sessionId := by
  have hpos : 0 < SESSION_OUTPUT_LINE_MAX_CHARS := by decide
  set t : SessionOutputReporter :=
    { ((s.finish a .failed (some (lit "superseded by a new run")) now).retryTerminal
        a).dropTerminalBacklog with
      sessionId := some sessionId, taskSeq := taskSeq, pending := [], stdout := [], stderr := []
      dropped := 0, lastTool := none, said := [], flushed := [] } with ht
  have hrest : t.rest = fun _ => [] := by
    funext stream
    cases stream <;> rfl
  have hempty : t.Printing a (fun _ => []) := by
    constructor
    · exact ⟨[], rfl, fun row hrow => absurd hrow List.not_mem_nil, fun stream => by rw [hrest]; rfl⟩
    · intro stream
      rw [hrest]
      exact ⟨hpos, List.not_mem_nil⟩
  have hbegin : s.begin a taskSeq note sessionId now =
      (t.enqueue a .system note now).flush a .running now := rfl
  rw [hbegin, flushRunning_sessionId, enqueue_sessionId]
  exact ⟨(hempty.enqueue .system note now).flushRunning now, rfl⟩

/-- What is left of a stream becomes its last line. -/
theorem Printing.last {output : StreamName → Text} (h : s.Printing a output) (stream : StreamName)
    (now : Int) (hsaid : s'.said = s.said ++
      [Row.mk (some stream) stream.kind (s.rest stream) now].filterMap (Row.shown a))
    (hrest : s'.rest = Function.update s.rest stream []) : s'.Printing a output := by
  obtain ⟨rows, hrowsSaid, hrows, hprinted⟩ := h.rows
  have hpos : 0 < SESSION_OUTPUT_LINE_MAX_CHARS := by decide
  constructor
  · refine ⟨rows ++ [s.rest stream].map fun raw => Row.mk (some stream) stream.kind raw now, ?_, ?_,
      fun other => ?_⟩
    · rw [hsaid, hrowsSaid, List.filterMap_append]
      rfl
    · intro row hrow other hother
      rcases List.mem_append.1 hrow with hold | hnew
      · exact hrows row hold other hother
      · rw [List.mem_singleton.1 hnew] at hother ⊢
        obtain rfl : stream = other := Option.some.inj hother
        exact ⟨rfl, (h.short stream).2⟩
    · rw [textOf_append, hrest, ← hprinted other]
      by_cases hsame : other = stream
      · subst hsame
        rw [Function.update_self, textOf_own]
        simp
      · rw [Function.update_of_ne hsame, textOf_other (Ne.symm hsame), List.append_nil]
  · intro other
    rw [hrest]
    by_cases hsame : other = stream
    · subst hsame
      rw [Function.update_self]
      exact ⟨hpos, List.not_mem_nil⟩
    · rw [Function.update_of_ne hsame]
      exact h.short other

theorem endStream_rest (s : SessionOutputReporter) (stream : StreamName) (now : Int) :
    (s.endStream a stream now).rest = Function.update s.rest stream [] := by
  cases stream
  · refine (rest_stdout _ []).trans ?_
    split
    · rfl
    · rw [enqueue_rest]
  · refine (rest_stderr _ []).trans ?_
    split
    · rfl
    · rw [enqueue_rest]

theorem Printing.endStream {output : StreamName → Text} (h : s.Printing a output)
    (stream : StreamName) (now : Int) : (s.endStream a stream now).Printing a output := by
  have hlines : (s.endStream a stream now).said = if s.rest stream = [] then s.said else
      (s.enqueue a stream.kind (s.rest stream) now).said := by
    cases stream <;> exact apply_ite said _ _ _
  by_cases hempty : s.rest stream = []
  · refine h.congr (hlines.trans (if_pos hempty)) ?_
    rw [endStream_rest, ← hempty, Function.update_eq_self]
  · refine h.last stream now ?_ (endStream_rest _ _ _)
    rw [hlines, if_neg hempty, enqueue_said s (some stream)]

/-- The end gives the session what is left of its streams. -/
theorem Printing.finish {output : StreamName → Text} (h : s.Printing a output)
    (hopen : s.sessionId ≠ none) {state : SessionOutputState} (hstate : state ≠ .running)
    (note : Option Text) (now : Int) :
    ∃ rows : List Row, (s.finish a state note now).said = rows.filterMap (Row.shown a) ∧
      (∀ row ∈ rows, ∀ stream, row.stream = some stream →
        row.kind = stream.kind ∧ NEWLINE ∉ row.text) ∧
      ∀ stream, printed (textOf stream rows) = printed (output stream) := by
  set t := (s.endStream a .stdout now).endStream a .stderr now with ht
  have hended : t.Printing a output := (h.endStream .stdout now).endStream .stderr now
  have hrest : t.rest = fun _ => [] := by
    rw [ht, endStream_rest, endStream_rest]
    funext stream
    cases stream <;> rfl
  obtain ⟨id, hid⟩ := Option.ne_none_iff_exists'.1 hopen
  have hopen' : t.sessionId = some id := by rw [ht, endStream_sessionId, endStream_sessionId, hid]
  have hflush : ∀ u : SessionOutputReporter, u.Printing a output → u.rest = (fun _ => []) →
      u.sessionId = some id → ∃ rows : List Row,
        ((u.flush a state now).leave).said = rows.filterMap (Row.shown a) ∧
        (∀ row ∈ rows, ∀ stream, row.stream = some stream →
          row.kind = stream.kind ∧ NEWLINE ∉ row.text) ∧
        ∀ stream, printed (textOf stream rows) = printed (output stream) := by
    intro u hu hnone huid
    obtain ⟨rows, hsaid, hrows, hprinted⟩ := hu.rows
    refine ⟨rows, ?_, hrows, fun stream => ?_⟩
    · rw [flush_end huid hstate]
      exact (retryTerminal_spec _).sent.said.trans hsaid
    · simpa [hnone] using hprinted stream
  rw [SessionOutputReporter.finish, if_neg hopen]
  cases note with
  | none => exact hflush t hended hrest hopen'
  | some note =>
    dsimp only
    split
    · exact hflush t hended hrest hopen'
    · exact hflush _ (hended.enqueue .system note now) ((enqueue_rest t _ _ _).trans hrest)
        ((enqueue_sessionId t _ _ _).trans hopen')

/-- The output of the streams in the events of a session. -/
def outputOf (events : List Event) : StreamName → Text :=
  events.foldl (fun output event => event.output output) fun _ => []

theorem printing_run (s : SessionOutputReporter) (taskSeq : Option ℕ) (note : Text)
    (sessionId : String) (now : Int) (events : List Event)
    (hinside : ∀ event ∈ events, event.inside = true) :
    (events.foldl (SessionOutputReporter.next a)
        (s.begin a taskSeq note sessionId now)).Printing a (outputOf events) ∧
      (events.foldl (SessionOutputReporter.next a)
        (s.begin a taskSeq note sessionId now)).sessionId = some sessionId := by
  induction events using List.reverseRecOn with
  | nil => exact Printing.begin s taskSeq note sessionId now
  | append_singleton events event ih =>
    obtain ⟨hprinting, hid⟩ := ih fun e he => hinside e (List.mem_append_left _ he)
    have hevent := hinside event (List.mem_append_right _ (List.mem_singleton_self _))
    have hopen := hid.trans_ne (Option.some_ne_none sessionId)
    rw [outputOf, List.foldl_append, List.foldl_append]
    exact ⟨hprinting.next hopen event hevent, (next_sessionId _ event hevent).trans hid⟩

end SessionOutputReporter

open SessionOutputReporter

/-- Whatever happens during a session, and however the output of its process is cut into chunks, the
session is given lines that print what the process printed, all of it when the session has ended. -/
theorem output_reported (a : Around) (s : SessionOutputReporter) (taskSeq : Option ℕ) (note : Text)
    (sessionId : String) (now : Int) (events : List SessionOutputReporter.Event)
    (hinside : ∀ event ∈ events, event.inside = true) {state : SessionOutputState}
    (hstate : state ≠ .running) (endNote : Option Text) (endNow : Int) :
    (events.foldl (SessionOutputReporter.next a)
      (s.begin a taskSeq note sessionId now)).Printing a (outputOf events) ∧
    ∃ rows : List SessionOutputReporter.Row,
      ((events.foldl (SessionOutputReporter.next a) (s.begin a taskSeq note sessionId now)).next a
        (.finish state hstate endNote endNow)).said =
          rows.filterMap (SessionOutputReporter.Row.shown a) ∧
      (∀ row ∈ rows, ∀ stream, row.stream = some stream →
        row.kind = stream.kind ∧ NEWLINE ∉ row.text) ∧
      ∀ stream, printed (textOf stream rows) = printed (outputOf events stream) := by
  obtain ⟨hprinting, hid⟩ := printing_run (a := a) s taskSeq note sessionId now events hinside
  exact ⟨hprinting, hprinting.finish (hid.trans_ne (Option.some_ne_none sessionId)) hstate endNote
    endNow⟩

theorem output_reported_words :
    ∃ rows : List SessionOutputReporter.Row,
      ((words.foldl (SessionOutputReporter.next saysTwoWords)
        (SessionOutputReporter.new.begin saysTwoWords none [] "run-1" 0)).next saysTwoWords
          (.finish .done nofun none 4)).said =
        rows.filterMap (SessionOutputReporter.Row.shown saysTwoWords) ∧
      ∀ stream, printed (textOf stream rows) = printed (outputOf words stream) :=
  have hreported := (output_reported saysTwoWords SessionOutputReporter.new none [] "run-1" 0 words
    (by decide) (nofun : SessionOutputState.done ≠ .running) none 4).2
  hreported.imp fun _ hrows => ⟨hrows.1, hrows.2.2⟩

end Printing

end Reporter
end AgentParty
