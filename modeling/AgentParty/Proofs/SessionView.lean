import AgentParty.Web.SessionOutputRing

/-! What a page shows of a live session against the ring. The agents do not disturb each other
on either side, so the frames are read agent by agent; what a page shows once its inbox is
empty is what the inbox makes of its state now. -/

namespace AgentParty
namespace Web

/-- What a session frame makes of an agent's session on the page. -/
def shownBy (prev : Option LiveSession) (frame : SessionOutputFrame) : Option LiveSession :=
  match sessionLines prev frame with
  | none => prev
  | some lines => some (liveSession frame (cappedLines lines))

def Unremoved (state : ChannelState) : Prop := ∀ name, state.removedParticipants.get? name = none

theorem get?_applySessionOutput {state : ChannelState} (h : Unremoved state)
    (frame : SessionOutputFrame) (name : String) :
    (applySessionOutput state frame).liveSessions.get? name =
      if name = frame.name then shownBy (state.liveSessions.get? name) frame
      else state.liveSessions.get? name := by
  unfold applySessionOutput shownBy
  rw [h frame.name, if_neg (by simp)]
  by_cases hname : name = frame.name
  · subst hname
    rw [if_pos rfl]
    cases sessionLines (state.liveSessions.get? frame.name) frame with
    | none => rfl
    | some lines =>
      dsimp only
      rw [Table.get?_put]
      exact if_pos rfl
  · rw [if_neg hname]
    cases sessionLines (state.liveSessions.get? frame.name) frame with
    | none => rfl
    | some lines =>
      dsimp only
      rw [Table.get?_put]
      exact if_neg hname

theorem removed_applySessionOutput (state : ChannelState) (frame : SessionOutputFrame) :
    (applySessionOutput state frame).removedParticipants = state.removedParticipants := by
  unfold applySessionOutput
  split
  · rfl
  · split <;> rfl

/-- A list of session frames, read for one agent. -/
theorem get?_sessionFrames {state : ChannelState} (h : Unremoved state)
    (frames : List SessionOutputFrame) (name : String) :
    ((frames.map ServerFrame.sessionOutput).foldl applyFrame state).liveSessions.get? name =
      (frames.filter (·.name = name)).foldl shownBy (state.liveSessions.get? name) := by
  induction frames generalizing state with
  | nil => rfl
  | cons frame frames ih =>
    have hnext : Unremoved (applySessionOutput state frame) := by
      intro name
      rw [removed_applySessionOutput]
      exact h name
    rw [List.map_cons, List.foldl_cons]
    refine (ih hnext).trans ?_
    rw [get?_applySessionOutput h, List.filter_cons]
    by_cases hname : name = frame.name
    · rw [if_pos hname, if_pos (by simpa using hname.symm), List.foldl_cons]
    · rw [if_neg hname, if_neg (by simpa using Ne.symm hname)]

/-- The rows of a table give an agent at most the frame of its own row. -/
theorem filter_rowFrames {sessions : Sessions} {frame : SessionEntry → Option SessionOutputFrame}
    (hname : ∀ e f, frame e = some f → f.name = e.name) {e : SessionEntry} (he : e ∈ sessions) :
    (sessions.rows.filterMap frame).filter (·.name = e.name) = (frame e).toList := by
  obtain ⟨pre, post, hrows⟩ := List.append_of_mem he
  have hnodup := sessions.nodup
  rw [hrows, List.map_append, List.map_cons, List.nodup_middle, List.nodup_cons] at hnodup
  have hnone : ∀ rows : List SessionEntry, (∀ b ∈ rows, b.name ≠ e.name) →
      (rows.filterMap frame).filter (·.name = e.name) = [] := by
    intro rows hrows
    refine List.filter_eq_nil_iff.2 fun f hf => ?_
    obtain ⟨b, hb, hbf⟩ := List.mem_filterMap.1 hf
    rw [hname b f hbf]
    simpa using hrows b hb
  have hother : ∀ b, b ∈ pre ∨ b ∈ post → b.name ≠ e.name := by
    intro b hb heq
    refine hnodup.1 (heq ▸ ?_)
    rw [← List.map_append]
    exact List.mem_map_of_mem (List.mem_append.2 hb)
  rw [hrows, List.filterMap_append, List.filterMap_cons, List.filter_append,
    hnone pre fun b hb => hother b (Or.inl hb), List.nil_append]
  cases hframe : frame e with
  | none => exact hnone post fun b hb => hother b (Or.inr hb)
  | some f =>
    dsimp only
    rw [List.filter_cons_of_pos (by simpa using hname e f hframe),
      hnone post fun b hb => hother b (Or.inr hb)]
    rfl

/-- The page's session continues the ring's. -/
structure ShowsEntry (e : SessionEntry) (v : LiveSession) : Prop where
  sessionId : v.sessionId = e.sessionId
  taskSeq : v.taskSeq = e.taskSeq
  state : v.state = e.state
  lines : e.lines <:+ v.lines

theorem ringLines_suffix (lines : List SessionOutputLine) : ringLines lines <:+ lines :=
  List.drop_suffix _ _

theorem length_ringLines (lines : List SessionOutputLine) :
    (ringLines lines).length ≤ SESSION_OUTPUT_RING_LINES := by
  rw [ringLines, List.length_drop]
  omega

theorem cappedLines_sublist (lines : List SessionOutputLine) :
    (cappedLines lines).Sublist lines :=
  List.drop_sublist _ _

/-- The page's cap is beyond the ring's. -/
theorem suffix_cappedLines {kept lines : List SessionOutputLine} (h : kept <:+ lines)
    (hlen : kept.length ≤ SESSION_OUTPUT_RING_LINES) : kept <:+ cappedLines lines := by
  refine List.suffix_of_suffix_length_le h (List.drop_suffix _ _) ?_
  have hle := h.length_le
  rw [cappedLines, List.length_drop]
  rw [SESSION_OUTPUT_RING_LINES] at hlen
  rw [LIVE_SESSION_CLIENT_MAX_LINES]
  omega

/-- A suffix of what was shown, and what is reported next. -/
theorem ringLines_append_suffix {kept shown : List SessionOutputLine} (h : kept <:+ shown)
    (lines : List SessionOutputLine) :
    ringLines (kept ++ lines) <:+ cappedLines (shown ++ lines) := by
  obtain ⟨front, rfl⟩ := h
  refine suffix_cappedLines ?_ (length_ringLines _)
  refine (ringLines_suffix _).trans ⟨front, ?_⟩
  rw [List.append_assoc]

namespace SessionOutputRing

variable {r : SessionOutputRing} {e : SessionEntry}

theorem mem_evict {sessions : Sessions} {turns : ℕ} (h : e ∈ evict sessions turns) :
    e ∈ sessions := by
  induction turns generalizing sessions with
  | zero => exact h
  | succ turns ih =>
    unfold evict at h
    split at h
    · exact h
    · exact (Table.mem_delete.1 (ih h)).1

theorem sessions_take (r : SessionOutputRing) (connectionId : String) (now : Int) :
    (r.take connectionId now).1.sessions = r.sessions := by
  unfold take
  dsimp only
  split_ifs <;> rfl

theorem mem_enter {entry : SessionEntry} (h : e ∈ (r.enter entry).sessions) :
    e = entry ∨ (e ∈ r.sessions ∧ e.name ≠ entry.name) := by
  rcases Table.mem_put.1 (mem_evict h) with rfl | ⟨hmem, hne⟩
  · exact Or.inl rfl
  · exact Or.inr ⟨(Table.mem_delete.1 hmem).1, hne⟩

theorem mem_record {entry : SessionEntry} {frame : SessionOutputClientFrame}
    (h : e ∈ (r.record entry frame).1.sessions) :
    e = entry ∨ (e ∈ r.sessions ∧ e.name ≠ entry.name) := by
  obtain ⟨e₀, he₀, rfl⟩ := List.mem_map.1 h
  by_cases hname : e₀.name = entry.name
  · exact Or.inl (by simp only [hname, decide_true, if_true])
  · simp only [hname, decide_false, Bool.false_eq_true, if_false]
    exact Or.inr ⟨he₀, hname⟩

theorem lines_reported (entry : SessionEntry) (connectionId : String)
    (frame : SessionOutputClientFrame) (now : Int) :
    (reported entry connectionId frame now).lines = ringLines (entry.lines ++ frame.lines) := by
  simp only [reported]

/-- A report changes nothing, or it gives the agent one entry and announces its lines. -/
theorem apply_cases (r : SessionOutputRing) (name connectionId : String)
    (frame : SessionOutputClientFrame) (now : Int) :
    ((r.apply name connectionId frame now).2 = none ∧
        (r.apply name connectionId frame now).1.sessions = r.sessions) ∨
      ∃ entry : SessionEntry, entry.name = name ∧ entry.sessionId = frame.sessionId ∧
        (r.apply name connectionId frame now).2 = some (entry.frame frame.lines false) ∧
        (entry.lines = ringLines frame.lines ∨ ∃ e ∈ r.sessions, e.name = name ∧
          e.sessionId = entry.sessionId ∧ entry.lines = ringLines (e.lines ++ frame.lines)) ∧
        ∀ e ∈ (r.apply name connectionId frame now).1.sessions,
          e = entry ∨ (e ∈ r.sessions ∧ e.name ≠ name) := by
  have htake : (if frame.state ≠ .running then (r, true)
      else r.take connectionId now).1.sessions = r.sessions := by
    split_ifs
    · rfl
    · exact sessions_take r connectionId now
  unfold apply
  simp only [decide_eq_true_eq]
  set r' := if frame.state ≠ .running then (r, true) else r.take connectionId now
  by_cases htaken : r'.2 = true
  swap
  · rw [if_pos (by simpa using htaken)]
    exact Or.inl ⟨rfl, htake⟩
  rw [if_neg (by simpa using htaken)]
  cases hfound : (r'.1.sessions.get? name).filter fun e => e.sessionId = frame.sessionId with
  | none =>
    dsimp only
    refine Or.inr ⟨reported ⟨name, frame.sessionId, frame.taskSeq, frame.state, [], connectionId,
      now⟩ connectionId frame now, rfl, rfl, rfl, Or.inl (lines_reported _ _ _ _), fun e he => ?_⟩
    rcases mem_record he with rfl | ⟨hmem, hne⟩
    · exact Or.inl rfl
    · rcases mem_enter hmem with rfl | hmem
      · exact absurd rfl hne
      · exact Or.inr (htake ▸ hmem)
  | some e₀ =>
    obtain ⟨hget, hsession⟩ := Option.filter_eq_some_iff.1 hfound
    obtain ⟨hmem₀, rfl⟩ := Table.get?_eq_some.1 hget
    dsimp only
    split_ifs
    · exact Or.inl ⟨rfl, htake⟩
    · exact Or.inl ⟨rfl, htake⟩
    · refine Or.inr ⟨reported e₀ connectionId frame now, rfl, of_decide_eq_true hsession, rfl,
        Or.inr ⟨e₀, htake ▸ hmem₀, rfl, rfl, lines_reported _ _ _ _⟩, fun e he => ?_⟩
      exact (mem_record he).imp_right fun hmem => htake ▸ hmem

end SessionOutputRing

/-- Every agent of the ring is shown. -/
def Agrees (r : SessionOutputRing) (state : ChannelState) : Prop :=
  ∀ e ∈ r.sessions, ∃ v, state.liveSessions.get? e.name = some v ∧ ShowsEntry e v

def Bounded (r : SessionOutputRing) : Prop :=
  ∀ e ∈ r.sessions, e.lines.length ≤ SESSION_OUTPUT_RING_LINES

section Agrees

variable {r : SessionOutputRing} {state : ChannelState}

theorem showsEntry_liveSession {e : SessionEntry} {frame : SessionOutputFrame}
    (hid : frame.sessionId = e.sessionId) (htask : frame.taskSeq = e.taskSeq)
    (hstate : frame.state = e.state) {lines : List SessionOutputLine} (h : e.lines <:+ lines) :
    ShowsEntry e (liveSession frame lines) :=
  ⟨hid, htask, hstate, h⟩

/-- The frame of a report keeps the page with the ring. -/
theorem Agrees.report (h : Agrees r state) (hstate : Unremoved state) {name connectionId : String}
    {frame : SessionOutputClientFrame} {now : Int} :
    Agrees (r.apply name connectionId frame now).1
      ((((r.apply name connectionId frame now).2.toList).map
        ServerFrame.sessionOutput).foldl applyFrame state) := by
  rcases r.apply_cases name connectionId frame now with ⟨hnone, hsame⟩ |
    ⟨entry, rfl, -, hframe, hlines, hsessions⟩
  · rw [hnone]
    intro e he
    exact h e (hsame ▸ he)
  rw [hframe]
  intro e he
  rw [get?_sessionFrames hstate, Option.toList_some]
  rcases hsessions e he with rfl | ⟨hmem, hne⟩
  · rw [List.filter_cons_of_pos (by simp [SessionEntry.frame]), List.filter_nil, List.foldl_cons,
      List.foldl_nil]
    have hfresh : ringLines frame.lines <:+ cappedLines frame.lines :=
      suffix_cappedLines (ringLines_suffix _) (length_ringLines _)
    cases hprev : state.liveSessions.get? e.name with
    | none =>
      refine ⟨_, rfl, showsEntry_liveSession rfl rfl rfl ?_⟩
      rcases hlines with hlines | ⟨e₀, he₀, hname, -⟩
      · rw [hlines]
        exact hfresh
      · obtain ⟨v, hv, -⟩ := h e₀ he₀
        rw [hname, hprev] at hv
        cases hv
    | some prev =>
      by_cases hid : prev.sessionId = e.sessionId
      · refine ⟨liveSession (e.frame frame.lines false) (cappedLines (prev.lines ++ frame.lines)),
          ?_, showsEntry_liveSession rfl rfl rfl ?_⟩
        · simp [shownBy, sessionLines, SessionEntry.frame, hid]
        rcases hlines with hlines | ⟨e₀, he₀, hname, -, hlines⟩
        · rw [hlines]
          have happend := ringLines_append_suffix (List.nil_suffix (l := prev.lines)) frame.lines
          exact happend
        · obtain ⟨v, hv, hshows⟩ := h e₀ he₀
          rw [hname, hprev] at hv
          cases hv
          rw [hlines]
          exact ringLines_append_suffix hshows.lines frame.lines
      · refine ⟨liveSession (e.frame frame.lines false) (cappedLines frame.lines), ?_,
          showsEntry_liveSession rfl rfl rfl ?_⟩
        · simp [shownBy, sessionLines, SessionEntry.frame, hid]
        rcases hlines with hlines | ⟨e₀, he₀, hname, hsame, -⟩
        · rw [hlines]
          exact hfresh
        · obtain ⟨v, hv, hshows⟩ := h e₀ he₀
          rw [hname, hprev] at hv
          cases hv
          exact absurd (hshows.sessionId.trans hsame) hid
  · have hother : [entry.frame frame.lines false].filter (·.name = e.name) = [] := by
      simp [SessionEntry.frame, Ne.symm hne]
    rw [hother]
    exact h e hmem

theorem Agrees.disconnect (h : Agrees r state) (hstate : Unremoved state) (hr : Bounded r)
    (connectionId : String) (now : Int) :
    Agrees (r.disconnect connectionId now).1
      (((r.disconnect connectionId now).2.map ServerFrame.sessionOutput).foldl applyFrame
        state) := by
  intro e' he'
  obtain ⟨e, he, rfl⟩ := List.mem_map.1 he'
  obtain ⟨v, hv, hshows⟩ := h e he
  have hframes : (r.disconnect connectionId now).2.filter (·.name = e.name) =
      (if (decide (e.connectionId = connectionId) && decide (e.state = .running)) then
        some ((e.disconnected now).frame [] false) else none).toList := by
    refine filter_rowFrames (fun e f hf => ?_) he
    split_ifs at hf
    cases hf
    rfl
  by_cases hleft : (decide (e.connectionId = connectionId) && decide (e.state = .running)) = true
  · rw [if_pos hleft] at hframes
    simp only [if_pos hleft]
    refine ⟨liveSession ((e.disconnected now).frame [] false) (cappedLines v.lines), ?_,
      showsEntry_liveSession rfl rfl rfl (suffix_cappedLines hshows.lines (hr e he))⟩
    have hid : v.sessionId = (e.disconnected now).sessionId := hshows.sessionId
    rw [get?_sessionFrames hstate, show (e.disconnected now).name = e.name from rfl, hframes, hv]
    simp [shownBy, sessionLines, SessionEntry.frame, hid]
  · rw [if_neg hleft] at hframes
    simp only [if_neg hleft]
    refine ⟨v, ?_, hshows⟩
    rw [get?_sessionFrames hstate, hframes]
    exact hv

theorem get?_welcomed (hstate : Unremoved state) (participants presence : List String)
    (name : String) : (welcomed state participants presence).liveSessions.get? name =
      if name ∈ participants ++ presence then state.liveSessions.get? name else none := by
  have hnone : ∀ name, ((state.removedParticipants.delete fun removed =>
      participants.contains removed.name).get? name).isSome = false := by
    intro name
    rw [Option.isSome_eq_false_iff, Option.isNone_iff_eq_none, Table.get?_eq_none]
    exact fun b hb => Table.get?_eq_none.1 (hstate name) b (Table.mem_delete.1 hb).1
  unfold welcomed
  simp only [hnone, Bool.or_false]
  cases hv : state.liveSessions.get? name with
  | none =>
    rw [ite_self, Table.get?_eq_none]
    exact fun b hb => Table.get?_eq_none.1 hv b (Table.mem_delete.1 hb).1
  | some v =>
    obtain ⟨hmem, rfl⟩ := Table.get?_eq_some.1 hv
    split_ifs with hroster
    · have hkeep : (!(participants ++ presence).contains v.name) = false := by
        rw [List.contains_iff_mem.2 hroster, Bool.not_true]
      exact Table.get?_eq_some.2 ⟨Table.mem_delete.2 ⟨hmem, hkeep⟩, rfl⟩
    · rw [Table.get?_eq_none]
      intro b hb hname
      obtain ⟨hb, hkeep⟩ := Table.mem_delete.1 hb
      rw [Table.eq_of_key hb hmem hname, Bool.not_eq_false'] at hkeep
      exact hroster (List.contains_iff_mem.1 hkeep)

theorem unremoved_welcomed (hstate : Unremoved state) (participants presence : List String) :
    Unremoved (welcomed state participants presence) := by
  intro name
  rw [Table.get?_eq_none]
  exact fun b hb => Table.get?_eq_none.1 (hstate name) b (Table.mem_delete.1 hb).1

theorem sessionLines_replay {v : LiveSession} {frame : SessionOutputFrame}
    (hreplay : frame.replay = true)
    (hnew : ¬ (v.sessionId = frame.sessionId ∧ frame.ts < v.updatedAt)) :
    sessionLines (some v) frame = some frame.lines := by
  simp only [sessionLines, hreplay, if_true]
  rw [if_neg]
  rwa [Bool.and_eq_true, decide_eq_true_eq, decide_eq_true_eq]

/-- After a welcome the frames of a snapshot bring the page to the ring, if they are not older
than what the page shows of the same sessions. -/
theorem agrees_hello (hstate : Unremoved state) (hr : Bounded r)
    {participants presence : List String} {live : Option (List String)} {now : Int}
    (hstamp : ∀ e ∈ r.sessions, ∀ v ∈ state.liveSessions, v.name = e.name →
      v.sessionId = e.sessionId → v.name ∈ participants ++ presence →
        v.updatedAt ≤ (e.swept live now).updatedAt) :
    Agrees (r.snapshot live now).1
      (((r.snapshot live now).2.map ServerFrame.sessionOutput).foldl applyFrame
        (welcomed state participants presence)) := by
  intro e' he'
  have hframes : (r.snapshot live now).2.filter (·.name = e'.name) =
      [e'.frame e'.lines true] := by
    have hrow : ((r.snapshot live now).1.sessions.rows.filterMap
        fun e => some (e.frame e.lines true)).filter (·.name = e'.name) =
          [e'.frame e'.lines true] := by
      refine filter_rowFrames (fun e f hf => ?_) he'
      cases hf
      rfl
    rwa [List.filterMap_eq_map'] at hrow
  rw [get?_sessionFrames (unremoved_welcomed hstate _ _), hframes, get?_welcomed hstate]
  obtain ⟨e, he, hswept⟩ := List.mem_map.1 he'
  have hlines : e'.lines.length ≤ SESSION_OUTPUT_RING_LINES := by
    rw [← hswept]
    split_ifs <;> exact hr e he
  refine ⟨liveSession (e'.frame e'.lines true) (cappedLines e'.lines), ?_,
    showsEntry_liveSession rfl rfl rfl (suffix_cappedLines List.suffix_rfl hlines)⟩
  rw [List.foldl_cons, List.foldl_nil]
  split_ifs with hroster
  · cases hv : state.liveSessions.get? e'.name with
    | none => rfl
    | some v =>
      obtain ⟨hmem, hname⟩ := Table.get?_eq_some.1 hv
      have hold : ¬ (v.sessionId = e'.sessionId ∧ e'.updatedAt < v.updatedAt) := by
        rintro ⟨hid, hlt⟩
        have hsame : e'.name = e.name ∧ e'.sessionId = e.sessionId ∧ e' = e.swept live now := by
          rw [← hswept]
          split_ifs with hlost
          · exact ⟨rfl, rfl, (if_pos hlost).symm⟩
          · exact ⟨rfl, rfl, (if_neg hlost).symm⟩
        have hle := hstamp e he v hmem (hname.trans hsame.1) (hid.trans hsame.2.1)
          (hname ▸ hroster)
        rw [← hsame.2.2] at hle
        exact absurd hlt (not_lt.2 hle)
      rw [shownBy, sessionLines_replay rfl hold]
      rfl
  · rfl

end Agrees

/-- The lines reported for a session. -/
def transcript (past : List SessionOutputFrame) (name sessionId : String) :
    List SessionOutputLine :=
  (past.filter fun f => f.name = name && f.sessionId = sessionId).flatMap (·.lines)

theorem transcript_append (past frames : List SessionOutputFrame) (name sessionId : String) :
    transcript (past ++ frames) name sessionId =
      transcript past name sessionId ++ transcript frames name sessionId := by
  rw [transcript, List.filter_append, List.flatMap_append]
  rfl

theorem transcript_single (frame : SessionOutputFrame) :
    transcript [frame] frame.name frame.sessionId = frame.lines := by
  rw [transcript, List.filter_cons_of_pos (by simp), List.filter_nil, List.flatMap_singleton]

namespace Watched

theorem step_next (s : Watched) (e : Event) : Step s e (s.next e) := rfl

/-- The frames of the ring: reports, snapshots of reported lines, welcomes. -/
def Sent (past : List SessionOutputFrame) : ServerFrame → Prop
  | .welcome _ _ => True
  | .sessionOutput f => f.replay = true → f.lines.Sublist (transcript past f.name f.sessionId)
  | _ => False

def Traced (past : List SessionOutputFrame) (state : ChannelState) : Prop :=
  ∀ v ∈ state.liveSessions, v.lines.Sublist (transcript past v.name v.sessionId)

structure Tracked (s : Watched) : Prop where
  bounded : Bounded s.ring
  kept : ∀ e ∈ s.ring.sessions,
    e.lines.Sublist (transcript (s.past ++ reports s.inbox) e.name e.sessionId)
  unremoved : Unremoved s.view
  traced : Traced s.past s.view
  sent : ∀ f ∈ s.inbox, Sent s.past f
  idle : s.online = false → s.inbox = []
  agrees : s.online = true → Agrees s.ring (s.inbox.foldl applyFrame s.view)

/-- A page that is connected misses no mark of a snapshot, and what it shows when it says
hello is not newer than what the ring keeps of the same session. -/
def Attended (s : Watched) : Event → Prop
  | .snapshot live _ => s.online = true → ∀ e ∈ s.ring.sessions, e.lost live = false
  | .hello participants presence live now => ∀ e ∈ s.ring.sessions, ∀ v ∈ s.view.liveSessions,
      v.name = e.name → v.sessionId = e.sessionId → v.name ∈ participants ++ presence →
        v.updatedAt ≤ (e.swept live now).updatedAt
  | _ => True

section Steps

variable {s s' : Watched} {past more : List SessionOutputFrame} {state : ChannelState}

theorem Traced.append (h : Traced past state) : Traced (past ++ more) state := by
  intro v hv
  rw [transcript_append]
  exact (h v hv).trans (List.sublist_append_left _ _)

theorem Sent.append {f : ServerFrame} (h : Sent past f) : Sent (past ++ more) f := by
  cases f with
  | sessionOutput f =>
    intro hreplay
    rw [transcript_append]
    exact (h hreplay).trans (List.sublist_append_left _ _)
  | welcome _ _ => trivial
  | _ => exact h.elim

theorem reports_map {frames : List SessionOutputFrame} (h : ∀ f ∈ frames, f.replay = false) :
    reports (frames.map ServerFrame.sessionOutput) = frames := by
  rw [reports, List.filterMap_map, List.filterMap_congr (g := some), List.filterMap_some]
  intro f hf
  simp [ServerFrame.report, h f hf]

theorem unremoved_fold {inbox : List ServerFrame} (hsent : ∀ f ∈ inbox, Sent past f)
    (h : Unremoved state) : Unremoved (inbox.foldl applyFrame state) := by
  induction inbox generalizing state with
  | nil => exact h
  | cons f inbox ih =>
    rw [List.forall_mem_cons] at hsent
    refine ih hsent.2 ?_
    cases f with
    | sessionOutput f =>
      intro name
      exact (congrArg (fun t => t.get? name) (removed_applySessionOutput state f)).trans (h name)
    | welcome participants presence => exact unremoved_welcomed h participants presence
    | _ => exact hsent.1.elim

/-- One frame on the page. -/
theorem Traced.receive {f : ServerFrame} (h : Traced past state) (hstate : Unremoved state)
    (hf : Sent past f) : Traced (past ++ reports [f]) (applyFrame state f) := by
  cases f with
  | welcome participants presence =>
    intro v hv
    exact h.append v (Table.mem_delete.1 hv).1
  | sessionOutput f =>
    intro v hv
    have hget := Table.get?_key hv
    change Table.get? (applySessionOutput state f).liveSessions v.name = _ at hget
    rw [get?_applySessionOutput hstate] at hget
    have hold : ∀ prev, state.liveSessions.get? v.name = some prev → prev.lines.Sublist
        (transcript past prev.name prev.sessionId) ∧ prev.name = v.name := fun prev hprev =>
      ⟨h prev (Table.get?_eq_some.1 hprev).1, (Table.get?_eq_some.1 hprev).2⟩
    split_ifs at hget with hname
    · unfold shownBy at hget
      split at hget
      · exact h.append v (Table.get?_eq_some.1 hget).1
      · rename_i lines hlines
        cases hget
        simp only [liveSession]
        refine (cappedLines_sublist lines).trans ?_
        rw [transcript_append]
        by_cases hreplay : f.replay = true
        · -- a snapshot takes the place of what is there
          have hsame : lines = f.lines := by
            unfold sessionLines at hlines
            split at hlines
            · exact (Option.some.inj hlines).symm
            · rw [if_pos hreplay] at hlines
              split_ifs at hlines
              exact (Option.some.inj hlines).symm
          rw [hsame]
          exact (hf hreplay).trans (List.sublist_append_left _ _)
        · have hreport : reports [ServerFrame.sessionOutput f] = [f] := by
            simp [reports, ServerFrame.report, hreplay]
          rw [hreport, transcript_single]
          unfold sessionLines at hlines
          split at hlines
          · rw [← Option.some.inj hlines]
            exact List.sublist_append_right _ _
          · rename_i prev hprev
            rw [if_neg hreplay] at hlines
            split_ifs at hlines with hid
            · rw [← Option.some.inj hlines]
              exact List.sublist_append_right _ _
            · rw [← Option.some.inj hlines]
              obtain ⟨hprevLines, hprevName⟩ := hold prev hprev
              rw [hprevName, not_not.1 hid] at hprevLines
              exact hprevLines.append_right _
    · exact h.append v (Table.get?_eq_some.1 hget).1
  | _ => exact hf.elim

theorem tracked_initial (stored : Sessions) : Tracked (initial stored) where
  bounded e he := by
    obtain ⟨e₀, -, rfl⟩ := List.mem_map.1 ((List.mem_insertionSort _).1 he)
    simp only [if_true]
    exact length_ringLines e₀.lines
  kept e he := by
    obtain ⟨pre, post, hrows⟩ := List.append_of_mem he
    have hframe : transcript [e.frame e.lines false] e.name e.sessionId = e.lines :=
      transcript_single (e.frame e.lines false)
    have hpast : (initial stored).past ++ reports (initial stored).inbox =
        pre.map (fun e => e.frame e.lines false) ++
          ([e.frame e.lines false] ++ post.map fun e => e.frame e.lines false) := by
      change (initial stored).ring.sessions.rows.map _ ++ [] = _
      rw [hrows, List.append_nil, List.map_append, List.map_cons, List.singleton_append]
    rw [hpast, transcript_append, transcript_append, hframe]
    exact (List.sublist_append_left _ _).trans (List.sublist_append_right _ _)
  unremoved _ := rfl
  traced v hv := absurd hv (Table.not_mem_empty v)
  sent f hf := by cases hf
  idle _ := rfl
  agrees h := by cases h

/-- Reports that leave the ring go to the page, or count as past. -/
theorem Tracked.broadcast (h : Tracked s) {ring : SessionOutputRing}
    {frames : List SessionOutputFrame} (hlive : ∀ f ∈ frames, f.replay = false)
    (hbounded : Bounded ring) (hkept : ∀ e ∈ ring.sessions, e.lines.Sublist
      (transcript (s.past ++ reports s.inbox ++ frames) e.name e.sessionId))
    (hagrees : ∀ state, Unremoved state → Agrees s.ring state →
      Agrees ring ((frames.map ServerFrame.sessionOutput).foldl applyFrame state)) :
    Tracked ({ s with ring := ring }.broadcast frames) := by
  by_cases honline : s.online = true
  · have hreports : reports (s.inbox ++ frames.map ServerFrame.sessionOutput) =
        reports s.inbox ++ frames := by
      rw [reports, List.filterMap_append]
      exact congrArg (reports s.inbox ++ ·) (reports_map hlive)
    have heq : { s with ring := ring }.broadcast frames =
        { s with ring := ring, inbox := s.inbox ++ frames.map ServerFrame.sessionOutput } :=
      if_pos honline
    rw [heq]
    refine ⟨hbounded, ?_, h.unremoved, h.traced, ?_, fun hoff => ?_, fun _ => ?_⟩
    · simp only [hreports, ← List.append_assoc]
      exact hkept
    · intro f hf
      rcases List.mem_append.1 hf with hf | hf
      · exact h.sent f hf
      · obtain ⟨g, hg, rfl⟩ := List.mem_map.1 hf
        intro hreplay
        rw [hlive g hg] at hreplay
        cases hreplay
    · exact absurd (honline.symm.trans hoff) Bool.true_eq_false_eq_False
    · simp only [List.foldl_append]
      exact hagrees _ (unremoved_fold h.sent h.unremoved) (h.agrees honline)
  · have hinbox := h.idle (Bool.eq_false_iff.2 honline)
    have heq : { s with ring := ring }.broadcast frames =
        { s with ring := ring, past := s.past ++ frames } := if_neg honline
    rw [heq]
    refine ⟨hbounded, ?_, h.unremoved, h.traced.append, ?_, fun _ => hinbox,
      fun hon => absurd hon honline⟩
    · simp only [hinbox] at hkept ⊢
      simpa only [reports, List.filterMap_nil, List.append_nil] using hkept
    · intro f hf
      rw [hinbox] at hf
      cases hf

theorem kept_report {r : SessionOutputRing} (h : ∀ e ∈ r.sessions,
    e.lines.Sublist (transcript past e.name e.sessionId)) {name connectionId : String}
    {frame : SessionOutputClientFrame} {now : Int} :
    ∀ e ∈ (r.apply name connectionId frame now).1.sessions, e.lines.Sublist
      (transcript (past ++ (r.apply name connectionId frame now).2.toList) e.name
        e.sessionId) := by
  intro e he
  have hold : e ∈ r.sessions → e.lines.Sublist
      (transcript (past ++ (r.apply name connectionId frame now).2.toList) e.name
        e.sessionId) := by
    intro hmem
    rw [transcript_append]
    exact (h e hmem).trans (List.sublist_append_left _ _)
  rcases r.apply_cases name connectionId frame now with ⟨-, hsame⟩ |
    ⟨entry, rfl, -, hframe, hlines, hsessions⟩
  · exact hold (hsame ▸ he)
  rcases hsessions e he with rfl | ⟨hmem, -⟩
  · have hreport : transcript [e.frame frame.lines false] e.name e.sessionId = frame.lines :=
      transcript_single (e.frame frame.lines false)
    rw [hframe, Option.toList_some, transcript_append, hreport]
    rcases hlines with hlines | ⟨e₀, he₀, hname, hid, hlines⟩
    · rw [hlines]
      exact (ringLines_suffix _).sublist.trans (List.sublist_append_right _ _)
    · rw [hlines]
      have hkept := h e₀ he₀
      rw [hname, hid] at hkept
      exact (ringLines_suffix _).sublist.trans (hkept.append_right _)
  · exact hold hmem

theorem bounded_report {r : SessionOutputRing} (h : Bounded r) {name connectionId : String}
    {frame : SessionOutputClientFrame} {now : Int} :
    Bounded (r.apply name connectionId frame now).1 := by
  intro e he
  rcases r.apply_cases name connectionId frame now with ⟨-, hsame⟩ |
    ⟨entry, rfl, -, -, hlines, hsessions⟩
  · exact h e (hsame ▸ he)
  rcases hsessions e he with rfl | ⟨hmem, -⟩
  · rcases hlines with hlines | ⟨e₀, -, -, -, hlines⟩
    · rw [hlines]
      exact length_ringLines _
    · rw [hlines]
      exact length_ringLines _
  · exact h e hmem

/-- Marks change neither the lines nor the session. -/
theorem of_marked {sessions : Sessions} {left : SessionEntry → Bool} {now : Int}
    {e' : SessionEntry} (he' : e' ∈ sessions.update left (·.disconnected now) fun _ => rfl) :
    ∃ e ∈ sessions, e'.name = e.name ∧ e'.sessionId = e.sessionId ∧ e'.lines = e.lines := by
  obtain ⟨e, he, rfl⟩ := List.mem_map.1 he'
  refine ⟨e, he, ?_⟩
  split_ifs <;> exact ⟨rfl, rfl, rfl⟩

theorem Tracked.step {e : Event} (h : Tracked s) (ha : Attended s e) (hs : Step s e s') :
    Tracked s' := by
  cases hs
  cases e with
  | apply name connectionId frame now =>
    refine h.broadcast (fun f hf => ?_) (bounded_report h.bounded) (kept_report h.kept)
      fun state hstate hagrees => hagrees.report hstate
    rcases s.ring.apply_cases name connectionId frame now with ⟨hnone, -⟩ | ⟨entry, -, -, hsome, -⟩
    · rw [hnone] at hf
      cases hf
    · rw [hsome] at hf
      obtain rfl := List.mem_singleton.1 hf
      rfl
  | disconnect connectionId now =>
    refine h.broadcast (fun f hf => ?_) (fun e he => ?_) (fun e he => ?_)
      fun state hstate hagrees => hagrees.disconnect hstate h.bounded connectionId now
    · obtain ⟨e, -, hframe⟩ := List.mem_filterMap.1 hf
      split_ifs at hframe
      cases hframe
      rfl
    · obtain ⟨e₀, he₀, -, -, hlines⟩ := of_marked he
      exact hlines ▸ h.bounded e₀ he₀
    · obtain ⟨e₀, he₀, hname, hid, hlines⟩ := of_marked he
      rw [hname, hid, hlines, transcript_append]
      exact (h.kept e₀ he₀).trans (List.sublist_append_left _ _)
  | snapshot live now =>
    refine ⟨fun e he => ?_, fun e he => ?_, h.unremoved, h.traced, h.sent, h.idle,
      fun hon e he => ?_⟩
    · obtain ⟨e₀, he₀, -, -, hlines⟩ := of_marked he
      exact hlines ▸ h.bounded e₀ he₀
    · obtain ⟨e₀, he₀, hname, hid, hlines⟩ := of_marked he
      rw [hname, hid, hlines]
      exact h.kept e₀ he₀
    · -- nothing is marked
      obtain ⟨e₀, he₀, rfl⟩ := List.mem_map.1 he
      rw [if_neg (Bool.eq_false_iff.1 (ha hon e₀ he₀))]
      exact h.agrees hon e₀ he₀
  | hello participants presence live now =>
    refine ⟨fun e he => ?_, fun e he => ?_, h.unremoved, h.traced.append, fun f hf => ?_,
      fun hoff => (by cases hoff), fun _ => agrees_hello h.unremoved h.bounded ha⟩
    · obtain ⟨e₀, he₀, -, -, hlines⟩ := of_marked he
      exact hlines ▸ h.bounded e₀ he₀
    · obtain ⟨e₀, he₀, hname, hid, hlines⟩ := of_marked he
      rw [hname, hid, hlines, transcript_append]
      exact (h.kept e₀ he₀).trans (List.sublist_append_left _ _)
    · rcases List.mem_cons.1 hf with rfl | hf
      · trivial
      · obtain ⟨g, hg, rfl⟩ := List.mem_map.1 hf
        obtain ⟨e, he, rfl⟩ := List.mem_map.1 hg
        intro _
        obtain ⟨e₀, he₀, hname, hid, hlines⟩ := of_marked he
        change e.lines.Sublist (transcript _ e.name e.sessionId)
        rw [hname, hid, hlines]
        exact h.kept e₀ he₀
  | close =>
    refine ⟨h.bounded, fun e he => ?_, h.unremoved, h.traced.append, fun f hf => (by cases hf),
      fun _ => rfl, fun hon => (by cases hon)⟩
    change e.lines.Sublist (transcript (s.past ++ reports s.inbox ++ []) e.name e.sessionId)
    rw [List.append_nil]
    exact h.kept e he
  | receive =>
    unfold next
    cases hinbox : s.inbox with
    | nil =>
      exact h
    | cons f inbox =>
      have hsent := h.sent
      have hkept := h.kept
      have hagrees := h.agrees
      rw [hinbox] at hsent hkept hagrees
      rw [List.forall_mem_cons] at hsent
      have hone : ∀ g ∈ [f], Sent s.past g := by
        intro g hg
        rw [List.mem_singleton.1 hg]
        exact hsent.1
      have hview : Unremoved ([f].foldl applyFrame s.view) := unremoved_fold hone h.unremoved
      refine ⟨h.bounded, fun e he => ?_, hview, h.traced.receive h.unremoved hsent.1,
        fun g hg => (hsent.2 g hg).append, fun hoff => ?_, hagrees⟩
      · have hcons : reports (f :: inbox) = reports [f] ++ reports inbox := by
          rw [reports, ← List.singleton_append, List.filterMap_append]
          rfl
        rw [hcons, ← List.append_assoc] at hkept
        exact hkept e he
      · rw [h.idle hoff] at hinbox
        cases hinbox

end Steps

/-- With nothing on the way, the page shows every session of the ring: no line is missing
behind the first one kept, and none is shown twice. -/
theorem viewer_agrees_with_ring {stored : Sessions} {evs : List Event} {s : Watched}
    (h : EventSystem.Run (EventSystem.Guarded Step Attended) (initial stored) evs s)
    (honline : s.online = true) (hinbox : s.inbox = []) :
    ∀ e ∈ s.ring.sessions, ∃ v ∈ s.view.liveSessions, v.name = e.name ∧
      v.sessionId = e.sessionId ∧ v.taskSeq = e.taskSeq ∧ v.state = e.state ∧
      e.lines <:+ v.lines ∧ v.lines.Sublist (transcript s.past e.name e.sessionId) := by
  have htracked : Tracked s :=
    h.invariant (fun _ _ _ ht hstep => ht.step hstep.2 hstep.1) (tracked_initial stored)
  intro e he
  have hagrees := htracked.agrees honline
  rw [hinbox] at hagrees
  obtain ⟨v, hv, hshows⟩ := hagrees e he
  obtain ⟨hmem, hname⟩ := Table.get?_eq_some.1 hv
  have htraced := htracked.traced v hmem
  rw [hname, hshows.sessionId] at htraced
  exact ⟨v, hmem, hname, hshows.sessionId, hshows.taskSeq, hshows.state, hshows.lines, htraced⟩

instance (s : Watched) : (e : Event) → Decidable (Attended s e)
  | .snapshot _ _ => inferInstanceAs (Decidable (_ → ∀ e ∈ s.ring.sessions, _ = _))
  | .hello _ _ _ _ => inferInstanceAs
      (Decidable (∀ e ∈ s.ring.sessions, ∀ v ∈ s.view.liveSessions, _ → _ → _ → _ ≤ _))
  | .apply _ _ _ _ | .disconnect _ _ | .close | .receive => inferInstanceAs (Decidable True)

def output (text : String) : SessionOutputLine := ⟨.stdout, text, 0⟩

/-- A page follows `bot`, loses its connection with a line on the way, and comes back. -/
def following : List Event :=
  [.hello ["bot"] [] (some ["c1", "page"]) 1,
    .apply "bot" "c1" ⟨"run-1", some 7, .running, [output "a"]⟩ 2, .receive, .close,
    .apply "bot" "c1" ⟨"run-1", some 7, .running, [output "b"]⟩ 3,
    .hello ["bot"] [] (some ["c1", "page"]) 4,
    .apply "bot" "c1" ⟨"run-1", some 7, .running, [output "c"]⟩ 5, .receive, .receive, .receive]

theorem viewer_agrees_with_ring_reconnected :
    ∃ s, EventSystem.Run (EventSystem.Guarded Step Attended) (initial Table.empty) following s ∧
      ∃ v ∈ s.view.liveSessions, [output "a", output "b", output "c"] <:+ v.lines := by
  have hready : EventSystem.AllReady Attended next (initial Table.empty) following := by decide +kernel
  have hrun : EventSystem.Run (EventSystem.Guarded Step Attended) (initial Table.empty) following
      (following.foldl next (initial Table.empty)) :=
    EventSystem.run_of_ready (fun s e h => ⟨step_next s e, h⟩) hready
  refine ⟨_, hrun, ?_⟩
  obtain ⟨e, he, hlines⟩ : ∃ e ∈ (following.foldl next (initial Table.empty)).ring.sessions,
      e.lines = [output "a", output "b", output "c"] := by decide +kernel
  obtain ⟨v, hv, -, -, -, -, hsuffix, -⟩ :=
    viewer_agrees_with_ring hrun (by decide +kernel) (by decide +kernel) e he
  exact ⟨v, hv, hlines ▸ hsuffix⟩

/-- The socket of `c1` is lost, another page says hello, and only then is the loss handled. -/
def unannounced : List Event :=
  [.hello ["bot"] [] (some ["c1", "page"]) 1,
    .apply "bot" "c1" ⟨"run-1", some 7, .running, [output "a"]⟩ 2, .receive, .receive,
    .snapshot (some ["page", "page2"]) 3, .disconnect "c1" 4]

/-- The page goes on showing a running session. -/
theorem lost_session_runs_on : ¬ ∀ stored evs s,
    EventSystem.Run Step (initial stored) evs s → s.online = true → s.inbox = [] →
      ∀ e ∈ s.ring.sessions, ∃ v ∈ s.view.liveSessions, v.name = e.name ∧
        v.sessionId = e.sessionId ∧ v.taskSeq = e.taskSeq ∧ v.state = e.state ∧
        e.lines <:+ v.lines := by
  intro h
  have hready : EventSystem.AllReady (fun _ _ => True) next (initial Table.empty) unannounced :=
    ⟨trivial, trivial, trivial, trivial, trivial, trivial, trivial⟩
  have hrun : EventSystem.Run Step (initial Table.empty) unannounced
      (unannounced.foldl next (initial Table.empty)) :=
    EventSystem.run_of_ready (fun s e _ => step_next s e) hready
  obtain ⟨e, he, hlost⟩ : ∃ e ∈ (unannounced.foldl next (initial Table.empty)).ring.sessions,
      e.state = .disconnected := by decide +kernel
  obtain ⟨v, hv, -, -, -, hstate, -⟩ := h _ _ _ hrun (by decide +kernel) (by decide +kernel) e he
  have hruns : ∀ v ∈ (unannounced.foldl next (initial Table.empty)).view.liveSessions,
      v.state = .running := by decide +kernel
  rw [hlost, hruns v hv] at hstate
  cases hstate

end Watched

end Web
end AgentParty
