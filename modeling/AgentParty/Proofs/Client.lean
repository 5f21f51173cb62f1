import AgentParty.Cli.Client

/-! The frame stream of the CLI over a whole run. -/

namespace AgentParty
namespace Ws

namespace FrameQueue

variable {q : FrameQueue}

/-- What came out and what waits is what was pushed or put in front again; only a failure drops the
items. -/
def Conserved (q : FrameQueue) : Prop :=
  ∃ lost, (q.handed ++ q.items ++ lost).Perm (q.pushed ++ q.requeued) ∧
    (q.failure = none → lost = [])

theorem push_of_done (h : q.done = true) (frame : ServerFrame) : q.push frame = q := if_pos h

theorem push_done (q : FrameQueue) (frame : ServerFrame) : (q.push frame).done = q.done := by
  unfold push
  split
  · rfl
  · split <;> rfl

theorem push_pushed (h : q.done = false) (frame : ServerFrame) :
    (q.push frame).pushed = q.pushed ++ [frame] := by
  rw [push, if_neg (by rw [h]; exact Bool.false_ne_true)]
  split <;> rfl

theorem push_requeued (q : FrameQueue) (frame : ServerFrame) :
    (q.push frame).requeued = q.requeued := by
  unfold push
  split
  · rfl
  · split <;> rfl

theorem conserved_cons {handed items lost pushed requeued : List ServerFrame} (frame : ServerFrame)
    (h : (handed ++ items ++ lost).Perm (pushed ++ requeued)) :
    (frame :: (handed ++ items ++ lost)).Perm (pushed ++ [frame] ++ requeued) := by
  rw [List.append_assoc pushed, List.singleton_append]
  exact (h.cons frame).trans List.perm_middle.symm

theorem Conserved.push (h : q.Conserved) (frame : ServerFrame) : (q.push frame).Conserved := by
  obtain ⟨lost, hperm, hlost⟩ := h
  unfold FrameQueue.push
  split
  · exact ⟨lost, hperm, hlost⟩
  · split
    · refine ⟨lost, ?_, hlost⟩
      have hfront : (q.handed ++ [frame] ++ q.items ++ lost).Perm
          (frame :: (q.handed ++ q.items ++ lost)) := by
        rw [List.append_assoc, List.append_assoc, List.append_assoc]
        exact List.perm_middle
      exact hfront.trans (conserved_cons frame hperm)
    · refine ⟨lost, ?_, hlost⟩
      have hback : (q.handed ++ (q.items ++ [frame]) ++ lost).Perm
          (frame :: (q.handed ++ q.items ++ lost)) := by
        rw [← List.append_assoc, List.append_assoc (q.handed ++ q.items)]
        exact List.perm_middle
      exact hback.trans (conserved_cons frame hperm)

theorem Conserved.finish (h : q.Conserved) : q.finish.Conserved := by
  unfold FrameQueue.finish
  split <;> exact h

theorem finish_done (q : FrameQueue) : q.finish.done = true := by
  unfold finish
  split
  · assumption
  · rfl

theorem fail_done (q : FrameQueue) (error : String) : (q.fail error).done = true := by
  unfold fail
  split
  · assumption
  · rfl

theorem Conserved.fail (h : q.Conserved) (error : String) : (q.fail error).Conserved := by
  unfold FrameQueue.fail
  split
  · exact h
  · obtain ⟨lost, hperm, -⟩ := h
    refine ⟨q.items ++ lost, ?_, fun hnone => absurd hnone (Option.some_ne_none error)⟩
    rw [List.append_nil, ← List.append_assoc]
    exact hperm

/-- What `next` leaves alone. -/
theorem next_spec (q : FrameQueue) :
    q.next.1.pushed = q.pushed ∧ q.next.1.requeued = q.requeued ∧ q.next.1.done = q.done ∧
      (q.Conserved → q.next.1.Conserved) := by
  unfold next
  split
  · exact ⟨rfl, rfl, rfl, id⟩
  · split
    · rename_i frame items hitems
      refine ⟨rfl, rfl, rfl, fun ⟨lost, hperm, hlost⟩ => ⟨lost, ?_, hlost⟩⟩
      rw [hitems] at hperm
      rw [List.append_assoc q.handed, List.singleton_append]
      exact hperm
    · split <;> exact ⟨rfl, rfl, rfl, id⟩

theorem next_failure (q : FrameQueue) : q.next.1.failure = q.failure := by
  unfold next
  split
  · rfl
  · split
    · rfl
    · split <;> rfl

/-- What is put in front is requeued, all of it, when the queue is open. -/
theorem prepend_spec (q : FrameQueue) (frames : List ServerFrame) :
    (q.prepend frames).1.pushed = q.pushed ∧ (q.prepend frames).1.done = q.done ∧
      ((q.prepend frames).1.requeued = q.requeued ∨
        (q.prepend frames).1.requeued = q.requeued ++ frames) ∧
      (q.Conserved → (q.prepend frames).1.Conserved) := by
  unfold prepend
  split
  · exact ⟨rfl, rfl, .inl rfl, id⟩
  · refine ⟨rfl, rfl, .inr rfl, fun ⟨lost, hperm, hlost⟩ => ⟨lost, ?_, hlost⟩⟩
    have hframes : q.handed ++ frames.take q.waiters ++ (frames.drop q.waiters ++ q.items) ++ lost =
        q.handed ++ (frames ++ (q.items ++ lost)) := by
      have hsplit := List.take_append_drop q.waiters frames
      rw [List.append_assoc, List.append_assoc, List.append_assoc (frames.drop _),
        ← List.append_assoc (frames.take _), hsplit]
    have hmoved : (q.handed ++ (frames ++ (q.items ++ lost))).Perm
        (q.handed ++ q.items ++ lost ++ frames) := by
      rw [List.append_assoc q.handed, List.append_assoc q.handed]
      exact List.perm_append_comm.append_left q.handed
    rw [hframes, ← List.append_assoc q.pushed]
    exact hmoved.trans (hperm.append_right frames)

theorem prepend_failure (q : FrameQueue) (frames : List ServerFrame) :
    (q.prepend frames).1.failure = q.failure := by
  unfold prepend
  split <;> rfl

end FrameQueue

namespace Connection

variable {o : ConnectOptions} {since : ℕ} {s s' : Connection}

def plain? : ServerFrame → Option Message
  | .message m => if m.revision = none then some m else none
  | _ => none

/-- The messages that entered the stream, but for revisions. -/
def plain (s : Connection) : List Message := s.queue.pushed.filterMap plain?

/-- The books of the stream: each message entered it once, and those above the cursor are kept until
they are acknowledged. -/
structure Books (o : ConnectOptions) (since : ℕ) (s : Connection) : Prop where
  conserved : s.queue.Conserved
  failed : s.queue.failure ≠ none → s.queue.done = true
  once : (s.plain.map Message.seq).Nodup
  above : ∀ m ∈ s.plain, since < m.seq
  since_le : since ≤ s.cursor
  unacked : s.unacked = s.plain.filter fun m => s.cursor < m.seq
  delivered : s.delivered = s.unacked.map Message.seq
  size : s.unacked.length ≤ o.maxUnackedFrames
  requeued : ∀ f ∈ s.queue.requeued, ∃ m ∈ s.plain, f = .message m
  revised : ∀ r ∈ s.deliveredRevisions, ∃ f ∈ s.queue.pushed, f.seq? = some r.1

/-- Only the cursor, the queue and what is kept matter to the books. -/
theorem Books.congr (h : Books o since s) (hcursor : s'.cursor = s.cursor)
    (hqueue : s'.queue = s.queue) (hunacked : s'.unacked = s.unacked)
    (hdelivered : s'.delivered = s.delivered)
    (hrevisions : s'.deliveredRevisions = s.deliveredRevisions) : Books o since s' := by
  have hplain : s'.plain = s.plain := by rw [plain, plain, hqueue]
  constructor
  case conserved => exact hqueue ▸ h.conserved
  case failed => exact hqueue ▸ h.failed
  case once => exact hplain ▸ h.once
  case above => exact hplain ▸ h.above
  case since_le => exact hcursor ▸ h.since_le
  case unacked => rw [hunacked, hplain, hcursor]; exact h.unacked
  case delivered => rw [hdelivered, hunacked]; exact h.delivered
  case size => exact hunacked ▸ h.size
  case requeued => rw [hqueue, hplain]; exact h.requeued
  case revised => rw [hrevisions, hqueue]; exact h.revised

/-- A queue with the same messages, as after `end` or `next`. -/
theorem Books.queue (h : Books o since s) {q : FrameQueue} (hconserved : q.Conserved)
    (hfailed : q.failure ≠ none → q.done = true) (hpushed : q.pushed.filterMap plain? = s.plain)
    (hrequeued : ∀ f ∈ q.requeued, ∃ m ∈ s.plain, f = .message m)
    (hkept : ∀ f ∈ s.queue.pushed, f ∈ q.pushed) : Books o since { s with queue := q } := by
  have hplain : ({ s with queue := q } : Connection).plain = s.plain := hpushed
  constructor
  case conserved => exact hconserved
  case failed => exact hfailed
  case once => exact hplain ▸ h.once
  case above => exact hplain ▸ h.above
  case since_le => exact h.since_le
  case unacked => rw [hplain]; exact h.unacked
  case delivered => exact h.delivered
  case size => exact h.size
  case requeued => exact hplain ▸ hrequeued
  case revised =>
    intro r hr
    obtain ⟨f, hf, hseq⟩ := h.revised r hr
    exact ⟨f, hkept f hf, hseq⟩

theorem push_kept (q : FrameQueue) (frame : ServerFrame) :
    ∀ f ∈ q.pushed, f ∈ (q.push frame).pushed := by
  intro f hf
  cases hdone : q.done with
  | true => rwa [FrameQueue.push_of_done hdone]
  | false =>
    rw [FrameQueue.push_pushed hdone]
    exact List.mem_append_left _ hf

theorem push_failure (q : FrameQueue) (frame : ServerFrame) :
    (q.push frame).failure = q.failure := by
  unfold FrameQueue.push
  split
  · rfl
  · split <;> rfl

/-- A frame that is no message of the channel enters the stream. -/
theorem Books.push (h : Books o since s) {frame : ServerFrame} (hframe : plain? frame = none) :
    Books o since { s with queue := s.queue.push frame } := by
  refine h.queue (h.conserved.push frame) ?_ ?_ ?_ (push_kept _ _)
  · rw [push_failure, FrameQueue.push_done]
    exact h.failed
  · cases hdone : s.queue.done with
    | true => rw [FrameQueue.push_of_done hdone]; rfl
    | false =>
      rw [FrameQueue.push_pushed hdone, List.filterMap_append]
      simp [hframe, plain]
  · rw [FrameQueue.push_requeued]
    exact h.requeued

theorem Books.finish (h : Books o since s) : Books o since { s with queue := s.queue.finish } := by
  refine h.queue h.conserved.finish (fun _ => FrameQueue.finish_done _) ?_ ?_ ?_
  · unfold FrameQueue.finish
    split <;> rfl
  · unfold FrameQueue.finish
    split <;> exact h.requeued
  · unfold FrameQueue.finish
    split <;> exact fun f hf => hf

theorem Books.fail (h : Books o since s) (error : String) :
    Books o since { s with queue := s.queue.fail error } := by
  refine h.queue (h.conserved.fail error) (fun _ => FrameQueue.fail_done _ _) ?_ ?_ ?_
  · unfold FrameQueue.fail
    split <;> rfl
  · unfold FrameQueue.fail
    split <;> exact h.requeued
  · unfold FrameQueue.fail
    split <;> exact fun f hf => hf

theorem Books.next (h : Books o since s) : Books o since { s with queue := s.queue.next.1 } := by
  obtain ⟨hpushed, hrequeued, hdone, hconserved⟩ := s.queue.next_spec
  refine h.queue (hconserved h.conserved) ?_ (by rw [hpushed]; rfl)
    (by rw [hrequeued]; exact h.requeued)
    (by rw [hpushed]; exact fun f hf => hf)
  rw [hdone]
  intro hfailure
  exact h.failed fun hnone => hfailure ((FrameQueue.next_failure _).trans hnone)

/-- The cursor moves on, and what it passes is no longer kept. -/
theorem Books.advance (h : Books o since s) (seq : ℕ) : Books o since (s.advance seq) := by
  have hunacked : (s.advance seq).unacked =
      s.plain.filter fun m => max s.cursor seq < m.seq := by
    show s.unacked.filter _ = _
    rw [h.delivered, h.unacked, List.filter_filter]
    refine List.filter_congr fun m hm => ?_
    by_cases hlt : s.cursor < m.seq
    · have hmem : m.seq ∈ (s.plain.filter fun m => s.cursor < m.seq).map Message.seq :=
        List.mem_map_of_mem (List.mem_filter.2 ⟨hm, by simpa using hlt⟩)
      rw [Bool.eq_iff_iff]
      simp [hlt, hmem]
    · have hle : ¬max s.cursor seq < m.seq := by omega
      simp [hlt, hle]
  constructor
  case conserved => exact h.conserved
  case failed => exact h.failed
  case once => exact h.once
  case above => exact h.above
  case since_le => exact h.since_le.trans (le_max_left _ _)
  case unacked => exact hunacked
  case delivered =>
    rw [hunacked]
    show s.delivered.filter _ = _
    rw [h.delivered, h.unacked, List.filter_map, List.filter_filter]
    refine congrArg _ (List.filter_congr fun m _ => ?_)
    rw [Bool.eq_iff_iff]
    simp
    omega
  case size => exact (List.length_filter_le _ _).trans h.size
  case requeued => exact h.requeued
  case revised => exact h.revised

theorem Books.deliver (h : Books o since s) (hdone : s.queue.done = false) {m : Message}
    (hplain : m.revision = none) (hcursor : s.cursor < m.seq) (hnew : m.seq ∉ s.delivered)
    (hroom : s.unacked.length < o.maxUnackedFrames) : Books o since (s.deliver m) := by
  have hpushed : (s.deliver m).plain = s.plain ++ [m] := by
    show (s.queue.push (.message m)).pushed.filterMap plain? = _
    rw [FrameQueue.push_pushed hdone, List.filterMap_append]
    simp [plain?, hplain, plain]
  have hfresh : m.seq ∉ s.plain.map Message.seq := by
    intro hmem
    obtain ⟨m', hm', hseq⟩ := List.mem_map.1 hmem
    refine hnew ?_
    rw [h.delivered, h.unacked, ← hseq]
    exact List.mem_map_of_mem (List.mem_filter.2 ⟨hm', by simpa [hseq] using hcursor⟩)
  constructor
  case conserved => exact h.conserved.push _
  case failed =>
    show (s.queue.push _).failure ≠ none → _
    rw [push_failure]
    intro hfailure
    exact absurd (h.failed hfailure) (by rw [hdone]; exact Bool.false_ne_true)
  case once =>
    rw [hpushed, List.map_append]
    exact List.nodup_append.2 ⟨h.once, List.nodup_singleton _, fun n hn n' hn' => by
      rw [List.mem_singleton.1 hn']
      exact fun heq => hfresh (heq ▸ hn)⟩
  case above =>
    rw [hpushed]
    intro m' hm'
    rcases List.mem_append.1 hm' with hold | hlast
    · exact h.above m' hold
    · rw [List.mem_singleton.1 hlast]
      exact h.since_le.trans_lt hcursor
  case since_le => exact h.since_le
  case unacked =>
    have hkept : [m].filter (fun m' => s.cursor < m'.seq) = [m] :=
      List.filter_cons_of_pos (by simpa using hcursor)
    show s.unacked ++ [m] = (s.deliver m).plain.filter fun m' => s.cursor < m'.seq
    rw [hpushed, List.filter_append, hkept, h.unacked]
  case delivered =>
    show s.delivered ++ [m.seq] = (s.unacked ++ [m]).map _
    rw [List.map_append, h.delivered]
    rfl
  case size =>
    show (s.unacked ++ [m]).length ≤ _
    rw [List.length_append]
    exact hroom
  case requeued =>
    rw [hpushed]
    show ∀ f ∈ (s.queue.push _).requeued, _
    rw [FrameQueue.push_requeued]
    intro f hf
    obtain ⟨m', hm', hfm⟩ := h.requeued f hf
    exact ⟨m', List.mem_append_left _ hm', hfm⟩
  case revised =>
    intro r hr
    obtain ⟨f, hf, hseq⟩ := h.revised r hr
    exact ⟨f, push_kept _ _ f hf, hseq⟩

theorem Books.replay (h : Books o since s) : Books o since s.replayUnacked.1 := by
  obtain ⟨hpushed, hdone, hrequeued, hconserved⟩ :=
    s.queue.prepend_spec (s.replayFrames.map .message)
  refine h.queue (hconserved h.conserved) ?_ (by rw [hpushed]; rfl) ?_
    (by rw [hpushed]; exact fun f hf => hf)
  · rw [hdone, FrameQueue.prepend_failure]
    exact h.failed
  · have hframes : ∀ f ∈ s.replayFrames.map ServerFrame.message, ∃ m ∈ s.plain, f = .message m := by
      intro f hf
      obtain ⟨m, hm, rfl⟩ := List.mem_map.1 hf
      have hkept : m ∈ s.unacked := List.mem_of_mem_filter ((List.mem_insertionSort _).1 hm)
      rw [h.unacked] at hkept
      exact ⟨m, List.mem_of_mem_filter hkept, rfl⟩
    rcases hrequeued with hsame | hmore
    · rw [hsame]
      exact h.requeued
    · rw [hmore]
      intro f hf
      rcases List.mem_append.1 hf with hold | hnew
      · exact h.requeued f hold
      · exact hframes f hnew

/-- The books, and the stream is open exactly as long as the connection is. -/
structure Sound (o : ConnectOptions) (since : ℕ) (s : Connection) : Prop where
  books : Books o since s
  closed : s.closed = s.queue.done

theorem Sound.congr (h : Sound o since s) (hcursor : s'.cursor = s.cursor)
    (hqueue : s'.queue = s.queue) (hunacked : s'.unacked = s.unacked)
    (hdelivered : s'.delivered = s.delivered) (hclosed : s'.closed = s.closed)
    (hrevisions : s'.deliveredRevisions = s.deliveredRevisions) : Sound o since s' :=
  ⟨h.books.congr hcursor hqueue hunacked hdelivered hrevisions, by
    rw [hclosed, hqueue]
    exact h.closed⟩

theorem Sound.advanceRev (h : Sound o since s) (rev : ℕ) : Sound o since (s.advanceRev rev) :=
  h.congr rfl rfl rfl rfl rfl rfl

theorem Sound.push (h : Sound o since s) {frame : ServerFrame} (hframe : plain? frame = none) :
    Sound o since { s with queue := s.queue.push frame } :=
  ⟨h.books.push hframe, h.closed.trans (FrameQueue.push_done _ _).symm⟩

theorem Sound.onRevision (h : Sound o since s) {m : Message} {fingerprint : String}
    (hopen : s.closed = false) (hrevision : m.revision = some fingerprint) :
    Sound o since (s.onRevision m fingerprint) := by
  have hframe : plain? (.message m) = none := by simp [plain?, hrevision]
  have hdone : s.queue.done = false := h.closed.symm.trans hopen
  unfold Connection.onRevision
  split
  · exact h
  · have hpushed := h.push hframe
    refine ⟨{ hpushed.books with revised := ?_ }, hpushed.closed⟩
    intro r hr
    rcases List.mem_cons.1 hr with rfl | hold
    · refine ⟨.message m, ?_, rfl⟩
      show _ ∈ (s.queue.push _).pushed
      rw [FrameQueue.push_pushed hdone]
      exact List.mem_append_right _ (List.mem_singleton_self _)
    · exact hpushed.books.revised r hold

theorem Sound.onPlain (h : Sound o since s) (hopen : s.closed = false) {m : Message}
    (hplain : m.revision = none) : Sound o since (s.onPlain o m) := by
  unfold Connection.onPlain
  split
  · exact h
  · rename_i hnew
    split
    · refine ⟨?_, (FrameQueue.fail_done _ _).symm⟩
      exact (h.books.fail (overflowError o.maxUnackedFrames)).congr rfl rfl rfl rfl rfl
    · rename_i hroom
      have hdone : s.queue.done = false := h.closed.symm.trans hopen
      refine ⟨h.books.deliver hdone hplain (by omega) (fun hmem => hnew (.inr hmem)) (by omega), ?_⟩
      exact h.closed.trans (FrameQueue.push_done _ _).symm

/-- A frame resets the backoff, or leaves it. -/
theorem reset_attempt (s : Connection) (frame : ServerFrame) :
    ∃ n, (if frame = .pong then s else { s with attempt := 0 }) = { s with attempt := n } := by
  split
  · exact ⟨s.attempt, rfl⟩
  · exact ⟨0, rfl⟩

theorem Sound.onFrame (h : Sound o since s) (hopen : s.closed = false) (helloSince : ℕ)
    (frame : ServerFrame) : Sound o since (s.onFrame o helloSince frame) := by
  obtain ⟨n, hreset⟩ := reset_attempt s frame
  have ht : Sound o since { s with attempt := n } := h.congr rfl rfl rfl rfl rfl rfl
  have htopen : ({ s with attempt := n } : Connection).closed = false := hopen
  unfold Connection.onFrame
  rw [hreset]
  generalize ({ s with attempt := n } : Connection) = t at ht htopen
  cases frame with
  | welcome lastRevSeq =>
    cases lastRevSeq with
    | none => exact ht.push rfl
    | some rev =>
      dsimp only
      split
      · exact (ht.advanceRev rev).push rfl
      · exact ht.push rfl
  | message m =>
    dsimp only
    cases hrevision : m.revision with
    | none =>
      cases m.revSeq with
      | none => exact ht.onPlain htopen hrevision
      | some rev => exact (ht.advanceRev rev).onPlain htopen hrevision
    | some fingerprint =>
      cases m.revSeq with
      | none => exact ht.onRevision htopen hrevision
      | some rev => exact (ht.advanceRev rev).onRevision htopen hrevision
  | messageUpdate revSeq =>
    cases revSeq with
    | none => exact ht.push rfl
    | some rev => exact (ht.advanceRev rev).push rfl
  | sent seq => exact Sound.push ⟨ht.books.advance seq, ht.closed⟩ rfl
  | pong => exact ht.push rfl
  | error code text => exact ht.push rfl
  | other content => exact ht.push rfl

theorem Sound.onmessage (h : Sound o since s) (id : ℕ) (frames : List ServerFrame) :
    Sound o since (s.onmessage o id frames) := by
  unfold Connection.onmessage
  split
  · split
    · exact h
    · rename_i sock _ _
      have hfold : ∀ t : Connection, Sound o since t → Sound o since (frames.foldl
          (fun s frame => if s.closed then s else s.onFrame o sock.helloSince frame) t) := by
        induction frames with
        | nil => exact fun t ht => ht
        | cons frame frames ih =>
          intro t ht
          refine ih _ ?_
          dsimp only
          split
          · exact ht
          · rename_i hopen
            exact ht.onFrame (by simpa using hopen) sock.helloSince frame
      refine hfold _ ?_
      split
      · exact h
      · exact h.congr rfl rfl rfl rfl rfl rfl
  · exact h

theorem Sound.scheduleReconnect (h : Sound o since s) : Sound o since (s.scheduleReconnect o) := by
  unfold Connection.scheduleReconnect
  split
  · exact h
  · exact h.congr rfl rfl rfl rfl rfl rfl

theorem fatalCloseFrame_plain {reason : String} {frame : ServerFrame}
    (h : fatalCloseFrame reason = some frame) : plain? frame = none := by
  unfold fatalCloseFrame at h
  split at h <;> cases h <;> rfl

/-- The stream ends with the connection. -/
theorem Sound.ended (h : Books o since s) : Sound o since { s with
    closed := true, queue := s.queue.finish } :=
  ⟨h.finish.congr rfl rfl rfl rfl rfl, (FrameQueue.finish_done _).symm⟩

theorem Sound.onclose (h : Sound o since s) (id code : ℕ) (reason : String) :
    Sound o since (s.onclose o id code reason) := by
  unfold Connection.onclose
  split
  · split
    · exact h
    · have hgone : Sound o since { s with ws := none, inboundWatchdogTimer := none } :=
        h.congr rfl rfl rfl rfl rfl rfl
      dsimp only
      split
      · rename_i hclosed
        exact ⟨hgone.books.finish, by rw [FrameQueue.finish_done]; exact hclosed⟩
      · split
        · refine Sound.ended
            (s := { s with ws := none, inboundWatchdogTimer := none, queue := _ }) ?_
          split
          · rename_i frame hfatal
            exact hgone.books.push (fatalCloseFrame_plain hfatal)
          · exact hgone.books
        · split
          · exact hgone.scheduleReconnect
          · exact hgone.congr rfl rfl rfl rfl rfl rfl
  · exact h

theorem Sound.probed (h : Sound o since s) (result : Probe) : Sound o since (s.probed o result) := by
  have hback : Sound o since { s with probing := false } := h.congr rfl rfl rfl rfl rfl rfl
  unfold Connection.probed
  split
  · exact h
  · dsimp only
    split
    · exact hback
    · cases result with
      | fatal code text =>
        have hpush : Books o since
            { s with probing := false, queue := s.queue.push (.error code text) } :=
          hback.books.push rfl
        exact Sound.ended hpush
      | retry => exact hback.scheduleReconnect
      | thrown error =>
        exact ⟨(hback.books.fail error).congr rfl rfl rfl rfl rfl, (FrameQueue.fail_done _ _).symm⟩

theorem Sound.watchdog (h : Sound o since s) (ready : Bool) :
    Sound o since (s.watchdog o ready) := by
  have hfired : Sound o since { s with inboundWatchdogTimer := none } :=
    h.congr rfl rfl rfl rfl rfl rfl
  have hretired : Sound o since { s with inboundWatchdogTimer := none, ws := none } :=
    h.congr rfl rfl rfl rfl rfl rfl
  unfold Connection.watchdog
  split
  · exact h
  · dsimp only
    split
    · split
      · exact hfired
      · exact hretired.scheduleReconnect
    · exact hfired

theorem Sound.reconnect (h : Sound o since s) (throws : Bool) :
    Sound o since (s.reconnect o throws) := by
  have hfired : Sound o since { s with reconnectTimer := none } := h.congr rfl rfl rfl rfl rfl rfl
  unfold Connection.reconnect
  split
  · exact h
  · dsimp only
    split
    · exact hfired
    · split
      · exact hfired.scheduleReconnect
      · exact hfired.congr rfl rfl rfl rfl rfl rfl

theorem Sound.close (h : Sound o since s) : Sound o since s.close := by
  unfold Connection.close
  split
  · exact h
  · exact ⟨(Sound.ended h.books).books.congr rfl rfl rfl rfl rfl, (FrameQueue.finish_done _).symm⟩

/-- What one event preserves. -/
theorem Sound.step (h : Sound o since s) (event : Event) : Sound o since (s.step o event) := by
  cases event with
  | opened id =>
    show Sound o since (s.onopen id)
    unfold onopen
    split
    · split
      · exact h
      · exact h.congr rfl rfl rfl rfl rfl rfl
    · exact h
  | message id frames => exact h.onmessage id frames
  | socketClosed id code reason => exact h.onclose id code reason
  | probed result => exact h.probed result
  | watchdog ready => exact h.watchdog ready
  | reconnect throws => exact h.reconnect throws
  | ack seq => exact ⟨h.books.advance seq, h.closed⟩
  | replayUnacked => exact ⟨h.books.replay, h.closed.trans (s.queue.prepend_spec _).2.1.symm⟩
  | next => exact ⟨h.books.next, h.closed.trans s.queue.next_spec.2.2.1.symm⟩
  | close => exact h.close

def run (o : ConnectOptions) (since sinceRev : ℕ) (events : List Event) : Connection :=
  events.foldl (Connection.step o) (connect since sinceRev)

theorem sound_run (o : ConnectOptions) (since sinceRev : ℕ) (events : List Event) :
    Sound o since (run o since sinceRev events) := by
  induction events using List.reverseRecOn with
  | nil =>
    refine ⟨⟨⟨[], .refl _, fun _ => rfl⟩, fun h => absurd rfl h, List.nodup_nil, ?_, le_rfl, rfl,
      rfl, Nat.zero_le _, ?_, ?_⟩, rfl⟩
    · exact fun m hm => absurd hm List.not_mem_nil
    · exact fun f hf => absurd hf List.not_mem_nil
    · exact fun r hr => absurd hr List.not_mem_nil
  | append_singleton events event ih =>
    rw [run, List.foldl_append]
    exact ih.step event

/-- Exactly one thing leads on: a socket, a reconnect that is armed, or a probe. -/
inductive Alive (o : ConnectOptions) (s : Connection) : Prop
  | socket (sock : Sock) : s.ws = some sock → s.reconnectTimer = none → s.probing = false →
      Alive o s
  | armed (delay : ℕ) : s.ws = none → s.reconnectTimer = some delay → delay ≤ o.backoffMaxMs →
      s.probing = false → Alive o s
  | probe : s.ws = none → s.reconnectTimer = none → s.probing = true → Alive o s

theorem Alive.congr (h : Alive o s) (hws : s'.ws = s.ws)
    (htimer : s'.reconnectTimer = s.reconnectTimer) (hprobing : s'.probing = s.probing) :
    Alive o s' := by
  cases h with
  | socket sock h1 h2 h3 => exact .socket sock (hws.trans h1) (htimer.trans h2) (hprobing.trans h3)
  | armed delay h1 h2 h3 h4 =>
    exact .armed delay (hws.trans h1) (htimer.trans h2) h3 (hprobing.trans h4)
  | probe h1 h2 h3 => exact .probe (hws.trans h1) (htimer.trans h2) (hprobing.trans h3)

/-- Neither the socket nor what may follow it changes. -/
structure SameLink (s s' : Connection) : Prop where
  ws : s'.ws = s.ws
  reconnectTimer : s'.reconnectTimer = s.reconnectTimer
  probing : s'.probing = s.probing
  sockets : s'.sockets = s.sockets

theorem SameLink.trans {a b c : Connection} (h : SameLink a b) (h' : SameLink b c) : SameLink a c :=
  ⟨h'.ws.trans h.ws, h'.reconnectTimer.trans h.reconnectTimer, h'.probing.trans h.probing,
    h'.sockets.trans h.sockets⟩

theorem sameLink_onPlain (s : Connection) (m : Message) : SameLink s (s.onPlain o m) := by
  unfold Connection.onPlain
  split
  · exact ⟨rfl, rfl, rfl, rfl⟩
  · split <;> exact ⟨rfl, rfl, rfl, rfl⟩

theorem sameLink_onRevision (s : Connection) (m : Message) (fingerprint : String) :
    SameLink s (s.onRevision m fingerprint) := by
  unfold Connection.onRevision
  split <;> exact ⟨rfl, rfl, rfl, rfl⟩

theorem sameLink_onFrame (s : Connection) (helloSince : ℕ) (frame : ServerFrame) :
    SameLink s (s.onFrame o helloSince frame) := by
  have hback : ∀ {n s'}, SameLink { s with attempt := n } s' → SameLink s s' :=
    fun h => ⟨h.ws, h.reconnectTimer, h.probing, h.sockets⟩
  obtain ⟨n, hreset⟩ := reset_attempt s frame
  unfold Connection.onFrame
  rw [hreset]
  cases frame with
  | welcome lastRevSeq =>
    cases lastRevSeq with
    | none => exact ⟨rfl, rfl, rfl, rfl⟩
    | some rev => dsimp only; split <;> exact ⟨rfl, rfl, rfl, rfl⟩
  | message m =>
    have hrev : ∀ rev, SameLink { s with attempt := n }
        (({ s with attempt := n } : Connection).advanceRev rev) := fun _ => ⟨rfl, rfl, rfl, rfl⟩
    dsimp only
    cases m.revision with
    | none =>
      cases m.revSeq with
      | none => exact hback (sameLink_onPlain _ m)
      | some rev => exact hback ((hrev rev).trans (sameLink_onPlain _ m))
    | some fingerprint =>
      cases m.revSeq with
      | none => exact hback (sameLink_onRevision _ m fingerprint)
      | some rev => exact hback ((hrev rev).trans (sameLink_onRevision _ m fingerprint))
  | messageUpdate revSeq => cases revSeq <;> exact ⟨rfl, rfl, rfl, rfl⟩
  | sent seq => exact ⟨rfl, rfl, rfl, rfl⟩
  | pong => exact ⟨rfl, rfl, rfl, rfl⟩
  | error code text => exact ⟨rfl, rfl, rfl, rfl⟩
  | other content => exact ⟨rfl, rfl, rfl, rfl⟩

/-- Without a socket, an armed reconnect and a probe, one is armed. -/
theorem scheduled (hws : s.ws = none) (htimer : s.reconnectTimer = none)
    (hprobing : s.probing = false) (hopen : s.closed = false) : Alive o (s.scheduleReconnect o) := by
  have harmed : s.scheduleReconnect o = { s with
      reconnectTimer := some (min (o.backoffBaseMs * 2 ^ s.attempt) o.backoffMaxMs)
      attempt := s.attempt + 1 } := if_neg (by simp [hopen, htimer])
  rw [harmed]
  exact .armed _ hws rfl (Nat.min_le_right _ _) hprobing

def Living (o : ConnectOptions) (s : Connection) : Prop := s.closed = false → Alive o s

theorem Living.onmessage (h : Living o s) (id : ℕ) (frames : List ServerFrame) :
    Living o (s.onmessage o id frames) := by
  unfold Connection.onmessage
  split
  · split
    · exact h
    · rename_i sock _ hmine
      have hopen : s.closed = false := by
        cases hclosed : s.closed with
        | true => exact absurd (.inl hclosed) hmine
        | false => rfl
      have hfold : ∀ t : Connection, Alive o t → Alive o (frames.foldl
          (fun s frame => if s.closed then s else s.onFrame o sock.helloSince frame) t) := by
        induction frames with
        | nil => exact fun t ht => ht
        | cons frame frames ih =>
          intro t ht
          refine ih _ ?_
          dsimp only
          split
          · exact ht
          · have hsame := sameLink_onFrame (o := o) t sock.helloSince frame
            exact ht.congr hsame.ws hsame.reconnectTimer hsame.probing
      refine fun _ => hfold _ ?_
      split
      · exact h hopen
      · exact (h hopen).congr rfl rfl rfl
  · exact h

theorem Living.onclose (h : Living o s) (id code : ℕ) (reason : String) :
    Living o (s.onclose o id code reason) := by
  unfold Connection.onclose
  split
  · rename_i sock hws
    split
    · exact h
    · dsimp only
      split
      · rename_i hclosed
        exact fun hopen => absurd (hclosed.symm.trans hopen) (Bool.false_ne_true ∘ Eq.symm)
      · rename_i hopen
        have halive := h (by simpa using hopen)
        have hidle : s.reconnectTimer = none ∧ s.probing = false := by
          cases halive with
          | socket _ _ htimer hprobing => exact ⟨htimer, hprobing⟩
          | armed delay hnone => exact absurd (hnone.symm.trans hws) (Option.some_ne_none sock).symm
          | probe hnone => exact absurd (hnone.symm.trans hws) (Option.some_ne_none sock).symm
        split
        · exact fun hfalse => absurd hfalse.symm Bool.false_ne_true
        · split
          · exact fun _ => scheduled rfl hidle.1 hidle.2 (by simpa using hopen)
          · exact fun _ => .probe rfl hidle.1 rfl
  · exact h

theorem Living.probed (h : Living o s) (result : Probe) : Living o (s.probed o result) := by
  unfold Connection.probed
  split
  · exact h
  · rename_i hprobing
    dsimp only
    split
    · rename_i hclosed
      exact fun hopen => absurd (hclosed.symm.trans hopen) (Bool.false_ne_true ∘ Eq.symm)
    · rename_i hopen
      have halive := h (by simpa using hopen)
      cases result with
      | fatal code text => exact fun hfalse => absurd hfalse.symm Bool.false_ne_true
      | thrown error => exact fun hfalse => absurd hfalse.symm Bool.false_ne_true
      | retry =>
        cases halive with
        | socket _ _ _ hnone => exact absurd hnone (by simpa using hprobing)
        | armed _ _ _ _ hnone => exact absurd hnone (by simpa using hprobing)
        | probe hws htimer _ => exact fun _ => scheduled hws htimer rfl (by simpa using hopen)

theorem Living.watchdog (h : Living o s) (ready : Bool) : Living o (s.watchdog o ready) := by
  have hfired : Living o { s with inboundWatchdogTimer := none } :=
    fun hopen => (h hopen).congr rfl rfl rfl
  unfold Connection.watchdog
  split
  · exact h
  · dsimp only
    split
    · rename_i sock hws
      split
      · exact hfired
      · rename_i hmine
        have hopen : s.closed = false := by
          cases hclosed : s.closed with
          | true => exact absurd (.inl hclosed) hmine
          | false => rfl
        cases h hopen with
        | socket _ _ htimer hprobing => exact fun _ => scheduled rfl htimer hprobing hopen
        | armed delay hnone => exact absurd (hnone.symm.trans hws) (Option.some_ne_none sock).symm
        | probe hnone => exact absurd (hnone.symm.trans hws) (Option.some_ne_none sock).symm
    · exact hfired

theorem Living.reconnect (h : Living o s) (throws : Bool) : Living o (s.reconnect o throws) := by
  unfold Connection.reconnect
  split
  · exact h
  · rename_i hsome
    dsimp only
    split
    · rename_i hclosed
      exact fun hopen => absurd (hclosed.symm.trans hopen) (Bool.false_ne_true ∘ Eq.symm)
    · rename_i hopen
      have hidle : s.ws = none ∧ s.probing = false := by
        cases h (by simpa using hopen) with
        | socket _ _ htimer => simp [htimer] at hsome
        | armed _ hws _ _ hprobing => exact ⟨hws, hprobing⟩
        | probe _ htimer => simp [htimer] at hsome
      split
      · exact fun _ => scheduled hidle.1 rfl hidle.2 (by simpa using hopen)
      · exact fun _ => .socket _ rfl rfl hidle.2

theorem Living.step (h : Living o s) (event : Event) : Living o (s.step o event) := by
  cases event with
  | opened id =>
    show Living o (s.onopen id)
    unfold onopen
    split
    · rename_i sock hws
      split
      · exact h
      · intro hopen
        cases h hopen with
        | socket _ _ htimer hprobing => exact .socket _ rfl htimer hprobing
        | armed delay hnone => exact absurd (hnone.symm.trans hws) (Option.some_ne_none sock).symm
        | probe hnone => exact absurd (hnone.symm.trans hws) (Option.some_ne_none sock).symm
    · exact h
  | message id frames => exact h.onmessage id frames
  | socketClosed id code reason => exact h.onclose id code reason
  | probed result => exact h.probed result
  | watchdog ready => exact h.watchdog ready
  | reconnect throws => exact h.reconnect throws
  | ack seq => exact fun hopen => (h hopen).congr rfl rfl rfl
  | replayUnacked => exact fun hopen => (h hopen).congr rfl rfl rfl
  | next => exact fun hopen => (h hopen).congr rfl rfl rfl
  | close =>
    show Living o s.close
    unfold close
    split
    · exact h
    · exact fun hfalse => absurd hfalse.symm Bool.false_ne_true

theorem living_run (o : ConnectOptions) (since sinceRev : ℕ) (events : List Event) :
    Living o (run o since sinceRev events) := by
  induction events using List.reverseRecOn with
  | nil => exact fun _ => .socket ⟨0, false, 0⟩ rfl rfl rfl
  | append_singleton events event ih =>
    rw [run, List.foldl_append]
    exact ih.step event

/-- A connection that is not closed is never left without a way on, whatever its sockets do, and its
stream ends when it is closed, and not before. -/
theorem never_deaf (o : ConnectOptions) (since sinceRev : ℕ) (events : List Event) :
    ((run o since sinceRev events).closed = false → Alive o (run o since sinceRev events)) ∧
    ((run o since sinceRev events).queue.done = true ↔
      (run o since sinceRev events).closed = true) := by
  refine ⟨living_run o since sinceRev events, ?_⟩
  rw [(sound_run o since sinceRev events).closed]

/-- Over any sockets, a message of the channel enters the stream once, and above the cursor of the
start. What entered it and is above the cursor is kept, up to the limit. Nothing else comes back than
what is kept, and what came out and what waits is what entered or came back, unless the stream
failed. -/
theorem stream_once (o : ConnectOptions) (since sinceRev : ℕ) (events : List Event) :
    ((run o since sinceRev events).plain.map Message.seq).Nodup ∧
    (∀ m ∈ (run o since sinceRev events).plain, since < m.seq) ∧
    (run o since sinceRev events).unacked = (run o since sinceRev events).plain.filter
      (fun m => (run o since sinceRev events).cursor < m.seq) ∧
    (run o since sinceRev events).unacked.length ≤ o.maxUnackedFrames ∧
    (∀ f ∈ (run o since sinceRev events).queue.requeued,
      ∃ m ∈ (run o since sinceRev events).plain, f = .message m) ∧
    (run o since sinceRev events).queue.Conserved := by
  have h := (sound_run o since sinceRev events).books
  exact ⟨h.once, h.above, h.unacked, h.size, h.requeued, h.conserved⟩

/-- What waits under the number of a message that entered the stream is that message or a revision
of it. -/
theorem Books.waiting (h : Books o since s) {m m' : Message} (hm : m ∈ s.plain)
    (hitem : .message m' ∈ s.queue.items) (hseq : m'.seq = m.seq) : m' = m ∨ m'.revision ≠ none := by
  by_cases hrevision : m'.revision = none
  · left
    obtain ⟨lost, hperm, -⟩ := h.conserved
    have hgone : ServerFrame.message m' ∈ s.queue.pushed ++ s.queue.requeued :=
      hperm.subset (List.mem_append_left _ (List.mem_append_right _ hitem))
    have hplain : m' ∈ s.plain := by
      rcases List.mem_append.1 hgone with hpushed | hrequeued
      · exact List.mem_filterMap.2 ⟨_, hpushed, if_pos hrevision⟩
      · obtain ⟨m'', hm'', heq⟩ := h.requeued _ hrequeued
        cases heq
        exact hm''
    exact List.inj_on_of_nodup_map h.once hplain hm hseq
  · exact Or.inr hrevision

/-- After `replayUnacked` on an open connection, every message that entered the stream and is above
the cursor waits in the queue, itself or as a revision snapshot, or came out just now, and those that
came back are in their order. -/
theorem replay_complete (o : ConnectOptions) (since sinceRev : ℕ) (events : List Event)
    (hopen : (run o since sinceRev events).closed = false) {m : Message}
    (hm : m ∈ (run o since sinceRev events).plain)
    (hcursor : (run o since sinceRev events).cursor < m.seq) :
    let s := run o since sinceRev events
    ((∃ m', .message m' ∈ s.replayUnacked.1.queue.items ∧ m'.seq = m.seq ∧
        (m' = m ∨ m'.revision ≠ none)) ∨
      .message m ∈ s.replayUnacked.1.queue.handed.drop s.queue.handed.length) ∧
    s.replayFrames.Pairwise (fun a b => a.seq < b.seq) := by
  intro s
  have hsound := sound_run o since sinceRev events
  have hdone : s.queue.done = false := hsound.closed.symm.trans hopen
  have hkept : m ∈ s.unacked := by
    rw [hsound.books.unacked]
    exact List.mem_filter.2 ⟨hm, by simpa using hcursor⟩
  constructor
  · by_cases hpending : m.seq ∈ s.queue.items.filterMap ServerFrame.seq?
    · left
      obtain ⟨frame, hframe, hseq⟩ := List.mem_filterMap.1 hpending
      cases frame with
      | message m' =>
        have hnumber : m'.seq = m.seq := Option.some.inj hseq
        refine ⟨m', ?_, hnumber, hsound.books.waiting hm hframe hnumber⟩
        show _ ∈ (s.queue.prepend _).1.items
        unfold FrameQueue.prepend
        split
        · exact hframe
        · exact List.mem_append_right _ hframe
      | _ => cases hseq
    · have hback : ServerFrame.message m ∈ s.replayFrames.map .message := by
        refine List.mem_map_of_mem ((List.mem_insertionSort _).2 (List.mem_filter.2 ⟨hkept, ?_⟩))
        simpa [hpending] using hcursor
      have hprepend : ¬(s.queue.done = true ∨ s.replayFrames.map ServerFrame.message = []) := by
        rintro (htrue | hnil)
        · exact Bool.false_ne_true (hdone.symm.trans htrue)
        · exact List.ne_nil_of_mem hback hnil
      have hitems : s.replayUnacked.1.queue.items =
          (s.replayFrames.map ServerFrame.message).drop s.queue.waiters ++ s.queue.items := by
        show (s.queue.prepend _).1.items = _
        rw [FrameQueue.prepend, if_neg hprepend]
      have hhanded : s.replayUnacked.1.queue.handed =
          s.queue.handed ++ (s.replayFrames.map ServerFrame.message).take s.queue.waiters := by
        show (s.queue.prepend _).1.handed = _
        rw [FrameQueue.prepend, if_neg hprepend]
      rw [← List.take_append_drop s.queue.waiters (s.replayFrames.map _)] at hback
      rcases List.mem_append.1 hback with hserved | hwaits
      · right
        rw [hhanded, List.drop_left]
        exact hserved
      · left
        rw [hitems]
        exact ⟨m, List.mem_append_left _ hwaits, rfl, Or.inl rfl⟩
  · have hsorted : s.replayFrames.Pairwise fun a b => a.seq ≤ b.seq :=
      @List.pairwise_insertionSort _ _ _ ⟨fun (a b : Message) => le_total a.seq b.seq⟩
        ⟨fun _ _ _ h h' => le_trans h h'⟩ _
    have hnodup : (s.replayFrames.map Message.seq).Nodup := by
      have hperm := (List.perm_insertionSort (fun a b : Message => a.seq ≤ b.seq)
        (s.unacked.filter fun m => s.cursor < m.seq &&
          !(s.queue.items.filterMap ServerFrame.seq?).contains m.seq)).map Message.seq
      refine hperm.nodup_iff.2 ?_
      refine hsound.books.once.sublist (List.Sublist.map _ (List.filter_sublist.trans ?_))
      rw [hsound.books.unacked]
      exact List.filter_sublist
    exact hsorted.imp₂ (fun _ _ hle hne => lt_of_le_of_ne hle hne) (List.pairwise_map.1 hnodup)

/-- Two messages arrive, the first is taken; the connection drops and comes back. -/
def twoMessages : List Event :=
  [.opened 0, .message 0 [.welcome (some 0), .message ⟨1, none, none⟩, .message ⟨2, none, none⟩],
    .next, .next, .socketClosed 0 1006 "", .reconnect false, .opened 1,
    .message 1 [.message ⟨1, none, none⟩]]

theorem replay_complete_twoMessages :
    (∃ m' : Message,
        .message m' ∈ (run ⟨4096, 1000, 30000⟩ 0 0 twoMessages).replayUnacked.1.queue.items ∧
          m'.seq = 1 ∧ (m' = ⟨1, none, none⟩ ∨ m'.revision ≠ none)) ∨
      .message ⟨1, none, none⟩ ∈
        (run ⟨4096, 1000, 30000⟩ 0 0 twoMessages).replayUnacked.1.queue.handed.drop
          (run ⟨4096, 1000, 30000⟩ 0 0 twoMessages).queue.handed.length :=
  (replay_complete ⟨4096, 1000, 30000⟩ 0 0 twoMessages (by decide) (m := ⟨1, none, none⟩) (by decide)
    (by decide)).1

end Connection

end Ws
end AgentParty
