import AgentParty.Delivery.Hello
import AgentParty.Proofs.Client

/-! The handshake keeps the stream of a client without gaps: whatever connections are lost, the
cursor passes no message that the client was not given. -/

namespace AgentParty
namespace Ws
namespace Handoff

section Backfill

namespace Messages

variable {t : Messages} {since sinceRev : ℕ}

/-- The rows that the pages after a cursor hold. -/
def after (t : Messages) (since sinceRev pageCursor : ℕ) : List Message :=
  t.rows.filter fun m => missed since sinceRev m && pageCursor < m.seq

theorem after_ascending (t : Messages) (since sinceRev pageCursor : ℕ) :
    (t.after since sinceRev pageCursor).Pairwise fun a b => a.seq < b.seq :=
  t.ascending.sublist List.filter_sublist

/-- The rows after the last one of a page are those that the page left out. -/
theorem after_last {pageCursor n : ℕ} {last : Message}
    (hlast : ((t.after since sinceRev pageCursor).take n).getLast? = some last) :
    t.after since sinceRev last.seq = (t.after since sinceRev pageCursor).drop n := by
  obtain ⟨front, hfront⟩ : ∃ front, (t.after since sinceRev pageCursor).take n = front ++ [last] :=
    ⟨_, (List.dropLast_append_getLast? last hlast).symm⟩
  have hsplit := List.take_append_drop n (t.after since sinceRev pageCursor)
  rw [hfront] at hsplit
  have hascending := t.after_ascending since sinceRev pageCursor
  have hmem : last ∈ t.after since sinceRev pageCursor := by
    rw [← hsplit]
    exact List.mem_append_left _ (List.mem_append_right _ (List.mem_singleton_self _))
  have hcursor : pageCursor < last.seq := by
    have hboth := (List.mem_filter.1 hmem).2
    simp only [Bool.and_eq_true, decide_eq_true_eq] at hboth
    exact hboth.2
  have hnarrow : t.after since sinceRev last.seq =
      (t.after since sinceRev pageCursor).filter fun m => last.seq < m.seq := by
    rw [after, after, List.filter_filter]
    refine List.filter_congr fun m _ => ?_
    rw [Bool.eq_iff_iff]
    simp only [Bool.and_eq_true, decide_eq_true_eq]
    constructor
    · rintro ⟨hmissed, hlt⟩
      exact ⟨hlt, hmissed, by omega⟩
    · rintro ⟨hlt, hmissed, -⟩
      exact ⟨hmissed, hlt⟩
  rw [← hsplit, List.pairwise_append] at hascending
  obtain ⟨hfirst, -, hcross⟩ := hascending
  have hgone : (front ++ [last]).filter (fun m => last.seq < m.seq) = [] := by
    refine List.filter_eq_nil_iff.2 fun m hm => ?_
    rcases List.mem_append.1 hm with hin | hin
    · have hlt := (List.pairwise_append.1 hfirst).2.2 m hin last (List.mem_singleton_self _)
      simp only [decide_eq_true_eq]
      omega
    · rw [List.mem_singleton.1 hin]
      simp
  have hkept : ((t.after since sinceRev pageCursor).drop n).filter (fun m => last.seq < m.seq) =
      (t.after since sinceRev pageCursor).drop n := by
    refine List.filter_eq_self.2 fun m hm => ?_
    have hlt := hcross last (List.mem_append_right _ (List.mem_singleton_self _)) m hm
    simpa using hlt
  rw [hnarrow]
  conv_lhs => rw [← hsplit]
  rw [List.filter_append, hgone, hkept, List.nil_append]

/-- The pages are together what one query without a limit returns. -/
theorem pages_eq (t : Messages) (since sinceRev fuel pageCursor : ℕ)
    (hfuel : (t.after since sinceRev pageCursor).length < fuel) :
    t.pages since sinceRev fuel pageCursor = t.after since sinceRev pageCursor := by
  induction fuel generalizing pageCursor with
  | zero => exact absurd hfuel (Nat.not_lt_zero _)
  | succ fuel ih =>
    have hpos : 0 < HELLO_BACKFILL_PAGE_SIZE := by decide
    have hpage : t.page since sinceRev pageCursor =
        (t.after since sinceRev pageCursor).take HELLO_BACKFILL_PAGE_SIZE := rfl
    rw [pages]
    split
    · rename_i hnone
      rw [List.getLast?_eq_none_iff] at hnone
      rw [hnone]
      rw [hpage] at hnone
      have hempty := (List.take_eq_nil_iff.1 hnone).resolve_left hpos.ne'
      exact hempty.symm
    · rename_i last hlast
      rw [hpage] at hlast ⊢
      split
      · rename_i hshort
        rw [List.length_take] at hshort
        exact List.take_of_length_le (by omega)
      · rename_i hfull
        have hrest := after_last hlast
        rw [List.length_take] at hfull
        rw [ih last.seq (by rw [hrest, List.length_drop]; omega), hrest, List.take_append_drop]

theorem backfill_eq (t : Messages) (since sinceRev : ℕ) :
    t.backfill since sinceRev = t.rows.filter (missed since sinceRev) := by
  have hall : t.after since sinceRev 0 = t.rows.filter (missed since sinceRev) := by
    refine List.filter_congr fun m hm => ?_
    simp [t.positive m hm]
  rw [backfill, pages_eq, hall]
  exact Nat.lt_succ_of_le (List.length_filter_le _ _)

end Messages

end Backfill

section Client

variable {o : ConnectOptions} {since : ℕ} {s s' : Connection}

/-- A frame tells of a message: it holds it, or it acknowledges it as the client's own. -/
def Carries (f : ServerFrame) (n : ℕ) : Prop := f.seq? = some n ∨ f = .sent n

/-- The client was given the message, or it is the client's own. -/
def Seen (s : Connection) (n : ℕ) : Prop := ∃ f ∈ s.queue.pushed, Carries f n

/-- What a frame that arrives at an open connection does. -/
structure Took (s : Connection) (frame : ServerFrame) (s' : Connection) : Prop where
  kept : ∀ f ∈ s.queue.pushed, f ∈ s'.queue.pushed
  only : ∀ f ∈ s'.queue.pushed, f ∈ s.queue.pushed ∨ f = frame
  cursor : s'.cursor = s.cursor ∨ Seen s' s'.cursor
  mono : s.cursor ≤ s'.cursor
  took : s'.closed = false → ∀ n, Carries frame n → n ≤ s.cursor ∨ Seen s' n

theorem took_push (h : s.queue.done = false) {frame : ServerFrame} {t : Connection}
    (hqueue : t.queue = s.queue.push frame) :
    (∀ f ∈ s.queue.pushed, f ∈ t.queue.pushed) ∧
      (∀ f ∈ t.queue.pushed, f ∈ s.queue.pushed ∨ f = frame) ∧ frame ∈ t.queue.pushed := by
  rw [hqueue, FrameQueue.push_pushed h]
  refine ⟨fun f hf => List.mem_append_left _ hf, fun f hf => ?_,
    List.mem_append_right _ (List.mem_singleton_self _)⟩
  rcases List.mem_append.1 hf with hold | hnew
  · exact .inl hold
  · exact .inr (List.mem_singleton.1 hnew)

theorem Took.of_push (h : s.queue.done = false) {frame : ServerFrame}
    (hqueue : s'.queue = s.queue.push frame) (hcursor : s'.cursor = s.cursor) :
    Took s frame s' := by
  obtain ⟨hkept, honly, hmem⟩ := took_push h hqueue
  exact ⟨hkept, honly, .inl hcursor, hcursor.ge, fun _ n hn => .inr ⟨frame, hmem, hn⟩⟩

/-- What is not pushed again was pushed before, or is below the cursor. -/
theorem Took.of_known {frame : ServerFrame} (hqueue : s'.queue = s.queue)
    (hcursor : s'.cursor = s.cursor) (hknown : ∀ n, Carries frame n → n ≤ s.cursor ∨ Seen s n) :
    Took s frame s' := by
  refine ⟨fun f hf => hqueue ▸ hf, fun f hf => .inl (hqueue ▸ hf), .inl hcursor, hcursor.ge,
    fun _ n hn => ?_⟩
  refine (hknown n hn).imp_right fun ⟨f, hf, hfn⟩ => ⟨f, ?_, hfn⟩
  rw [hqueue]
  exact hf

theorem mem_plain {m : Message} (h : m ∈ s.plain) : ServerFrame.message m ∈ s.queue.pushed := by
  obtain ⟨f, hf, hplain⟩ := List.mem_filterMap.1 h
  cases f with
  | message m' =>
    simp only [Connection.plain?] at hplain
    split at hplain
    · rwa [← Option.some.inj hplain]
    · exact absurd hplain.symm (Option.some_ne_none m)
  | _ => exact absurd hplain.symm (Option.some_ne_none m)

theorem Took.message (h : Connection.Sound o since s) (hopen : s.closed = false) (m : Message) :
    (m.revision = none → Took s (.message m) (s.onPlain o m)) ∧
    ∀ fingerprint, m.revision = some fingerprint →
      Took s (.message m) (s.onRevision m fingerprint) := by
  have hdone : s.queue.done = false := h.closed.symm.trans hopen
  have hcarries : ∀ n, Carries (.message m) n → n = m.seq := by
    rintro n (hseq | hsent)
    · exact (Option.some.inj hseq).symm
    · exact absurd hsent (by simp)
  constructor
  · intro hplain
    unfold Connection.onPlain
    split
    · rename_i hold
      refine .of_known rfl rfl fun n hn => ?_
      rw [hcarries n hn]
      rcases hold with hcursor | hdelivered
      · exact .inl hcursor
      · right
        rw [h.books.delivered, h.books.unacked] at hdelivered
        obtain ⟨m', hm', hseq⟩ := List.mem_map.1 hdelivered
        exact ⟨_, mem_plain (List.mem_of_mem_filter hm'), .inl (congrArg some hseq)⟩
    · split
      · refine ⟨?_, ?_, .inl rfl, le_rfl, fun hfalse => absurd hfalse.symm Bool.false_ne_true⟩
        · intro f hf
          show f ∈ (s.queue.fail _).pushed
          unfold FrameQueue.fail
          split <;> exact hf
        · intro f hf
          have hf' : f ∈ (s.queue.fail (Connection.overflowError o.maxUnackedFrames)).pushed := hf
          unfold FrameQueue.fail at hf'
          split at hf' <;> exact .inl hf'
      · exact .of_push hdone rfl rfl
  · intro fingerprint hrevision
    unfold Connection.onRevision
    split
    · rename_i hold
      refine .of_known rfl rfl fun n hn => .inr ?_
      obtain ⟨front, back, hsplit, -⟩ := List.lookup_eq_some_iff.1 hold
      have hmem : (m.seq, fingerprint) ∈ s.deliveredRevisions := by
        rw [hsplit]
        exact List.mem_append_right _ List.mem_cons_self
      obtain ⟨f, hf, hseq⟩ := h.books.revised _ hmem
      exact ⟨f, hf, .inl (hcarries n hn ▸ hseq)⟩
    · exact .of_push hdone rfl rfl

/-- What is done before and after a frame enters the stream: the cursor alone moves, and only to a
message of the client's own. -/
theorem Took.onFrame (h : Connection.Sound o since s) (hopen : s.closed = false) (helloSince : ℕ)
    (frame : ServerFrame) : Took s frame (s.onFrame o helloSince frame) := by
  obtain ⟨attempt, hreset⟩ := Connection.reset_attempt s frame
  have ht : Connection.Sound o since { s with attempt := attempt } :=
    h.congr rfl rfl rfl rfl rfl rfl
  have htopen : ({ s with attempt := attempt } : Connection).closed = false := hopen
  have hqueue : ({ s with attempt := attempt } : Connection).queue = s.queue := rfl
  have hcursor : ({ s with attempt := attempt } : Connection).cursor = s.cursor := rfl
  have hdone : s.queue.done = false := h.closed.symm.trans hopen
  unfold Connection.onFrame
  rw [hreset]
  generalize ({ s with attempt := attempt } : Connection) = t at ht htopen hqueue hcursor
  have hpush : ∀ u : Connection, u.queue = t.queue.push frame → u.cursor = t.cursor →
      Took s frame u := fun u hu hc => .of_push hdone (hqueue ▸ hu) (hc.trans hcursor)
  cases frame with
  | welcome lastRevSeq =>
    cases lastRevSeq with
    | none => exact hpush _ rfl rfl
    | some rev =>
      dsimp only
      split <;> exact hpush _ rfl rfl
  | message m =>
    have hback : ∀ u : Connection, u.queue = s.queue → u.cursor = s.cursor →
        ∀ u', Took u (.message m) u' → Took s (.message m) u' := fun u huqueue hucursor u' htook =>
      ⟨huqueue ▸ htook.kept, huqueue ▸ htook.only, hucursor ▸ htook.cursor, hucursor ▸ htook.mono,
        hucursor ▸ htook.took⟩
    have hplain : ∀ u : Connection, Connection.Sound o since u → u.closed = false →
        u.queue = s.queue → u.cursor = s.cursor → m.revision = none →
          Took s (.message m) (u.onPlain o m) := fun u hu huopen huqueue hucursor hnone =>
      hback u huqueue hucursor _ ((Took.message hu huopen m).1 hnone)
    have hrevised : ∀ u : Connection, Connection.Sound o since u → u.closed = false →
        u.queue = s.queue → u.cursor = s.cursor → ∀ fingerprint, m.revision = some fingerprint →
          Took s (.message m) (u.onRevision m fingerprint) :=
      fun u hu huopen huqueue hucursor fingerprint hsome =>
        hback u huqueue hucursor _ ((Took.message hu huopen m).2 fingerprint hsome)
    dsimp only
    cases hrevision : m.revision with
    | none =>
      cases m.revSeq with
      | none => exact hplain t ht htopen hqueue hcursor hrevision
      | some rev => exact hplain _ (ht.advanceRev rev) htopen hqueue hcursor hrevision
    | some fingerprint =>
      cases m.revSeq with
      | none => exact hrevised t ht htopen hqueue hcursor fingerprint hrevision
      | some rev => exact hrevised _ (ht.advanceRev rev) htopen hqueue hcursor fingerprint hrevision
  | messageUpdate revSeq => cases revSeq <;> exact hpush _ rfl rfl
  | sent seq =>
    obtain ⟨hkept, honly, hmem⟩ := took_push (t := { t.advance seq with
      queue := (t.advance seq).queue.push (.sent seq) }) hdone
      (show t.queue.push (.sent seq) = s.queue.push (.sent seq) by rw [hqueue])
    have hmax : max t.cursor seq = max s.cursor seq := by rw [hcursor]
    refine ⟨hkept, honly, ?_, ?_, fun _ n hn => .inr ⟨.sent seq, hmem, hn⟩⟩
    · rcases le_total seq s.cursor with hle | hle
      · left
        exact hmax.trans (max_eq_left hle)
      · right
        refine ⟨.sent seq, hmem, .inr (congrArg _ ?_)⟩
        exact (hmax.trans (max_eq_right hle)).symm
    · show s.cursor ≤ max t.cursor seq
      rw [hmax]
      exact le_max_left _ _
  | pong => exact hpush _ rfl rfl
  | error code text => exact hpush _ rfl rfl
  | other content => exact hpush _ rfl rfl

/-- What the client does by itself tells it of no message and leaves the cursor where it is. -/
structure Quiet (s s' : Connection) : Prop where
  cursor : s'.cursor = s.cursor
  kept : ∀ f ∈ s.queue.pushed, f ∈ s'.queue.pushed
  only : ∀ f ∈ s'.queue.pushed, f ∈ s.queue.pushed ∨ ∀ n, ¬Carries f n
  closed : s'.closed = false → s.closed = false
  sockets : s.sockets ≤ s'.sockets
  ws : s'.ws = s.ws ∨ s'.ws = none ∨ s'.sockets = s.sockets + 1 ∧ s'.ws = some ⟨s.sockets, false, 0⟩

theorem Quiet.of_same (hcursor : s'.cursor = s.cursor)
    (hpushed : s'.queue.pushed = s.queue.pushed) (hclosed : s'.closed = false → s.closed = false)
    (hsockets : s'.sockets = s.sockets) (hws : s'.ws = s.ws ∨ s'.ws = none) : Quiet s s' :=
  ⟨hcursor, fun _ hf => hpushed ▸ hf, fun _ hf => .inl (hpushed ▸ hf), hclosed, hsockets.ge,
    hws.imp_right .inl⟩

theorem scheduleReconnect_same (s : Connection) :
    (s.scheduleReconnect o).cursor = s.cursor ∧ (s.scheduleReconnect o).queue = s.queue ∧
      (s.scheduleReconnect o).closed = s.closed ∧ (s.scheduleReconnect o).sockets = s.sockets ∧
      (s.scheduleReconnect o).ws = s.ws := by
  unfold Connection.scheduleReconnect
  split <;> exact ⟨rfl, rfl, rfl, rfl, rfl⟩

theorem Quiet.schedule {t : Connection} (h : Quiet s t) : Quiet s (t.scheduleReconnect o) := by
  obtain ⟨hcursor, hqueue, hclosed, hsockets, hws⟩ := scheduleReconnect_same (o := o) t
  exact ⟨hcursor.trans h.cursor, hqueue ▸ h.kept, hqueue ▸ h.only, hclosed ▸ h.closed,
    hsockets ▸ h.sockets, hsockets ▸ hws ▸ h.ws⟩

theorem finish_pushed (q : FrameQueue) : q.finish.pushed = q.pushed := by
  unfold FrameQueue.finish
  split <;> rfl

theorem fail_pushed (q : FrameQueue) (error : String) : (q.fail error).pushed = q.pushed := by
  unfold FrameQueue.fail
  split <;> rfl

theorem push_only (q : FrameQueue) (frame : ServerFrame) :
    ∀ f ∈ (q.push frame).pushed, f ∈ q.pushed ∨ f = frame := by
  intro f hf
  cases hdone : q.done with
  | true =>
    rw [FrameQueue.push_of_done hdone] at hf
    exact .inl hf
  | false =>
    rw [FrameQueue.push_pushed hdone] at hf
    rcases List.mem_append.1 hf with hold | hnew
    · exact .inl hold
    · exact .inr (List.mem_singleton.1 hnew)

theorem not_carries {f : ServerFrame} (hseq : f.seq? = none) (hsent : ∀ n, f ≠ .sent n) (n : ℕ) :
    ¬Carries f n := by
  rintro (h | h)
  · exact Option.some_ne_none n (h.symm.trans hseq)
  · exact hsent n h

theorem error_quiet (code text : String) : ∀ n, ¬Carries (.error code text) n := by
  rintro n (h | h)
  · exact absurd h.symm (Option.some_ne_none n)
  · exact ServerFrame.noConfusion h

/-- The stream gets a last frame, which is no message, and ends. -/
theorem Quiet.last {frame : ServerFrame} (hframe : ∀ n, ¬Carries frame n)
    (hcursor : s'.cursor = s.cursor) (hqueue : s'.queue = (s.queue.push frame).finish)
    (hclosed : s'.closed = true) (hsockets : s'.sockets = s.sockets)
    (hws : s'.ws = s.ws ∨ s'.ws = none) : Quiet s s' := by
  refine ⟨hcursor, fun f hf => ?_, fun f hf => ?_, fun hopen => ?_, hsockets.ge, hws.imp_right .inl⟩
  · rw [hqueue, finish_pushed]
    exact Connection.push_kept _ _ f hf
  · rw [hqueue, finish_pushed] at hf
    rcases push_only _ _ f hf with hold | rfl
    · exact .inl hold
    · exact .inr hframe
  · exact absurd (hopen.symm.trans hclosed) Bool.false_ne_true

theorem quiet_probed (s : Connection) (result : Probe) : Quiet s (s.probed o result) := by
  have hback : Quiet s { s with probing := false } := .of_same rfl rfl id rfl (.inl rfl)
  unfold Connection.probed
  split
  · exact .of_same rfl rfl id rfl (.inl rfl)
  · dsimp only
    split
    · exact hback
    · cases result with
      | fatal code text => exact .last (error_quiet code text) rfl rfl rfl rfl (.inl rfl)
      | retry => exact hback.schedule
      | thrown error =>
        exact .of_same rfl (fail_pushed _ _) (fun h => absurd h.symm Bool.false_ne_true) rfl
          (.inl rfl)

theorem quiet_watchdog (s : Connection) (ready : Bool) : Quiet s (s.watchdog o ready) := by
  have hfired : Quiet s { s with inboundWatchdogTimer := none } :=
    .of_same rfl rfl id rfl (.inl rfl)
  have hretired : Quiet s { s with inboundWatchdogTimer := none, ws := none } :=
    .of_same rfl rfl id rfl (.inr rfl)
  unfold Connection.watchdog
  split
  · exact .of_same rfl rfl id rfl (.inl rfl)
  · dsimp only
    split
    · split
      · exact hfired
      · exact hretired.schedule
    · exact hfired

theorem quiet_reconnect (s : Connection) (throws : Bool) : Quiet s (s.reconnect o throws) := by
  have hfired : Quiet s { s with reconnectTimer := none } := .of_same rfl rfl id rfl (.inl rfl)
  unfold Connection.reconnect
  split
  · exact .of_same rfl rfl id rfl (.inl rfl)
  · dsimp only
    split
    · exact hfired
    · split
      · exact hfired.schedule
      · exact ⟨rfl, fun _ hf => hf, fun _ hf => .inl hf, id, Nat.le_succ _, .inr (.inr ⟨rfl, rfl⟩)⟩

theorem fatalCloseFrame_quiet {reason : String} {frame : ServerFrame}
    (h : fatalCloseFrame reason = some frame) : ∀ n, ¬Carries frame n := by
  unfold fatalCloseFrame at h
  split at h <;> cases h <;> exact error_quiet _ _

theorem quiet_onclose (s : Connection) (id code : ℕ) (reason : String) :
    Quiet s (s.onclose o id code reason) := by
  have hgone : Quiet s { s with ws := none, inboundWatchdogTimer := none } :=
    .of_same rfl rfl (fun h => h) rfl (.inr rfl)
  unfold Connection.onclose
  split
  · split
    · exact .of_same rfl rfl (fun h => h) rfl (.inl rfl)
    · dsimp only
      split
      · exact .of_same rfl (finish_pushed _) (fun h => h) rfl (.inr rfl)
      · split
        · split
          · rename_i frame hfatal
            exact .last (fatalCloseFrame_quiet hfatal) rfl rfl rfl rfl (.inr rfl)
          · exact .of_same rfl (finish_pushed _) (fun h => absurd h.symm Bool.false_ne_true) rfl
              (.inr rfl)
        · split
          · exact hgone.schedule
          · exact .of_same rfl rfl (fun h => h) rfl (.inr rfl)
  · exact .of_same rfl rfl (fun h => h) rfl (.inl rfl)

theorem quiet_close (s : Connection) : Quiet s s.close := by
  unfold Connection.close
  split
  · exact .of_same rfl rfl id rfl (.inl rfl)
  · exact .of_same rfl (finish_pushed _) (fun h => absurd h.symm Bool.false_ne_true) rfl (.inl rfl)

/-- What the client does by itself, but for an acknowledgement. -/
theorem quiet_local (s : Connection) (event : Local) (hack : ∀ seq, event ≠ .ack seq) :
    Quiet s (s.step o event.event) := by
  cases event with
  | probed result => exact quiet_probed s result
  | watchdog ready => exact quiet_watchdog s ready
  | reconnect throws => exact quiet_reconnect s throws
  | ack seq => exact absurd rfl (hack seq)
  | replayUnacked => exact .of_same rfl (s.queue.prepend_spec _).1 id rfl (.inl rfl)
  | next => exact .of_same rfl s.queue.next_spec.1 id rfl (.inl rfl)
  | close => exact quiet_close s
  | socketClosed id code reason => exact quiet_onclose s id code reason

/-- What came out of the stream was pushed into it. -/
theorem pushed_of_handed (h : Connection.Sound o since s) {f : ServerFrame}
    (hf : f ∈ s.queue.handed) : f ∈ s.queue.pushed := by
  obtain ⟨lost, hperm, -⟩ := h.books.conserved
  have hmem : f ∈ s.queue.pushed ++ s.queue.requeued :=
    hperm.subset (List.mem_append_left _ (List.mem_append_left _ hf))
  rcases List.mem_append.1 hmem with hpushed | hback
  · exact hpushed
  · obtain ⟨m, hm, rfl⟩ := h.books.requeued f hback
    exact mem_plain hm

end Client

section System

variable {o : ConnectOptions} {since : ℕ} {s : State}

/-- The message is known to the client, or on its way. -/
def Due (c : Connection) (wire : List ServerFrame) (n : ℕ) : Prop :=
  Seen c n ∨ ∃ f ∈ wire, Carries f n

/-- Nothing overtakes on the way: in front of what tells of a message stand all the earlier ones
that the client does not know. -/
def Ordered (since : ℕ) (numbers : List ℕ) (c : Connection) (wire : List ServerFrame) : Prop :=
  ∀ front f back, wire = front ++ f :: back → ∀ n, Carries f n →
    ∀ k ∈ numbers, since < k → k < n → Due c front k

/-- The link of the socket that an open client uses. -/
structure Current (s : State) (link : Link) : Prop where
  linked : s.link = some link
  opened : s.client.closed = false
  sock : ∃ sock, s.client.ws = some sock ∧ sock.id = link.sock

structure Gapless (o : ConnectOptions) (since : ℕ) (s : State) : Prop where
  sound : Connection.Sound o since s.client
  numbered : ∀ n, Seen s.client n → n ∈ s.messages.numbers
  wired : ∀ link, s.link = some link → ∀ f ∈ link.wire, ∀ n, Carries f n → n ∈ s.messages.numbers
  unsent : ∀ n ∈ s.unsent, n ∈ s.messages.numbers
  cursor : s.client.cursor = since ∨ Seen s.client s.client.cursor
  below : ∀ n, Seen s.client n → ∀ k ∈ s.messages.numbers, since < k → k ≤ n → Seen s.client k
  linkId : ∀ link, s.link = some link → link.sock < s.client.sockets
  sockId : ∀ sock, s.client.ws = some sock → sock.id < s.client.sockets
  pending : ∀ link, Current s link → link.helloPending = true →
    (∀ f ∈ link.wire, ∀ n, ¬Carries f n) ∧
      ∀ cursor rev, link.hello = some (cursor, rev) → cursor ≤ s.client.cursor
  answered : ∀ link, s.link = some link → link.helloPending = false → link.hello = none
  all : ∀ link, Current s link → link.helloPending = false → ∀ k ∈ s.messages.numbers, since < k →
    Due s.client link.wire k ∨ k ∈ s.unsent
  ordered : ∀ link, Current s link → link.helloPending = false →
    Ordered since s.messages.numbers s.client link.wire

/-- The cursor has passed no message that the client does not know. -/
theorem Gapless.passed (h : Gapless o since s) {k : ℕ} (hk : k ∈ s.messages.numbers)
    (hsince : since < k) (hcursor : k ≤ s.client.cursor) : Seen s.client k := by
  rcases h.cursor with heq | hseen
  · omega
  · exact h.below _ hseen k hk hsince hcursor

theorem Quiet.seen {c c' : Connection} (h : Quiet c c') (n : ℕ) : Seen c' n ↔ Seen c n := by
  constructor
  · rintro ⟨f, hf, hn⟩
    rcases h.only f hf with hold | hquiet
    · exact ⟨f, hold, hn⟩
    · exact absurd hn (hquiet n)
  · rintro ⟨f, hf, hn⟩
    exact ⟨f, h.kept f hf, hn⟩

theorem Quiet.due {c c' : Connection} (h : Quiet c c') (wire : List ServerFrame) (n : ℕ) :
    Due c' wire n ↔ Due c wire n := or_congr (h.seen n) Iff.rfl

/-- A client that does something quiet keeps its link, unless it leaves it. -/
theorem Gapless.quiet (h : Gapless o since s) {c : Connection} (hquiet : Quiet s.client c)
    (hsound : Connection.Sound o since c) : Gapless o since { s with client := c } := by
  have hcurrent : ∀ link, Current { s with client := c } link → Current s link := by
    rintro link ⟨hlinked, hopen, sock, hws, hid⟩
    refine ⟨hlinked, hquiet.closed hopen, ?_⟩
    have hws' : c.ws = some sock := hws
    rcases hquiet.ws with hsame | hnone | ⟨-, hfresh⟩
    · exact ⟨sock, hsame ▸ hws', hid⟩
    · exact absurd (hnone.symm.trans hws') (Option.some_ne_none sock).symm
    · have hlt := h.linkId link hlinked
      obtain rfl : (⟨s.client.sockets, false, 0⟩ : Sock) = sock :=
        Option.some.inj (hfresh.symm.trans hws')
      exact absurd hid hlt.ne'
  constructor
  case sound => exact hsound
  case numbered => exact fun n hn => h.numbered n ((hquiet.seen n).1 hn)
  case wired => exact h.wired
  case unsent => exact h.unsent
  case cursor =>
    show c.cursor = since ∨ Seen c c.cursor
    rw [hquiet.cursor, hquiet.seen]
    exact h.cursor
  case below =>
    intro n hn k hk hsince hle
    exact (hquiet.seen k).2 (h.below n ((hquiet.seen n).1 hn) k hk hsince hle)
  case linkId => exact fun link hlink => (h.linkId link hlink).trans_le hquiet.sockets
  case sockId =>
    intro sock hws
    have hws' : c.ws = some sock := hws
    rcases hquiet.ws with hsame | hnone | ⟨hsockets, hfresh⟩
    · exact (h.sockId sock (hsame ▸ hws')).trans_le hquiet.sockets
    · exact absurd (hnone.symm.trans hws') (Option.some_ne_none sock).symm
    · obtain rfl : (⟨s.client.sockets, false, 0⟩ : Sock) = sock :=
        Option.some.inj (hfresh.symm.trans hws')
      show s.client.sockets < c.sockets
      omega
  case pending =>
    intro link hlink hpending
    obtain ⟨hwire, hhello⟩ := h.pending link (hcurrent link hlink) hpending
    exact ⟨hwire, fun cursor rev heq => hquiet.cursor ▸ hhello cursor rev heq⟩
  case answered => exact h.answered
  case all =>
    intro link hlink hpending k hk hsince
    exact (h.all link (hcurrent link hlink) hpending k hk hsince).imp_left (hquiet.due _ _).2
  case ordered =>
    intro link hlink hpending front f back hsplit n hn k hk hsince hlt
    exact (hquiet.due _ _).2
      (h.ordered link (hcurrent link hlink) hpending front f back hsplit n hn k hk hsince hlt)

theorem Gapless.ack (h : Gapless o since s) {seq : ℕ}
    (hhanded : ∃ frame ∈ s.client.queue.handed, frame.seq? = some seq) :
    Gapless o since { s with client := s.client.advance seq } := by
  obtain ⟨frame, hframe, hseq⟩ := hhanded
  have hseen : Seen s.client seq := ⟨frame, pushed_of_handed h.sound hframe, .inl hseq⟩
  constructor
  case sound => exact ⟨h.sound.books.advance seq, h.sound.closed⟩
  case numbered => exact h.numbered
  case wired => exact h.wired
  case unsent => exact h.unsent
  case cursor =>
    show max s.client.cursor seq = since ∨ Seen s.client (max s.client.cursor seq)
    rcases le_total seq s.client.cursor with hle | hle
    · rw [max_eq_left hle]
      exact h.cursor
    · rw [max_eq_right hle]
      exact .inr hseen
  case below => exact h.below
  case linkId => exact h.linkId
  case sockId => exact h.sockId
  case pending =>
    intro link hlink hpending
    obtain ⟨hwire, hhello⟩ := h.pending link ⟨hlink.1, hlink.2, hlink.3⟩ hpending
    exact ⟨hwire, fun cursor rev heq => (hhello cursor rev heq).trans (le_max_left _ _)⟩
  case answered => exact h.answered
  case all => exact fun link hlink => h.all link ⟨hlink.1, hlink.2, hlink.3⟩
  case ordered => exact fun link hlink => h.ordered link ⟨hlink.1, hlink.2, hlink.3⟩

theorem Gapless.unlink (h : Gapless o since s) : Gapless o since { s with link := none } := by
  have hnone : ∀ link, ({ s with link := none } : State).link ≠ some link :=
    fun link hlink => Option.some_ne_none link hlink.symm
  exact ⟨h.sound, h.numbered, fun link hlink => absurd hlink (hnone link), h.unsent, h.cursor,
    h.below, fun link hlink => absurd hlink (hnone link), h.sockId,
    fun link hlink => absurd hlink.linked (hnone link), fun link hlink => absurd hlink (hnone link),
    fun link hlink => absurd hlink.linked (hnone link),
    fun link hlink => absurd hlink.linked (hnone link)⟩

/-- A frame of two stretches is of the second or of the first. -/
theorem split_behind {l r front back : List ServerFrame} {f : ServerFrame}
    (hsplit : l ++ r = front ++ f :: back) :
    (∃ middle, front = l ++ middle ∧ r = middle ++ f :: back) ∨
      ∃ middle, l = front ++ f :: middle := by
  rcases List.append_eq_append_iff.1 hsplit with ⟨middle, hfront, hr⟩ | ⟨middle, hl, hr⟩
  · exact .inl ⟨middle, hfront, hr⟩
  · cases middle with
    | nil => exact .inl ⟨[], by rw [hl]; simp, hr.symm⟩
    | cons g middle =>
      obtain ⟨rfl, -⟩ := List.cons.inj hr
      exact .inr ⟨middle, hl⟩

/-- Frames behind those on the way. -/
theorem Gapless.send (h : Gapless o since s) {frames : List ServerFrame}
    (hnumbers : ∀ f ∈ frames, ∀ n, Carries f n → n ∈ s.messages.numbers)
    (hpending : ∀ link, Current s link → link.helloPending = true →
      ∀ f ∈ frames, ∀ n, ¬Carries f n)
    (hordered : ∀ link, Current s link → link.helloPending = false → ∀ front f back,
      frames = front ++ f :: back → ∀ n, Carries f n → ∀ k ∈ s.messages.numbers, since < k → k < n →
        Due s.client (link.wire ++ front) k) : Gapless o since (s.send frames) := by
  have hlink : ∀ link, (s.send frames).link = some link → ∃ old, s.link = some old ∧
      link = { old with wire := old.wire ++ frames } := by
    intro link hlink
    obtain ⟨old, hold, rfl⟩ := Option.map_eq_some_iff.1 hlink
    exact ⟨old, hold, rfl⟩
  have hcurrent : ∀ link, Current (s.send frames) link → ∃ old, Current s old ∧
      link = { old with wire := old.wire ++ frames } := by
    rintro link ⟨hlinked, hopen, hsock⟩
    obtain ⟨old, hold, rfl⟩ := hlink link hlinked
    exact ⟨old, ⟨hold, hopen, hsock⟩, rfl⟩
  constructor
  case sound => exact h.sound
  case numbered => exact h.numbered
  case wired =>
    intro link hlinked f hf n hn
    obtain ⟨old, hold, rfl⟩ := hlink link hlinked
    rcases List.mem_append.1 hf with hin | hnew
    · exact h.wired old hold f hin n hn
    · exact hnumbers f hnew n hn
  case unsent => exact h.unsent
  case cursor => exact h.cursor
  case below => exact h.below
  case linkId =>
    intro link hlinked
    obtain ⟨old, hold, rfl⟩ := hlink link hlinked
    exact h.linkId old hold
  case sockId => exact h.sockId
  case pending =>
    intro link hlinked hwaits
    obtain ⟨old, hold, rfl⟩ := hcurrent link hlinked
    obtain ⟨hwire, hhello⟩ := h.pending old hold hwaits
    refine ⟨fun f hf => ?_, hhello⟩
    rcases List.mem_append.1 hf with hin | hnew
    · exact hwire f hin
    · exact hpending old hold hwaits f hnew
  case answered =>
    intro link hlinked hlive
    obtain ⟨old, hold, rfl⟩ := hlink link hlinked
    exact h.answered old hold hlive
  case all =>
    intro link hlinked hlive k hk hsince
    obtain ⟨old, hold, rfl⟩ := hcurrent link hlinked
    refine (h.all old hold hlive k hk hsince).imp_left (Or.imp_right ?_)
    exact fun ⟨f, hf, hn⟩ => ⟨f, List.mem_append_left _ hf, hn⟩
  case ordered =>
    intro link hlinked hlive front f back hsplit n hn k hk hsince hlt
    obtain ⟨old, hold, rfl⟩ := hcurrent link hlinked
    rcases split_behind hsplit with ⟨middle, rfl, hframes⟩ | ⟨middle, hwire⟩
    · exact hordered old hold hlive middle f back hframes n hn k hk hsince hlt
    · exact h.ordered old hold hlive front f middle hwire n hn k hk hsince hlt

theorem Gapless.accept (h : Gapless o since s) : Gapless o since (s.accept o) := by
  unfold State.accept
  split
  · rename_i sock hws
    split
    · exact h
    · rename_i hfresh
      have hopened : s.client.step o (.opened sock.id) = { s.client with
          ws := some ⟨sock.id, true, s.client.cursor⟩, inboundWatchdogTimer := some sock.id } := by
        show s.client.onopen sock.id = _
        rw [Connection.onopen, hws]
        refine if_neg fun hstale => ?_
        exact hstale.elim (fun hclosed => hfresh (.inl hclosed)) fun hne => hne rfl
      constructor
      case sound => exact h.sound.step (.opened sock.id)
      case numbered => rw [hopened]; exact h.numbered
      case wired =>
        intro link hlink f hf
        obtain rfl := Option.some.inj hlink
        exact absurd hf List.not_mem_nil
      case unsent => exact h.unsent
      case cursor => rw [hopened]; exact h.cursor
      case below => rw [hopened]; exact h.below
      case linkId =>
        intro link hlink
        obtain rfl := Option.some.inj hlink
        rw [hopened]
        exact h.sockId sock hws
      case sockId =>
        rw [hopened]
        intro other hother
        obtain rfl := Option.some.inj hother
        exact h.sockId sock hws
      case pending =>
        intro link hlink _
        obtain rfl := Option.some.inj hlink.linked
        refine ⟨fun f hf => absurd hf List.not_mem_nil, fun cursor rev heq => ?_⟩
        obtain ⟨rfl, -⟩ := Prod.mk.inj (Option.some.inj heq)
        rw [hopened]
      case answered =>
        intro link hlink hlive
        obtain rfl := Option.some.inj hlink
        exact absurd hlive.symm Bool.false_ne_true
      case all =>
        intro link hlink hlive
        obtain rfl := Option.some.inj hlink.linked
        exact absurd hlive.symm Bool.false_ne_true
      case ordered =>
        intro link hlink hlive
        obtain rfl := Option.some.inj hlink.linked
        exact absurd hlive.symm Bool.false_ne_true
  · exact h

theorem mem_numbers {t : Messages} {n : ℕ} : n ∈ t.numbers ↔ ∃ m ∈ t.rows, m.seq = n :=
  List.mem_map

theorem carries_message {m : Message} {n : ℕ} (h : Carries (.message m) n) : n = m.seq := by
  rcases h with hseq | hsent
  · exact (Option.some.inj hseq).symm
  · exact absurd hsent (by simp)

/-- The answer to a hello: what it missed is on its way, in front of everything that follows. -/
theorem Gapless.hello (h : Gapless o since s) : Gapless o since s.hello := by
  unfold State.hello
  split
  · rename_i sock cursor rev helloPending wire hlinked
    have hwaits : helloPending = true := by
      cases hlive : helloPending with
      | true => rfl
      | false => exact absurd (h.answered _ hlinked hlive).symm (Option.some_ne_none _).symm
    have hold : ∀ link, Current { s with link := some ⟨sock, none, false,
        wire ++ (s.messages.backfill cursor rev).map ServerFrame.message⟩ } link →
        Current s ⟨sock, some (cursor, rev), helloPending, wire⟩ := by
      rintro link ⟨hlink, hopen, hsock⟩
      obtain rfl := Option.some.inj hlink
      exact ⟨hlinked, hopen, hsock⟩
    have hbackfill := s.messages.backfill_eq cursor rev
    have hrow : ∀ m ∈ s.messages.backfill cursor rev, m.seq ∈ s.messages.numbers := by
      intro m hm
      rw [hbackfill] at hm
      exact mem_numbers.2 ⟨m, List.mem_of_mem_filter hm, rfl⟩
    constructor
    case sound => exact h.sound
    case numbered => exact h.numbered
    case wired =>
      intro link hlink f hf n hn
      obtain rfl := Option.some.inj hlink
      rcases List.mem_append.1 hf with hin | hnew
      · exact h.wired _ hlinked f hin n hn
      · obtain ⟨m, hm, rfl⟩ := List.mem_map.1 hnew
        rw [carries_message hn]
        exact hrow m hm
    case unsent => exact h.unsent
    case cursor => exact h.cursor
    case below => exact h.below
    case linkId =>
      intro link hlink
      obtain rfl := Option.some.inj hlink
      exact h.linkId ⟨sock, some (cursor, rev), helloPending, wire⟩ hlinked
    case sockId => exact h.sockId
    case pending =>
      intro link hlink hpending
      obtain rfl := Option.some.inj hlink.linked
      exact absurd hpending Bool.false_ne_true
    case answered =>
      intro link hlink _
      obtain rfl := Option.some.inj hlink
      rfl
    case all =>
      intro link hlink _ k hk hsince
      have hpending := h.pending _ (hold link hlink) hwaits
      obtain rfl := Option.some.inj hlink.linked
      left
      by_cases hpassed : k ≤ s.client.cursor
      · exact .inl (h.passed hk hsince hpassed)
      · obtain ⟨m, hm, rfl⟩ := mem_numbers.1 hk
        have hle := hpending.2 cursor rev rfl
        refine .inr ⟨.message m, List.mem_append_right _ (List.mem_map_of_mem ?_), .inl rfl⟩
        rw [hbackfill]
        refine List.mem_filter.2 ⟨hm, ?_⟩
        have hlt : cursor < m.seq := by omega
        simp [Messages.missed, hlt]
    case ordered =>
      intro link hlink _ front f back hsplit n hn k hk hsince hlt
      have hpending := h.pending _ (hold link hlink) hwaits
      obtain rfl := Option.some.inj hlink.linked
      by_cases hpassed : k ≤ s.client.cursor
      · exact .inl (h.passed hk hsince hpassed)
      · rcases split_behind hsplit with ⟨middle, rfl, hback⟩ | ⟨middle, hwire⟩
        · obtain ⟨missed, later, hmissed, rfl, hlater⟩ := List.map_eq_append_iff.1 hback
          obtain ⟨m, rest, rfl, rfl, rfl⟩ := List.map_eq_cons_iff.1 hlater
          obtain rfl := carries_message hn
          obtain ⟨row, hrow, rfl⟩ := mem_numbers.1 hk
          have hle := hpending.2 cursor rev rfl
          have hmem : row ∈ s.messages.backfill cursor rev := by
            rw [hbackfill]
            refine List.mem_filter.2 ⟨hrow, ?_⟩
            have hcursor : cursor < row.seq := by omega
            simp [Messages.missed, hcursor]
          have hascending : (missed ++ m :: rest).Pairwise fun a b => a.seq < b.seq := by
            rw [← hmissed, hbackfill]
            exact s.messages.ascending.sublist List.filter_sublist
          refine .inr ⟨.message row, List.mem_append_right _ (List.mem_map_of_mem ?_), .inl rfl⟩
          rw [hmissed] at hmem
          rcases List.mem_append.1 hmem with hfront | hafter
          · exact hfront
          · exfalso
            rcases List.mem_cons.1 hafter with rfl | hrest
            · exact lt_irrefl _ hlt
            · have hgt := (List.pairwise_cons.1 (List.pairwise_append.1 hascending).2.1).1 row hrest
              omega
        · exact absurd hn (hpending.1 f (by rw [hwire]; simp) n)
  · exact h

theorem Gapless.sendLive (h : Gapless o since s) {frames : List ServerFrame}
    (hnumbers : ∀ f ∈ frames, ∀ n, Carries f n → n ∈ s.messages.numbers)
    (hordered : ∀ link, Current s link → link.helloPending = false → ∀ front f back,
      frames = front ++ f :: back → ∀ n, Carries f n → ∀ k ∈ s.messages.numbers, since < k → k < n →
        Due s.client (link.wire ++ front) k) : Gapless o since (s.sendLive frames) := by
  unfold State.sendLive
  split
  · rename_i link hlinked
    split
    · exact h
    · rename_i hlive
      refine h.send hnumbers (fun other hother hwaits => ?_) hordered
      obtain rfl := Option.some.inj (hlinked.symm.trans hother.linked)
      exact absurd hwaits hlive
  · exact h

/-- The tables change: every number stays, a new one is above the old ones, and what is not known or
on its way still waits. -/
theorem Gapless.tables (h : Gapless o since s) {t : Messages} {unsent : List ℕ}
    (hkept : ∀ k ∈ s.messages.numbers, k ∈ t.numbers)
    (hnew : ∀ k ∈ t.numbers, k ∈ s.messages.numbers ∨ ∀ n ∈ s.messages.numbers, n < k)
    (hunsent : ∀ k ∈ unsent, k ∈ t.numbers)
    (hall : ∀ link, Current s link → link.helloPending = false → ∀ k ∈ t.numbers, since < k →
      Due s.client link.wire k ∨ k ∈ unsent) :
    Gapless o since { s with messages := t, unsent := unsent } := by
  constructor
  case sound => exact h.sound
  case numbered => exact fun n hn => hkept n (h.numbered n hn)
  case wired => exact fun link hlink f hf n hn => hkept n (h.wired link hlink f hf n hn)
  case unsent => exact hunsent
  case cursor => exact h.cursor
  case below =>
    intro n hn k hk hsince hle
    rcases hnew k hk with hold | hlast
    · exact h.below n hn k hold hsince hle
    · have hlt := hlast n (h.numbered n hn)
      omega
  case linkId => exact h.linkId
  case sockId => exact h.sockId
  case pending => exact fun link hlink => h.pending link ⟨hlink.1, hlink.2, hlink.3⟩
  case answered => exact h.answered
  case all => exact fun link hlink => hall link ⟨hlink.1, hlink.2, hlink.3⟩
  case ordered =>
    intro link hlink hlive front f back hsplit n hn k hk hsince hlt
    rcases hnew k hk with hold | hlast
    · exact h.ordered link ⟨hlink.1, hlink.2, hlink.3⟩ hlive front f back hsplit n hn k hold hsince
        hlt
    · have hwire : f ∈ link.wire := hsplit ▸ List.mem_append_right _ List.mem_cons_self
      have hbefore := hlast n (h.wired link hlink.linked f hwire n hn)
      omega

/-- The broadcast of a message is done once it is on its way, or known. -/
theorem Gapless.settle (h : Gapless o since s) {n : ℕ}
    (hdue : ∀ link, Current s link → link.helloPending = false → Due s.client link.wire n) :
    Gapless o since { s with unsent := s.unsent.filter (· ≠ n) } := by
  refine h.tables (fun _ hk => hk) (fun _ hk => .inl hk)
    (fun k hk => h.unsent k (List.mem_of_mem_filter hk)) fun link hlink hlive k hk hsince => ?_
  rcases h.all link hlink hlive k hk hsince with hknown | hwaits
  · exact .inl hknown
  · by_cases heq : k = n
    · exact .inl (heq ▸ hdue link hlink hlive)
    · exact .inr (List.mem_filter.2 ⟨hwaits, by simpa using heq⟩)

theorem Gapless.congr_messages (h : Gapless o since s) {t : Messages}
    (hnumbers : t.numbers = s.messages.numbers) : Gapless o since { s with messages := t } :=
  h.tables (fun _ hk => hnumbers ▸ hk) (fun _ hk => .inl (hnumbers ▸ hk))
    (fun k hk => hnumbers ▸ h.unsent k hk)
    fun link hlink hlive k hk => h.all link hlink hlive k (hnumbers ▸ hk)

theorem Messages.revise_numbers (t : Messages) (seq revSeq : ℕ) (fingerprint : String) :
    (t.revise seq revSeq fingerprint).numbers = t.numbers := by
  unfold Messages.numbers Messages.revise
  rw [List.map_map]
  exact List.map_congr_left fun m _ => Messages.revisedRow_seq seq revSeq fingerprint m

/-- A new message is the last, and it waits for its broadcast. -/
theorem Gapless.store (h : Gapless o since s) {m : Message}
    (hnew : 0 < m.seq ∧ ∀ row ∈ s.messages.rows, row.seq < m.seq) : Gapless o since
      { s with messages := s.messages.insert m, unsent := s.unsent ++ [m.seq] } := by
  have hnumbers : (s.messages.insert m).numbers = s.messages.numbers ++ [m.seq] := by
    rw [Messages.insert, dif_pos hnew]
    exact List.map_append
  have hmem : ∀ k, k ∈ (s.messages.insert m).numbers ↔ k ∈ s.messages.numbers ∨ k = m.seq := by
    intro k
    rw [hnumbers, List.mem_append, List.mem_singleton]
  have hlast : ∀ k ∈ s.messages.numbers, k < m.seq := by
    intro k hk
    obtain ⟨row, hrow, rfl⟩ := mem_numbers.1 hk
    exact hnew.2 row hrow
  refine h.tables (fun k hk => (hmem k).2 (.inl hk)) (fun k hk => ?_) (fun k hk => (hmem k).2 ?_)
    fun link hlink hlive k hk hsince => ?_
  · rcases (hmem k).1 hk with hold | rfl
    · exact .inl hold
    · exact .inr hlast
  · exact (List.mem_append.1 hk).imp (h.unsent k) List.mem_singleton.1
  · rcases (hmem k).1 hk with hold | rfl
    · exact (h.all link hlink hlive k hold hsince).imp_right (List.mem_append_left _)
    · exact .inr (List.mem_append_right _ (List.mem_singleton_self _))

theorem sendLive_unsent (s : State) (unsent : List ℕ) (frames : List ServerFrame) :
    ({ s with unsent := unsent } : State).sendLive frames =
      { s.sendLive frames with unsent := unsent } := by
  obtain ⟨client, messages, old, link⟩ := s
  unfold State.sendLive
  cases link with
  | none => rfl
  | some link =>
    dsimp only
    split <;> rfl

theorem sendLive_live {link : Link} {frames : List ServerFrame}
    (hlink : Current (s.sendLive frames) link) (hlive : link.helloPending = false) :
    ∀ f ∈ frames, f ∈ link.wire := by
  have hlinked := hlink.linked
  unfold State.sendLive at hlinked
  split at hlinked
  · rename_i old hold
    split at hlinked
    · rename_i hwaits
      obtain rfl := Option.some.inj (hold.symm.trans hlinked)
      exact absurd hwaits (by simp [hlive])
    · rw [State.send, hold] at hlinked
      obtain rfl := Option.some.inj hlinked
      exact fun f hf => List.mem_append_right _ hf
  · rename_i hnone
    exact absurd (hnone.symm.trans hlinked) (Option.some_ne_none link).symm

/-- The first of the messages that wait is broadcast. -/
theorem Gapless.broadcast (h : Gapless o since s) {m : Message} (own : Bool)
    (hready : m.seq ∈ s.unsent ∧ ∀ seq ∈ s.unsent, m.seq ≤ seq) :
    Gapless o since (({ s with unsent := s.unsent.filter (· ≠ m.seq) } : State).sendLive
      ((if own then [.sent m.seq] else []) ++ [ServerFrame.message m])) := by
  have hframes : ∀ f ∈ (if own then [ServerFrame.sent m.seq] else []) ++ [ServerFrame.message m],
      ∀ n, Carries f n → n = m.seq := by
    intro f hf n hn
    rcases List.mem_append.1 hf with hsent | hmessage
    · cases own with
      | false => exact absurd hsent List.not_mem_nil
      | true =>
        obtain rfl := List.mem_singleton.1 hsent
        rcases hn with hseq | hsame
        · exact absurd hseq.symm (Option.some_ne_none n)
        · exact (ServerFrame.sent.inj hsame).symm
    · obtain rfl := List.mem_singleton.1 hmessage
      exact carries_message hn
  have hsent : Gapless o since
      (s.sendLive ((if own then [.sent m.seq] else []) ++ [ServerFrame.message m])) := by
    refine h.sendLive (fun f hf n hn => ?_) fun link hlink hlive front f back hsplit n hn k hk
      hsince hlt => ?_
    · rw [hframes f hf n hn]
      exact h.unsent _ hready.1
    · have hnumber := hframes f (by rw [hsplit]; simp) n hn
      rcases h.all link hlink hlive k hk hsince with hdue | hwaits
      · exact hdue.imp_right fun ⟨g, hg, hgk⟩ => ⟨g, List.mem_append_left _ hg, hgk⟩
      · have hle := hready.2 k hwaits
        omega
  rw [sendLive_unsent]
  have hunsent :
      (s.sendLive ((if own then [.sent m.seq] else []) ++ [ServerFrame.message m])).unsent =
        s.unsent := by
    unfold State.sendLive
    split
    · split <;> rfl
    · rfl
  rw [← hunsent]
  refine hsent.settle fun link hlink hlive => .inr ⟨.message m, ?_, .inl rfl⟩
  exact sendLive_live hlink hlive _ (List.mem_append_right _ (List.mem_singleton_self _))

/-- A frame that tells of no message may stand anywhere. -/
theorem quiet_frames {frame : ServerFrame} (hframe : ∀ n, ¬Carries frame n) :
    ∀ f ∈ [frame], ∀ n, ¬Carries f n := fun _ hf => List.mem_singleton.1 hf ▸ hframe

theorem Gapless.other (h : Gapless o since s) {frame : ServerFrame}
    (hframe : ∀ n, ¬Carries frame n) : Gapless o since (s.send [frame]) := by
  have hquiet := quiet_frames hframe
  refine h.send (fun f hf n hn => absurd hn (hquiet f hf n)) (fun _ _ _ => hquiet) ?_
  intro link _ _ front f back hsplit n hn
  exact absurd hn (hquiet f (by rw [hsplit]; simp) n)

theorem Gapless.revise (h : Gapless o since s) (seq revSeq : ℕ) (fingerprint : String) :
    Gapless o since (({ s with messages := s.messages.revise seq revSeq fingerprint } :
      State).sendLive [.messageUpdate (some revSeq)]) := by
  have hquiet := quiet_frames (not_carries (f := .messageUpdate (some revSeq)) rfl fun n => by simp)
  refine (h.congr_messages (s.messages.revise_numbers seq revSeq fingerprint)).sendLive
    (fun f hf n hn => absurd hn (hquiet f hf n)) ?_
  intro link _ _ front f back hsplit n hn
  exact absurd hn (hquiet f (by rw [hsplit]; simp) n)

theorem Gapless.drop (h : Gapless o since s) (code : ℕ) (reason : String) :
    Gapless o since (s.drop o code reason) := by
  unfold State.drop
  split
  · exact (h.quiet (quiet_onclose s.client _ code reason)
      (h.sound.step (.socketClosed _ code reason))).unlink
  · exact h

/-- A frame for a socket that the client has left is lost. -/
theorem Gapless.lose (h : Gapless o since s) {old link : Link} (hold : s.link = some old)
    (hstale : ∀ link, link.sock = old.sock → ¬Current { s with link := some link } link)
    (hsock : link.sock = old.sock) (hwire : ∀ f ∈ link.wire, f ∈ old.wire)
    (hanswered : link.helloPending = false → link.hello = none) :
    Gapless o since { s with link := some link } := by
  have hgone : ∀ other, ¬Current { s with link := some link } other := by
    intro other hother
    obtain rfl := Option.some.inj hother.linked
    exact hstale _ hsock hother
  constructor
  case sound => exact h.sound
  case numbered => exact h.numbered
  case wired =>
    intro other hother f hf
    obtain rfl := Option.some.inj hother
    exact h.wired old hold f (hwire f hf)
  case unsent => exact h.unsent
  case cursor => exact h.cursor
  case below => exact h.below
  case linkId =>
    intro other hother
    obtain rfl := Option.some.inj hother
    exact hsock ▸ h.linkId old hold
  case sockId => exact h.sockId
  case pending => exact fun other hother => absurd hother (hgone other)
  case answered =>
    intro other hother
    obtain rfl := Option.some.inj hother
    exact hanswered
  case all => exact fun other hother => absurd hother (hgone other)
  case ordered => exact fun other hother => absurd hother (hgone other)

theorem Took.seen {c c' : Connection} {frame : ServerFrame} (h : Took c frame c') {n : ℕ}
    (hn : Seen c n) : Seen c' n := hn.imp fun _ hf => ⟨h.kept _ hf.1, hf.2⟩

theorem Took.new {c c' : Connection} {frame : ServerFrame} (h : Took c frame c') {n : ℕ}
    (hn : Seen c' n) : Seen c n ∨ Carries frame n := by
  obtain ⟨f, hf, hcarries⟩ := hn
  rcases h.only f hf with hold | rfl
  · exact .inl ⟨f, hold, hcarries⟩
  · exact .inr hcarries

/-- The next frame on the way arrives. -/
theorem Gapless.take (h : Gapless o since s) {link : Link} {frame : ServerFrame}
    {wire : List ServerFrame} (hlink : Current s link) (hwire : link.wire = frame :: wire)
    {c : Connection} (htook : Took s.client frame c) (hws : c.ws = s.client.ws)
    (hsockets : c.sockets = s.client.sockets) (hsound : Connection.Sound o since c) :
    Gapless o since { s with client := c, link := some { link with wire := wire } } := by
  have hbefore : ∀ n, Carries frame n → ∀ k ∈ s.messages.numbers, since < k → k < n →
      Seen s.client k := by
    intro n hn k hk hsince hlt
    cases hwaits : link.helloPending with
    | true => exact absurd hn ((h.pending link hlink hwaits).1 frame (by rw [hwire]; simp) n)
    | false =>
      rcases h.ordered link hlink hwaits [] frame wire hwire n hn k hk hsince hlt with
        hseen | ⟨f, hf, -⟩
      · exact hseen
      · exact absurd hf List.not_mem_nil
  -- the frame itself is known from now on, or it was before
  have hdue : c.closed = false → ∀ front, ∀ k ∈ s.messages.numbers, since < k →
      Due s.client (frame :: front) k → Due c front k := by
    rintro hopen front k hk hsince (hseen | ⟨f, hf, hcarries⟩)
    · exact .inl (htook.seen hseen)
    · rcases List.mem_cons.1 hf with rfl | hfront
      · rcases htook.took hopen k hcarries with hle | hseen
        · exact .inl (htook.seen (h.passed hk hsince hle))
        · exact .inl hseen
      · exact .inr ⟨f, hfront, hcarries⟩
  have hmem : frame ∈ link.wire := by rw [hwire]; exact List.mem_cons_self
  constructor
  case sound => exact hsound
  case numbered =>
    intro n hn
    rcases htook.new hn with hold | hcarries
    · exact h.numbered n hold
    · exact h.wired link hlink.linked frame hmem n hcarries
  case wired =>
    intro other hother f hf
    obtain rfl := Option.some.inj hother
    exact h.wired link hlink.linked f (by rw [hwire]; exact List.mem_cons_of_mem _ hf)
  case unsent => exact h.unsent
  case cursor =>
    rcases htook.cursor with heq | hseen
    · show c.cursor = since ∨ Seen c c.cursor
      rw [heq]
      exact h.cursor.imp_right htook.seen
    · exact .inr hseen
  case below =>
    intro n hn k hk hsince hle
    rcases htook.new hn with hold | hcarries
    · exact htook.seen (h.below n hold k hk hsince hle)
    · rcases hle.eq_or_lt with rfl | hlt
      · exact hn
      · exact htook.seen (hbefore n hcarries k hk hsince hlt)
  case linkId =>
    intro other hother
    obtain rfl := Option.some.inj hother
    show link.sock < c.sockets
    rw [hsockets]
    exact h.linkId link hlink.linked
  case sockId =>
    intro sock hsock
    show sock.id < c.sockets
    rw [hsockets]
    exact h.sockId sock (hws ▸ hsock)
  case pending =>
    intro other hother hwaits
    obtain rfl := Option.some.inj hother.linked
    obtain ⟨hquiet, hhello⟩ := h.pending link hlink hwaits
    refine ⟨fun f hf => hquiet f ?_, fun cursor rev heq => (hhello cursor rev heq).trans htook.mono⟩
    rw [hwire]
    exact List.mem_cons_of_mem _ hf
  case answered =>
    intro other hother hlive
    obtain rfl := Option.some.inj hother
    exact h.answered link hlink.linked hlive
  case all =>
    intro other hother hlive k hk hsince
    obtain rfl := Option.some.inj hother.linked
    refine (h.all link hlink hlive k hk hsince).imp_left fun hknown => ?_
    exact hdue hother.opened wire k hk hsince (hwire ▸ hknown)
  case ordered =>
    intro other hother hlive front f back hsplit n hn k hk hsince hlt
    obtain rfl := Option.some.inj hother.linked
    refine hdue hother.opened front k hk hsince ?_
    refine h.ordered link hlink hlive (frame :: front) f back ?_ n hn k hk hsince hlt
    rw [hwire, List.cons_append]
    exact congrArg _ hsplit

/-- A message of the socket in use is taken; one of another socket is not looked at. -/
theorem arrived (hsound : Connection.Sound o since s.client) {link : Link} (hlink : Current s link)
    (frame : ServerFrame) :
    Took s.client frame (s.client.step o (.message link.sock [frame])) ∧
      (s.client.step o (.message link.sock [frame])).ws = s.client.ws ∧
      (s.client.step o (.message link.sock [frame])).sockets = s.client.sockets := by
  obtain ⟨-, hopen, sock, hws, hid⟩ := hlink
  have hstep : s.client.step o (.message link.sock [frame]) =
      ({ s.client with inboundWatchdogTimer := some link.sock } : Connection).onFrame o
        sock.helloSince frame := by
    show s.client.onmessage o link.sock [frame] = _
    simp [Connection.onmessage, hws, hopen, hid]
  rw [hstep]
  have hsame := Connection.sameLink_onFrame (o := o)
    { s.client with inboundWatchdogTimer := some link.sock } sock.helloSince frame
  obtain ⟨hkept, honly, hcursor, hmono, htook⟩ := Took.onFrame
    (s := { s.client with inboundWatchdogTimer := some link.sock })
    (hsound.congr rfl rfl rfl rfl rfl rfl) hopen sock.helloSince frame
  exact ⟨⟨hkept, honly, hcursor, hmono, htook⟩, hsame.ws, hsame.sockets⟩

theorem ignored {link : Link} (hlinked : s.link = some link) (hlink : ¬Current s link)
    (frame : ServerFrame) : s.client.step o (.message link.sock [frame]) = s.client := by
  show s.client.onmessage o link.sock [frame] = _
  unfold Connection.onmessage
  split
  · rename_i sock hws
    refine if_pos ?_
    by_contra hused
    rw [not_or, not_not] at hused
    exact hlink ⟨hlinked, by simpa using hused.1, sock, hws, hused.2⟩
  · rfl

theorem Gapless.arrive (h : Gapless o since s) : Gapless o since (s.arrive o) := by
  unfold State.arrive
  split
  · rename_i sock hello helloPending frame wire hlinked
    by_cases hlink : Current s ⟨sock, hello, helloPending, frame :: wire⟩
    · obtain ⟨htook, hws, hsockets⟩ := arrived h.sound hlink frame
      exact h.take hlink rfl htook hws hsockets (h.sound.step (.message sock [frame]))
    · have hsame := ignored (o := o) hlinked hlink frame
      dsimp only at hsame
      rw [hsame]
      refine h.lose hlinked ?_ rfl (fun f hf => List.mem_cons_of_mem _ hf)
        (h.answered ⟨sock, hello, helloPending, frame :: wire⟩ hlinked)
      rintro link hsock ⟨-, hopen, current, hws, hid⟩
      exact hlink ⟨hlinked, hopen, current, hws, hid.trans hsock⟩
  · exact h

theorem Gapless.next (h : Gapless o since s) {event : Event} (hready : s.Ready event) :
    Gapless o since (s.next o event) := by
  cases event with
  | client event =>
    by_cases hack : ∃ seq, event = .ack seq
    · obtain ⟨seq, rfl⟩ := hack
      exact h.ack hready
    · exact h.quiet (quiet_local s.client event fun seq heq => hack ⟨seq, heq⟩)
        (h.sound.step event.event)
  | accept => exact h.accept
  | hello => exact h.hello
  | store m =>
    show Gapless o since (if _ then _ else _)
    split
    · rename_i hnew
      exact h.store hnew
    · exact h
  | broadcast m own => exact h.broadcast own hready
  | revise seq revSeq fingerprint => exact h.revise seq revSeq fingerprint
  | other frame hframe hsent => exact h.other (not_carries hframe hsent)
  | arrive => exact h.arrive
  | drop code reason => exact h.drop code reason

theorem Gapless.start (o : ConnectOptions) (since sinceRev : ℕ) (t : Messages) :
    Gapless o since (State.start since sinceRev t) := by
  have hunseen : ∀ n, ¬Seen (Connection.connect since sinceRev) n :=
    fun n ⟨f, hf, _⟩ => List.not_mem_nil hf
  have hunlinked : ∀ link, (State.start since sinceRev t).link ≠ some link :=
    fun link hlink => Option.some_ne_none link hlink.symm
  constructor
  case sound => exact Connection.sound_run o since sinceRev []
  case numbered => exact fun n hn => absurd hn (hunseen n)
  case wired => exact fun link hlink => absurd hlink (hunlinked link)
  case unsent => exact fun n hn => absurd hn List.not_mem_nil
  case cursor => exact .inl rfl
  case below => exact fun n hn => absurd hn (hunseen n)
  case linkId => exact fun link hlink => absurd hlink (hunlinked link)
  case sockId =>
    intro sock hsock
    obtain rfl := Option.some.inj hsock
    exact Nat.zero_lt_one
  case pending => exact fun link hlink => absurd hlink.linked (hunlinked link)
  case answered => exact fun link hlink => absurd hlink (hunlinked link)
  case all => exact fun link hlink => absurd hlink.linked (hunlinked link)
  case ordered => exact fun link hlink => absurd hlink.linked (hunlinked link)

theorem Gapless.run (h : Gapless o since s) (events : List Event) (horderly : s.Orderly o events) :
    Gapless o since (s.run o events) := by
  induction events generalizing s with
  | nil => exact h
  | cons event events ih => exact ih (h.next horderly.1) horderly.2

def noMessages : Messages := ⟨[], .nil, fun _ hm => absurd hm List.not_mem_nil⟩

/-- The connection drops while the second message is on its way, and comes back. -/
def lostOnTheWay : List Event :=
  [.accept, .hello, .store ⟨1, none, none⟩, .broadcast ⟨1, none, none⟩ false, .arrive,
    .store ⟨2, none, none⟩, .broadcast ⟨2, none, none⟩ false, .drop 1006 "",
    .store ⟨3, none, none⟩, .broadcast ⟨3, none, none⟩ false, .client .next, .client (.ack 1),
    .client (.reconnect false), .accept, .hello, .arrive, .arrive]

/-- Without the order of the broadcasts the cursor passes a message that the client is never given:
the second is broadcast first, and the backfill starts behind it. -/
example :
    let s := (State.start 0 0 noMessages).run ⟨4096, 1000, 30000⟩ [.accept, .hello,
      .store ⟨1, none, none⟩, .store ⟨2, none, none⟩, .broadcast ⟨2, none, none⟩ false, .arrive,
      .client .next, .client (.ack 2), .broadcast ⟨1, none, none⟩ false, .arrive,
      .drop 1006 "", .client (.reconnect false), .accept, .hello]
    s.client.queue.pushed = [.message ⟨2, none, none⟩] ∧ s.client.cursor = 2 ∧ s.unsent = [] ∧
      s.messages.numbers = [1, 2] ∧ s.link.map Link.wire = some [] := by
  decide

end System

end Handoff

end Ws
end AgentParty
