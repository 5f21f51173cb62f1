import Mathlib.Data.List.Infix
import Mathlib.Data.List.Flatten

/-! Incremental framing. A splitter looks at the front of a buffer and says that more input is
needed, that the input cannot be framed, or which frame stands there and what follows it; input that
arrives later changes no such answer. A reader keeps what is not framed yet, adds every chunk to it
and hands the frames to its consumer, until the consumer is stopped. What the consumer sees depends
on the input alone, not on how the input was cut into chunks, and encoded frames come out as they
went in. -/

namespace Framing

variable {β α σ ο ε : Type*}

inductive Scan (β α : Type*)
  | more
  | bad
  | frame (a : α) (rest : List β)

/-- The answer for the same front with `tail` behind it. -/
def Scan.behind (tail : List β) : Scan β α → Scan β α
  | .more => .more
  | .bad => .bad
  | .frame a rest => .frame a (rest ++ tail)

structure Splitter (β α : Type*) where
  scan : List β → Scan β α
  empty : scan [] = .more
  shorter : ∀ buf a rest, scan buf = .frame a rest → rest.length < buf.length
  stable : ∀ buf tail, scan buf ≠ .more → scan (buf ++ tail) = (scan buf).behind tail

/-- What is done with a frame: the new state, and whether the loop goes on. A stopped consumer is
fed no further chunk; `obs` is what can still be seen of it. -/
structure Consumer (α σ ο : Type*) where
  step : σ → α → σ × Bool
  bad : σ → σ
  stopped : σ → Bool
  obs : σ → ο

structure Consumer.Lawful (S : Splitter β α) (C : Consumer α σ ο) : Prop where
  bad_stopped : ∀ buf s, S.scan buf = .bad → C.stopped (C.bad s) = true
  leaves_stopped : ∀ s a, (C.step s a).2 = false → C.stopped (C.step s a).1 = true
  stays_stopped : ∀ s a, C.stopped s = true → C.stopped (C.step s a).1 = true
  obs_step : ∀ s a, C.stopped s = true → C.obs (C.step s a).1 = C.obs s
  obs_bad : ∀ s, C.stopped s = true → C.obs (C.bad s) = C.obs s

structure Reader (β σ : Type*) where
  state : σ
  buffer : List β

variable (S : Splitter β α) (C : Consumer α σ ο)

/-- The loop over the frames at the front of the buffer. -/
def drain (s : σ) (buf : List β) : Reader β σ :=
  match _h : S.scan buf with
  | .more => ⟨s, buf⟩
  | .bad => ⟨C.bad s, buf⟩
  | .frame a rest => if (C.step s a).2 then drain (C.step s a).1 rest else ⟨(C.step s a).1, buf⟩
termination_by buf.length
decreasing_by exact S.shorter buf a rest _h

def feed (r : Reader β σ) (chunk : List β) : Reader β σ :=
  if C.stopped r.state then r else drain S C r.state (r.buffer ++ chunk)

/-- States that are equal, or are stopped and show the same. -/
def Alike (s s' : σ) : Prop :=
  C.stopped s = C.stopped s' ∧ C.obs s = C.obs s' ∧ (C.stopped s = false → s = s')

/-- Readers that no later chunk tells apart. -/
def Same (r r' : Reader β σ) : Prop :=
  Alike C r.state r'.state ∧ (C.stopped r.state = false → r.buffer = r'.buffer)

variable {S C}

section Loop

theorem drain_more {s : σ} {buf : List β} (h : S.scan buf = .more) :
    drain S C s buf = ⟨s, buf⟩ := by
  rw [drain]
  split <;> simp_all

theorem drain_bad {s : σ} {buf : List β} (h : S.scan buf = .bad) :
    drain S C s buf = ⟨C.bad s, buf⟩ := by
  rw [drain]
  split <;> simp_all

theorem drain_frame {s : σ} {buf rest : List β} {a : α} (h : S.scan buf = .frame a rest) :
    drain S C s buf =
      if (C.step s a).2 then drain S C (C.step s a).1 rest else ⟨(C.step s a).1, buf⟩ := by
  rw [drain]
  split <;> simp_all

theorem feed_stopped {r : Reader β σ} (h : C.stopped r.state = true) (chunk : List β) :
    feed S C r chunk = r := if_pos h

theorem feed_going {r : Reader β σ} (h : C.stopped r.state = false) (chunk : List β) :
    feed S C r chunk = drain S C r.state (r.buffer ++ chunk) := if_neg (by simp [h])

/-- An induction over the loop: each frame leaves a shorter buffer. -/
theorem loop_induction (S : Splitter β α) {motive : List β → Prop}
    (more : ∀ buf, S.scan buf = .more → motive buf) (bad : ∀ buf, S.scan buf = .bad → motive buf)
    (frame : ∀ buf a rest, S.scan buf = .frame a rest → motive rest → motive buf)
    (buf : List β) : motive buf := by
  induction hn : buf.length using Nat.strong_induction_on generalizing buf with
  | _ n ih =>
    cases hscan : S.scan buf with
    | more => exact more buf hscan
    | bad => exact bad buf hscan
    | frame a rest =>
      exact frame buf a rest hscan (ih rest.length (hn ▸ S.shorter buf a rest hscan) rest rfl)

end Loop

section Readers

theorem Alike.refl (s : σ) : Alike C s s := ⟨rfl, rfl, fun _ => rfl⟩

theorem Alike.symm {s s' : σ} (h : Alike C s s') : Alike C s' s :=
  ⟨h.1.symm, h.2.1.symm, fun hs => (h.2.2 (h.1.trans hs)).symm⟩

theorem Alike.trans {s s' s'' : σ} (h : Alike C s s') (h' : Alike C s' s'') : Alike C s s'' :=
  ⟨h.1.trans h'.1, h.2.1.trans h'.2.1,
    fun hs => (h.2.2 hs).trans (h'.2.2 (h.1.symm.trans hs))⟩

theorem Alike.of_stopped {s s' : σ} (h : C.stopped s = true) (h' : C.stopped s' = true)
    (hobs : C.obs s = C.obs s') : Alike C s s' :=
  ⟨h.trans h'.symm, hobs, fun hs => absurd (h.symm.trans hs) (by simp)⟩

theorem Same.refl (r : Reader β σ) : Same C r r := ⟨Alike.refl _, fun _ => rfl⟩

theorem Same.trans {r r' r'' : Reader β σ} (h : Same C r r') (h' : Same C r' r'') :
    Same C r r'' :=
  ⟨h.1.trans h'.1, fun hs => (h.2 hs).trans (h'.2 (h.1.1.symm.trans hs))⟩

theorem Same.of_stopped {r r' : Reader β σ} (h : C.stopped r.state = true)
    (h' : C.stopped r'.state = true) (hobs : C.obs r.state = C.obs r'.state) : Same C r r' :=
  ⟨.of_stopped h h' hobs, fun hs => absurd (h.symm.trans hs) (by simp)⟩

theorem Same.feed {r r' : Reader β σ} (h : Same C r r') (chunk : List β) :
    Same C (feed S C r chunk) (feed S C r' chunk) := by
  cases hs : C.stopped r.state with
  | true => rwa [feed_stopped hs, feed_stopped (h.1.1.symm.trans hs)]
  | false =>
    rw [feed_going hs, feed_going (h.1.1.symm.trans hs), h.1.2.2 hs, h.2 hs]
    exact Same.refl _

end Readers

section Chunks

/-- A loop over a stopped consumer shows nothing. -/
theorem drain_stopped (hC : C.Lawful S) {s : σ} (hs : C.stopped s = true) (buf : List β) :
    C.stopped (drain S C s buf).state = true ∧ C.obs (drain S C s buf).state = C.obs s := by
  induction buf using loop_induction S generalizing s with
  | more buf h => rw [drain_more h]; exact ⟨hs, rfl⟩
  | bad buf h => rw [drain_bad h]; exact ⟨hC.bad_stopped buf s h, hC.obs_bad s hs⟩
  | frame buf a rest h ih =>
    have hstep := hC.stays_stopped s a hs
    rw [drain_frame h]
    split
    · exact ⟨(ih hstep).1, (ih hstep).2.trans (hC.obs_step s a hs)⟩
    · exact ⟨hstep, hC.obs_step s a hs⟩

/-- What a loop has left in the buffer is the start of a frame, or its consumer is stopped. -/
theorem drain_waits (hC : C.Lawful S) (s : σ) (buf : List β)
    (h : C.stopped (drain S C s buf).state = false) : S.scan (drain S C s buf).buffer = .more := by
  induction buf using loop_induction S generalizing s with
  | more buf hscan => rw [drain_more hscan]; exact hscan
  | bad buf hscan =>
    rw [drain_bad hscan] at h
    exact absurd ((hC.bad_stopped buf s hscan).symm.trans h) (by simp)
  | frame buf a rest hscan ih =>
    rw [drain_frame hscan] at h ⊢
    by_cases hgo : (C.step s a).2 = true
    · rw [if_pos hgo] at h ⊢
      exact ih _ h
    · rw [if_neg hgo] at h
      exact absurd ((hC.leaves_stopped s a (by simpa using hgo)).symm.trans h) (by simp)

/-- The loop over a buffer and what arrives behind it is the loop over the buffer, and then the
chunk that arrives. -/
theorem drain_append (hC : C.Lawful S) (s : σ) (buf tail : List β) :
    Same C (feed S C (drain S C s buf) tail) (drain S C s (buf ++ tail)) := by
  cases hs : C.stopped s with
  | true =>
    obtain ⟨hbuf, hobs⟩ := drain_stopped (S := S) hC hs buf
    obtain ⟨hall, hobs'⟩ := drain_stopped (S := S) hC hs (buf ++ tail)
    rw [feed_stopped hbuf]
    exact .of_stopped hbuf hall (hobs.trans hobs'.symm)
  | false =>
    induction buf using loop_induction S generalizing s with
    | more buf h => rw [drain_more h, feed_going hs]; exact Same.refl _
    | bad buf h =>
      have hall : S.scan (buf ++ tail) = .bad := by rw [S.stable buf tail (by simp [h]), h]; rfl
      have hbad := hC.bad_stopped buf s h
      rw [drain_bad h, drain_bad hall, feed_stopped hbad]
      exact .of_stopped hbad hbad rfl
    | frame buf a rest h ih =>
      have hall : S.scan (buf ++ tail) = .frame a (rest ++ tail) := by
        rw [S.stable buf tail (by simp [h]), h]; rfl
      rw [drain_frame h, drain_frame hall]
      by_cases hgo : (C.step s a).2 = true
      · rw [if_pos hgo, if_pos hgo]
        cases hs' : C.stopped (C.step s a).1 with
        | false => exact ih _ hs'
        | true =>
          obtain ⟨hbuf, hobs⟩ := drain_stopped (S := S) hC hs' rest
          obtain ⟨hall, hobs'⟩ := drain_stopped (S := S) hC hs' (rest ++ tail)
          rw [feed_stopped hbuf]
          exact .of_stopped hbuf hall (hobs.trans hobs'.symm)
      · have hstopped := hC.leaves_stopped s a (by simpa using hgo)
        rw [if_neg hgo, if_neg hgo, feed_stopped hstopped]
        exact .of_stopped hstopped hstopped rfl

theorem feed_append (hC : C.Lawful S) (r : Reader β σ) (chunk chunk' : List β) :
    Same C (feed S C (feed S C r chunk) chunk') (feed S C r (chunk ++ chunk')) := by
  cases hs : C.stopped r.state with
  | true => rw [feed_stopped hs, feed_stopped hs, feed_stopped hs]; exact Same.refl r
  | false =>
    rw [feed_going hs, feed_going hs, ← List.append_assoc]
    exact drain_append hC _ _ _

/-- A reader between two chunks. -/
def Waiting (S : Splitter β α) (C : Consumer α σ ο) (r : Reader β σ) : Prop :=
  C.stopped r.state = false → S.scan r.buffer = .more

theorem Waiting.feed (hC : C.Lawful S) {r : Reader β σ} (h : Waiting S C r) (chunk : List β) :
    Waiting S C (feed S C r chunk) := by
  cases hs : C.stopped r.state with
  | true => rwa [feed_stopped hs]
  | false => rw [feed_going hs]; exact drain_waits hC _ _

theorem Waiting.feed_nil {r : Reader β σ} (h : Waiting S C r) : Framing.feed S C r [] = r := by
  cases hs : C.stopped r.state with
  | true => exact feed_stopped hs []
  | false => rw [feed_going hs, List.append_nil, drain_more (h hs)]

/-- Chunks are read as their concatenation. -/
theorem feed_chunks (hC : C.Lawful S) {r : Reader β σ} (hr : Waiting S C r)
    (chunks : List (List β)) :
    Same C (chunks.foldl (feed S C) r) (feed S C r chunks.flatten) := by
  induction chunks generalizing r with
  | nil => rw [List.foldl_nil, List.flatten_nil, hr.feed_nil]; exact Same.refl r
  | cons chunk chunks ih =>
    rw [List.foldl_cons, List.flatten_cons]
    exact (ih (hr.feed hC chunk)).trans (feed_append hC r chunk chunks.flatten)

section Invariant

variable {I : σ → Prop}

/-- What every frame and the end of a stream that cannot be framed keep, a chunk keeps. -/
theorem feed_invariant (hstep : ∀ s a, I s → I (C.step s a).1) (hbad : ∀ s, I s → I (C.bad s))
    {r : Reader β σ} (hr : I r.state) (chunk : List β) : I (feed S C r chunk).state := by
  cases hs : C.stopped r.state with
  | true => rwa [feed_stopped hs]
  | false =>
    rw [feed_going hs]
    generalize r.buffer ++ chunk = buf
    generalize r.state = s at hr
    induction buf using loop_induction S generalizing s with
    | more buf h => rwa [drain_more h]
    | bad buf h => rw [drain_bad h]; exact hbad s hr
    | frame buf a rest h ih =>
      rw [drain_frame h]
      split
      · exact ih _ (hstep s a hr)
      · exact hstep s a hr

end Invariant

end Chunks

section Frames

variable {enc : α → List β} {ok : α → Prop}

/-- An encoding that the splitter reads back, whatever follows. -/
def Encodes (S : Splitter β α) (enc : α → List β) (ok : α → Prop) : Prop :=
  ∀ a, ok a → ∀ tail, S.scan (enc a ++ tail) = .frame a tail

def encoded (enc : α → List β) (as : List α) : List β := (as.map enc).flatten

@[simp] theorem encoded_nil : encoded enc [] = [] := rfl

@[simp] theorem encoded_cons (a : α) (as : List α) :
    encoded enc (a :: as) = enc a ++ encoded enc as := rfl

theorem encoded_append (as as' : List α) :
    encoded enc (as ++ as') = encoded enc as ++ encoded enc as' := by simp [encoded]

/-- The consumer over a list of frames. -/
def consume (C : Consumer α σ ο) (s : σ) (as : List α) : σ :=
  as.foldl (fun s a => (C.step s a).1) s

theorem consume_stopped (hC : C.Lawful S) {s : σ} (hs : C.stopped s = true) (as : List α) :
    C.stopped (consume C s as) = true ∧ C.obs (consume C s as) = C.obs s := by
  induction as generalizing s with
  | nil => exact ⟨hs, rfl⟩
  | cons a as ih =>
    have := ih (hC.stays_stopped s a hs)
    exact ⟨this.1, this.2.trans (hC.obs_step s a hs)⟩

/-- Encoded frames, and the start of a further one, are read as these frames in this order. -/
theorem drain_encoded (hC : C.Lawful S) (henc : Encodes S enc ok) (s : σ) {as : List α}
    (has : ∀ a ∈ as, ok a) {tail : List β} (htail : S.scan tail = .more) :
    Same C (drain S C s (encoded enc as ++ tail)) ⟨consume C s as, tail⟩ := by
  induction as generalizing s with
  | nil =>
    rw [encoded_nil, List.nil_append, drain_more htail]
    exact Same.refl _
  | cons a as ih =>
    rw [encoded_cons, List.append_assoc, drain_frame (henc a (has a List.mem_cons_self) _)]
    by_cases hgo : (C.step s a).2 = true
    · rw [if_pos hgo]
      exact ih _ fun b hb => has b (List.mem_cons_of_mem a hb)
    · have hstopped := hC.leaves_stopped s a (by simpa using hgo)
      obtain ⟨hrest, hobs⟩ := consume_stopped hC hstopped as
      rw [if_neg hgo]
      exact .of_stopped hstopped hrest hobs.symm

/-- The front of a part of an encoding is the start of the first frame, or the whole of it. -/
theorem front (henc : Encodes S enc ok) {a : α} (ha : ok a) {as : List α} {p : List β}
    (hp : p <+: encoded enc (a :: as)) :
    S.scan p = .more ∨ ∃ rest, S.scan p = .frame a rest ∧ p = enc a ++ rest ∧
      rest <+: encoded enc as := by
  obtain ⟨w, hw⟩ := hp
  have hscan := henc a ha (encoded enc as)
  rw [← encoded_cons, ← hw] at hscan
  cases hmore : S.scan p with
  | more => exact .inl rfl
  | bad =>
    rw [S.stable p w (by simp [hmore]), hmore] at hscan
    exact absurd hscan (by simp [Scan.behind])
  | frame b rest =>
    rw [S.stable p w (by simp [hmore]), hmore, Scan.behind, Scan.frame.injEq] at hscan
    obtain ⟨rfl, hrest⟩ := hscan
    refine .inr ⟨rest, rfl, ?_, w, hrest⟩
    rw [encoded_cons, ← hrest, ← List.append_assoc] at hw
    exact List.append_cancel_right hw

/-- What the frames of an encoding keep, the loop over a part of it keeps. -/
theorem drain_invariant (henc : Encodes S enc ok) {as : List α} (has : ∀ a ∈ as, ok a)
    {I : σ → Prop} (hstep : ∀ s, ∀ a ∈ as, I s → I (C.step s a).1) {s : σ} (hs : I s)
    {p : List β} (hp : p <+: encoded enc as) : I (drain S C s p).state := by
  induction as generalizing s p with
  | nil =>
    obtain rfl : p = [] := List.prefix_nil.1 hp
    rwa [drain_more S.empty]
  | cons a as ih =>
    rcases front henc (has a List.mem_cons_self) hp with hmore | ⟨rest, hscan, -, hrest⟩
    · rwa [drain_more hmore]
    · rw [drain_frame hscan]
      have hi := hstep s a List.mem_cons_self hs
      split
      · exact ih (fun b hb => has b (List.mem_cons_of_mem a hb))
          (fun s b hb => hstep s b (List.mem_cons_of_mem a hb)) hi hrest
      · exact hi

/-- A part of an encoding that has arrived is some whole frames and the start of the next. -/
theorem arrived (henc : Encodes S enc ok) {as : List α} (has : ∀ a ∈ as, ok a) {p : List β}
    (hp : p <+: encoded enc as) :
    ∃ done rest tail, as = done ++ rest ∧ p = encoded enc done ++ tail ∧ S.scan tail = .more ∧
      tail <+: encoded enc rest := by
  induction as generalizing p with
  | nil =>
    obtain rfl : p = [] := List.prefix_nil.1 hp
    exact ⟨[], [], [], rfl, rfl, S.empty, List.nil_prefix⟩
  | cons a as ih =>
    rcases front henc (has a List.mem_cons_self) hp with hmore | ⟨rest, -, hsplit, hrest⟩
    · exact ⟨[], a :: as, p, rfl, rfl, hmore, hp⟩
    · obtain ⟨done, rest', tail, rfl, htail, hmore', hpre⟩ :=
        ih (fun c hc => has c (List.mem_cons_of_mem a hc)) hrest
      refine ⟨a :: done, rest', tail, rfl, ?_, hmore', hpre⟩
      rw [hsplit, htail, encoded_cons, List.append_assoc]

end Frames

section Link

/-! A system with events of its own that reads frames from a link: the events of the byte level are
its own and the chunks that arrive, those of the frame level its own and the frames. -/

variable {enc : α → List β} {ok : α → Prop} {other : σ → ε → σ}

def chunkStep (S : Splitter β α) (C : Consumer α σ ο) (other : σ → ε → σ) (r : Reader β σ) :
    ε ⊕ List β → Reader β σ
  | .inl e => { r with state := other r.state e }
  | .inr chunk => feed S C r chunk

def frameStep (C : Consumer α σ ο) (other : σ → ε → σ) (s : σ) : ε ⊕ α → σ
  | .inl e => other s e
  | .inr a => (C.step s a).1

/-- A stopped system stays stopped, and shows of its own events what it showed before. -/
def Respects (C : Consumer α σ ο) (other : σ → ε → σ) : Prop :=
  ∀ s s' e, C.stopped s = true → C.stopped s' = true → C.obs s = C.obs s' →
    C.stopped (other s e) = true ∧ C.obs (other s e) = C.obs (other s' e)

theorem Respects.alike (h : Respects C other) {s s' : σ} (halike : Alike C s s') (e : ε) :
    Alike C (other s e) (other s' e) := by
  cases hs : C.stopped s with
  | false => rw [halike.2.2 hs]; exact Alike.refl _
  | true =>
    have hs' := halike.1.symm.trans hs
    exact .of_stopped (h s s' e hs hs' halike.2.1).1 (h s' s e hs' hs halike.2.1.symm).1
      (h s s' e hs hs' halike.2.1).2

def received (evs : List (ε ⊕ List β)) : List β := (evs.filterMap Sum.getRight?).flatten

theorem received_append (evs evs' : List (ε ⊕ List β)) :
    received (evs ++ evs') = received evs ++ received evs' := by
  simp [received, List.filterMap_append]

theorem frameStep_frames (s : σ) (as : List α) :
    (as.map Sum.inr).foldl (frameStep C other) s = consume C s as := by
  rw [List.foldl_map]
  rfl

theorem own_frames (as : List α) :
    (as.map Sum.inr).filterMap (Sum.getLeft? : ε ⊕ α → Option ε) = [] := by
  simp [List.filterMap_map, Function.comp_def]

theorem frames_frames (as : List α) :
    (as.map Sum.inr).filterMap (Sum.getRight? : ε ⊕ α → Option α) = as := by
  simp [List.filterMap_map, Function.comp_def]

theorem consume_alike (hC : C.Lawful S) {s s' : σ} (h : Alike C s s') (as : List α) :
    Alike C (consume C s as) (consume C s' as) := by
  cases hs : C.stopped s with
  | false => rw [h.2.2 hs]; exact Alike.refl _
  | true =>
    obtain ⟨h₁, hobs⟩ := consume_stopped hC hs as
    obtain ⟨h₂, hobs'⟩ := consume_stopped hC (h.1.symm.trans hs) as
    exact .of_stopped h₁ h₂ (hobs.trans (h.2.1.trans hobs'.symm))

/-- A chunk that ends whole frames is these frames. -/
theorem chunk_same (hC : C.Lawful S) (henc : Encodes S enc ok) {r : Reader β σ} {s : σ}
    {tail tail' chunk : List β} (h : Same C r ⟨s, tail⟩) {done : List α} (hok : ∀ a ∈ done, ok a)
    (harrived : tail ++ chunk = encoded enc done ++ tail') (hmore : S.scan tail' = .more) :
    Same C (chunkStep S C other r (.inr chunk)) ⟨consume C s done, tail'⟩ := by
  have hconsume := consume_alike hC h.1 done
  cases hs : C.stopped r.state with
  | false =>
    rw [chunkStep, feed_going hs, h.2 hs, harrived]
    exact (drain_encoded hC henc _ hok hmore).trans ⟨hconsume, fun _ => rfl⟩
  | true =>
    obtain ⟨hstopped, hobs⟩ := consume_stopped hC hs done
    rw [chunkStep, feed_stopped hs]
    exact .of_stopped hs (hconsume.1.symm.trans hstopped) (hobs.symm.trans hconsume.2.1)

/-- A run over a link that carries encoded frames is a run of the frame level with the same events
of its own, in the same order, whose frames are those that have arrived whole. -/
theorem refines (hC : C.Lawful S) (hother : Respects C other) (henc : Encodes S enc ok) (s : σ)
    {as : List α} (has : ∀ a ∈ as, ok a) {evs : List (ε ⊕ List β)}
    (hevs : received evs <+: encoded enc as) :
    ∃ (evs' : List (ε ⊕ α)) (rest : List α) (tail : List β),
      evs'.filterMap Sum.getLeft? = evs.filterMap Sum.getLeft? ∧
      as = evs'.filterMap Sum.getRight? ++ rest ∧
      received evs = encoded enc (evs'.filterMap Sum.getRight?) ++ tail ∧ S.scan tail = .more ∧
      Same C (evs.foldl (chunkStep S C other) ⟨s, []⟩)
        ⟨evs'.foldl (frameStep C other) s, tail⟩ := by
  induction evs using List.reverseRecOn with
  | nil => exact ⟨[], as, [], rfl, rfl, rfl, S.empty, Same.refl _⟩
  | append_singleton evs e ih =>
    rw [received_append] at hevs
    obtain ⟨evs', rest, tail, hown, hframes, hreceived, hmore, hsame⟩ :=
      ih ((List.prefix_append _ _).trans hevs)
    simp only [List.foldl_append, List.foldl_cons, List.foldl_nil, List.filterMap_append,
      received_append]
    cases e with
    | inl e =>
      have hnone : received [(.inl e : ε ⊕ List β)] = [] := rfl
      have hnone' : [(.inl e : ε ⊕ α)].filterMap Sum.getRight? = [] := rfl
      refine ⟨evs' ++ [Sum.inl e], rest, tail, by rw [List.filterMap_append, hown]; rfl, ?_, ?_,
        hmore, ?_⟩
      · rw [List.filterMap_append, hnone', List.append_nil, hframes]
      · rw [List.filterMap_append, hnone', List.append_nil, ← hreceived, hnone, List.append_nil]
      · rw [List.foldl_append]
        refine ⟨hother.alike hsame.1 e, fun hs => hsame.2 ?_⟩
        by_contra hstopped
        have hs' : C.stopped (evs.foldl (chunkStep S C other) ⟨s, []⟩).state = true := by
          simpa using hstopped
        exact absurd ((hother _ _ e hs' hs' rfl).1.symm.trans hs) (by simp)
    | inr chunk =>
      have hchunk : received [(.inr chunk : ε ⊕ List β)] = chunk := by simp [received]
      rw [hchunk] at hevs ⊢
      have hpre : tail ++ chunk <+: encoded enc rest := by
        rw [hreceived, hframes, encoded_append, List.append_assoc] at hevs
        exact (List.prefix_append_right_inj _).1 hevs
      obtain ⟨done, rest', tail', rfl, htail, hmore', -⟩ := arrived henc
        (fun a ha => has a (by rw [hframes]; exact List.mem_append_right _ ha)) hpre
      have hok : ∀ a ∈ done, ok a := fun a ha => has a (by
        rw [hframes]
        exact List.mem_append_right _ (List.mem_append_left _ ha))
      refine ⟨evs' ++ done.map Sum.inr, rest', tail', ?_, ?_, ?_, hmore', ?_⟩
      · rw [List.filterMap_append, hown, own_frames, List.append_nil]
        simp
      · rw [List.filterMap_append, frames_frames, hframes, List.append_assoc]
      · rw [List.filterMap_append, frames_frames, encoded_append, hreceived, List.append_assoc,
          htail, List.append_assoc]
      · rw [List.foldl_append, frameStep_frames]
        exact chunk_same hC henc hsame hok htail hmore'

/-- What the events and the frames of the link keep holds at the end of a run. -/
theorem run_invariant (hC : C.Lawful S) (hother : Respects C other) (henc : Encodes S enc ok)
    {as : List α} (has : ∀ a ∈ as, ok a) {I : σ → Prop} (hstep : ∀ s, ∀ a ∈ as, I s → I (C.step s a).1)
    (hown : ∀ s e, I s → I (other s e)) {s : σ} (hs : I s) {evs : List (ε ⊕ List β)}
    (hevs : received evs <+: encoded enc as) :
    I (evs.foldl (chunkStep S C other) ⟨s, []⟩).state := by
  induction evs using List.reverseRecOn with
  | nil => exact hs
  | append_singleton evs e ih =>
    have hbefore : received evs <+: encoded enc as := by
      rw [received_append] at hevs
      exact (List.prefix_append _ _).trans hevs
    have hi := ih hbefore
    rw [List.foldl_append, List.foldl_cons, List.foldl_nil]
    cases e with
    | inl e => exact hown _ e hi
    | inr chunk =>
      obtain ⟨evs', rest, tail, -, hframes, hreceived, -, hsame⟩ :=
        refines hC hother henc s has hbefore
      cases hstopped : C.stopped (evs.foldl (chunkStep S C other) ⟨s, []⟩).state with
      | true => rwa [chunkStep, feed_stopped hstopped]
      | false =>
        have hrest : ∀ a ∈ rest, a ∈ as := fun a ha => by
          rw [hframes]
          exact List.mem_append_right _ ha
        have hpre : tail ++ chunk <+: encoded enc rest := by
          rw [received_append, hreceived, hframes, encoded_append, List.append_assoc] at hevs
          simpa [received] using (List.prefix_append_right_inj _).1 hevs
        rw [chunkStep, feed_going hstopped, hsame.2 hstopped]
        generalize tail ++ chunk = buf at hpre
        generalize (evs.foldl (chunkStep S C other) ⟨s, []⟩).state = t at hi
        exact drain_invariant henc (fun a ha => has a (hrest a ha))
          (fun s a ha => hstep s a (hrest a ha)) hi hpre

end Link

end Framing
