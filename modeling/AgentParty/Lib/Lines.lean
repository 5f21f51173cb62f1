import AgentParty.Lib.Framing

/-! Lines as frames: a text that arrives in chunks is split at a mark, and what stands behind the last
mark waits. The whole lines are those of `List.splitOn`. -/

namespace Lines

open Framing (Scan Splitter Consumer Reader drain)

variable {β : Type*} [DecidableEq β]

def scan (mark : β) : List β → Scan β (List β)
  | [] => .more
  | b :: buf =>
    if b = mark then .frame [] buf
    else
      match scan mark buf with
      | .frame line rest => .frame (b :: line) rest
      | _ => .more

/-- The lines that a mark ends, and what stands behind the last of them. -/
def whole (mark : β) (text : List β) : List (List β) := (text.splitOn mark).dropLast

def unfinished (mark : β) (text : List β) : List β :=
  (text.splitOn mark).getLast (List.splitOn_ne_nil mark text)

theorem scan_cases (mark : β) (buf : List β) :
    (scan mark buf = .more ∧ buf.splitOn mark = [buf]) ∨
    ∃ line rest, scan mark buf = .frame line rest ∧ rest.length < buf.length ∧
      buf.splitOn mark = line :: rest.splitOn mark := by
  induction buf with
  | nil => exact .inl ⟨rfl, List.splitOn_nil mark⟩
  | cons b buf ih =>
    rw [List.splitOn_cons_eq_if_modifyHead]
    by_cases hb : b = mark
    · exact .inr ⟨[], buf, if_pos hb, by simp, by rw [if_pos (beq_iff_eq.2 hb)]⟩
    · rw [if_neg (by simpa using hb), scan, if_neg hb]
      rcases ih with ⟨hmore, hsplit⟩ | ⟨line, rest, hframe, hlength, hsplit⟩
      · exact .inl ⟨by rw [hmore], by rw [hsplit]; rfl⟩
      · refine .inr ⟨b :: line, rest, by rw [hframe], ?_, by rw [hsplit]; rfl⟩
        rw [List.length_cons]
        omega

theorem scan_stable (mark : β) (buf tail : List β) (h : scan mark buf ≠ .more) :
    scan mark (buf ++ tail) = (scan mark buf).behind tail := by
  induction buf with
  | nil => exact absurd rfl h
  | cons b buf ih =>
    rw [List.cons_append, scan, scan]
    by_cases hb : b = mark
    · rw [if_pos hb, if_pos hb]; rfl
    · rw [if_neg hb, if_neg hb]
      rw [scan, if_neg hb] at h
      have hbuf : scan mark buf ≠ .more := fun hmore => h (by rw [hmore])
      rw [ih hbuf]
      rcases scan_cases mark buf with ⟨hmore, -⟩ | ⟨line, rest, hframe, -⟩
      · exact absurd hmore hbuf
      · rw [hframe]; rfl

/-- Lines as the frames of a stream. -/
def splitter (mark : β) : Splitter β (List β) where
  scan := scan mark
  empty := rfl
  shorter buf line rest h := by
    rcases scan_cases mark buf with ⟨hmore, -⟩ | ⟨line', rest', hframe, hlength, -⟩
    · exact absurd (hmore.symm.trans h) (by simp)
    · obtain ⟨-, rfl⟩ := Scan.frame.inj (hframe.symm.trans h)
      exact hlength
  stable := scan_stable mark

theorem whole_cons {mark : β} {text line rest : List β}
    (h : text.splitOn mark = line :: rest.splitOn mark) :
    whole mark text = line :: whole mark rest ∧ unfinished mark text = unfinished mark rest := by
  constructor
  · rw [whole, h, List.dropLast_cons_of_ne_nil (List.splitOn_ne_nil mark rest), whole]
  · simp only [unfinished, h]
    exact List.getLast_cons (List.splitOn_ne_nil mark rest)

theorem whole_of_singleton {mark : β} {text : List β} (h : text.splitOn mark = [text]) :
    whole mark text = [] ∧ unfinished mark text = text := by
  constructor
  · rw [whole, h]; rfl
  · simp only [unfinished, h]; rfl

variable {σ : Type*}

/-- A consumer of lines that is never stopped. -/
def consumer (handle : σ → List β → σ) : Consumer (List β) σ σ where
  step s line := (handle s line, true)
  bad := id
  stopped _ := false
  obs := id

theorem consumer_lawful (mark : β) (handle : σ → List β → σ) :
    (consumer handle).Lawful (splitter mark) where
  bad_stopped buf s h := by
    rcases scan_cases mark buf with ⟨hmore, -⟩ | ⟨line, rest, hframe, -⟩
    · exact absurd (hmore.symm.trans h) (by simp)
    · exact absurd (hframe.symm.trans h) (by simp)
  leaves_stopped s line h := absurd h (by simp [consumer])
  stays_stopped s line h := absurd h (by simp [consumer])
  obs_step s line h := absurd h (by simp [consumer])
  obs_bad s h := absurd h (by simp [consumer])

theorem drain_eq (mark : β) (handle : σ → List β → σ) (s : σ) (buf : List β) :
    drain (splitter mark) (consumer handle) s buf =
      ⟨(whole mark buf).foldl handle s, unfinished mark buf⟩ := by
  induction hn : buf.length using Nat.strong_induction_on generalizing buf s with
  | _ n ih =>
    rcases scan_cases mark buf with ⟨hmore, hsplit⟩ | ⟨line, rest, hframe, hlength, hsplit⟩
    · rw [Framing.drain_more hmore, (whole_of_singleton hsplit).1, (whole_of_singleton hsplit).2]
      rfl
    · rw [Framing.drain_frame (S := splitter mark) hframe, (whole_cons hsplit).1,
        (whole_cons hsplit).2]
      exact ih rest.length (hn ▸ hlength) (handle s line) rest rfl

/-- The lines of a text that arrives in two parts: the unfinished line of the first goes on. -/
theorem splitOn_append (mark : β) (text tail : List β) :
    (text ++ tail).splitOn mark =
      whole mark text ++ (unfinished mark text ++ tail).splitOn mark := by
  induction hn : text.length using Nat.strong_induction_on generalizing text with
  | _ n ih =>
    rcases scan_cases mark text with ⟨-, hsplit⟩ | ⟨line, rest, hframe, hlength, hsplit⟩
    · rw [(whole_of_singleton hsplit).1, (whole_of_singleton hsplit).2, List.nil_append]
    · have hall : (text ++ tail).splitOn mark = line :: (rest ++ tail).splitOn mark := by
        have hstable := scan_stable mark text tail (by rw [hframe]; simp)
        rw [hframe, Scan.behind] at hstable
        rcases scan_cases mark (text ++ tail) with ⟨hmore, -⟩ | ⟨line', rest', hframe', -, hsplit'⟩
        · exact absurd (hmore.symm.trans hstable) (by simp)
        · obtain ⟨rfl, rfl⟩ := Scan.frame.inj (hframe'.symm.trans hstable)
          exact hsplit'
      rw [hall, (whole_cons hsplit).1, (whole_cons hsplit).2, ih rest.length (hn ▸ hlength) rest rfl]
      rfl

/-- A split takes the marks away and nothing else. -/
theorem flatten_splitOn (mark : β) (text : List β) :
    (text.splitOn mark).flatten = text.filter fun b => b ≠ mark := by
  induction text with
  | nil => simp [List.splitOn_nil]
  | cons b text ih =>
    rw [List.splitOn_cons_eq_if_modifyHead]
    by_cases hb : b = mark
    · simp [hb, ih]
    · obtain ⟨line, rest, hsplit⟩ := List.exists_cons_of_ne_nil (List.splitOn_ne_nil mark text)
      rw [hsplit] at ih
      simpa [hb, hsplit, List.modifyHead] using ih

theorem splitOn_eq_append (mark : β) (text : List β) :
    text.splitOn mark = whole mark text ++ [unfinished mark text] :=
  (List.dropLast_append_getLast (List.splitOn_ne_nil mark text)).symm

theorem notMem_of_mem_splitOn {mark : β} {text line : List β} (h : line ∈ text.splitOn mark) :
    mark ∉ line := by
  intro hmark
  have hmem : mark ∈ (text.splitOn mark).flatten := List.mem_flatten.2 ⟨line, h, hmark⟩
  rw [flatten_splitOn] at hmem
  simp at hmem

/-- An unfinished line is the start of a line of every longer text. -/
theorem unfinished_prefix (mark : β) (text tail : List β) :
    ∃ line ∈ (text ++ tail).splitOn mark, unfinished mark text <+: line := by
  have hfirst : ∀ start : List β, mark ∉ start →
      ∃ line ∈ (start ++ tail).splitOn mark, start <+: line := by
    intro start hstart
    suffices ∃ line rest, (start ++ tail).splitOn mark = (start ++ line) :: rest by
      obtain ⟨line, rest, hsplit⟩ := this
      exact ⟨start ++ line, by rw [hsplit]; exact List.mem_cons_self, List.prefix_append _ _⟩
    induction start with
    | nil =>
      obtain ⟨line, rest, hsplit⟩ := List.exists_cons_of_ne_nil (List.splitOn_ne_nil mark tail)
      exact ⟨line, rest, hsplit⟩
    | cons b start ih =>
      obtain ⟨line, rest, hsplit⟩ := ih fun h => hstart (List.mem_cons_of_mem b h)
      have hb : b ≠ mark := fun h => hstart (h ▸ List.mem_cons_self)
      refine ⟨line, rest, ?_⟩
      rw [List.cons_append, List.splitOn_cons_eq_if_modifyHead, if_neg (by simpa using hb), hsplit]
      rfl
  have hunfinished : mark ∉ unfinished mark text :=
    notMem_of_mem_splitOn (List.getLast_mem (List.splitOn_ne_nil mark text))
  obtain ⟨line, hline, hprefix⟩ := hfirst _ hunfinished
  refine ⟨line, ?_, hprefix⟩
  rw [splitOn_append]
  exact List.mem_append_right _ hline

end Lines
