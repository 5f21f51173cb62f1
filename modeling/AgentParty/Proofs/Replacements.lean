import AgentParty.Delivery.Completions
import Mathlib.Logic.Relation

/-! The links between rejected completions and their replacements. The link on the new row and
the order of the two hold in every run. The link on the old row has room for one replacement, so
the two links are inverse to each other as long as no completion is replaced a second time, and
no longer. -/

namespace AgentParty
namespace Completions

open EventSystem

def Message.kickoffSeq (m : Message) : Option ℕ := m.completionArtifact.map (·.kickoffSeq)

/-- How a row goes on that keeps its links. -/
structure Message.Continues (a b : Message) : Prop where
  seq : b.seq = a.seq
  replaces : b.replacesSeq = a.replacesSeq
  replacedBy : b.replacedBySeq = a.replacedBySeq
  artifact : b.completionArtifact = none ∨ b.completionArtifact = a.completionArtifact
  pending : b.reviewState = some .pendingReview → a.reviewState = some .pendingReview

theorem Message.Continues.refl (m : Message) : m.Continues m := ⟨rfl, rfl, rfl, .inr rfl, id⟩

namespace Room

variable {s t : Room}

/-- What every run keeps. -/
structure Recorded (s : Room) : Prop where
  bound : ∀ m ∈ s.written, m.seq ≤ s.lastSeq
  rows : ∀ row ∈ s.messages, ∃ m ∈ s.written, m.seq = row.seq
  distinct : ∀ m ∈ s.written, ∀ m' ∈ s.written, m.seq = m'.seq → m = m'
  backward : ∀ m ∈ s.written, ∀ b, m.replacesSeq = some b →
    ∃ m₀ ∈ s.written, m₀.seq = b ∧ b < m.seq ∧ m₀.kickoffSeq = m.kickoffSeq
  artifacts : ∀ row ∈ s.messages, row.completionArtifact ≠ none →
    ∃ m ∈ s.written, m.seq = row.seq ∧ m.completionArtifact = row.completionArtifact
  linked : ∀ row ∈ s.messages, ∀ a, row.replacedBySeq = some a →
    ∃ m ∈ s.written, m.seq = a ∧ m.replacesSeq = some row.seq
  reviewedOnce : s.reviewed.Nodup
  reviewedBound : ∀ q ∈ s.reviewed, q ≤ s.lastSeq
  settled : ∀ q ∈ s.reviewed, ∀ row ∈ s.messages, row.seq = q →
    row.reviewState ≠ some .pendingReview

/-- The old row names its replacement, of which there is one. -/
structure Replaced (s : Room) : Prop where
  forward : ∀ row ∈ s.messages, ∀ m ∈ s.written, m.replacesSeq = some row.seq →
    row.replacedBySeq = some m.seq
  unique : ∀ m ∈ s.written, ∀ m' ∈ s.written, ∀ b, m.replacesSeq = some b →
    m'.replacesSeq = some b → m = m'

theorem recorded_initial (gate : CompletionGate) (policy : CompletionReviewPolicy) :
    Recorded (initial gate policy) where
  bound := fun _ h => (List.not_mem_nil h).elim
  rows := fun _ h => (Table.not_mem_empty _ h).elim
  distinct := fun _ h => (List.not_mem_nil h).elim
  backward := fun _ h => (List.not_mem_nil h).elim
  artifacts := fun _ h => (Table.not_mem_empty _ h).elim
  linked := fun _ h => (Table.not_mem_empty _ h).elim
  reviewedOnce := List.nodup_nil
  reviewedBound := fun _ h => (List.not_mem_nil h).elim
  settled := fun _ h => (List.not_mem_nil h).elim

theorem replaced_initial (gate : CompletionGate) (policy : CompletionReviewPolicy) :
    Replaced (initial gate policy) :=
  ⟨fun _ h => (Table.not_mem_empty _ h).elim, fun _ h => (List.not_mem_nil h).elim⟩

/-- The old rows go on with their links, and only numbers are taken. -/
structure Keeps (s t : Room) : Prop where
  lastSeq : s.lastSeq ≤ t.lastSeq
  rows : Table.Evolves Message.Continues s.messages t.messages
  written : t.written = s.written
  reviewed : t.reviewed = s.reviewed

theorem Recorded.keeps (h : Recorded s) (hk : Keeps s t) : Recorded t where
  bound m hm := (h.bound m (hk.written ▸ hm)).trans hk.lastSeq
  rows row hrow := by
    obtain ⟨before, hbefore, hkey, -⟩ := hk.rows row hrow
    obtain ⟨m, hm, hseq⟩ := h.rows before hbefore
    exact ⟨m, hk.written ▸ hm, hseq.trans hkey⟩
  distinct := hk.written ▸ h.distinct
  backward := hk.written ▸ h.backward
  artifacts row hrow hartifact := by
    obtain ⟨before, hbefore, hkey, hcontinues⟩ := hk.rows row hrow
    have hsame := hcontinues.artifact.resolve_left hartifact
    obtain ⟨m, hm, hseq, hm'⟩ := h.artifacts before hbefore (hsame ▸ hartifact)
    exact ⟨m, hk.written ▸ hm, hseq.trans hkey, hm'.trans hsame.symm⟩
  linked row hrow a ha := by
    obtain ⟨before, hbefore, hkey, hcontinues⟩ := hk.rows row hrow
    obtain ⟨m, hm, hseq, hm'⟩ := h.linked before hbefore a (hcontinues.replacedBy ▸ ha)
    exact ⟨m, hk.written ▸ hm, hseq, hm'.trans (congrArg some hkey)⟩
  reviewedOnce := hk.reviewed ▸ h.reviewedOnce
  reviewedBound q hq := (h.reviewedBound q (hk.reviewed ▸ hq)).trans hk.lastSeq
  settled q hq row hrow hseq hpending := by
    obtain ⟨before, hbefore, hkey, hcontinues⟩ := hk.rows row hrow
    exact h.settled q (hk.reviewed ▸ hq) before hbefore (hkey.trans hseq)
      (hcontinues.pending hpending)

theorem Replaced.keeps (h : Replaced s) (hk : Keeps s t) : Replaced t where
  forward row hrow m hm hreplaces := by
    obtain ⟨before, hbefore, hkey, hcontinues⟩ := hk.rows row hrow
    rw [hcontinues.replacedBy]
    exact h.forward before hbefore m (hk.written ▸ hm) (hreplaces.trans (congrArg some hkey.symm))
  unique := hk.written ▸ h.unique

/-- A new row under the next number; a completion it replaces was there. -/
theorem Recorded.insert (h : Recorded s) {m : Message} (hseq : m.seq = s.lastSeq + 1)
    (hfresh : m.replacedBySeq = none)
    (hreplaces : ∀ b, m.replacesSeq = some b →
      ∃ m₀ ∈ s.written, m₀.seq = b ∧ m₀.kickoffSeq = m.kickoffSeq) :
    Recorded ({ s with lastSeq := s.lastSeq + 1 }.insertMessage m) where
  bound m' hm' := by
    obtain hm' | hm' := List.mem_append.1 hm'
    · exact (h.bound m' hm').trans (Nat.le_succ _)
    · rw [List.mem_singleton.1 hm', hseq]
      exact Nat.le_refl _
  rows row hrow := by
    obtain hrow | ⟨rfl, -⟩ := Table.mem_insert.1 hrow
    · obtain ⟨m', hm', hseq'⟩ := h.rows row hrow
      exact ⟨m', List.mem_append_left _ hm', hseq'⟩
    · exact ⟨row, List.mem_append_right _ (List.mem_singleton_self _), rfl⟩
  distinct m₁ hm₁ m₂ hm₂ hsame := by
    obtain hm₁ | hm₁ := List.mem_append.1 hm₁ <;> obtain hm₂ | hm₂ := List.mem_append.1 hm₂
    · exact h.distinct m₁ hm₁ m₂ hm₂ hsame
    · have := h.bound m₁ hm₁
      rw [hsame, List.mem_singleton.1 hm₂, hseq] at this
      omega
    · have := h.bound m₂ hm₂
      rw [← hsame, List.mem_singleton.1 hm₁, hseq] at this
      omega
    · rw [List.mem_singleton.1 hm₁, List.mem_singleton.1 hm₂]
  backward m' hm' b hb := by
    obtain hm' | hm' := List.mem_append.1 hm'
    · obtain ⟨m₀, hm₀, hrest⟩ := h.backward m' hm' b hb
      exact ⟨m₀, List.mem_append_left _ hm₀, hrest⟩
    · obtain rfl := List.mem_singleton.1 hm'
      obtain ⟨m₀, hm₀, rfl, hkickoff⟩ := hreplaces b hb
      have := h.bound m₀ hm₀
      exact ⟨m₀, List.mem_append_left _ hm₀, rfl, by omega, hkickoff⟩
  artifacts row hrow hartifact := by
    obtain hrow | ⟨rfl, -⟩ := Table.mem_insert.1 hrow
    · obtain ⟨m', hm', hrest⟩ := h.artifacts row hrow hartifact
      exact ⟨m', List.mem_append_left _ hm', hrest⟩
    · exact ⟨row, List.mem_append_right _ (List.mem_singleton_self _), rfl, rfl⟩
  linked row hrow a ha := by
    obtain hrow | ⟨rfl, -⟩ := Table.mem_insert.1 hrow
    · obtain ⟨m', hm', hrest⟩ := h.linked row hrow a ha
      exact ⟨m', List.mem_append_left _ hm', hrest⟩
    · rw [hfresh] at ha
      nomatch ha
  reviewedOnce := h.reviewedOnce
  reviewedBound q hq := (h.reviewedBound q hq).trans (Nat.le_succ _)
  settled q hq row hrow hrowseq := by
    obtain hrow | ⟨rfl, -⟩ := Table.mem_insert.1 hrow
    · exact h.settled q hq row hrow hrowseq
    · have := h.reviewedBound q hq
      omega

section Link

theorem seq_replacedBy (seq : ℕ) (m : Message) : (replacedBy seq m).seq = m.seq := rfl

/-- The state behind the update of the old row. -/
def link (s : Room) (b seq : ℕ) : Room :=
  { s with
    messages := s.messages.update (fun row => row.seq = b) (replacedBy seq) (seq_replacedBy seq) }

theorem mem_link {b seq : ℕ} {row : Message} (hrow : row ∈ (s.link b seq).messages) :
    ∃ before ∈ s.messages, (before.seq ≠ b ∧ row = before) ∨
      (before.seq = b ∧ row = replacedBy seq before) := by
  obtain ⟨before, hbefore, rfl⟩ := (Table.mem_update (seq_replacedBy seq)).1 hrow
  by_cases hb : before.seq = b
  · exact ⟨before, hbefore, .inr ⟨hb, if_pos (decide_eq_true hb)⟩⟩
  · exact ⟨before, hbefore, .inl ⟨hb, if_neg (by simpa using hb)⟩⟩

/-- The update of the old row, once the new one is written. -/
theorem Recorded.link (h : Recorded s) {m : Message} (hm : m ∈ s.written) {b : ℕ}
    (hb : m.replacesSeq = some b) : Recorded (s.link b m.seq) where
  bound := h.bound
  rows row hrow := by
    obtain ⟨before, hbefore, ⟨-, rfl⟩ | ⟨-, rfl⟩⟩ := mem_link hrow
    · exact h.rows row hbefore
    · exact h.rows before hbefore
  distinct := h.distinct
  backward := h.backward
  artifacts row hrow hartifact := by
    obtain ⟨before, hbefore, ⟨-, rfl⟩ | ⟨-, rfl⟩⟩ := mem_link hrow
    · exact h.artifacts row hbefore hartifact
    · exact h.artifacts before hbefore hartifact
  linked row hrow a ha := by
    obtain ⟨before, hbefore, ⟨-, rfl⟩ | ⟨hseq, rfl⟩⟩ := mem_link hrow
    · exact h.linked row hbefore a ha
    · obtain rfl := Option.some.inj ha
      exact ⟨m, hm, rfl, hb.trans (congrArg some hseq.symm)⟩
  reviewedOnce := h.reviewedOnce
  reviewedBound := h.reviewedBound
  settled q hq row hrow hseq := by
    obtain ⟨before, hbefore, ⟨-, rfl⟩ | ⟨-, rfl⟩⟩ := mem_link hrow
    · exact h.settled q hq row hbefore hseq
    · exact h.settled q hq before hbefore hseq

end Link

/-- Nothing replaces a row that is not there yet. -/
theorem Recorded.not_yet (h : Recorded s) {m : Message} (hm : m ∈ s.written) {b : ℕ}
    (hb : m.replacesSeq = some b) : b ≤ s.lastSeq := by
  obtain ⟨m₀, hm₀, rfl, -⟩ := h.backward m hm b hb
  exact h.bound m₀ hm₀

/-- A new row that replaces nothing. -/
theorem Replaced.insert (h : Replaced s) (hr : Recorded s) {m : Message}
    (hseq : m.seq = s.lastSeq + 1) (hreplaces : m.replacesSeq = none) :
    Replaced ({ s with lastSeq := s.lastSeq + 1 }.insertMessage m) where
  forward row hrow m' hm' hb := by
    obtain hold | hnew := List.mem_append.1 hm'
    · obtain hrow | ⟨hrow, -⟩ := Table.mem_insert.1 hrow
      · exact h.forward row hrow m' hold hb
      · have := hr.not_yet hold hb
        rw [hrow, hseq] at this
        omega
    · rw [List.mem_singleton.1 hnew, hreplaces] at hb
      nomatch hb
  unique m₁ hm₁ m₂ hm₂ b hb₁ hb₂ := by
    obtain hm₁ | hm₁ := List.mem_append.1 hm₁
    · obtain hm₂ | hm₂ := List.mem_append.1 hm₂
      · exact h.unique m₁ hm₁ m₂ hm₂ b hb₁ hb₂
      · rw [List.mem_singleton.1 hm₂, hreplaces] at hb₂
        nomatch hb₂
    · rw [List.mem_singleton.1 hm₁, hreplaces] at hb₁
      nomatch hb₁

/-- A new row and the link of the completion it replaces, which nothing has replaced before. -/
theorem Replaced.insertLinked (h : Replaced s) (hr : Recorded s) {m : Message} {b : ℕ}
    (hseq : m.seq = s.lastSeq + 1) (hreplaces : m.replacesSeq = some b)
    (hfirst : ∀ m' ∈ s.written, m'.replacesSeq ≠ some b) :
    Replaced (({ s with lastSeq := s.lastSeq + 1 }.insertMessage m).link b m.seq) where
  forward row hrow m' hm' hb' := by
    obtain ⟨before, hbefore, hcase⟩ := mem_link hrow
    obtain hold | hnew := List.mem_append.1 hm'
    · obtain ⟨-, rfl⟩ | ⟨hb, rfl⟩ := hcase
      · obtain hrow | ⟨hrow, -⟩ := Table.mem_insert.1 hbefore
        · exact h.forward row hrow m' hold hb'
        · have := hr.not_yet hold hb'
          rw [hrow, hseq] at this
          omega
      · exact (hfirst m' hold (hb'.trans (congrArg some hb))).elim
    · rw [List.mem_singleton.1 hnew] at hb' ⊢
      have hb : b = row.seq := Option.some.inj (hreplaces.symm.trans hb')
      obtain ⟨hne, rfl⟩ | ⟨-, rfl⟩ := hcase
      · exact (hne hb.symm).elim
      · rfl
  unique m₁ hm₁ m₂ hm₂ b' hb₁ hb₂ := by
    have hother : ∀ m' ∈ s.written, m'.replacesSeq = some b' → m.replacesSeq ≠ some b' := by
      intro m' hm' hb' hm
      exact hfirst m' hm' (hb'.trans (hm.symm.trans hreplaces))
    obtain hm₁ | hm₁ := List.mem_append.1 hm₁ <;> obtain hm₂ | hm₂ := List.mem_append.1 hm₂
    · exact h.unique m₁ hm₁ m₂ hm₂ b' hb₁ hb₂
    · exact (hother m₁ hm₁ hb₁ (List.mem_singleton.1 hm₂ ▸ hb₂)).elim
    · exact (hother m₂ hm₂ hb₂ (List.mem_singleton.1 hm₁ ▸ hb₁)).elim
    · rw [List.mem_singleton.1 hm₁, List.mem_singleton.1 hm₂]

section Steps

theorem keeps_number (s : Room) : Keeps s { s with lastSeq := s.lastSeq + 1 } :=
  ⟨Nat.le_succ _, Table.Evolves.refl Message.Continues.refl _, rfl, rfl⟩

/-- An update of rows that keeps their links. -/
theorem keeps_update {p : Message → Bool} {f : Message → Message} {hf : ∀ m, (f m).seq = m.seq}
    (h : ∀ m : Message, m.Continues (f m)) : Keeps s { s with messages := s.messages.update p f hf } :=
  ⟨Nat.le_refl _, Table.evolves_update Message.Continues.refl hf fun m _ _ => h m, rfl, rfl⟩

theorem keeps_edit (s : Room) (seq : ℕ) (body : String) : Keeps s (s.edit seq body) :=
  keeps_update fun _ => ⟨rfl, rfl, rfl, .inr rfl, id⟩

theorem keeps_retract (s : Room) (seq : ℕ) : Keeps s (s.retract seq) :=
  keeps_update fun _ => ⟨rfl, rfl, rfl, .inl rfl, nofun⟩

theorem keeps_eraseIdentityData (s : Room) (name : String) : Keeps s (s.eraseIdentityData name) :=
  keeps_update fun _ => ⟨rfl, rfl, rfl, .inl rfl, nofun⟩

/-- What a send that goes through meets: the target is a completion of the same kickoff. -/
theorem replacementError_eq_none {frame : SendFrame} {b : ℕ}
    (h : s.replacementError frame b = none) :
    ∃ row ∈ s.messages, row.seq = b ∧ row.completionArtifact ≠ none ∧
      row.kickoffSeq = frame.completionArtifact.map (·.kickoffSeq) := by
  unfold replacementError at h
  split at h
  · nomatch h
  · next row hrow =>
    obtain ⟨hmem, hseq⟩ := Table.get?_eq_some.1 hrow
    split at h
    · nomatch h
    next hcompletion =>
    split at h
    · nomatch h
    split at h
    · nomatch h
    next hkickoff =>
    exact ⟨row, hmem, hseq, fun hnone => hcompletion (.inr hnone), not_not.1 hkickoff⟩

theorem reviewError_eq_none {reviewer : Identity} {action : ReviewAction} {reason : String}
    {row : Message} (h : reviewError reviewer action reason row = none) :
    row.reviewState = some .pendingReview := by
  by_contra hne
  simp only [reviewError, ite_not, hne, if_false] at h
  split_ifs at h

theorem Recorded.settle (h : Recorded s) {q : ℕ} (hq : q ≤ s.lastSeq) (hnew : q ∉ s.reviewed)
    (hsettled : ∀ row ∈ s.messages, row.seq = q → row.reviewState ≠ some .pendingReview) :
    Recorded { s with reviewed := s.reviewed ++ [q] } :=
  { h with
    reviewedOnce := List.nodup_append.2 ⟨h.reviewedOnce, List.nodup_singleton q, by
      rintro a ha b hb rfl
      exact hnew (List.mem_singleton.1 hb ▸ ha)⟩
    reviewedBound := by
      intro q' hq'
      obtain hq' | hq' := List.mem_append.1 hq'
      · exact h.reviewedBound q' hq'
      · exact (List.mem_singleton.1 hq').trans_le hq
    settled := by
      intro q' hq' row hrow hseq
      obtain hq' | hq' := List.mem_append.1 hq'
      · exact h.settled q' hq' row hrow hseq
      · exact hsettled row hrow (hseq.trans (List.mem_singleton.1 hq')) }

theorem keeps_prune (s : Room) (seqs : List ℕ) :
    Keeps s { s with messages := s.messages.delete fun m => seqs.contains m.seq } :=
  ⟨Nat.le_refl _, Table.evolves_delete Message.Continues.refl _ _, rfl, rfl⟩

theorem keeps_cacheChannelMeta (s : Room) (gate : CompletionGate)
    (policy : CompletionReviewPolicy) :
    Keeps s { s with completionGate := gate, completionReviewPolicy := policy } :=
  ⟨Nat.le_refl _, Table.Evolves.refl Message.Continues.refl _, rfl, rfl⟩

theorem replacesSeq_eq_some {frame : SendFrame} {b : ℕ} (h : s.replacesSeq frame = some b) :
    frame.kind = .message ∧ frame.completionArtifact.isSome = true := by
  unfold replacesSeq at h
  split at h
  next hgated => exact ⟨hgated.1, hgated.2.1⟩
  · nomatch h

/-- The completion that a stored message replaces is one of the same kickoff. -/
theorem Recorded.target (h : Recorded s) {sender : Identity} {frame : SendFrame} {b : ℕ}
    (hb : s.replacesSeq frame = some b) (hgood : s.replacementError frame b = none) :
    ∃ m₀ ∈ s.written, m₀.seq = b ∧ m₀.kickoffSeq = (s.sentMessage sender frame).kickoffSeq := by
  obtain ⟨row, hrow, rfl, hartifact, hkickoff⟩ := replacementError_eq_none hgood
  obtain ⟨m₀, hm₀, hseq, hsame⟩ := h.artifacts row hrow hartifact
  refine ⟨m₀, hm₀, hseq, ?_⟩
  have hsent : (s.sentMessage sender frame).completionArtifact = frame.completionArtifact :=
    if_pos (replacesSeq_eq_some hb).1
  rw [Message.kickoffSeq, hsame, Message.kickoffSeq, hsent]
  exact hkickoff

theorem store_of_none {frame : SendFrame} (hb : s.replacesSeq frame = none) (sender : Identity) :
    s.store sender frame =
      { s with lastSeq := s.lastSeq + 1 }.insertMessage (s.sentMessage sender frame) := by
  simp only [store, hb]

theorem store_of_some {frame : SendFrame} {b : ℕ} (hb : s.replacesSeq frame = some b)
    (sender : Identity) :
    s.store sender frame =
      ({ s with lastSeq := s.lastSeq + 1 }.insertMessage (s.sentMessage sender frame)).link b
        (s.sentMessage sender frame).seq := by
  simp only [store, hb]
  rfl

theorem sentMessage_mem_written (s : Room) (sender : Identity) (frame : SendFrame) :
    s.sentMessage sender frame ∈ (s.store sender frame).written := by
  cases hb : s.replacesSeq frame with
  | none =>
    rw [store_of_none hb]
    exact List.mem_append_right _ (List.mem_singleton_self _)
  | some b =>
    rw [store_of_some hb]
    exact List.mem_append_right _ (List.mem_singleton_self _)

/-- A send writes nothing, or stores a message whose target passes the check. -/
theorem send_cases (s : Room) (sender : Identity) (frame : SendFrame) (refused : Option Bool) :
    Keeps s (s.send sender frame refused) ∨
      refused = none ∧ (∀ b, s.replacesSeq frame = some b → s.replacementError frame b = none) ∧
        s.send sender frame refused = s.store sender frame := by
  cases refused with
  | some numbered =>
    cases numbered with
    | true => exact .inl (keeps_number s)
    | false => exact .inl ⟨Nat.le_refl _, Table.Evolves.refl Message.Continues.refl _, rfl, rfl⟩
  | none =>
    cases herror : (s.replacesSeq frame).bind (s.replacementError frame) with
    | some message =>
      have hsend : s.send sender frame none = { s with lastSeq := s.lastSeq + 1 } := by
        simp only [send, herror]
      exact .inl (hsend ▸ keeps_number s)
    | none =>
      refine .inr ⟨rfl, fun b hb => ?_, by simp only [send, herror]⟩
      rwa [hb] at herror

theorem Recorded.send (h : Recorded s) (sender : Identity) (frame : SendFrame)
    (refused : Option Bool) : Recorded (s.send sender frame refused) := by
  obtain hkeeps | ⟨-, hgood, heq⟩ := s.send_cases sender frame refused
  · exact h.keeps hkeeps
  rw [heq]
  have hinsert : Recorded ({ s with lastSeq := s.lastSeq + 1 }.insertMessage
      (s.sentMessage sender frame)) :=
    h.insert rfl rfl fun b hb => h.target hb (hgood b hb)
  cases hb : s.replacesSeq frame with
  | none => exact store_of_none hb sender ▸ hinsert
  | some b =>
    rw [store_of_some hb]
    exact hinsert.link (List.mem_append_right _ (List.mem_singleton_self _)) hb

/-- A review writes nothing, or decides a pending completion and replies. -/
theorem review_cases (s : Room) (seq : ℕ) (reviewer : Identity) (action : ReviewAction)
    (reason : String) (now : Int) :
    s.review seq reviewer action reason now = s ∨
      ∃ row ∈ s.messages, row.seq = seq ∧ row.reviewState = some .pendingReview ∧
        s.review seq reviewer action reason now =
          { s with
            lastSeq := s.lastSeq + 1
            messages := s.messages.update (fun m => m.seq = seq)
              (reviewedMessage reviewer action reason now) fun _ => rfl
            reviewed := s.reviewed ++ [seq] }.insertMessage
              (reviewReply (s.lastSeq + 1) reviewer action reason row.sender.name seq) := by
  cases hrow : s.messages.get? seq with
  | none => exact .inl (by simp only [review, hrow])
  | some row =>
    obtain ⟨hmem, hseq⟩ := Table.get?_eq_some.1 hrow
    cases herror : reviewError reviewer action reason row with
    | some message => exact .inl (by simp only [review, hrow, herror])
    | none =>
      exact .inr ⟨row, hmem, hseq, reviewError_eq_none herror,
        by simp only [review, hrow, herror]⟩

theorem keeps_reviewed (s : Room) (seq : ℕ) (reviewer : Identity) (action : ReviewAction)
    (reason : String) (now : Int) :
    Keeps s { s with
      messages := s.messages.update (fun m => m.seq = seq)
        (reviewedMessage reviewer action reason now) fun _ => rfl } :=
  keeps_update fun _ => ⟨rfl, rfl, rfl, .inr rfl, by cases action <;> nofun⟩

theorem seq_reviewedMessage (reviewer : Identity) (action : ReviewAction) (reason : String)
    (now : Int) (m : Message) : (reviewedMessage reviewer action reason now m).seq = m.seq := rfl

/-- The row that a review has decided waits no longer. -/
theorem Recorded.reviewed (h : Recorded s) {row : Message} (hrow : row ∈ s.messages)
    (hpending : row.reviewState = some .pendingReview) (reviewer : Identity) (action : ReviewAction)
    (reason : String) (now : Int) :
    Recorded { s with
      messages := s.messages.update (fun m => m.seq = row.seq)
        (reviewedMessage reviewer action reason now) fun _ => rfl
      reviewed := s.reviewed ++ [row.seq] } := by
  obtain ⟨m, hm, hseq⟩ := h.rows row hrow
  refine (h.keeps (keeps_reviewed s row.seq reviewer action reason now)).settle
    (hseq ▸ h.bound m hm) (fun hdone => h.settled row.seq hdone row hrow rfl hpending) ?_
  intro after hafter hafterseq
  obtain ⟨before, -, rfl⟩ := (Table.mem_update (seq_reviewedMessage reviewer action reason now)).1 hafter
  by_cases hb : before.seq = row.seq
  · rw [if_pos (decide_eq_true hb)]
    cases action <;> nofun
  · rw [if_neg (by simpa using hb)] at hafterseq
    exact (hb hafterseq).elim

theorem Recorded.review (h : Recorded s) (seq : ℕ) (reviewer : Identity) (action : ReviewAction)
    (reason : String) (now : Int) : Recorded (s.review seq reviewer action reason now) := by
  obtain heq | ⟨row, hrow, rfl, hpending, heq⟩ := s.review_cases seq reviewer action reason now
  · exact heq.symm ▸ h
  · rw [heq]
    exact (h.reviewed hrow hpending reviewer action reason now).insert rfl rfl nofun

theorem Replaced.review (h : Replaced s) (hr : Recorded s) (seq : ℕ) (reviewer : Identity)
    (action : ReviewAction) (reason : String) (now : Int) :
    Replaced (s.review seq reviewer action reason now) := by
  obtain heq | ⟨row, hrow, rfl, hpending, heq⟩ := s.review_cases seq reviewer action reason now
  · exact heq.symm ▸ h
  · rw [heq]
    have hreviewed := h.keeps (keeps_reviewed s row.seq reviewer action reason now)
    exact Replaced.insert (s := { s with
        messages := s.messages.update (fun m => m.seq = row.seq)
          (reviewedMessage reviewer action reason now) fun _ => rfl
        reviewed := s.reviewed ++ [row.seq] })
      ⟨hreviewed.forward, hreviewed.unique⟩
      (hr.reviewed hrow hpending reviewer action reason now) rfl rfl

/-- The new text of a superseded message is a send without a target. -/
theorem supersede_cases (s : Room) (seq : ℕ) (sender : Identity) (body : String)
    (refused : Option Bool) :
    s.supersede seq sender body refused = s ∨
      s.supersede seq sender body refused = s.send sender ⟨.message, body, none, none⟩ refused := by
  unfold supersede
  split
  · exact .inl rfl
  · split
    · exact .inr rfl
    · exact .inl rfl

theorem Recorded.next (h : Recorded s) (e : Event) : Recorded (s.next e) := by
  cases e with
  | send sender frame refused => exact h.send sender frame refused
  | review seq reviewer action reason now => exact h.review seq reviewer action reason now
  | edit seq body => exact h.keeps (keeps_edit s seq body)
  | retract seq => exact h.keeps (keeps_retract s seq)
  | supersede seq sender body refused =>
    change Recorded (s.supersede seq sender body refused)
    obtain heq | heq := s.supersede_cases seq sender body refused <;> rw [heq]
    · exact h
    · exact h.send sender _ refused
  | eraseIdentityData name => exact h.keeps (keeps_eraseIdentityData s name)
  | prune seqs => exact h.keeps (keeps_prune s seqs)
  | cacheChannelMeta gate policy => exact h.keeps (keeps_cacheChannelMeta s gate policy)

end Steps

section Second

/-- A send that replaces a completion finds it without a replacement. -/
def FirstReplacement (s : Room) : Event → Prop
  | .send _ frame refused =>
    refused = none → ∀ b, s.replacesSeq frame = some b → s.replacementError frame b = none →
      ∀ row ∈ s.messages, row.seq = b → row.replacedBySeq = none
  | _ => True

/-- Where the links agree, a completion whose row has no link has no replacement. -/
theorem Replaced.unreplaced (h : Replaced s) {row : Message} (hrow : row ∈ s.messages)
    (hfree : row.replacedBySeq = none) : ∀ m ∈ s.written, m.replacesSeq ≠ some row.seq := by
  intro m hm hb
  have := h.forward row hrow m hm hb
  rw [hfree] at this
  nomatch this

theorem Replaced.send (h : Replaced s) (hr : Recorded s) {sender : Identity} {frame : SendFrame}
    {refused : Option Bool} (hfirst : FirstReplacement s (.send sender frame refused)) :
    Replaced (s.send sender frame refused) := by
  obtain hkeeps | ⟨rfl, hgood, heq⟩ := s.send_cases sender frame refused
  · exact h.keeps hkeeps
  rw [heq]
  cases hb : s.replacesSeq frame with
  | none => exact store_of_none hb sender ▸ h.insert hr rfl hb
  | some b =>
    rw [store_of_some hb]
    obtain ⟨row, hrow, hseq, -⟩ := replacementError_eq_none (hgood b hb)
    have hfree := hfirst rfl b hb (hgood b hb) row hrow hseq
    exact h.insertLinked hr rfl hb fun m hm => hseq ▸ h.unreplaced hrow hfree m hm

/-- A second replacement breaks the links. -/
theorem Replaced.first_of_send (hr : Recorded s) {sender : Identity} {frame : SendFrame}
    {refused : Option Bool} (h : Replaced (s.send sender frame refused)) :
    FirstReplacement s (.send sender frame refused) := by
  rintro rfl b hb hgood row hrow rfl
  by_contra hlinked
  obtain ⟨a, ha⟩ := Option.ne_none_iff_exists'.1 hlinked
  obtain ⟨m, hm, -, hm'⟩ := hr.linked row hrow a ha
  have hsend : s.send sender frame none = s.store sender frame := by
    simp only [Room.send, hb, Option.bind_some, hgood]
  rw [hsend] at h
  have hold : m ∈ (s.store sender frame).written := by
    rw [store_of_some hb]
    exact List.mem_append_left _ hm
  have hsame : m = s.sentMessage sender frame :=
    h.unique m hold _ (sentMessage_mem_written s sender frame) row.seq hm' hb
  have hbound : m.seq ≤ s.lastSeq := hr.bound m hm
  have hnew : (s.sentMessage sender frame).seq = s.lastSeq + 1 := rfl
  rw [hsame, hnew] at hbound
  omega

theorem replaced_next_iff (hr : Recorded s) (h : Replaced s) (e : Event) :
    Replaced (s.next e) ↔ FirstReplacement s e := by
  cases e with
  | send sender frame refused => exact ⟨Replaced.first_of_send hr, h.send hr⟩
  | review seq reviewer action reason now =>
    exact iff_of_true (h.review hr seq reviewer action reason now) trivial
  | edit seq body => exact iff_of_true (h.keeps (keeps_edit s seq body)) trivial
  | retract seq => exact iff_of_true (h.keeps (keeps_retract s seq)) trivial
  | supersede seq sender body refused =>
    refine iff_of_true ?_ trivial
    change Replaced (s.supersede seq sender body refused)
    obtain heq | heq := s.supersede_cases seq sender body refused <;> rw [heq]
    · exact h
    · -- a text that is no completion replaces nothing
      exact h.send hr fun _ b hb => absurd (replacesSeq_eq_some hb).2 nofun
  | eraseIdentityData name => exact iff_of_true (h.keeps (keeps_eraseIdentityData s name)) trivial
  | prune seqs => exact iff_of_true (h.keeps (keeps_prune s seqs)) trivial
  | cacheChannelMeta gate policy =>
    exact iff_of_true (h.keeps (keeps_cacheChannelMeta s gate policy)) trivial

end Second

section Links

/-- The message `a` was sent as the replacement of `b`. -/
def Replaces (s : Room) (a b : Message) : Prop :=
  a ∈ s.written ∧ b ∈ s.written ∧ a.replacesSeq = some b.seq

/-- The links of the completions are inverse to each other and in order. -/
structure Linked (s : Room) : Prop where
  reviewedOnce : s.reviewed.Nodup
  inverse : ∀ row ∈ s.messages, ∀ a, row.replacedBySeq = some a ↔
    ∃ m ∈ s.written, m.seq = a ∧ m.replacesSeq = some row.seq
  unique : ∀ m ∈ s.written, ∀ m' ∈ s.written, ∀ b, m.replacesSeq = some b →
    m'.replacesSeq = some b → m = m'
  chains : ∀ a b, Relation.TransGen s.Replaces a b → b.seq < a.seq ∧ a.kickoffSeq = b.kickoffSeq

theorem Recorded.replaces (h : Recorded s) {a b : Message} (hab : s.Replaces a b) :
    b.seq < a.seq ∧ a.kickoffSeq = b.kickoffSeq := by
  obtain ⟨ha, hb, hreplaces⟩ := hab
  obtain ⟨m₀, hm₀, hseq, hlt, hkickoff⟩ := h.backward a ha b.seq hreplaces
  obtain rfl := h.distinct m₀ hm₀ b hb hseq
  exact ⟨hlt, hkickoff.symm⟩

theorem Recorded.chains (h : Recorded s) {a b : Message} (hab : Relation.TransGen s.Replaces a b) :
    b.seq < a.seq ∧ a.kickoffSeq = b.kickoffSeq := by
  induction hab with
  | single hstep => exact h.replaces hstep
  | tail _ hstep ih =>
    have hlast := h.replaces hstep
    exact ⟨hlast.1.trans ih.1, ih.2.trans hlast.2⟩

theorem linked_iff (h : Recorded s) : Linked s ↔ Replaced s := by
  constructor
  · intro hl
    exact ⟨fun row hrow m hm hb => (hl.inverse row hrow m.seq).2 ⟨m, hm, rfl, hb⟩, hl.unique⟩
  · intro hr
    refine ⟨h.reviewedOnce, fun row hrow a => ⟨h.linked row hrow a, ?_⟩, hr.unique,
      fun _ _ => h.chains⟩
    rintro ⟨m, hm, rfl, hb⟩
    exact hr.forward row hrow m hm hb

theorem step_next (s : Room) (e : Event) : Step s e (s.next e) := rfl

theorem recorded_foldl (gate : CompletionGate) (policy : CompletionReviewPolicy)
    (evs : List Event) : Recorded (evs.foldl next (initial gate policy)) :=
  (run_foldl step_next _ evs).invariant
    (fun _ e _ h hstep => hstep ▸ h.next e) (recorded_initial gate policy)

/-- The links are as they should be along a run exactly when no send of it replaces a completion
that has a replacement. -/
theorem linked_iff_firstReplacement (gate : CompletionGate) (policy : CompletionReviewPolicy)
    (evs : List Event) :
    (∀ pre t, pre <+: evs → Run Step (initial gate policy) pre t → Linked t) ↔
      Throughout next FirstReplacement (initial gate policy) evs := by
  rw [throughout_iff_allReady, allReady_iff (fun s e (h : Recorded s) => h.next e)
    (fun s e hr h => replaced_next_iff hr h e) (recorded_initial gate policy)
    (replaced_initial gate policy)]
  constructor
  · intro h pre hpre
    exact (linked_iff (recorded_foldl gate policy pre)).1
      (h pre _ hpre (run_foldl step_next _ pre))
  · intro h pre t hpre hrun
    obtain rfl := hrun.eq_foldl fun _ _ _ hstep => hstep
    exact (linked_iff (recorded_foldl gate policy pre)).2 (h pre hpre)

def builderIdentity : Identity := ⟨"builder", .agent, some "ana"⟩

def builtArtifact : CompletionArtifact := ⟨7, 1, false, [], [], none⟩

def completionFrame (replaces : Option ℕ) : SendFrame :=
  ⟨.message, "done", some builtArtifact, replaces⟩

/-- A rejected completion and two completions that replace it. -/
def twoReplacements : List Event :=
  [.send builderIdentity (completionFrame none) none,
    .review 1 ⟨"ana", .human, some "ana"⟩ .reject "no tests" 0,
    .send builderIdentity (completionFrame (some 1)) none,
    .send builderIdentity (completionFrame (some 1)) none]

theorem not_linked_twoReplacements :
    ¬ ∀ evs t, Run Step (initial .reviewer .sender) evs t → Linked t := by
  intro h
  have hunique := (h twoReplacements _ (run_foldl step_next _ _)).unique
  have hlater : ∃ m ∈ (twoReplacements.foldl next (initial .reviewer .sender)).written,
      m.seq = 4 ∧ m.replacesSeq = some 1 := by
    decide
  have hearlier : ∃ m ∈ (twoReplacements.foldl next (initial .reviewer .sender)).written,
      m.seq = 3 ∧ m.replacesSeq = some 1 := by
    decide
  obtain ⟨m, hm, hseq, hb⟩ := hlater
  obtain ⟨m', hm', hseq', hb'⟩ := hearlier
  have hsame := hunique m hm m' hm' 1 hb hb'
  rw [← hsame, hseq] at hseq'
  omega

end Links

end Room

end Completions
end AgentParty
