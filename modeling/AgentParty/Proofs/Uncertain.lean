import AgentParty.Proofs.Kept

/-! The fence of the unknown outcomes, and at most one write for an input. -/

namespace AgentParty
namespace Codex

namespace Arbiter

variable {a a' : Arbiter} {clientId id : String} {state : Option JournalState}

theorem uncertain_of_others (hothers : ∀ id, id ≠ clientId → a'.journal id = a.journal id ∨ Left a a' id)
    (hne : id ≠ clientId) (hj : a.journal id = some .uncertain) :
    a'.journal id = some .uncertain := by
  rcases hothers id hne with h | h
  · exact h.trans hj
  · have := h.1
    rw [hj] at this
    cases this

theorem Closes.uncertain_other (hc : Closes clientId state a a') (hne : id ≠ clientId)
    (hj : a.journal id = some .uncertain) : a'.journal id = some .uncertain := by
  rcases hc.journal with ⟨-, -, hothers⟩ | ⟨-, hsame⟩
  · exact uncertain_of_others hothers hne hj
  · exact (hsame id).trans hj

end Arbiter

namespace Lane
open Arbiter

variable {h h' : Hand} {s s' : Lane} {fresh evidence : List String} {id : String}

/-- Without evidence an uncertain id stays uncertain. -/
theorem Move.uncertain (hm : Move fresh evidence h s h' s') (hb : Books h s.arbiter)
    (hid : id ∉ evidence) (hj : s.arbiter.journal id = some .uncertain) :
    s'.arbiter.journal id = some .uncertain := by
  have hne : ∀ clientId, s.arbiter.journal clientId ≠ some .uncertain → id ≠ clientId :=
    fun clientId h he => h (he ▸ hj)
  have hheld : ∀ clientId, h.clientId = some clientId → id ≠ clientId :=
    fun clientId hc => hne clientId (by simp [hb.free clientId hc])
  cases hm with
  | plain hs => exact (congrFun hs.journal id).trans hj
  | activeTurn _ _ turnId =>
    rcases (setActiveTurn_sheds hb.tidy turnId).journal id with h | h
    · exact h.trans hj
    · have := h.1
      rw [hj] at this
      cases this
  | mutation => exact hj
  | enqueue reason hn hroom =>
    exact uncertain_of_others (enqueue_noted reason hn hroom).others (hne _ (by simp [hn])) hj
  | @take s entry rest hq hc =>
    have hqueued := hb.queued entry.input.clientUserMessageId (by simp [queuedIds, hq])
    exact uncertain_of_others (deleteJournalState_noted { s.arbiter with queue := rest } _).others
      (hne _ (by simp [hqueued])) hj
  | pick => exact hj
  | settle _ _ clientId answers =>
    unfold settleRollbackDebt
    split
    · exact hj
    · dsimp only
      split_ifs <;> exact hj
  | beforeWrite => exact hj
  | write => exact hj
  | rollBack answers =>
    unfold Lane.rollBack
    dsimp only
    split_ifs <;> exact hj
  | accept hc => exact hc.uncertain_other (hheld _ rfl) hj
  | lose input =>
    exact uncertain_of_others (setJournalState_noted s.arbiter _ .uncertain).others (hheld _ rfl) hj
  | restore entry =>
    exact uncertain_of_others (setJournalState_noted
      { s.arbiter with queue := entry :: s.arbiter.queue } _ .queued).others (hheld _ rfl) hj
  | drop => exact hj
  | @cancel s clientId index hi =>
    obtain ⟨hlt, hfound, -⟩ := List.findIdx?_eq_some_iff_getElem.1 hi
    have hqueued := hb.queued clientId
      (List.mem_map.2 ⟨_, List.getElem_mem hlt, by simpa using hfound⟩)
    exact uncertain_of_others (deleteJournalState_noted
      { s.arbiter with queue := s.arbiter.queue.eraseIdx index } clientId).others
        (hne _ (by simp [hqueued])) hj
  | @reconcile s activeClientIds clientIds hsub =>
    refine (reconcile_invariant (I := fun ids s => (∀ id ∈ ids, id ∈ evidence) ∧
      s.arbiter.journal id = some .uncertain) (fun clientId ids s hi => ?_) _ s ?_).2
    · exact ⟨fun id hid => hi.1 id (List.mem_cons_of_mem _ hid),
        (reconcileAccepted_closes s activeClientIds clientId).uncertain_other
          (fun he => hid (he ▸ hi.1 clientId List.mem_cons_self)) hi.2⟩
    · exact ⟨fun id hid => hsub id (List.mem_eraseDups.1 hid), hj⟩
  | resolve outcome he _ _ _ _ hc => exact hc.uncertain_other (fun heq => hid (heq ▸ he)) hj

theorem Moves.uncertain (hm : Moves fresh evidence h s h' s') (hb : Books h s.arbiter)
    (hid : id ∉ evidence) (hj : s.arbiter.journal id = some .uncertain) :
    s'.arbiter.journal id = some .uncertain :=
  (hm.invariant (I := fun h s => Books h s.arbiter ∧ s.arbiter.journal id = some .uncertain)
    (fun _ _ _ _ hi hmove => ⟨hmove.books hi.1, hmove.uncertain hi.1 hid hi.2⟩) ⟨hb, hj⟩).2

end Lane

namespace Session
open Lane

/-- A transport that answers `transport`, with callbacks that throw nothing before the write
and roll back as `rollsBack` says. -/
def answering (transport : Except Thrown String) (rollsBack : Bool) : WriteAnswers where
  rollbackDebt := rollsBack
  beforeWrite := none
  checkWriteAuthorized := none
  transport := transport
  onWriteRejected := rollsBack
  onQueuedDispatch := none

/-- While an outcome is uncertain, or the journal of the active turn has overflowed, no
request goes out. The two records of uncertainty agree, and an id leaves them on evidence
only. -/
theorem uncertain_outcome_fences {options : ArbiterOptions} {s : Session}
    (h : Reachable options s) :
    (∀ a e, (a, e) ∈ s.lane.trace → e.sent →
      a.activeTurnJournalOverflowed = false ∧ ∀ id, a.journal id ≠ some .uncertain) ∧
    (s.lane.arbiter.activeTurnJournalOverflowed = false → ∀ id,
      (∃ i ∈ s.lane.arbiter.uncertainInputs, i.clientUserMessageId = id) ↔
        s.lane.arbiter.journal id = some .uncertain) ∧
    ∀ op s' id, Step s op s' → s.lane.arbiter.journal id = some .uncertain →
      s'.lane.arbiter.journal id = some .uncertain ∨ id ∈ op.evidence := by
  have hk := kept_of_reachable h
  refine ⟨fun a e hp => hk.calm (a, e) hp, fun hover id => ⟨?_, fun hj => ?_⟩,
    fun op s' id hs hj => ?_⟩
  · rintro ⟨i, hi, rfl⟩
    exact hk.books.uncertain i hi
  · refine (hk.books.known id hj).resolve_left fun ho => ?_
    rw [hover] at ho
    cases ho
  · obtain ⟨-, rfl⟩ := hs
    by_cases hid : id ∈ op.evidence
    · exact Or.inr hid
    · exact Or.inl ((apply_moves hk.books.tidy op).uncertain hk.books hid hj)

def sampleOptions : ArbiterOptions := ⟨"thread", 2, by decide, 2, by decide, 2, by decide⟩

def sampleInput : BridgeInput := ⟨"hello", "m1", none⟩

/-- The thread is resumed idle, and nobody knows what became of the write of the input. -/
def lostWriteOps : List Op :=
  [.observeResume ⟨.idle, []⟩ false fun _ => answering (.error .other) true,
    .submit sampleInput fun _ => answering (.error .other) true]

theorem uncertain_outcome_fences_lost :
    ((initial sampleOptions).exec lostWriteOps).lane.arbiter.journal "m1" = some .uncertain ∧
      ((((initial sampleOptions).exec lostWriteOps).next
          (.cancelQueued "m1")).lane.arbiter.journal "m1" = some .uncertain ∨
        "m1" ∈ (Op.cancelQueued "m1").evidence) := by
  have hreach : Reachable sampleOptions ((initial sampleOptions).exec lostWriteOps) :=
    ⟨lostWriteOps, run_exec (by simp [lostWriteOps, Enabled])⟩
  exact ⟨by decide,
    (uncertain_outcome_fences hreach).2.2 _ _ "m1" ⟨trivial, rfl⟩ (by decide)⟩

end Session
end Codex
end AgentParty
