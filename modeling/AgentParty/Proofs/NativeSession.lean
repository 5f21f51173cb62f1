import AgentParty.Cli.NativeSession
import AgentParty.Proofs.DesktopIpc

/-! The native Codex session over a whole run: the start of a turn for one input is handed to the App
again only where the owner of the task has answered that it did not start it. -/

namespace AgentParty
namespace DesktopIpc

open Mentions (Text)

section Attempts

namespace Session

variable {s : Session}

theorem settlement?_mem {requestId : Text} {settlement : Settlement}
    (h : s.settlement? requestId = some settlement) : (requestId, settlement) ∈ s.settled := by
  obtain ⟨entry, hentry, rfl⟩ := Option.map_eq_some_iff.1 h
  obtain rfl : entry.1 = requestId := by simpa using List.find?_some hentry
  exact List.mem_of_find?_eq_some hentry

theorem settlement?_isSome {requestId : Text} (h : requestId ∈ s.settled.map Prod.fst) :
    ∃ settlement, s.settlement? requestId = some settlement := by
  cases hsettlement : s.settlement? requestId with
  | some settlement => exact ⟨settlement, rfl⟩
  | none =>
    obtain ⟨entry, hentry, hid⟩ := List.mem_map.1 h
    have hnone := List.find?_eq_none.1 (Option.map_eq_none_iff.1 hsettlement) entry hentry
    exact absurd hid (by simpa using hnone)

end Session

namespace Attempt

variable {attempt : Attempt}

theorem books (attempt : Attempt) :
    attempt.client.Books (asked attempt.connectRequest attempt.evs) :=
  run_books attempt.around attempt.connectRequest attempt.fresh

/-- Where the frame was handed over, the turn was accepted, or the outcome is open, or the owner has
refused. -/
theorem outcome_of_handed (h : attempt.handed = true) :
    (∃ turnId, attempt.outcome = .ok turnId) ∨ attempt.outcome = .error .unknownOutcome ∨
      attempt.Refused := by
  obtain ⟨out, hout, hstart⟩ := List.any_eq_true.1 h
  cases out with
  | following clientId threadId hostId => simp at hstart
  | request clientId r =>
    obtain ⟨hid, hmethod⟩ : r.requestId = attempt.start.requestId ∧
        r.method = attempt.start.method := by simpa using hstart
    have hasked : attempt.start.requestId ∈ asked attempt.connectRequest attempt.evs := by
      rw [← hid]
      exact attempt.books.perm.mem_iff.1 (attempt.books.known clientId r hout)
    obtain ⟨settlement, hsettlement⟩ := Session.settlement?_isSome (attempt.awaited hasked)
    have hmem := Session.settlement?_mem hsettlement
    have houtcome : attempt.outcome = (answer settlement >>= acceptedTurn) := by
      rw [outcome, client, hsettlement]
    rw [houtcome]
    cases settlement with
    | rejected error =>
      obtain rfl := attempt.books.open_outcome clientId r error hout
        (hmethod.trans attempt.isStart) (hid ▸ hmem)
      exact .inr (.inl rfl)
    | resolved response =>
      cases hsuccess : (response.get "resultType").isText "success" with
      | false =>
        exact .inr (.inr ⟨response, hmem, (attempt.books.response _ _ hmem).2, hsuccess⟩)
      | true =>
        have hanswer : answer (.resolved response) = .ok response := if_pos hsuccess
        rw [hanswer]
        show (∃ turnId, acceptedTurn response = .ok turnId) ∨
          acceptedTurn response = .error .unknownOutcome ∨ _
        unfold acceptedTurn
        split
        · exact .inl ⟨_, rfl⟩
        · exact .inr (.inl rfl)

end Attempt

end Attempts

section Runs

namespace Controller

/-- Whether a further submit of the input would make no attempt. -/
def Barred (s : Controller) (clientId : Text) : Prop :=
  s.closed = true ∨ (s.turnsByClientId clientId).isSome = true ∨ clientId ∈ s.uncertainClientIds

/-- Each attempt that handed its start over was refused, or bars its input; and of two of the same
input the earlier was refused. -/
structure Once (s : Controller) : Prop where
  barred : ∀ entry ∈ s.attempts, entry.2.handed = true → entry.2.Refused ∨ s.Barred entry.1
  refused : s.attempts.Pairwise fun entry later =>
    entry.1 = later.1 → entry.2.handed = true → entry.2.Refused

variable {s : Controller}

theorem Once.congr (h : s.Once) {s' : Controller} (hattempts : s'.attempts = s.attempts)
    (hbarred : ∀ clientId, s.Barred clientId → s'.Barred clientId) : s'.Once := by
  constructor
  · rw [hattempts]
    exact fun entry hentry hhanded => (h.barred entry hentry hhanded).imp_right (hbarred _)
  · rw [hattempts]
    exact h.refused

theorem barred_setTurn {clientId id : Text} (turnId : Text) (h : s.Barred id ∨ id = clientId) :
    (s.setTurn clientId turnId).Barred id := by
  by_cases hid : id = clientId
  · exact .inr (.inl (by simp [setTurn, hid]))
  · rcases h.resolve_right hid with hclosed | hturn | huncertain
    · exact .inl hclosed
    · exact .inr (.inl (by simpa [setTurn, hid] using hturn))
    · exact .inr (.inr huncertain)

theorem Once.submitExclusive (h : s.Once) (clientId : Text) (attempt : Attempt) :
    (s.submitExclusive clientId attempt).Once := by
  unfold Controller.submitExclusive
  split
  · exact h
  split
  · exact h
  split
  · exact h
  rename_i hopen hturn huncertain
  have hfree : ¬ s.Barred clientId := by
    rintro (hclosed | hsome | hmem)
    · exact hopen hclosed
    · exact hturn hsome
    · exact huncertain hmem
  have hrefused : (s.attempts ++ [(clientId, attempt)]).Pairwise fun entry later =>
      entry.1 = later.1 → entry.2.handed = true → entry.2.Refused := by
    rw [List.pairwise_append]
    refine ⟨h.refused, List.pairwise_singleton _ _, fun entry hentry later hlater hid hhanded => ?_⟩
    obtain rfl := List.mem_singleton.1 hlater
    exact (h.barred entry hentry hhanded).resolve_right (hid ▸ hfree)
  have hbarred : ∀ s' : Controller, s'.attempts = s.attempts ++ [(clientId, attempt)] →
      (∀ id, s.Barred id → s'.Barred id) →
      (attempt.handed = true → attempt.Refused ∨ s'.Barred clientId) → s'.Once := by
    intro s' hattempts hkept hlast
    refine ⟨fun entry hentry hhanded => ?_, hattempts ▸ hrefused⟩
    rw [hattempts] at hentry
    rcases List.mem_append.1 hentry with hold | hnew
    · exact (h.barred entry hold hhanded).imp_right (hkept _)
    · obtain rfl := List.mem_singleton.1 hnew
      exact hlast hhanded
  dsimp only
  split
  · exact hbarred _ rfl (fun id hid => barred_setTurn _ (.inl hid))
      fun _ => .inr (barred_setTurn _ (.inr rfl))
  · refine hbarred _ rfl (fun id hid => ?_) fun _ => .inr (.inr (.inr List.mem_cons_self))
    rcases hid with hclosed | hsome | hmem
    · exact .inl hclosed
    · exact .inr (.inl hsome)
    · exact .inr (.inr (List.mem_cons_of_mem _ hmem))
  · rename_i error hunknown herror
    refine hbarred _ rfl (fun id hid => hid) fun hhanded => .inl ?_
    rcases attempt.outcome_of_handed hhanded with ⟨turnId, hok⟩ | hopen | hrefused
    · exact absurd (herror.symm.trans hok) (by simp)
    · obtain rfl : error = .unknownOutcome := by simpa using herror.symm.trans hopen
      exact absurd rfl hunknown
    · exact hrefused

theorem Once.next (h : s.Once) (e : Event) : (s.next e).Once := by
  cases e with
  | submit clientId attempt => exact h.submitExclusive clientId attempt
  | followed clientId turnId =>
    refine h.congr rfl fun id hid => barred_setTurn turnId ?_
    by_cases hsame : id = clientId
    · exact .inr hsame
    · refine .inl ?_
      rcases hid with hclosed | hsome | hmem
      · exact .inl hclosed
      · exact .inr (.inl hsome)
      · exact .inr (.inr (by simp [hmem, hsame]))
  | complete clientId turnId =>
    show (s.complete clientId turnId).Once
    unfold Controller.complete
    split
    · exact h
    · exact h.congr rfl fun id hid => barred_setTurn turnId (.inl hid)
  | close => exact h.congr rfl fun id _ => .inl rfl

/-- Whatever the clients of a session meet (lost responses, failing writes, closed streams), and
whenever turns are found or completed: of two attempts for one input, if the earlier has handed the
start of a turn to the App, the owner has answered it with a refusal. -/
theorem starts_once (evs : List Event) :
    (evs.foldl next new).attempts.Pairwise fun entry later =>
      entry.1 = later.1 → entry.2.handed = true → entry.2.Refused := by
  have honce : (evs.foldl next new).Once := by
    induction evs using List.reverseRecOn with
    | nil => exact ⟨by simp [new], by simp [new]⟩
    | append_singleton evs e ih =>
      rw [List.foldl_append]
      exact ih.next e
  exact honce.refused

/-- A start whose response is lost bars its input. -/
example : ∃ attempt : Attempt, attempt.handed = true ∧
    ((new.submitExclusive [1] attempt).submitExclusive [1] attempt).attempts.length = 1 :=
  ⟨{ around := snapshots
     connectRequest := firstRequest
     evs := [.inl (.request ⟨[2], .threadFollowerStartTurn, .null, none, 0⟩), .inl .streamClosed]
     start := ⟨[2], .threadFollowerStartTurn, .null, none, 0⟩
     fresh := by decide
     isStart := rfl
     awaited := fun _ => by decide }, by decide, by decide⟩

end Controller

end Runs

end DesktopIpc
end AgentParty
