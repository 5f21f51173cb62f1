import AgentParty.Proofs.Fate

/-! Every move of the lane keeps to the rules: what is written was free, and the books know
the fate of every id that never left the journal. -/

namespace AgentParty
namespace Codex
namespace Lane
open Arbiter

variable {h h' : Hand} {s s' : Lane} {fresh evidence : List String}

/-- Nothing but the hand or the debts moves. -/
theorem Kept.still (hk : Kept h s) (hm : Move fresh evidence h s h' s') (ht : s'.trace = s.trace)
    (hev : s'.arbiter.evicted = s.arbiter.evicted)
    (hj : s'.arbiter.journal = s.arbiter.journal)
    (ho : ∀ id, s.arbiter.owes id → s'.arbiter.owes id)
    (hover : s'.arbiter.activeTurnJournalOverflowed = s.arbiter.activeTurnJournalOverflowed)
    (hh : h = h' ∨ h.settling = none) : Kept h' s' := by
  refine hk.quiet hm ht (fun id h => hev ▸ h) fun id _ f hf => ?_
  exact hf.frame (congrFun hj id) (ho id) (fun h => hover.trans h)
    (hh.imp_right fun h => by simp [h])

theorem settle_kept (clientId : String) (answers : WriteAnswers) (hk : Kept h s) :
    Kept h (s.settleRollbackDebt clientId answers).1 := by
  have hm : Move [] [] h s h _ := Move.settle h s clientId answers
  have hspec : ((s.settleRollbackDebt clientId answers).1 = s) ∨
      ((s.settleRollbackDebt clientId answers).1 =
        { trace := s.trace ++ [(s.arbiter, .rollback clientId true)]
          arbiter := { s.arbiter with rollbackDebts :=
            s.arbiter.rollbackDebts.delete fun i => i.clientUserMessageId = clientId } }) ∨
      (s.settleRollbackDebt clientId answers).1 = s.emit (.rollback clientId false) := by
    unfold settleRollbackDebt
    split
    · exact Or.inl rfl
    · cases answers.rollbackDebt
      · exact Or.inr (Or.inr rfl)
      · exact Or.inr (Or.inl rfl)
  rcases hspec with he | he | he <;> rw [he] at hm ⊢
  · exact hk
  · refine hk.emits hm rfl (fun _ h => h) (fun h => h.elim) (fun _ _ h => h.elim) fun id _ f hf => ?_
    by_cases hid : clientId = id
    · rw [show Effect.after id f (.rollback clientId true) = f.rolledBack from if_pos ⟨hid, rfl⟩]
      exact hf.rolledBack rfl (fun h => h) (Or.inl rfl)
    · rw [show Effect.after id f (.rollback clientId true) = f from if_neg fun h => hid h.1]
      refine hf.frame rfl (fun ⟨i, hi, hk⟩ => ⟨i, Table.mem_delete.2 ⟨hi, ?_⟩, hk⟩) (fun h => h) (Or.inl rfl)
      simpa [hk] using Ne.symm hid
  · refine hk.emits hm rfl (fun _ h => h) (fun h => h.elim) (fun _ _ h => h.elim) fun id _ f hf => ?_
    rw [show Effect.after id f (.rollback clientId false) = f from if_neg fun h => nomatch h.2]
    exact hf

theorem rollBack_kept {input : BridgeInput} (answers : WriteAnswers) (hk : Kept h s)
    (hh : h = .held input.clientUserMessageId ∨ h = .refused input.clientUserMessageId) :
    Kept (.held input.clientUserMessageId) (s.rollBack input answers) := by
  have hm : Move [] [] h s _ (s.rollBack input answers) := Move.rollBack answers hh
  have hhand : ∀ id, h = .held input.clientUserMessageId ∨ h.settling ≠ some id ∨
      h = .refused id := fun id => by
    rcases hh with rfl | rfl
    · exact Or.inl rfl
    · by_cases hid : input.clientUserMessageId = id
      · exact Or.inr (Or.inr (by rw [hid]))
      · exact Or.inr (Or.inl fun h => hid (Option.some.inj h))
  have hother : ∀ id, input.clientUserMessageId ≠ id →
      h = .held input.clientUserMessageId ∨ h.settling ≠ some id := fun id hne => by
    rcases hh with rfl | rfl
    · exact Or.inl rfl
    · exact Or.inr fun h => hne (Option.some.inj h)
  cases hdone : answers.onWriteRejected
  · have he : s.rollBack input answers =
        (s.emit (.rollback input.clientUserMessageId false)).registerRollbackDebt input := by
      simp [rollBack, hdone]
    rw [he] at hm ⊢
    have howes : ∀ id, s.arbiter.owes id →
        ((s.emit (.rollback input.clientUserMessageId false)).registerRollbackDebt
          input).arbiter.owes id := by
      rintro id ⟨i, hi, rfl⟩
      by_cases hid : i.clientUserMessageId = input.clientUserMessageId
      · exact ⟨input, Table.mem_put.2 (Or.inl rfl), hid.symm⟩
      · exact ⟨i, Table.mem_put.2 (Or.inr ⟨hi, hid⟩), rfl⟩
    refine hk.emits hm rfl (fun _ h => h) (fun h => h.elim) (fun _ _ h => h.elim) fun id _ f hf => ?_
    rw [show Effect.after id f (.rollback input.clientUserMessageId false) = f from
      if_neg fun h => nomatch h.2]
    by_cases hid : input.clientUserMessageId = id
    · subst hid
      cases f with
      | free => trivial
      | owing => exact Or.inl ⟨input, Table.mem_put.2 (Or.inl rfl), rfl⟩
      | unknown => exact hf.imp_right fun hu => by rcases hh with rfl | rfl <;> cases hu
      | settled =>
        exact hf.imp_right (Or.imp_right fun ha => by rcases hh with rfl | rfl <;> cases ha)
    · exact hf.frame rfl (howes id) (fun h => h) (hother id hid)
  · have he : s.rollBack input answers = s.emit (.rollback input.clientUserMessageId true) := by
      simp [rollBack, hdone]
    rw [he] at hm ⊢
    refine hk.emits hm rfl (fun _ h => h) (fun h => h.elim) (fun _ _ h => h.elim) fun id _ f hf => ?_
    by_cases hid : input.clientUserMessageId = id
    · rw [show Effect.after id f (.rollback input.clientUserMessageId true) = f.rolledBack from
        if_pos ⟨hid, rfl⟩]
      exact hf.rolledBack rfl (fun h => h) (Or.inr (by rcases hh with rfl | rfl <;> simp))
    · rw [show Effect.after id f (.rollback input.clientUserMessageId true) = f from
        if_neg fun h => hid h.1]
      exact hf.frame rfl (fun h => h) (fun h => h) (hother id hid)

/-- The input in hand is free, as far as the books know it. -/
theorem Kept.free {clientId : String} (hk : Kept (.held clientId) s)
    (ho : ¬ s.arbiter.owes clientId) (hev : clientId ∉ s.arbiter.evicted) :
    fate clientId s.effects = .free := by
  have hj := hk.books.free clientId rfl
  rcases (hk.known clientId hev).fresh (by simp [hj]) (by simp [hj]) nofun with
    hf | ⟨-, howes⟩ | ⟨-, hover⟩
  · exact hf
  · exact absurd howes ho
  · rw [(clear_iff.1 (hk.books.calm rfl)).2] at hover
    cases hover

theorem Kept.calm_here (hk : Kept h s) (hc : s.arbiter.Clear) (e : Effect) : Calm (s.arbiter, e) :=
  fun _ => ⟨(clear_iff.1 hc).2, hk.books.certain hc⟩

theorem beforeWrite_kept {clientId : String} (thrown : Option Thrown)
    (hk : Kept (.held clientId) s) (ho : ¬ s.arbiter.owes clientId) :
    Kept (.held clientId) (s.emit (.beforeWrite clientId thrown)) := by
  have hm : Move [] [] _ s _ (s.emit (.beforeWrite clientId thrown)) := Move.beforeWrite thrown ho
  refine hk.emits hm rfl (fun _ h => h) (fun h => h.elim) ?_ fun _ _ _ hf => hf
  rintro id hid rfl
  exact hk.free ho hid

theorem write_kept {params : TurnParams} (answer : Except Thrown String)
    (hk : Kept (.held params.clientUserMessageId) s)
    (ho : ¬ s.arbiter.owes params.clientUserMessageId) :
    Kept (.answered params.clientUserMessageId answer) (s.emit (.write params answer)) := by
  have hm : Move [] [] _ s _ (s.emit (.write params answer)) := Move.write answer ho
  refine hk.emits hm rfl (fun _ h => h) (hk.calm_here (hk.books.calm rfl) _) ?_ fun id _ f hf => ?_
  · rintro id hid rfl
    exact hk.free ho hid
  · by_cases hid : params.clientUserMessageId = id
    · subst hid
      rw [show Effect.after _ f (.write params answer) = .answered answer from if_pos rfl]
      cases answer with
      | ok turnId => exact Or.inr (Or.inr rfl)
      | error e =>
        unfold Fate.answered Hand.answered
        dsimp only
        split_ifs
        · exact Or.inr rfl
        · exact Or.inr rfl
    · rw [after_write_other hid]
      exact hf.frame rfl (fun h => h) (fun h => h) (Or.inr nofun)

/-- The fates behind an id that becomes known: its own, and those of the others. -/
theorem known_of_closes {clientId id : String} {state : Option JournalState} {a a' : Arbiter}
    {f g : Fate} (hc : Closes clientId state a a') (hev : id ∉ a'.evicted)
    (hown : id = clientId → (a'.activeTurnJournalOverflowed = a.activeTurnJournalOverflowed ∧
      a'.journal id = state) ∨ a'.activeTurnJournalOverflowed = true → g.Known id h' a')
    (hg : id ≠ clientId → g = f) (hh : id ≠ clientId → h = h' ∨ h.settling ≠ some id)
    (hf : f.Known id h a) : g.Known id h' a' := by
  by_cases hne : id = clientId
  · refine hown hne ?_
    subst hne
    rcases hc.journal with ⟨hover, he | ⟨-, -, hout⟩, -⟩ | ⟨hover, -⟩
    · exact Or.inl ⟨hover, he⟩
    · exact absurd hout hev
    · exact Or.inr hover
  · rw [hg hne]
    rcases hc.journal with ⟨hover, -, hothers⟩ | ⟨hover, hj⟩
    · exact known_of_others hothers hev hne hc.owes (hover.trans ·) (hh hne) hf
    · exact hf.frame (hj id) hc.owes (fun _ => hover) (hh hne)

/-- The id whose fate became known is settled. -/
theorem known_settled {id : String} {state : Option JournalState} {a a' : Arbiter}
    (hstate : state.any (·.terminal) = true)
    (hj : (a'.activeTurnJournalOverflowed = a.activeTurnJournalOverflowed ∧
      a'.journal id = state) ∨ a'.activeTurnJournalOverflowed = true) :
    Fate.settled.Known id h' a' := by
  rcases hj with ⟨-, hj⟩ | hover
  · exact Or.inr (Or.inl (hj ▸ hstate))
  · exact Or.inl hover

theorem accept_kept {clientId : String} {a : Arbiter} (hk : Kept (.accepted clientId) s)
    (hc : Closes clientId (some .accepted) s.arbiter a) : Kept .empty (s.withArbiter a) := by
  have hm : Move [] [] _ s _ (s.withArbiter a) := Move.accept hc
  refine hk.quiet hm rfl hc.evicted fun id hid f hf => ?_
  refine known_of_closes hc hid (fun hne hj => ?_) (fun _ => rfl)
    (fun hne => Or.inr (by simpa [Hand.settling] using Ne.symm hne)) hf
  subst hne
  cases f with
  | free => trivial
  | owing =>
    have hq := (hk.books.owed id (hf.resolve_right nofun)).resolve_right nofun
    exact absurd hq (hk.books.not_queued rfl)
  | unknown =>
    have hu := hf.resolve_right nofun
    rw [hk.books.free id rfl] at hu
    cases hu
  | settled => exact known_settled rfl hj

theorem lose_kept {input : BridgeInput} (hk : Kept (.unknown input.clientUserMessageId) s) :
    Kept .empty (s.uncertain input).1 := by
  have hm : Move [] [] _ s _ (s.uncertain input).1 := Move.lose input
  have hn := setJournalState_noted s.arbiter input.clientUserMessageId .uncertain
  have hentry := hn.entry.resolve_right fun h => by cases h.1
  have ho : ∀ id, s.arbiter.owes id → (s.uncertain input).1.arbiter.owes id := fun id ho => by
    obtain ⟨i, hi, hid⟩ := ho
    exact ⟨i, hn.debts.symm ▸ hi, hid⟩
  refine hk.quiet hm rfl hn.evicted fun id hid f hf => ?_
  by_cases hne : id = input.clientUserMessageId
  · subst hne
    cases f with
    | free => trivial
    | owing => exact Or.inl (ho _ (hf.resolve_right nofun))
    | unknown => exact Or.inl hentry
    | settled =>
      rcases hf with hover | ht | hh
      · exact Or.inl (hn.overflow.trans hover)
      · rw [hk.books.free _ rfl] at ht
        cases ht
      · cases hh
  · exact known_of_others hn.others hid hne (ho id) hn.overflow.trans
      (Or.inr (by simpa [Hand.settling] using Ne.symm hne)) hf

theorem cancel_kept {clientId : String} {index : ℕ} (hk : Kept .empty s)
    (hi : (s.arbiter.queue.findIdx? fun entry => entry.input.clientUserMessageId = clientId) =
      some index) : Kept .empty (s.dropQueued clientId index) := by
  have hm : Move [] [] _ s _ (s.dropQueued clientId index) := Move.cancel hi
  obtain ⟨hlt, hid, -⟩ := List.findIdx?_eq_some_iff_getElem.1 hi
  have hj : s.arbiter.journal clientId = some .queued := by
    refine hk.books.queued clientId (List.mem_map.2 ⟨_, List.getElem_mem hlt, ?_⟩)
    simpa using hid
  refine hk.emits hm rfl (fun _ h => h) (fun h => h.elim) (fun _ _ h => h.elim) fun id _ f hf => ?_
  by_cases hne : clientId = id
  · subst hne
    rw [show Effect.after clientId f (.cancelled clientId) = f.rolledBack from if_pos rfl]
    rcases hf.fresh (by simp [hj]) (by simp [hj, JournalState.terminal]) (by simp [Hand.settling]) with
      rfl | ⟨rfl, -⟩ | ⟨rfl, hover⟩
    · trivial
    · trivial
    · exact Or.inl hover
  · rw [show Effect.after id f (.cancelled clientId) = f from if_neg hne]
    refine hf.frame ?_ ?_ (fun h => h) (Or.inl rfl)
    · simp [dropQueued, modify, deleteJournalState, emit, Ne.symm hne]
    · rintro ⟨i, hi, hk⟩
      exact ⟨i, Table.mem_delete.2 ⟨hi, by simpa [hk] using Ne.symm hne⟩, hk⟩

theorem resolve_kept {clientId : String} {state : Option JournalState} {a : Arbiter}
    (outcome : Resolution) (hk : Kept .empty s)
    (hj : s.arbiter.journal clientId = some .uncertain)
    (hnone : outcome = .notAccepted → state = none)
    (hsome : outcome ≠ .notAccepted → state.any (·.terminal) = true)
    (hc : Closes clientId state s.arbiter a) :
    Kept .empty ((s.emit (.resolved clientId outcome)).withArbiter a) := by
  have hm : Move [clientId] [clientId] _ s _ ((s.emit (.resolved clientId outcome)).withArbiter a) :=
    Move.resolve outcome (by simp) (by simp) hj hnone hsome hc
  refine hk.emits hm rfl hc.evicted (fun h => h.elim) (fun _ _ h => h.elim) fun id hid f hf => ?_
  refine known_of_closes (f := f) hc hid (fun hne hentry => ?_) (fun hne => if_neg (Ne.symm hne))
    (fun _ => Or.inl rfl) hf
  subst hne
  rw [show Effect.after id f (.resolved id outcome) = f.resolved outcome from if_pos rfl]
  by_cases ho : outcome = .notAccepted
  · subst ho
    cases f with
    | free => trivial
    | unknown => trivial
    | owing => exact Or.inl (hc.owes (hf.resolve_right nofun))
    | settled =>
      rcases hf with hover | ht | hh
      · rcases hentry with ⟨hsame, -⟩ | hover'
        · exact Or.inl (hsame.trans hover)
        · exact Or.inl hover'
      · rw [hj] at ht
        cases ht
      · cases hh
  · have hr : f.resolved outcome = .settled := by
      cases outcome with
      | notAccepted => exact absurd rfl ho
      | accepted => rfl
      | abandoned => rfl
    rw [hr]
    exact known_settled (hsome ho) hentry

/-- The reconciliation of accepted ids, with the ids that are still to be reconciled. -/
structure Reconciling (ids : List String) (s : Lane) : Prop where
  books : Books .empty s.arbiter
  unqueued : ∀ id ∈ ids, id ∉ s.arbiter.queuedIds
  calm : ∀ p ∈ s.trace, Calm p
  lawful : ∀ id ∉ s.arbiter.evicted, Lawful id s.effects
  known : ∀ id ∉ s.arbiter.evicted, id ∉ ids → (fate id s.effects).Known id .empty s.arbiter

theorem reconcileAccepted_trace (s : Lane) (activeClientIds : List String) (clientId : String) :
    (s.reconcileAccepted activeClientIds clientId).trace =
      s.trace ++ [(s.arbiter, .observed clientId)] := by
  unfold reconcileAccepted
  dsimp only
  split_ifs <;> rfl

theorem Reconciling.step {id : String} {ids : List String} (activeClientIds : List String)
    (hr : Reconciling (id :: ids) s) : Reconciling ids (s.reconcileAccepted activeClientIds id) := by
  have hc := reconcileAccepted_closes s activeClientIds id
  have he : (s.reconcileAccepted activeClientIds id).effects =
      s.effects ++ [Effect.observed id] := by
    simp [effects, reconcileAccepted_trace]
  have hheld : ∀ id', Hand.empty ≠ .held id' := by
    intro id' h
    cases h
  refine ⟨hr.books.closes hc (hr.unqueued id List.mem_cons_self) (by decide) hheld, fun id' hid' => ?_,
    fun p hp => ?_, fun id' hev => ?_, fun id' hev hids => ?_⟩
  · rw [queuedIds, hc.queue]
    exact hr.unqueued id' (List.mem_cons_of_mem _ hid')
  · rw [reconcileAccepted_trace, List.mem_append, List.mem_singleton] at hp
    rcases hp with hp | rfl
    · exact hr.calm p hp
    · exact fun h => h.elim
  · rw [he]
    intro l e hl hwrites
    rcases List.prefix_concat_iff.1 hl with heq | hl
    · obtain ⟨rfl, hlast⟩ := List.append_inj' heq rfl
      obtain rfl := List.singleton_inj.1 hlast
      exact hwrites.elim
    · exact hr.lawful id' (fun h => hev (hc.evicted id' h)) l e hl hwrites
  · rw [he, fate_concat]
    by_cases hne : id' = id
    · subst hne
      rw [show Effect.after id' _ (.observed id') = .settled from if_pos rfl]
      exact known_of_closes (f := .free) hc hev (fun _ => known_settled rfl) (fun h => absurd rfl h)
        (fun _ => Or.inl rfl) trivial
    · rw [show Effect.after id' _ (.observed id) = _ from if_neg (Ne.symm hne)]
      exact known_of_closes hc hev (fun h => absurd h hne) (fun _ => rfl) (fun _ => Or.inl rfl)
        (hr.known id' (fun h => hev (hc.evicted id' h)) (by simp [hne, hids]))

theorem reconcile_kept (hk : Kept .empty s) (clientIds activeClientIds : List String) :
    Kept .empty (s.reconcileAcceptedClientIds clientIds activeClientIds) := by
  have hstart : Reconciling clientIds.eraseDups (s.modify (dropAccepted clientIds)) := by
    refine ⟨dropAccepted_books hk.books clientIds, fun id hid hq => ?_, hk.calm, hk.lawful,
      fun id hev hid => ?_⟩
    · exact ((dropAccepted_ids s.arbiter clientIds id).1 hq).2 (List.mem_eraseDups.1 hid)
    · refine (hk.known id hev).frame rfl (fun ⟨i, hi, hk⟩ => ⟨i, dropAccepted_debts.2 ⟨hi, ?_⟩, hk⟩)
        (fun h => h) (Or.inl rfl)
      rw [hk]
      exact fun h => hid (List.mem_eraseDups.2 h.2)
  have hend := reconcile_invariant (fun _ _ _ hi => hi.step activeClientIds) clientIds s hstart
  exact ⟨hend.books, hend.calm, hend.lawful, fun id hev => hend.known id hev List.not_mem_nil⟩

theorem enqueue_trace (s : Lane) (input : BridgeInput) (reason : DispatchReason) :
    (s.enqueue input reason).1.trace = s.trace := rfl

/-- Every move keeps to the rules. -/
theorem Move.kept (hm : Move fresh evidence h s h' s') (hk : Kept h s) : Kept h' s' := by
  have hmove := hm
  cases hm with
  | plain hs =>
    refine hk.still hmove hs.trace hs.evicted hs.journal (fun id ho => ?_) hs.overflow (Or.inl rfl)
    rw [owes, hs.debts]
    exact ho
  | activeTurn _ _ turnId =>
    have hs := setActiveTurn_sheds hk.books.tidy turnId
    refine hk.quiet hmove rfl hs.evicted fun id hev f hf => ?_
    rcases hs.journal id with hj | hl
    · refine hf.frame hj (fun ho => ?_) hs.overflow.trans (Or.inl rfl)
      rw [owes]
      exact hs.debts.symm ▸ ho
    · exact absurd hl.2.2 hev
  | mutation method answer hc =>
    exact hk.emits hmove rfl (fun _ h => h) (hk.calm_here hc _) (fun _ _ h => h.elim)
      fun _ _ _ hf => hf
  | enqueue reason hj hroom hh =>
    have hn := enqueue_noted reason hj hroom
    refine hk.quiet hmove rfl hn.evicted fun id hev f hf => ?_
    refine known_of_noted hn.others hev ?_ hn.overflow.trans (Or.inl hj) ?_ hf
    · rintro ⟨i, hi, hk⟩
      exact ⟨i, hn.debts.symm ▸ hi, hk⟩
    · rcases hh with rfl | rfl <;> rfl
  | @take s entry rest hq hc =>
    have hn := deleteJournalState_noted { s.arbiter with queue := rest }
      entry.input.clientUserMessageId
    have hj := hk.books.queued entry.input.clientUserMessageId (by simp [queuedIds, hq])
    exact hk.quiet hmove rfl hn.evicted fun id hev f hf =>
      known_of_noted hn.others hev (fun h => h) (fun h => h) (Or.inr hj) rfl hf
  | pick hj hq hc => exact hk.still hmove rfl rfl rfl (fun _ h => h) rfl (Or.inr rfl)
  | settle => exact settle_kept _ _ hk
  | beforeWrite thrown ho => exact beforeWrite_kept thrown hk ho
  | write answer ho => exact write_kept answer hk ho
  | rollBack answers hh => exact rollBack_kept answers hk hh
  | accept hc => exact accept_kept hk hc
  | lose => exact lose_kept hk
  | restore entry =>
    have hn := setJournalState_noted { s.arbiter with queue := entry :: s.arbiter.queue }
      entry.input.clientUserMessageId .queued
    refine hk.quiet hmove rfl hn.evicted fun id hev f hf => ?_
    refine known_of_noted hn.others hev ?_ hn.overflow.trans (Or.inl (hk.books.free _ rfl)) rfl hf
    rintro ⟨i, hi, hk⟩
    exact ⟨i, hn.debts.symm ▸ hi, hk⟩
  | drop _ ho => exact hk.still hmove rfl rfl rfl (fun _ h => h) rfl (Or.inr rfl)
  | cancel hi => exact cancel_kept hk hi
  | reconcile => exact reconcile_kept hk _ _
  | resolve outcome _ _ hj hn hs hc => exact resolve_kept outcome hk hj hn hs hc

theorem Moves.kept (hm : Moves fresh evidence h s h' s') (hk : Kept h s) : Kept h' s' :=
  hm.invariant (fun _ _ _ _ hi hmove => hmove.kept hi) hk

theorem new_kept (options : ArbiterOptions) : Kept .empty ⟨Arbiter.new options, []⟩ := by
  refine ⟨new_books options, by simp, fun id _ l e hl => ?_, fun id _ => trivial⟩
  simp [effects] at hl

end Lane

namespace Session
open Lane

theorem kept_of_reachable {options : ArbiterOptions} {s : Session} (h : Reachable options s) :
    Kept .empty s.lane := by
  obtain ⟨ops, hrun⟩ := h
  refine hrun.invariant (I := fun s => Kept .empty s.lane) (fun s op s' hk hs => ?_)
    (new_kept options)
  obtain ⟨-, rfl⟩ := hs
  exact (apply_moves hk.books.tidy op).kept hk

end Session
end Codex
end AgentParty
