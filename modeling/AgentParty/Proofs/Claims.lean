import AgentParty.Proofs.Fence
import AgentParty.Proofs.Sweep

/-! What the room tells a process that it owes a row to: the claim frame shows the row as
the claim has left it, and a recovery frame that knows a token of the row's assignment is
always answered. -/

namespace AgentParty
open Ledger
namespace Ledger

/-- What the frame of a claim tells of the row. -/
def Tells (token : Uuid) (frame : ServerFrame) (row : Delivery) : Prop :=
  frame = .delivery row.id row.attempt row.leaseEpoch row.leaseToken ∧
    (∀ t ∈ row.leaseToken, t = token.val) ∧ 0 < row.attempt ∧ 0 < row.leaseEpoch

theorem claimFor_sends {l : Ledger} {queued current : Delivery} {principal : String}
    {adapter : LeaseAdapter} {holder : Connection ⊕ AgentWebhook} {token : Uuid} {now : Int}
    {id : String} {frame : ServerFrame} (hrow : l.directedDeliveryRow queued.id = some current)
    (hc : (decide (current.targetOwner = some principal) && decide (current.state = .queued)) = true)
    (h : (l.claimFor queued principal adapter holder token now).2.2 =
      some (.connection id frame)) :
    ∃ row ∈ (l.claimFor queued principal adapter holder token now).1.deliveries,
      Tells token frame row := by
  have hclaimed : (l.updateDelivery queued.id
      (fun r => decide (r.targetOwner = some principal) && decide (r.state = .queued))
      (claimedRow .claimed adapter (claimToken token holder) (holderOf holder)
        (now + leaseMs adapter) now) (claimedRow_id _ _ _ _ _ _)).directedDeliveryRow queued.id =
      some (claimedRow .claimed adapter (claimToken token holder) (holderOf holder)
        (now + leaseMs adapter) now current) := by
    rw [row_updateDelivery, hrow, Option.map_some, if_pos ⟨(row_eq_some.1 hrow).2, hc⟩]
  have hmem := (row_eq_some.1 hclaimed).1
  simp only [claimFor, hclaimed] at h ⊢
  have hstate : ¬ (claimedRow .claimed adapter (claimToken token holder) (holderOf holder)
      (now + leaseMs adapter) now current).state ≠ .claimed := fun hne => hne rfl
  rw [if_neg hstate] at h ⊢
  split at h
  · cases h
  · cases holder with
    | inr hook => simp at h
    | inl c =>
      simp only [Option.some.injEq, Handoff.connection.injEq] at h
      refine ⟨_, hmem, h.2.symm, fun t ht => ?_, Nat.succ_pos _, Nat.succ_pos _⟩
      change t ∈ claimToken token (.inl c) at ht
      simp only [claimToken] at ht
      split_ifs at ht
      · exact (Option.some.inj ht).symm
      · cases ht

/-- The frame of a claim tells the row as the claim has left it. -/
theorem dispatchDecide_sends {l : Ledger} {cs : Connections} {task : DispatchTask}
    {queued : Delivery} {principal : String} {token : Uuid} {now : Int} {id : String}
    {frame : ServerFrame} (h : (l.dispatchDecide cs task queued principal token now).2.2 =
      some (.connection id frame)) :
    ∃ row ∈ (l.dispatchDecide cs task queued principal token now).1.deliveries,
      Tells token frame row := by
  unfold dispatchDecide at h ⊢
  dsimp only at h ⊢
  split_ifs at h ⊢
  cases hadapter : (matching cs task queued principal).adapter with
  | none =>
    rw [hadapter] at h
    dsimp only at h
    split at h <;> cases h
  | some holding =>
    obtain ⟨adapter, holder⟩ := holding
    rw [hadapter] at h
    dsimp only at h ⊢
    cases hrow : (l.recordQueuedLease queued).directedDeliveryRow queued.id with
    | none =>
      rw [hrow] at h
      cases h
    | some current =>
      rw [hrow] at h
      dsimp only at h ⊢
      split_ifs at h ⊢ with hc
      exact claimFor_sends hrow hc h

end Ledger

namespace Room

/-- A frame that is new tells of the lease, or of a claim of this very step. -/
theorem apply_sends {r : Room} (e : Event) {s : String × ServerFrame}
    (hs : s ∈ (r.apply e).sockets.sent) : s ∈ r.sockets.sent ∨
      (∃ name held, s.2 = .serveLease name held) ∨
      ∃ token : Uuid, token.val ∈ mints e ∧
        ∃ row ∈ (r.apply e).ledger.deliveries, Tells token s.2 row := by
  have hlease : ∀ added : Outbox, LeaseFrames added → s ∈ r.sockets.sent ++ added →
      s ∈ r.sockets.sent ∨ (∃ name held, s.2 = .serveLease name held) ∨
      ∃ token : Uuid, token.val ∈ mints e ∧
        ∃ row ∈ (r.apply e).ledger.deliveries, Tells token s.2 row := by
    intro added hadded hmem
    rcases List.mem_append.1 hmem with hmem | hmem
    · exact Or.inl hmem
    · exact Or.inr (Or.inl (hadded s hmem))
  cases e with
  | stage seq edited targets now =>
    simp only [apply] at hs
    split at hs <;> exact Or.inl hs
  | dispatchStart targetName excludeId =>
    simp only [apply] at hs
    split_ifs at hs <;> exact Or.inl hs
  | dispatchTop targetName now =>
    simp only [apply, dispatchStep] at hs
    split at hs
    · exact Or.inl hs
    · split at hs
      · generalize (r.ledger.dispatchTop _ now).2 = next at hs
        cases next <;> exact Or.inl hs
      · exact Or.inl hs
  | dispatchRemoval targetName isRemoved now =>
    simp only [apply, dispatchStep] at hs
    split at hs
    · exact Or.inl hs
    · split at hs
      · split_ifs at hs <;> exact Or.inl hs
      · exact Or.inl hs
  | dispatchPrincipal targetName isCurrent token now =>
    simp only [apply, dispatchStep] at hs ⊢
    cases htail : r.tailOf targetName with
    | none =>
      rw [htail] at hs
      exact Or.inl hs
    | some tail =>
      obtain ⟨task, stage⟩ := tail
      rw [htail] at hs
      cases stage with
      | top | removalCheck => exact Or.inl hs
      | principalCheck queued =>
        simp only [applyDispatchPrincipal] at hs ⊢
        cases hprincipal : queued.principal with
        | none =>
          rw [hprincipal] at hs
          exact Or.inl hs
        | some principal =>
          rw [hprincipal] at hs
          dsimp only at hs ⊢
          split_ifs at hs ⊢
          · exact Or.inl hs
          · have hsends := @dispatchDecide_sends r.ledger r.sockets.connections task queued
              principal token now
            generalize r.ledger.dispatchDecide r.sockets.connections task queued principal token
              now = result at hs hsends ⊢
            obtain ⟨l, next, handoff⟩ := result
            have htails : ∀ (r₀ : Room), (r₀.withTail task next).sockets = r₀.sockets ∧
                (r₀.withTail task next).ledger = r₀.ledger := by
              intro r₀
              cases next <;> exact ⟨rfl, rfl⟩
            rcases handoff with _ | (⟨conn, frame⟩ | ⟨hook, claimed⟩)
            · simp only [withHandoff, (htails _).1] at hs
              exact Or.inl hs
            · simp only [withHandoff, (htails _).1, (htails _).2] at hs ⊢
              rcases List.mem_append.1 hs with hs | hs
              · exact Or.inl hs
              · obtain rfl := List.mem_singleton.1 hs
                obtain ⟨row, hrow, htells⟩ := hsends rfl
                exact Or.inr (Or.inr ⟨token, List.mem_singleton_self _, row, hrow, htells⟩)
            · simp only [withHandoff, (htails _).1] at hs
              exact Or.inl hs
  | recover identity connectionId f lingering now =>
    exact hlease _ (recoverDirectedDelivery_frames _ _ _ _ _ _ _) hs
  | leaseExpired lingering now =>
    exact hlease _ (Connections.closeExpiredHolders_frames _ _ _) hs
  | socket e =>
    obtain ⟨added, hadded, hsent⟩ := r.sockets.apply_frames e
    change s ∈ (r.sockets.apply e).sent at hs
    rw [hsent] at hs
    exact hlease added hadded hs
  | handoffRemoval item isRemoved now =>
    exact Or.inl ((aside_handoffRemoval item isRemoved now).sockets ▸ hs)
  | handoffPrincipal item isCurrent now =>
    exact Or.inl ((aside_handoffPrincipal item isCurrent now).sockets ▸ hs)
  | _ => exact Or.inl hs

end Room

namespace Ledger

/-- A row at work has an end of its lease. -/
def LeaseEnds (l : Ledger) : Prop :=
  ∀ r ∈ l.deliveries, r.active = true → r.leaseUntil.isSome = true

theorem LeaseEnds.update {l : Ledger} {id : String} {g : Delivery → Bool} {f : Delivery → Delivery}
    {hf : ∀ r, (f r).id = r.id} (h : LeaseEnds l)
    (hstep : ∀ r ∈ l.deliveries, r.id = id → g r = true → (f r).active = true →
      (f r).leaseUntil.isSome = true) : LeaseEnds (l.updateDelivery id g f hf) := by
  intro r' hr' hactive
  obtain ⟨r, hr, rfl⟩ := mem_updateDelivery.1 hr'
  split_ifs at hactive ⊢ with hg
  · exact hstep r hr hg.1 hg.2 hactive
  · exact h r hr hactive

theorem LeaseEnds.gate {l : Ledger} (id : String) (st : TerminalState) (now : Int)
    (o : TerminalOptions) (h : LeaseEnds l) :
    LeaseEnds (l.transitionDirectedDeliveryTerminal id st now o).1 := by
  intro r' hr' hactive
  obtain ⟨r, hr, hrid, hc⟩ := (transition_spec l id st now o).2.2.2.backward hr'
  rcases hc with ⟨rfl, -⟩ | ⟨-, -, -, -, -, rfl⟩ | ⟨-, -, -, _, _, rfl⟩
  · exact h _ hr hactive
  · cases st <;> simp [Delivery.active, terminalRow, TerminalState.toState] at hactive
  · cases st <;> simp [Delivery.active, settledRow] at hactive

/-- One case per write; a purge is looked at with its whole sweep. -/
theorem Write.leased {l l' : Ledger} {t : Tag} (h : Write l t l') (ht : t ≠ .purges)
    (hi : LeaseEnds l) : LeaseEnds l' := by
  cases h with
  | rewrite id g f hf h =>
    refine hi.update fun r hr hid hg hactive => ?_
    have hrewrite := h r hr hid hg
    generalize f r = r' at hrewrite hactive
    cases hrewrite with
    | starts | heartbeats | renews => rfl
    | requeues | parks => simp [Delivery.active, requeuedRow, parkedRow] at hactive
    | mints _ _ h => exact hi r hr h
  | purge => exact absurd rfl ht
  | close id now o => exact hi.gate id .failed now o
  | complete id now o => exact hi.gate id .replied now o
  | enqueue r hs | answer r hs =>
    intro r' hr' hactive
    rcases mem_insertDelivery hr' with hr' | rfl
    · exact hi r' hr' hactive
    · simp [Delivery.active, hs] at hactive
  | forget p => exact fun r hr => hi r (Table.mem_delete.1 hr).1
  | store | edit | drop => exact hi
  | record h => rwa [LeaseEnds, recordLease_deliveries]
  | take => exact hi.update fun _ _ _ _ _ => rfl
  | recover f g u hu h =>
    refine hi.update fun r hr hid hg hactive => ?_
    have htake := (h r hr hid hg).1
    generalize u r = r' at htake hactive
    cases htake with
    | defers => simp [Delivery.active, deferredRow] at hactive
    | revives | rotates => rfl
  | reclaim => exact hi.update fun _ _ _ _ _ => rfl

theorem LeaseEnds.failDeliveryTree {l : Ledger} (initial : List String) (now : Int)
    (failure : DeliveryFailure) (h : LeaseEnds l) :
    LeaseEnds (l.failDeliveryTree initial now failure).1 := by
  obtain ⟨s, hs, -, hl⟩ := failDeliveryTree_spec l initial now failure
  rw [← hl]
  intro r' hr' hactive
  obtain ⟨r, hr, -, hc⟩ := hs.rows.backward hr'
  split_ifs at hc
  · rcases hc.closed with hst | ⟨hst, -⟩ <;> simp [Delivery.active, hst] at hactive
  · rcases hc with rfl | ⟨-, -, _, _, rfl⟩
    · exact h _ hr hactive
    · simp [Delivery.active, settledRow] at hactive

end Ledger

namespace Room

def Sweeps : Event → Prop
  | .retract _ _ | .staleQueued _ | .sourcesExpired _ _ _ => True
  | _ => False

theorem permits_purges {r : Room} {e : Event} (h : r.permits e .purges) : Sweeps e := by
  cases e <;>
    simp [permits, Tag.settles, Tag.sends, Tag.prunes, Tag.isPlain, Tag.responds, Tag.sweeps,
      Tag.recoversWith, Completes, Sweeps] at h ⊢

theorem step_leaseEnds {r r' : Room} {e : Event} (h : r.Sound) (hi : LeaseEnds r.ledger)
    (hs : Step r e r') : LeaseEnds r'.ledger := by
  by_cases hsweeps : Sweeps e
  · rw [hs.2]
    cases e with
    | retract seq now =>
      change LeaseEnds (r.ledger.retractMessage seq now)
      unfold retractMessage
      split
      · exact hi
      · exact LeaseEnds.failDeliveryTree _ now _ hi
    | staleQueued now => exact LeaseEnds.failDeliveryTree _ now _ hi
    | sourcesExpired roots failure now => exact hi.failDeliveryTree roots now failure
    | _ => exact hsweeps.elim
  · have hw := step_writes h hs
    obtain ⟨⟨hnodup, hfresh, -⟩, -⟩ := hs
    refine hw.invariant (I := fun _ l => LeaseEnds l) (fun _ hi => hi)
      (fun hi hp hwr _ => hwr.leased ?_ hi) hi ((creates_sublist e).nodup hnodup)
      fun id hid => hfresh id ((creates_sublist e).subset hid)
    rintro rfl
    exact hsweeps (permits_purges hp)

end Room

namespace Ledger

section Answers

variable {l : Ledger} {cs : Connections} {identity : ConnState} {connectionId : String}
  {f : DeliveryRecoverFrame} {now : Int} {row : Delivery} (lingering : List String)

theorem adapterRegistered_of_registered {adapter : Option LeaseAdapter}
    (h : Registered cs identity connectionId adapter) :
    adapterRegistered adapter identity = true := by
  rcases adapter with _ | adapter
  · exact h.elim
  · cases adapter with
    | watch => exact h.1
    | serve => exact h.1
    | webhook => exact h.elim
    | legacyServe => exact h.elim

theorem deferReplay_answers (hrow : l.directedDeliveryRow f.deliveryId = some row)
    (hassign : assignmentOf f row = true) (hs : row.state = .failed)
    (hr : row.terminalReason = some .unknownOutcome) :
    (deferReplay l cs f now).answer.isSome = true := by
  unfold deferReplay
  dsimp only
  rw [row_updateDelivery, hrow, Option.map_some,
    if_pos ⟨(row_eq_some.1 hrow).2, by simp [hs, hr, hassign]⟩]
  dsimp only
  rw [if_neg (by simp [deferredRow])]
  rfl

theorem reviveReplay_answers (hrow : l.directedDeliveryRow f.deliveryId = some row)
    (hbound : identity.toIdentity.boundTo row = true) (hassign : assignmentOf f row = true)
    (hreg : Registered cs identity connectionId row.recoveryAdapter)
    (hstate : (row.state = .running ∧ row.leaseExpired now = true) ∨
      (row.state = .failed ∧ row.terminalReason = some .unknownOutcome)) :
    (reviveReplay l cs lingering identity connectionId f now row).answer.isSome = true := by
  have hguard : (identity.toIdentity.boundTo row && assignmentOf f row &&
      ((decide (row.state = .running) && row.leaseExpired now) ||
        (decide (row.state = .failed) && decide (row.terminalReason = some .unknownOutcome)))) =
      true := by
    rcases hstate with ⟨hs, hx⟩ | ⟨hs, hr⟩
    · simp [hbound, hassign, hs, hx]
    · simp [hbound, hassign, hs, hr]
  unfold reviveReplay
  dsimp only
  rw [row_updateDelivery, hrow, Option.map_some, if_pos ⟨(row_eq_some.1 hrow).2, hguard⟩]
  dsimp only
  rw [if_neg (by simp [revivedRow, text]), if_pos (fence_found hreg _)]
  rfl

theorem expireRunning_answers (hrow : l.directedDeliveryRow f.deliveryId = some row)
    (hreg : Registered cs identity connectionId row.recoveryAdapter) (hs : row.state = .running) :
    (expireRunning l cs lingering identity connectionId f now row).answer.isSome = true := by
  obtain ⟨hmem, hid⟩ := row_eq_some.1 hrow
  unfold expireRunning
  dsimp only
  obtain ⟨o, ho⟩ : ∃ o : TerminalOptions, o =
      { error := some "runner ownership lost after task start; outcome unknown, not auto-retried",
        terminalReason := some .unknownOutcome, expectedStates := [.running] } := ⟨_, rfl⟩
  rw [← ho]
  have hpass : ¬ GateRefuses .failed o row := by
    subst ho
    simp [GateRefuses, hs, TerminalOptions.admits]
  obtain ⟨r', hr', hrid, hc⟩ := (transition_spec l f.deliveryId .failed now o).2.2.2.forward hmem
  have hfailed : r'.state = .failed := by
    rcases hc with ⟨-, hc⟩ | ⟨-, -, -, -, -, rfl⟩ | ⟨hne, -⟩
    · rcases hc hid with hc | hc
      · rw [hs] at hc
        cases hc
      · exact absurd hc hpass
    · rfl
    · exact absurd hid hne
  rw [row_eq_some.2 ⟨hr', hrid.trans hid⟩]
  dsimp only
  rw [if_neg (by simp [hfailed]), if_pos (fence_found hreg _)]
  rfl

/-- Whoever knows a token of the assignment, now or from the history, is answered. -/
theorem recoverDirectedDelivery_answers (hrow : l.directedDeliveryRow f.deliveryId = some row)
    (hid : Authorised identity row) (hreg : Registered cs identity connectionId row.recoveryAdapter)
    (hleased : row.active = true → row.leaseUntil.isSome = true)
    (hm : f.matchesCurrent row = true ∨ f.matchesHistory l = true) :
    (l.recoverDirectedDelivery cs lingering identity connectionId f now).answer.isSome = true := by
  cases hcurrent : f.matchesCurrent row with
  | false =>
    rw [recoverDirectedDelivery_superseded hrow hid hcurrent
      (hm.resolve_left (by simp [hcurrent]))]
    rfl
  | true =>
    have hassign := (assignmentOf_iff f).2 hcurrent
    have hbound := boundTo_of_matches hid.2.2
    have hadapter := adapterRegistered_of_registered hreg
    have hrow' : (recordCurrentLease l f row).directedDeliveryRow f.deliveryId = some row := by
      rw [directedDeliveryRow, recordCurrentLease_deliveries]
      exact hrow
    have hunsettled : (recoverUnsettled l cs lingering identity connectionId f now row).answer.isSome
        = true := by
      unfold recoverUnsettled
      dsimp only
      split_ifs with hsafe hno hsucc hsuper hexpired hno' hfailed hreason hparked hno''
      · simp [hadapter] at hno
      · simp only [replaySafeUnknown, Bool.and_eq_true, Bool.or_eq_true, decide_eq_true_eq] at hsafe
        simp only [Bool.and_eq_true, decide_eq_true_eq] at hsucc
        refine deferReplay_answers hrow' hassign hsucc.1 ?_
        rcases hsafe.2 with ⟨hs, -⟩ | ⟨-, hr⟩
        · rw [hs] at hsucc
          cases hsucc.1
        · exact hr
      · simp only [replaySafeUnknown, Bool.and_eq_true, Bool.or_eq_true, decide_eq_true_eq] at hsafe
        refine reviveReplay_answers lingering hrow' hbound hassign hreg (hsafe.2.imp_left ?_)
        rintro ⟨hs, hx⟩
        obtain ⟨u, hu⟩ := Option.isSome_iff_exists.1 (hleased (by simp [Delivery.active, hs]))
        refine ⟨hs, ?_⟩
        simpa [Delivery.leaseExpired, Delivery.recoveryExpired, hu] using hx
      · rfl
      · simp [hadapter] at hno'
      · simp only [Bool.and_eq_true, decide_eq_true_eq] at hexpired
        exact expireRunning_answers lingering hrow' hreg hexpired.1
      · rfl
      · rfl
      · rfl
      · simp [hadapter] at hno''
      · have hactive : row.active = true := by
          rw [Delivery.active_iff]
          cases hst : row.state <;> simp_all
        obtain ⟨u, hu⟩ := Option.isSome_iff_exists.1 (hleased hactive)
        have hlive : now < u := by
          by_contra hle
          have hx : row.recoveryExpired now = true := by
            simpa [Delivery.recoveryExpired, hu] using hle
          rcases Delivery.active_iff.1 hactive with hs | hs <;> simp_all
        rw [rotateLease_again lingering hrow' hbound hassign hreg hactive ⟨u, hu, hlive⟩]
        rfl
    obtain ⟨h1, h2, h3⟩ := hid
    unfold recoverDirectedDelivery
    rw [hrow]
    dsimp only
    rw [if_neg (by simp [h1, h2, h3]), if_neg (by simp [hcurrent])]
    split_ifs
    · rfl
    · exact hunsettled

end Answers

end Ledger
end AgentParty
