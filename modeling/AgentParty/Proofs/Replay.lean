import AgentParty.Proofs.Exclusive

/-! Once the work of a row has started, nothing hands the row out again: the row is
back in the queue or claimed only after a replay-safe recovery of its current
assignment, or after an operator redelivered its dead letter. -/

namespace AgentParty
open Ledger

/-- The `delivery` frames for one row, oldest first. -/
def deliveryFrames (sent : Outbox) (id : String) : Outbox :=
  sent.filter fun s => match s.2 with
    | .delivery d _ _ _ => d = id
    | .serveLease _ _ => false

/-- Frames that announce the serve lease only. -/
def LeaseFrames (sent : Outbox) : Prop := ∀ s ∈ sent, ∃ name held, s.2 = .serveLease name held

theorem deliveryFrames_append {sent added : Outbox} (h : LeaseFrames added) (id : String) :
    deliveryFrames (sent ++ added) id = deliveryFrames sent id := by
  have hnil : deliveryFrames added id = [] := by
    refine List.filter_eq_nil_iff.2 fun s hs => ?_
    obtain ⟨name, held, he⟩ := h s hs
    simp [he]
  rw [deliveryFrames, List.filter_append]
  exact (congrArg _ hnil).trans (List.append_nil _)

namespace Connections

theorem foldl_announceHeld {name : String} {holders : List String} (candidates : List Connection)
    {acc : Connections × Outbox} (h : LeaseFrames acc.2) :
    LeaseFrames (candidates.foldl (announceHeld name holders) acc).2 := by
  induction candidates generalizing acc with
  | nil => exact h
  | cons c cs ih =>
    refine ih ?_
    unfold announceHeld
    dsimp only
    split_ifs
    · exact h
    · intro s hs
      rcases List.mem_append.1 hs with hs | hs
      · exact h s hs
      · obtain rfl := List.mem_singleton.1 hs
        exact ⟨_, _, rfl⟩

theorem reconcileServeLease_frames (cs : Connections) (name : String) (excludeId : Option String) :
    LeaseFrames (reconcileServeLease cs name excludeId).2 :=
  foldl_announceHeld _ (by simp [LeaseFrames])

theorem fence_frames (cs : Connections) (lingering : List String) (identity : ConnState)
    (connectionId : String) (adapter : Option LeaseAdapter) (previous : String) :
    LeaseFrames (fenceRecoveredDeliveryConnection cs lingering identity connectionId adapter
      previous).2.1 := by
  unfold fenceRecoveredDeliveryConnection
  dsimp only
  split
  · split_ifs <;> simp [LeaseFrames]
  · intro s hs
    obtain ⟨c, -, rfl⟩ := List.mem_map.1 hs
    exact ⟨_, _, rfl⟩
  · simp [LeaseFrames]

theorem closeExpiredHolders_frames (cs : Connections) (lingering : List String)
    (rows : List Delivery) : LeaseFrames (closeExpiredHolders cs lingering rows).2 := by
  unfold closeExpiredHolders
  have hfold : ∀ (names : List String) (acc : Connections × Outbox), LeaseFrames acc.2 →
      LeaseFrames (names.foldl (expireTarget lingering (expiredConnections rows)) acc).2 := by
    intro names
    induction names with
    | nil => exact fun acc h => h
    | cons n ns ih =>
      intro acc h
      refine ih _ ?_
      unfold expireTarget
      intro s hs
      rcases List.mem_append.1 hs with hs | hs
      · exact h s hs
      · exact reconcileServeLease_frames _ _ _ s hs
  exact hfold _ _ (by simp [LeaseFrames])

end Connections

namespace Sockets

theorem reconcile_frames (s : Sockets) (name : String) (excludeId : Option String) :
    ∃ added, LeaseFrames added ∧ (s.reconcile name excludeId).sent = s.sent ++ added :=
  ⟨_, Connections.reconcileServeLease_frames _ _ _, rfl⟩

theorem foldl_reconcile_frames (names : List String) (s : Sockets) :
    ∃ added, LeaseFrames added ∧
      (names.foldl (fun s name => s.reconcile name none) s).sent = s.sent ++ added := by
  induction names generalizing s with
  | nil => exact ⟨[], by simp [LeaseFrames], by simp⟩
  | cons n ns ih =>
    obtain ⟨a, ha, hsa⟩ := s.reconcile_frames n none
    obtain ⟨b, hb, hsb⟩ := ih (s.reconcile n none)
    refine ⟨a ++ b, fun x hx => (List.mem_append.1 hx).elim (ha x) (hb x), ?_⟩
    rw [List.foldl_cons, hsb, hsa, List.append_assoc]

/-- The sockets send nothing but lease announcements. -/
theorem apply_frames (s : Sockets) (e : SocketEvent) :
    ∃ added, LeaseFrames added ∧ (s.apply e).sent = s.sent ++ added := by
  have hnone : ∃ added, LeaseFrames added ∧ s.sent = s.sent ++ added :=
    ⟨[], by simp [LeaseFrames], by simp⟩
  cases e with
  | hello id directedDelivery recovery since =>
    simp only [apply, hello]
    split
    · exact hnone
    · split_ifs
      · exact reconcile_frames _ _ _
      · exact hnone
  | claimServe id v1Conflict =>
    simp only [apply, claimServe]
    split
    · exact hnone
    · split_ifs
      · exact hnone
      · exact hnone
      · exact reconcile_frames _ _ _
      · exact reconcile_frames _ _ _
  | registerWatch id =>
    simp only [apply, registerWatch]
    split
    · exact hnone
    · split_ifs <;> exact hnone
  | ocsRoster id canWrite parsed now =>
    simp only [apply, ocsRoster]
    split
    · exact hnone
    · split_ifs <;> exact hnone
  | closeHandled id lingering =>
    simp only [apply, closeHandled]
    split
    · exact hnone
    · split_ifs
      · exact reconcile_frames _ _ _
      · exact hnone
  | presenceStale ids lingering => exact foldl_reconcile_frames _ _
  | _ => exact hnone

end Sockets

namespace Ledger

section Recover

variable (l : Ledger) (cs : Connections) (lingering : List String) (identity : ConnState)
  (connectionId : String) (f : DeliveryRecoverFrame) (now : Int) (row : Delivery)

theorem leaseFrames_nil : LeaseFrames [] := by simp [LeaseFrames]

theorem deferReplay_frames : LeaseFrames (deferReplay l cs f now).sent := by
  unfold deferReplay
  dsimp only
  split
  · exact leaseFrames_nil
  · split <;> exact leaseFrames_nil

theorem reviveReplay_frames :
    LeaseFrames (reviveReplay l cs lingering identity connectionId f now row).sent := by
  unfold reviveReplay
  dsimp only
  split
  · exact leaseFrames_nil
  · split
    · exact leaseFrames_nil
    · exact Connections.fence_frames _ _ _ _ _ _

theorem expireRunning_frames :
    LeaseFrames (expireRunning l cs lingering identity connectionId f now row).sent := by
  unfold expireRunning
  dsimp only
  split
  · exact leaseFrames_nil
  · split
    · exact leaseFrames_nil
    · exact Connections.fence_frames _ _ _ _ _ _

theorem rotateLease_frames :
    LeaseFrames (rotateLease l cs lingering identity connectionId f now row).sent := by
  unfold rotateLease
  dsimp only
  split
  · exact leaseFrames_nil
  · split
    · exact leaseFrames_nil
    · exact Connections.fence_frames _ _ _ _ _ _

/-- A recovery announces the lease to the connections it fences, nothing else. -/
theorem recoverDirectedDelivery_frames :
    LeaseFrames (l.recoverDirectedDelivery cs lingering identity connectionId f now).sent := by
  unfold recoverDirectedDelivery
  split
  · exact leaseFrames_nil
  split_ifs
  · exact leaseFrames_nil
  · exact leaseFrames_nil
  · exact leaseFrames_nil
  unfold recoverUnsettled
  dsimp only
  split_ifs
  · exact leaseFrames_nil
  · exact deferReplay_frames _ cs f now
  · exact reviveReplay_frames _ cs lingering identity connectionId f now _
  · exact leaseFrames_nil
  · exact leaseFrames_nil
  · exact expireRunning_frames _ cs lingering identity connectionId f now _
  · exact leaseFrames_nil
  · exact leaseFrames_nil
  · exact leaseFrames_nil
  · exact leaseFrames_nil
  · exact rotateLease_frames _ cs lingering identity connectionId f now _

end Recover

end Ledger

namespace Room

/-- What may put a started row back: a replay-safe frame for its current
assignment, or the redelivery of its dead letter. -/
def Reopens (r : Room) (id : String) : Event → Prop
  | .recover _ _ f _ _ => f.deliveryId = id ∧ f.replaySafe = true ∧
      ∃ row ∈ r.ledger.deliveries, row.id = id ∧ f.matchesCurrent row = true
  | .redeliveryStarts item _ => item.payload.deliveryId = id
  | _ => False

/-- The row `id`, if it is there, has started; `M` follows from a match of the
frame in `F` with its assignment. -/
def Started (id : String) (F : Option DeliveryRecoverFrame) (M : Prop) (l : Ledger) : Prop :=
  ∀ r ∈ l.deliveries, r.id = id → r.unstarted = false ∧
    ∀ f, F = some f → f.matchesCurrent r = true → M

theorem matchesCurrent_of_steady {f : DeliveryRecoverFrame} {r r' : Delivery} (h : Steady r r') :
    f.matchesCurrent r' = f.matchesCurrent r := by
  simp only [DeliveryRecoverFrame.matchesCurrent, h.attempt, h.leaseEpoch, h.leaseToken]

theorem write_started {id : String} {F : Option DeliveryRecoverFrame} {M : Prop} {l l' : Ledger}
    {t : Tag} (h : Write l t l') (hreclaim : t ≠ .reclaims id) (hcreated : t.created ≠ some id)
    (hrecover : ∀ f, t = .recovers f → f.deliveryId = id →
      F = some f ∧ ¬ (f.replaySafe = true ∧ M))
    (hi : Started id F M l) : Started id F M l' := by
  intro r' hr' hid
  cases hst : t.steady with
  | true =>
    rcases h.steady hst r' hr' with ⟨r, hr, hrid, hs⟩ | ⟨hc, -⟩
    · obtain ⟨hun, hm⟩ := hi r hr (hrid.trans hid)
      refine ⟨?_, fun f hf hmatch => hm f hf ?_⟩
      · by_contra hne
        rw [hs.unstarted (by simpa using hne)] at hun
        cases hun
      · rwa [← matchesCurrent_of_steady hs]
    · exact absurd (by simpa [hid] using hc) hcreated
  | false =>
    cases h with
    | take id' g state adapter token holderId leaseUntil now h =>
      obtain ⟨r, hr, rfl⟩ := mem_updateDelivery.1 hr'
      split_ifs with hg
      · have hq := (h r hr hg.1 hg.2).1
        rw [if_pos hg, claimedRow_id] at hid
        have hun := (hi r hr hid).1
        simp [Delivery.unstarted, hq] at hun
      · rw [if_neg hg] at hid
        exact hi r hr hid
    | recover f g u hu h =>
      obtain ⟨r, hr, rfl⟩ := mem_updateDelivery.1 hr'
      split_ifs with hg
      · rw [if_pos hg, hu] at hid
        obtain ⟨htake, hassign, -⟩ := h r hr hg.1 hg.2
        obtain ⟨hF, hno⟩ := hrecover f rfl (hg.1.symm.trans hid)
        obtain ⟨hun, hm⟩ := hi r hr hid
        have hM : M := hm f hF ((assignmentOf_iff f).1 hassign)
        generalize u r = r' at htake
        cases htake with
        | defers _ hf => exact absurd ⟨hf, hM⟩ hno
        | revives _ _ _ hf => exact absurd ⟨hf, hM⟩ hno
        | rotates => exact ⟨hun, fun _ _ _ => hM⟩
      · rw [if_neg hg] at hid
        exact hi r hr hid
    | reclaim id' g holder leaseUntil now h =>
      obtain ⟨r, hr, rfl⟩ := mem_updateDelivery.1 hr'
      split_ifs with hg
      · rw [if_pos hg, reclaimedRow_id] at hid
        rw [← hg.1, hid] at hreclaim
        exact absurd rfl hreclaim
      · rw [if_neg hg] at hid
        exact hi r hr hid
    | _ => simp [Tag.steady] at hst

theorem permits_recovers {r : Room} {e : Event} {f : DeliveryRecoverFrame}
    (h : r.permits e (.recovers f)) :
    ∃ identity connectionId lingering now, e = .recover identity connectionId f lingering now := by
  cases e <;>
    simp [permits, Tag.settles, Tag.sends, Tag.prunes, Tag.isPlain, Tag.responds, Tag.sweeps,
      Tag.recoversWith, Completes] at h
  subst h
  exact ⟨_, _, _, _, rfl⟩

/-- The frame an event recovers with. -/
def recoverFrame : Event → Option DeliveryRecoverFrame
  | .recover _ _ f _ _ => some f
  | _ => none

/-- A step that does not reopen row `id` leaves it started. -/
theorem step_started {r r' : Room} {e : Event} {id : String} (h : r.Sound) (hk : id ∈ r.minted)
    (he : ¬ Reopens r id e) (hi : ∀ d ∈ r.ledger.deliveries, d.id = id → d.unstarted = false)
    (hs : Step r e r') : ∀ d ∈ r'.ledger.deliveries, d.id = id → d.unstarted = false := by
  set M : Prop := ∃ row ∈ r.ledger.deliveries, row.id = id ∧
    ∃ f, recoverFrame e = some f ∧ f.matchesCurrent row = true with hM
  have hstart : Started id (recoverFrame e) M r.ledger := fun d hd hid =>
    ⟨hi d hd hid, fun f hf hm => ⟨d, hd, hid, f, hf, hm⟩⟩
  have hend : Started id (recoverFrame e) M r'.ledger := by
    refine step_preserves h hk (fun hi hp hwr hnew => write_started hwr ?_ hnew ?_ hi) hstart hs
    · rintro rfl
      obtain ⟨item, now, rfl, hid⟩ := permits_reclaims hp
      exact he hid.symm
    · rintro f rfl hid
      obtain ⟨identity, connectionId, lingering, now, rfl⟩ := permits_recovers hp
      refine ⟨rfl, fun ⟨hsafe, row, hrow, hrid, f', hf', hm⟩ => he ⟨hid, hsafe, row, hrow, hrid, ?_⟩⟩
      cases hf'
      exact hm
  exact fun d hd hid => (hend d hd hid).1

/-- A claim hands out only a row it found in the queue. -/
theorem dispatchDecide_queued {l : Ledger} {cs : Connections} {task : DispatchTask}
    {queued : Delivery} {principal : String} {token : Uuid} {now : Int} (handoff : Handoff)
    (h : (l.dispatchDecide cs task queued principal token now).2.2 = some handoff) :
    (∃ d ∈ l.deliveries, d.id = queued.id ∧ d.state = .queued) ∧
      ∀ id frame, handoff = .connection id frame → ∃ attempt epoch token',
        frame = .delivery queued.id attempt epoch token' := by
  unfold dispatchDecide at h
  dsimp only at h
  split_ifs at h
  split at h
  · split at h
    · cases h
    · rename_i current hrow
      split_ifs at h with hc
      obtain ⟨hmem, hid⟩ := row_eq_some.1 hrow
      rw [recordQueuedLease_deliveries] at hmem
      simp only [Bool.and_eq_true, decide_eq_true_eq] at hc
      refine ⟨⟨current, hmem, hid, hc.2⟩, fun id frame hh => ?_⟩
      subst hh
      unfold claimFor at h
      dsimp only at h
      split at h
      · cases h
      · rename_i claimed hclaimed
        split_ifs at h
        split at h
        · cases h
        · have hcid := (row_eq_some.1 hclaimed).2
          split at h <;> simp only [Option.some.injEq, Handoff.connection.injEq, reduceCtorEq] at h
          exact ⟨_, _, _, by rw [← h.2, hcid]⟩
  · split at h <;> cases h

/-- No frame goes out for a row that has started. -/
theorem apply_deliveryFrames {r : Room} {id : String} (e : Event)
    (hi : ∀ d ∈ r.ledger.deliveries, d.id = id → d.unstarted = false) :
    deliveryFrames (r.apply e).sockets.sent id = deliveryFrames r.sockets.sent id := by
  cases e with
  | stage seq edited targets now =>
    simp only [apply]
    split <;> rfl
  | dispatchStart targetName excludeId =>
    simp only [apply]
    split_ifs <;> rfl
  | dispatchTop targetName now =>
    simp only [apply, dispatchStep]
    split
    · rfl
    · split
      · generalize (r.ledger.dispatchTop _ now).2 = next
        cases next <;> rfl
      · rfl
  | dispatchRemoval targetName isRemoved now =>
    simp only [apply, dispatchStep]
    split
    · rfl
    · split
      · split_ifs <;> rfl
      · rfl
  | dispatchPrincipal targetName isCurrent token now =>
    simp only [apply, dispatchStep]
    split
    · rfl
    simp only [applyDispatchPrincipal]
    split
    · split
      · rfl
      · split_ifs
        · rfl
        · rename_i task _ queued _ _ principal _ _
          have htail : ∀ (r₀ : Room) (next : DispatchNext),
              (r₀.withTail task next).sockets = r₀.sockets := by
            intro r₀ next
            cases next <;> rfl
          generalize hd : r.ledger.dispatchDecide r.sockets.connections task queued principal token
            now = result
          obtain ⟨l, next, handoff⟩ := result
          cases handoff with
          | none =>
            simp only [withHandoff]
            rw [htail]
          | some handoff =>
            obtain ⟨⟨d, hd', hdid, hq⟩, hframe⟩ :=
              dispatchDecide_queued handoff (by rw [hd])
            cases handoff with
            | webhook hook claimed =>
              simp only [withHandoff]
              rw [htail]
            | connection conn frame =>
              obtain ⟨attempt, epoch, token', rfl⟩ := hframe conn frame rfl
              have hne : queued.id ≠ id := by
                rintro rfl
                have hun := hi d hd' hdid
                simp [Delivery.unstarted, hq] at hun
              simp only [withHandoff]
              rw [htail, deliveryFrames, List.filter_append]
              simp [deliveryFrames, hne]
    · rfl
  | recover identity connectionId f lingering now =>
    exact deliveryFrames_append (recoverDirectedDelivery_frames _ _ _ _ _ _ _) id
  | leaseExpired lingering now =>
    exact deliveryFrames_append (Connections.closeExpiredHolders_frames _ _ _) id
  | socket e =>
    obtain ⟨added, hadded, hsent⟩ := r.sockets.apply_frames e
    change deliveryFrames (r.sockets.apply e).sent id = _
    rw [hsent, deliveryFrames_append hadded]
  | handoffRemoval item isRemoved now =>
    simp only [apply, (aside_handoffRemoval item isRemoved now).sockets]
  | handoffPrincipal item isCurrent now =>
    simp only [apply, (aside_handoffPrincipal item isCurrent now).sockets]
  | _ => rfl

/-- No automatic replay: a row that has run is queued or claimed again, and sent
again, only after a step that reopens it. -/
theorem started_until_reopened {evs evs' : List Event} {r r' : Room} {d : Delivery}
    (h : Run initial evs r) (hd : d ∈ r.ledger.deliveries) (hs : d.state = .running)
    (h' : Run r evs' r') :
    (∃ evs₁ e evs₂ m, evs' = evs₁ ++ e :: evs₂ ∧ Run r evs₁ m ∧ Reopens m d.id e) ∨
      ((∀ d' ∈ r'.ledger.deliveries, d'.id = d.id →
          d'.state ∈ [DeliveryState.running, .waitingOwner, .replied, .failed]) ∧
        deliveryFrames r'.sockets.sent d.id = deliveryFrames r.sockets.sent d.id) := by
  have hstates : ∀ d' : Delivery, d'.unstarted = false →
      d'.state ∈ [DeliveryState.running, .waitingOwner, .replied, .failed] := by
    intro d' hun
    cases hst : d'.state <;> simp [Delivery.unstarted, hst] at hun ⊢
  suffices hmain : (∃ evs₁ e evs₂ m, evs' = evs₁ ++ e :: evs₂ ∧ Run r evs₁ m ∧ Reopens m d.id e) ∨
      (d.id ∈ r'.minted ∧
        (∀ d' ∈ r'.ledger.deliveries, d'.id = d.id → d'.unstarted = false) ∧
        deliveryFrames r'.sockets.sent d.id = deliveryFrames r.sockets.sent d.id) by
    rcases hmain with hre | ⟨-, hrows, hframes⟩
    · exact Or.inl hre
    · exact Or.inr ⟨fun d' hd' hid => hstates d' (hrows d' hd' hid), hframes⟩
  induction h' with
  | nil =>
    refine Or.inr ⟨(Reachable.sound ⟨evs, h⟩).known _ (Or.inl ⟨d, hd, Or.inl rfl⟩), ?_, rfl⟩
    intro d' hd' hid
    rw [Table.eq_of_key hd' hd hid, Delivery.unstarted, hs]
    rfl
  | @snoc evs' t t' e hrun hstep ih =>
    rcases ih with ⟨evs₁, e', evs₂, m, he, hm, hre⟩ | ⟨hk, hrows, hframes⟩
    · exact Or.inl ⟨evs₁, e', evs₂ ++ [e], m, by simp [he], hm, hre⟩
    · by_cases hre : Reopens t d.id e
      · exact Or.inl ⟨evs', e, [], t, rfl, hrun, hre⟩
      · have hsound : t.Sound := Reachable.sound ⟨evs ++ evs', h.append hrun⟩
        refine Or.inr ⟨?_, step_started hsound hk hre hrows hstep, ?_⟩
        · rw [hstep.2]
          exact List.mem_append_left _ hk
        · rw [hstep.2, ← hframes]
          exact apply_deliveryFrames e hrows

def botState : ConnState where
  toIdentity := bot
  serveCandidate := true
  serveClaimSeq := some 1
  serveLeaseHeld := some true
  watchCandidate := false
  watchClaimSeq := none
  directedDeliveryV1 := true
  deliveryRecoveryV1 := true
  helloPending := false
  helloExpired := false
  helloDeadlineAt := none
  helloSince := some 0

/-- The runner reports that it has started. -/
def reportRunning : DeliveryUpdateFrame :=
  ⟨deliveryUuid.val, .running, none, none, none, none, none, none, none⟩

def runningEvents : List Event := claimedEvents ++ [Event.update botState "c1" reportRunning 2]

theorem started_until_reopened_expired :
    ∃ d ∈ (initial.exec runningEvents).ledger.deliveries, d.state = .running ∧
      ((∃ evs₁ e evs₂ m, [Event.leaseExpired [] 1000000] = evs₁ ++ e :: evs₂ ∧
          Run (initial.exec runningEvents) evs₁ m ∧ Reopens m d.id e) ∨
        ((∀ d' ∈ ((initial.exec runningEvents).exec [.leaseExpired [] 1000000]).ledger.deliveries,
            d'.id = d.id → d'.state ∈ [DeliveryState.running, .waitingOwner, .replied, .failed]) ∧
          deliveryFrames ((initial.exec runningEvents).exec
              [.leaseExpired [] 1000000]).sockets.sent d.id =
            deliveryFrames (initial.exec runningEvents).sockets.sent d.id)) := by
  have hrun : ∃ d ∈ (initial.exec runningEvents).ledger.deliveries, d.state = .running := by decide
  obtain ⟨d, hd, hs⟩ := hrun
  exact ⟨d, hd, hs, started_until_reopened (run_exec (by decide)) hd hs (run_exec (by decide))⟩

/-! A webhook runner. The alarm for its last retry is late: it requeues the expired
claim, the row is claimed again and both POSTs are out at once. The claim's POST is
accepted, the retry's is not and takes the running row along. -/

def botHook : AgentWebhook := ⟨"bot", "w1", some "acme"⟩

def botPayload : WebhookPayload :=
  ⟨deliveryUuid.val, 1, "bot", workUuid.val, continuationUuid.val⟩

def postItem (attempts : ℕ) : WebhookItem := ⟨botHook, botPayload, attempts⟩

def tokenUuid₂ : Uuid := ⟨"0b7f7c51-8b54-4a0e-9a1d-2f6a3c9d0005", by decide⟩

def handoffEvents (item : WebhookItem) (now : Int) : List Event :=
  [.handoffRemoval item false now, .handoffPrincipal item true now]

def webhookRunning : List Event :=
  [Event.registerWebhook botHook, .send mentionBot] ++ dispatchEvents tokenUuid 1 ++
    handoffEvents (postItem 1) 1 ++
    [Event.dispatchPosted (postItem 1) false 2, .retryStarts (postItem 1) 70000,
      .retryPosted (postItem 1) false 70000, .retryStarts (postItem 2) 400000,
      .retryPosted (postItem 2) false 400000, .leaseExpired [] 2000000] ++
    dispatchEvents tokenUuid₂ 2000000 ++ handoffEvents (postItem 2) 2000000 ++
    [Event.retryStarts (postItem 3) 2000000, .dispatchPosted (postItem 2) true 2000100]

def webhookRedelivered : List Event :=
  [.retryPosted (postItem 3) false 2000000, .redeliveryStarts (postItem 4) 2060000]

/-- Without a recovery in between, a running row can be claimed again. -/
theorem redelivery_reclaims :
    ¬ ∀ (evs evs' : List Event) (r r' : Room), Run initial evs r → Run r evs' r' →
      ∀ d ∈ r.ledger.deliveries, d.state = .running →
      ∀ d' ∈ r'.ledger.deliveries, d'.id = d.id → d'.state = .queued ∨ d'.state = .claimed →
      ∃ evs₁ evs₂ m identity connectionId f lingering now,
        evs' = evs₁ ++ Event.recover identity connectionId f lingering now :: evs₂ ∧ Run r evs₁ m ∧
          f.deliveryId = d.id ∧ f.replaySafe = true ∧
          ∃ row ∈ m.ledger.deliveries, row.id = d.id ∧ f.matchesCurrent row = true := by
  intro h
  have hrun : ∃ d ∈ (initial.exec webhookRunning).ledger.deliveries,
      d.id = deliveryUuid.val ∧ d.state = .running := by decide
  have hend : ∃ d ∈ ((initial.exec webhookRunning).exec webhookRedelivered).ledger.deliveries,
      d.id = deliveryUuid.val ∧ d.state = .claimed := by decide
  obtain ⟨d, hd, hid, hs⟩ := hrun
  obtain ⟨d', hd', hid', hs'⟩ := hend
  obtain ⟨evs₁, evs₂, m, identity, connectionId, f, lingering, now, he, -⟩ :=
    h webhookRunning webhookRedelivered _ _ (run_exec (by decide)) (run_exec (by decide)) d hd hs d'
      hd' (hid'.trans hid.symm) (Or.inr hs')
  have hmem : Event.recover identity connectionId f lingering now ∈ webhookRedelivered := by
    rw [he]
    simp
  simp [webhookRedelivered] at hmem

end Room
end AgentParty
