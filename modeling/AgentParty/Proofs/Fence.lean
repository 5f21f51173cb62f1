import AgentParty.Proofs.Replay

/-! Recovery elects one owner. The processes of one assignment all know its token;
each rotates it to tokens of its own. Once one of them has rotated the row, the
shared token is history, and a frame that knows no more matches the row no longer. -/

namespace AgentParty
open Ledger

namespace DeliveryRecoverFrame

/-- The frame is about the assignment `a`, whatever token it presents. -/
def concerns (f : DeliveryRecoverFrame) (a : LeaseHistory) : Prop :=
  f.deliveryId = a.deliveryId ∧ f.attempt = a.attempt ∧ f.leaseEpoch = a.leaseEpoch

instance (f : DeliveryRecoverFrame) (a : LeaseHistory) : Decidable (f.concerns a) :=
  inferInstanceAs (Decidable (_ ∧ _ ∧ _))

end DeliveryRecoverFrame

namespace Ledger

/-- While the row is at assignment `a`, its token is in `K`, and it is the shared
one or the shared one is history. -/
def Contested (a : LeaseHistory) (K : String → Prop) (l : Ledger) : Prop :=
  ∀ r ∈ l.deliveries, r.id = a.deliveryId → a.attempt ≤ r.attempt ∧
    (r.attempt = a.attempt → r.leaseEpoch = a.leaseEpoch ∧
      ∃ token, r.leaseToken = some token ∧ K token ∧
        (token = a.leaseToken ∨ a ∈ l.leaseHistory))

/-- The history of a row goes with the row only. -/
theorem Write.history {l l' : Ledger} {t : Tag} (h : Write l t l') {a : LeaseHistory}
    (ha : a ∈ l.leaseHistory) (hrow : ∃ r ∈ l'.deliveries, r.id = a.deliveryId) :
    a ∈ l'.leaseHistory := by
  cases h with
  | close id now o => rwa [(transition_spec l id .failed now o).2.1]
  | complete id now o => rwa [(transition_spec l id .replied now o).2.1]
  | forget p =>
    obtain ⟨r, hr, hid⟩ := hrow
    refine List.mem_filter.2 ⟨ha, ?_⟩
    have hget : (l.deliveries.delete p).get? r.id = some r := Table.get?_key hr
    rw [← hid, hget]
    rfl
  | record h => exact (mem_recordLease l).2 (Or.inl ha)
  | rewrite | purge | enqueue | answer | store | edit | drop | take | recover | reclaim => exact ha

/-- One write: a claim raises the attempt, a recovery puts its next token in. -/
theorem Write.contested {l l' : Ledger} {t : Tag} {a : LeaseHistory} {K : String → Prop}
    (h : Write l t l') (hcreated : t.created ≠ some a.deliveryId)
    (hK : ∀ f, t = .recovers f → f.concerns a → K f.leaseToken ∨ K f.nextLeaseToken →
      K f.nextLeaseToken)
    (hi : Contested a K l) : Contested a K l' := by
  intro r' hr' hid
  have hrow : ∃ r ∈ l'.deliveries, r.id = a.deliveryId := ⟨r', hr', hid⟩
  cases hst : t.steady with
  | true =>
    rcases h.steady hst r' hr' with ⟨r, hr, hrid, hs⟩ | ⟨hc, -⟩
    · obtain ⟨hle, hat⟩ := hi r hr (hrid.trans hid)
      rw [hs.attempt, hs.leaseEpoch, hs.leaseToken]
      refine ⟨hle, fun he => ?_⟩
      obtain ⟨hepoch, token, htok, hk, hor⟩ := hat he
      exact ⟨hepoch, token, htok, hk, hor.imp_right fun ha => h.history ha hrow⟩
    · exact absurd (by simpa [hid] using hc) hcreated
  | false =>
    cases h with
    | take id g state adapter token holderId leaseUntil now h =>
      obtain ⟨r, hr, rfl⟩ := mem_updateDelivery.1 hr'
      split_ifs with hg
      · rw [if_pos hg, claimedRow_id] at hid
        have hle := (hi r hr hid).1
        refine ⟨hle.trans (Nat.le_succ _), fun he => ?_⟩
        have : r.attempt + 1 = a.attempt := he
        omega
      · rw [if_neg hg] at hid
        exact hi r hr hid
    | recover f g u hu h =>
      obtain ⟨r, hr, rfl⟩ := mem_updateDelivery.1 hr'
      split_ifs with hg
      · rw [if_pos hg, hu] at hid
        obtain ⟨htake, hassign, hrec⟩ := h r hr hg.1 hg.2
        obtain ⟨hattempt, hepoch, htoken⟩ := (matchesCurrent_iff f).1 ((assignmentOf_iff f).1 hassign)
        obtain ⟨hle, hat⟩ := hi r hr hid
        refine ⟨hle.trans (kept_takeover htake).attempt, fun he => ?_⟩
        have hra : r.attempt = a.attempt :=
          le_antisymm ((kept_takeover htake).attempt.trans he.le) hle
        obtain ⟨hre, token, htok, hk, hor⟩ := hat hra
        have hconcerns : f.concerns a :=
          ⟨hg.1.symm.trans hid, hattempt.symm.trans hra, hepoch.symm.trans hre⟩
        -- the frame presented the row's token, which is recorded before it goes
        have hnext : K f.nextLeaseToken := by
          refine hK f rfl hconcerns ?_
          rw [htok] at htoken
          rcases htoken with ht | ht <;> cases ht
          · exact Or.inl hk
          · exact Or.inr hk
        have hhist : a ∈ l.leaseHistory := by
          refine hor.elim (fun ht => ?_) id
          rw [htok, ht] at hrec
          obtain ⟨h1, h2, h3⟩ := hconcerns
          rw [h1, h2, h3] at hrec
          exact hrec
        generalize u r = r' at htake
        cases htake with
        | defers => exact ⟨hre, token, htok, hk, hor⟩
        | revives => exact ⟨hre, _, rfl, hnext, Or.inr hhist⟩
        | rotates => exact ⟨hre, _, rfl, hnext, Or.inr hhist⟩
      · rw [if_neg hg] at hid
        exact hi r hr hid
    | reclaim id g holder leaseUntil now h =>
      obtain ⟨r, hr, rfl⟩ := mem_updateDelivery.1 hr'
      split_ifs with hg
      · rw [if_pos hg, reclaimedRow_id] at hid
        have hle := (hi r hr hid).1
        refine ⟨hle.trans (Nat.le_succ _), fun he => ?_⟩
        have : r.attempt + 1 = a.attempt := he
        omega
      · rw [if_neg hg] at hid
        exact hi r hr hid
    | _ => simp [Tag.steady] at hst

/-- The assignment is history for as long as the row is there. -/
def Recorded (a : LeaseHistory) (l : Ledger) : Prop :=
  (∃ r ∈ l.deliveries, r.id = a.deliveryId) → a ∈ l.leaseHistory

theorem Write.recorded {l l' : Ledger} {t : Tag} {a : LeaseHistory} (h : Write l t l')
    (hcreated : t.created ≠ some a.deliveryId) (hi : Recorded a l) : Recorded a l' := by
  intro hrow
  refine h.history (hi ?_) hrow
  obtain ⟨r', hr', hid⟩ := hrow
  rcases h.kept r' hr' with ⟨r, hr, hrid, -⟩ | ⟨hc, -⟩
  · exact ⟨r, hr, hrid.trans hid⟩
  · exact absurd (by simpa [hid] using hc) hcreated

theorem keeps_row_of_pointwise {R : Delivery → Delivery → Prop} {l l' : Ledger} {id : String}
    (h : Table.Pointwise R l.deliveries l'.deliveries) (hi : ∃ r ∈ l.deliveries, r.id = id) :
    ∃ r ∈ l'.deliveries, r.id = id := by
  obtain ⟨r, hr, hid⟩ := hi
  obtain ⟨r', hr', hrid, -⟩ := h.forward hr
  exact ⟨r', hr', hrid.trans hid⟩

/-- Only a deletion loses a row. -/
theorem Write.keeps_row {l l' : Ledger} {t : Tag} {id : String} (h : Write l t l')
    (ht : t ≠ .forgets) (hi : ∃ r ∈ l.deliveries, r.id = id) : ∃ r ∈ l'.deliveries, r.id = id := by
  have hupdate : ∀ (k : String) (g : Delivery → Bool) (f : Delivery → Delivery)
      (hf : ∀ r, (f r).id = r.id), ∃ r ∈ (l.updateDelivery k g f hf).deliveries, r.id = id :=
    fun k g f hf => keeps_row_of_pointwise
      (pointwise_updateDelivery (R := fun _ _ => True) (fun _ => trivial) fun _ _ _ _ => trivial) hi
  cases h with
  | rewrite | purge | take | recover | reclaim => exact hupdate _ _ _ _
  | close k now o => exact keeps_row_of_pointwise (transition_spec l k .failed now o).2.2.2 hi
  | complete k now o => exact keeps_row_of_pointwise (transition_spec l k .replied now o).2.2.2 hi
  | enqueue | answer =>
    obtain ⟨r, hr, hid⟩ := hi
    exact ⟨r, Table.mem_insert.2 (Or.inl hr), hid⟩
  | forget => exact absurd rfl ht
  | record h => rwa [recordLease_deliveries]
  | store | edit | drop => exact hi

section Recover

variable {l : Ledger} {cs : Connections} {lingering : List String} {identity : ConnState}
  {connectionId : String} {f : DeliveryRecoverFrame} {now : Int} {row : Delivery}

/-- A recovery that is answered `recovered` has put its next token into the row. -/
structure Recovered (f : DeliveryRecoverFrame) (l : Ledger) (row : Delivery) : Prop where
  stored : l.directedDeliveryRow f.deliveryId = some row
  attempt : row.attempt = f.attempt
  leaseEpoch : row.leaseEpoch = f.leaseEpoch
  leaseToken : row.leaseToken = some f.nextLeaseToken

def AnswersTruly (f : DeliveryRecoverFrame) (out : RecoveryOutcome) : Prop :=
  ∀ row, out.answer = some (.recovered, row) → Recovered f out.ledger row

theorem answersTruly_of_ne {out : RecoveryOutcome}
    (h : ∀ row, out.answer ≠ some (.recovered, row)) : AnswersTruly f out :=
  fun row hrow => absurd hrow (h row)

theorem nextToken_of_text (h : text row.leaseToken = f.nextLeaseToken) :
    row.leaseToken = some f.nextLeaseToken := by
  cases ht : row.leaseToken with
  | none => exact absurd (by rw [← h, ht]; rfl) f.nextLeaseToken_ne
  | some token =>
    rw [ht] at h
    exact congrArg some h

theorem reviveReplay_truly (hrow : l.directedDeliveryRow f.deliveryId = some row)
    (hm : f.matchesCurrent row = true) :
    AnswersTruly f (reviveReplay l cs lingering identity connectionId f now row) := by
  obtain ⟨hattempt, hepoch, -⟩ := (matchesCurrent_iff f).1 hm
  intro revived h
  unfold reviveReplay at h ⊢
  dsimp only at h ⊢
  split at h
  · cases h
  · rename_i r hr
    split_ifs at h with hno hfound
    cases h
    rw [if_neg hno]
    simp only [Bool.or_eq_true, decide_eq_true_eq, not_or, not_not] at hno
    have hrow' := hr
    rw [row_updateDelivery, hrow] at hrow'
    simp only [Option.map_some, Option.some.injEq] at hrow'
    refine ⟨hr, ?_, ?_, nextToken_of_text hno.2⟩ <;> rw [← hrow'] <;> split_ifs
    · exact hattempt
    · exact hattempt
    · exact hepoch
    · exact hepoch

theorem rotateLease_truly :
    AnswersTruly f (rotateLease l cs lingering identity connectionId f now row) := by
  intro recovered h
  unfold rotateLease at h ⊢
  dsimp only at h ⊢
  split at h
  · cases h
  · rename_i r hr
    split_ifs at h with hno hfound
    cases h
    rw [if_neg hno]
    simp only [Bool.or_eq_true, decide_eq_true_eq, not_or, not_not] at hno
    exact ⟨hr, hno.1.2, hno.1.1.2, nextToken_of_text hno.1.1.1.2⟩

theorem deferReplay_truly : AnswersTruly f (deferReplay l cs f now) := by
  refine answersTruly_of_ne fun answered => ?_
  unfold deferReplay
  dsimp only
  split
  · simp
  · split_ifs <;> simp

theorem expireRunning_truly :
    AnswersTruly f (expireRunning l cs lingering identity connectionId f now row) := by
  refine answersTruly_of_ne fun answered => ?_
  unfold expireRunning
  dsimp only
  split
  · simp
  · split_ifs <;> simp

/-- Two branches answer `recovered`, the revival and the rotation. -/
theorem recoverUnsettled_truly (hrow : l.directedDeliveryRow f.deliveryId = some row) :
    AnswersTruly f (recoverUnsettled l cs lingering identity connectionId f now row) := by
  have hrow' : (recordCurrentLease l f row).directedDeliveryRow f.deliveryId = some row := by
    rw [directedDeliveryRow, recordCurrentLease_deliveries]
    exact hrow
  have hnever : ∀ (l' : Ledger) (answer : Option (RecoveryResult × Delivery)),
      (∀ r, answer ≠ some (.recovered, r)) → AnswersTruly f ⟨l', cs, [], answer⟩ :=
    fun l' answer h => answersTruly_of_ne h
  unfold recoverUnsettled
  dsimp only
  by_cases hsafe : replaySafeUnknown f now row = true
  · rw [if_pos hsafe]
    simp only [replaySafeUnknown, Bool.and_eq_true] at hsafe
    split_ifs
    · exact hnever _ _ (by simp)
    · exact deferReplay_truly
    · exact reviveReplay_truly hrow' hsafe.1.2
  · rw [if_neg hsafe]
    split_ifs
    · exact hnever _ _ (by simp)
    · exact hnever _ _ (by simp)
    · exact expireRunning_truly
    · exact hnever _ _ (by simp)
    · exact hnever _ _ (by simp)
    · exact hnever _ _ (by simp)
    · exact hnever _ _ (by simp)
    · exact rotateLease_truly

theorem recoverDirectedDelivery_truly :
    AnswersTruly f (l.recoverDirectedDelivery cs lingering identity connectionId f now) := by
  unfold recoverDirectedDelivery
  split
  · exact answersTruly_of_ne (by simp)
  · rename_i row hrow
    split_ifs
    · exact answersTruly_of_ne (by simp)
    · exact answersTruly_of_ne (by simp)
    · exact answersTruly_of_ne (by simp)
    · exact recoverUnsettled_truly hrow

/-- The checks on who asks. -/
def Authorised (identity : ConnState) (row : Delivery) : Prop :=
  identity.kind = .agent ∧ identity.deliveryRecoveryV1 = true ∧
    identity.toIdentity.identityMatchesDeliveryTarget row = true

theorem recoverDirectedDelivery_some {answer : RecoveryResult × Delivery}
    (h : (l.recoverDirectedDelivery cs lingering identity connectionId f now).answer = some answer) :
    ∃ current, l.directedDeliveryRow f.deliveryId = some current ∧ Authorised identity current := by
  unfold recoverDirectedDelivery at h
  split at h
  · cases h
  · rename_i current hrow
    split_ifs at h with hid
    all_goals
      simp only [Bool.or_eq_true, decide_eq_true_eq, not_or, not_not, Bool.not_eq_true',
        Bool.not_eq_false] at hid
      exact ⟨current, hrow, hid.1.1, hid.1.2, hid.2⟩

/-- A frame that knows a former token only is told so. -/
theorem recoverDirectedDelivery_superseded (hrow : l.directedDeliveryRow f.deliveryId = some row)
    (hid : Authorised identity row) (hm : f.matchesCurrent row = false)
    (hh : f.matchesHistory l = true) :
    (l.recoverDirectedDelivery cs lingering identity connectionId f now).answer =
      some (if row.recoverySettled then .terminal else .supersededSafe, row) := by
  obtain ⟨h1, h2, h3⟩ := hid
  simp only [recoverDirectedDelivery, hrow, h1, h2, h3, hm, hh]
  rw [if_neg (by simp), if_neg (by simp)]
  by_cases hs : row.recoverySettled = true
  · rw [if_pos hs, if_pos hs]
  · rw [if_neg hs, if_neg hs]
    simp [recoverUnsettled, replaySafeUnknown, hm]

/-- The connection is listed and registered for the adapter, as the recovery checks. -/
def Registered (cs : Connections) (identity : ConnState) (connectionId : String) :
    Option LeaseAdapter → Prop
  | some .watch => identity.watchCandidate = true ∧
      ∃ c ∈ cs, Connections.watchFenced identity connectionId c = true
  | some .serve => identity.serveCandidate = true ∧
      ∃ c ∈ cs, Connections.fenced identity c = true ∧ c.id = connectionId
  | _ => False

theorem fence_found {adapter : Option LeaseAdapter}
    (h : Registered cs identity connectionId adapter) (previous : String) :
    (Connections.fenceRecoveredDeliveryConnection cs lingering identity connectionId adapter
      previous).2.2 = true := by
  have hclose : ∀ c ∈ cs, c.id = connectionId → c ∈ (if previous ≠ "" && previous ≠ connectionId &&
      (Connections.getConnections cs).any (·.id = previous) then
      Connections.close cs lingering previous else cs) := by
    intro c hc hid
    split_ifs with hp
    · simp only [Bool.and_eq_true, decide_eq_true_eq] at hp
      refine (Table.mem_update _).2 ⟨c, hc, (if_neg ?_).symm⟩
      simpa [hid] using Ne.symm hp.1.2
    · exact hc
  unfold Connections.fenceRecoveredDeliveryConnection
  dsimp only
  rcases adapter with _ | adapter
  · exact h.elim
  · cases adapter with
    | watch =>
      obtain ⟨-, c, hc, hf⟩ := h
      have hid : c.id = connectionId := by
        simp only [Connections.watchFenced, Bool.and_eq_true, decide_eq_true_eq] at hf
        exact hf.1.1.1.1.2
      dsimp only
      rw [if_pos (List.any_eq_true.2 ⟨c, hclose c hc hid, hf⟩)]
    | serve =>
      obtain ⟨-, c, hc, hf, hid⟩ := h
      exact List.any_eq_true.2 ⟨c, hclose c hc hid, by simp [hf, hid]⟩
    | webhook => exact h.elim
    | legacyServe => exact h.elim

theorem boundTo_of_matches {i : Identity} (h : i.identityMatchesDeliveryTarget row = true) :
    i.boundTo row = true := by
  unfold Identity.identityMatchesDeliveryTarget at h
  split at h
  · cases h
  · rename_i p hp
    simp only [Bool.and_eq_true, decide_eq_true_eq] at h
    simp only [Delivery.principal, Option.filter_eq_some_iff] at hp
    simp [Identity.boundTo, h.1, h.2, hp.1]

theorem rotateLease_again (lingering : List String) (hrow : l.directedDeliveryRow f.deliveryId = some row)
    (hbound : identity.toIdentity.boundTo row = true) (hassign : assignmentOf f row = true)
    (hreg : Registered cs identity connectionId row.recoveryAdapter) (hactive : row.active = true)
    (hlive : ∃ u, row.leaseUntil = some u ∧ now < u) :
    (rotateLease l cs lingering identity connectionId f now row).answer =
      some (.recovered, rotatedRow connectionId f.nextLeaseToken now row) := by
  obtain ⟨u, hu, hnow⟩ := hlive
  obtain ⟨hattempt, hepoch, -⟩ := (matchesCurrent_iff f).1 ((assignmentOf_iff f).1 hassign)
  have hguard : (identity.toIdentity.boundTo row &&
      (decide (row.state = .claimed) || decide (row.state = .running)) && assignmentOf f row &&
        row.leaseUntil.any fun u => decide (now < u)) = true := by
    have hs : (decide (row.state = .claimed) || decide (row.state = .running)) = true := hactive
    simp [hbound, hs, hassign, hu, hnow]
  unfold rotateLease
  dsimp only
  rw [row_updateDelivery, hrow, Option.map_some, if_pos ⟨(row_eq_some.1 hrow).2, hguard⟩]
  dsimp only
  rw [if_neg, if_pos (fence_found hreg _)]
  have hactive' : (rotatedRow connectionId f.nextLeaseToken now row).active = true := hactive
  rw [hactive']
  simp [rotatedRow, text, hattempt, hepoch]

/-- The winner may ask again. -/
theorem recoverDirectedDelivery_again (hrow : l.directedDeliveryRow f.deliveryId = some row)
    (hid : Authorised identity row) (hreg : Registered cs identity connectionId row.recoveryAdapter)
    (hm : f.matchesCurrent row = true) (hactive : row.active = true)
    (hlive : ∃ u, row.leaseUntil = some u ∧ now < u) :
    (l.recoverDirectedDelivery cs lingering identity connectionId f now).answer =
      some (.recovered, rotatedRow connectionId f.nextLeaseToken now row) := by
  obtain ⟨h1, h2, h3⟩ := hid
  have hexpired : row.recoveryExpired now = false := by
    obtain ⟨u, hu, hnow⟩ := hlive
    simp [Delivery.recoveryExpired, hu, hnow]
  have hregistered : adapterRegistered row.recoveryAdapter identity = true := by
    generalize row.recoveryAdapter = adapter at hreg
    rcases adapter with _ | adapter
    · exact hreg.elim
    · cases adapter with
      | watch => exact hreg.1
      | serve => exact hreg.1
      | webhook => exact hreg.elim
      | legacyServe => exact hreg.elim
  have hrow' : (recordCurrentLease l f row).directedDeliveryRow f.deliveryId = some row := by
    rw [directedDeliveryRow, recordCurrentLease_deliveries]
    exact hrow
  have hrotate := rotateLease_again lingering hrow' (boundTo_of_matches h3)
    ((assignmentOf_iff f).2 hm) hreg hactive hlive
  simp only [recoverDirectedDelivery, hrow, h1, h2, h3, hm]
  rcases Delivery.active_iff.1 hactive with hs | hs <;>
    simpa [Delivery.recoverySettled, recoverUnsettled, replaySafeUnknown, hs, hm, hexpired,
      hregistered] using hrotate

end Recover

end Ledger

namespace Room

/-- What the room answers to a recovery frame. -/
def recovery (r : Room) (identity : ConnState) (connectionId : String) (f : DeliveryRecoverFrame)
    (lingering : List String) (now : Int) : Option (RecoveryResult × Delivery) :=
  (r.ledger.recoverDirectedDelivery r.sockets.connections lingering identity connectionId f
    now).answer

/-- A frame about the assignment comes from a process that rotates to a token of its
own and presents the shared token or one of its own. -/
def Contends {P : Type*} (owner : String → Option P) (a : LeaseHistory) : Event → Prop
  | .recover _ _ f _ _ => f.concerns a → ∃ p, owner f.nextLeaseToken = some p ∧
      (f.leaseToken = a.leaseToken ∨ owner f.leaseToken = some p)
  | _ => True

def IsRecovery : Event → Prop
  | .recover _ _ _ _ _ => True
  | _ => False

theorem step_contested {r r' : Room} {e : Event} {a : LeaseHistory} {K : String → Prop}
    (h : r.Sound) (hd : a.deliveryId ∈ r.minted)
    (hK : ∀ identity connectionId f lingering now,
      e = .recover identity connectionId f lingering now → f.concerns a →
        K f.leaseToken ∨ K f.nextLeaseToken → K f.nextLeaseToken)
    (hi : Contested a K r.ledger) (hs : Step r e r') : Contested a K r'.ledger := by
  refine step_preserves h hd (fun hi hp hwr hnew => hwr.contested hnew ?_ hi) hi hs
  rintro f rfl
  obtain ⟨identity, connectionId, lingering, now, rfl⟩ := permits_recovers hp
  exact hK identity connectionId f lingering now rfl

theorem step_recorded {r r' : Room} {e : Event} {a : LeaseHistory} (h : r.Sound)
    (hd : a.deliveryId ∈ r.minted) (hi : Recorded a r.ledger) (hs : Step r e r') :
    Recorded a r'.ledger :=
  step_preserves h hd (fun hi _ hwr hnew => hwr.recorded hnew hi) hi hs

/-- A recovery deletes no row. -/
theorem step_keeps_row {r r' : Room} {e : Event} {id : String} (h : r.Sound) (hd : id ∈ r.minted)
    (he : IsRecovery e) (hi : ∃ row ∈ r.ledger.deliveries, row.id = id) (hs : Step r e r') :
    ∃ row ∈ r'.ledger.deliveries, row.id = id := by
  refine step_preserves h hd (fun hi hp hwr _ => hwr.keeps_row ?_ hi) hi hs
  rintro rfl
  cases e with
  | recover => simp [permits, Tag.recoversWith, Tag.settles] at hp
  | _ => exact he

section Election

variable {P : Type*} {owner : String → Option P} {a : LeaseHistory}

/-- The tokens the row can have while nobody has won. -/
def Shared (owner : String → Option P) (a : LeaseHistory) (token : String) : Prop :=
  token = a.leaseToken ∨ ∃ p, owner token = some p

theorem shared_next {e : Event} (he : Contends owner a e) {identity : ConnState}
    {connectionId : String} {f : DeliveryRecoverFrame} {lingering : List String} {now : Int}
    (h : e = .recover identity connectionId f lingering now) (hf : f.concerns a) :
    Shared owner a f.nextLeaseToken := by
  subst h
  obtain ⟨p, hp, -⟩ := he hf
  exact Or.inr ⟨p, hp⟩

/-- The tokens of one process lead to its own tokens only. -/
theorem own_next {e : Event} (he : Contends owner a e) (hT : owner a.leaseToken = none) {p : P}
    {identity : ConnState} {connectionId : String} {f : DeliveryRecoverFrame}
    {lingering : List String} {now : Int}
    (h : e = .recover identity connectionId f lingering now) (hf : f.concerns a)
    (hk : owner f.leaseToken = some p ∨ owner f.nextLeaseToken = some p) :
    owner f.nextLeaseToken = some p := by
  subst h
  obtain ⟨q, hq, hlease⟩ := he hf
  rcases hk with hk | hk
  · rcases hlease with ht | hq'
    · rw [ht, hT] at hk
      cases hk
    · rw [hq, ← hq', hk]
  · exact hk

/-- The state of the contest in a reachable room. -/
structure Contest (a : LeaseHistory) (K : String → Prop) (r : Room) : Prop where
  sound : r.Sound
  minted : a.deliveryId ∈ r.minted
  contested : Contested a K r.ledger

theorem Contest.step {K : String → Prop} {r r' : Room} {e : Event} (h : Contest a K r)
    (hK : ∀ identity connectionId f lingering now,
      e = .recover identity connectionId f lingering now → f.concerns a →
        K f.leaseToken ∨ K f.nextLeaseToken → K f.nextLeaseToken)
    (hs : Step r e r') : Contest a K r' where
  sound := h.sound.step hs
  minted := by
    rw [hs.2]
    exact List.mem_append_left _ h.minted
  contested := step_contested h.sound h.minted hK h.contested hs

theorem run_shared {r r' : Room} {evs : List Event} (h : Contest a (Shared owner a) r)
    (hev : ∀ e ∈ evs, Contends owner a e) (hrun : Run r evs r') :
    Contest a (Shared owner a) r' := by
  induction hrun with
  | nil => exact h
  | @snoc evs t t' e _ hs ih =>
    refine (ih fun e he => hev e (List.mem_append_left _ he)).step ?_ hs
    exact fun _ _ _ _ _ heq hf _ => shared_next (hev e (by simp)) heq hf

/-- Once `p` has won, the row stays with `p` for the attempt, and the shared token is
history. -/
theorem run_owned {r r' : Room} {evs : List Event} {p : P}
    (h : Contest a (fun token => owner token = some p) r) (hT : owner a.leaseToken = none)
    (hev : ∀ e ∈ evs, Contends owner a e) (hrec : Recorded a r.ledger) (hrun : Run r evs r') :
    Contest a (fun token => owner token = some p) r' ∧ Recorded a r'.ledger := by
  induction hrun with
  | nil => exact ⟨h, hrec⟩
  | @snoc evs t t' e _ hs ih =>
    obtain ⟨hc, hr⟩ := ih fun e he => hev e (List.mem_append_left _ he)
    refine ⟨hc.step ?_ hs, step_recorded hc.sound hc.minted hr hs⟩
    exact fun _ _ _ _ _ heq hf hk => own_next (hev e (by simp)) hT heq hf hk

theorem run_keeps_row {r r' : Room} {evs : List Event} {id : String} (h : r.Sound)
    (hd : id ∈ r.minted) (hev : ∀ e ∈ evs, IsRecovery e)
    (hi : ∃ row ∈ r.ledger.deliveries, row.id = id) (hrun : Run r evs r') :
    ∃ row ∈ r'.ledger.deliveries, row.id = id := by
  suffices hmain : (r'.Sound ∧ id ∈ r'.minted) ∧ ∃ row ∈ r'.ledger.deliveries, row.id = id from
    hmain.2
  induction hrun with
  | nil => exact ⟨⟨h, hd⟩, hi⟩
  | @snoc evs t t' e _ hs ih =>
    obtain ⟨⟨hsound, hk⟩, hrow⟩ := ih fun e he => hev e (List.mem_append_left _ he)
    refine ⟨⟨hsound.step hs, ?_⟩, step_keeps_row hsound hk (hev e (by simp)) hrow hs⟩
    rw [hs.2]
    exact List.mem_append_left _ hk

/-- The winning step hands the row to `p`. -/
theorem step_wins {r r' : Room} {p : P} (h : Contest a (Shared owner a) r)
    (hT : owner a.leaseToken = none) {identity : ConnState} {connectionId : String}
    {f : DeliveryRecoverFrame} {lingering : List String} {now : Int} {row : Delivery}
    (hf : f.concerns a) (hp : owner f.nextLeaseToken = some p)
    (hcont : Contends owner a (.recover identity connectionId f lingering now))
    (hwin : r.recovery identity connectionId f lingering now = some (.recovered, row))
    (hs : Step r (.recover identity connectionId f lingering now) r') :
    Contest a (fun token => owner token = some p) r' ∧ Recorded a r'.ledger := by
  have hc := h.step (fun _ _ _ _ _ heq hf _ => shared_next hcont heq hf) hs
  obtain ⟨hstored, hattempt, hepoch, htoken⟩ := recoverDirectedDelivery_truly row hwin
  have hledger : r'.ledger = (r.ledger.recoverDirectedDelivery r.sockets.connections lingering
      identity connectionId f now).ledger := by rw [hs.2]; rfl
  rw [← hledger, hf.1] at hstored
  obtain ⟨hmem, hid⟩ := row_eq_some.1 hstored
  have hrow : ∀ r₁ ∈ r'.ledger.deliveries, r₁.id = a.deliveryId → r₁ = row :=
    fun r₁ hr₁ hid₁ => Table.eq_of_key hr₁ hmem (hid₁.trans hid.symm)
  have hhist : a ∈ r'.ledger.leaseHistory := by
    obtain ⟨-, token, htok, -, hor⟩ := (hc.contested row hmem hid).2 (hattempt.trans hf.2.1)
    rw [htoken, Option.some.injEq] at htok
    refine hor.resolve_left fun ht => ?_
    rw [← ht, ← htok, hp] at hT
    cases hT
  refine ⟨⟨hc.sound, hc.minted, fun r₁ hr₁ hid₁ => ?_⟩, fun _ => hhist⟩
  rw [hrow r₁ hr₁ hid₁]
  exact ⟨(hattempt.trans hf.2.1).ge, fun _ =>
    ⟨hepoch.trans hf.2.2, _, htoken, hp, Or.inr hhist⟩⟩

/-- A frame of a process that has lost is not answered `recovered`, and as long as the
row is there its process learns what became of it. -/
def Loses (r : Room) (a : LeaseHistory) (g : DeliveryRecoverFrame) : Prop :=
  ∀ (identity : ConnState) (connectionId : String) (lingering : List String) (now : Int),
    (∀ row, r.recovery identity connectionId g lingering now ≠ some (.recovered, row)) ∧
      ∀ current, r.ledger.directedDeliveryRow a.deliveryId = some current →
        Authorised identity current → ∃ result row,
          r.recovery identity connectionId g lingering now = some (result, row) ∧
          result ∈ [RecoveryResult.supersededSafe, .terminal, .terminalUnknown]

/-- While the row is at the assignment that `f` won and still carries the token that `f`
won, active and not expired, `f` is answered `recovered` from every connection registered
for the row's adapter. -/
def KeepsWinning (r : Room) (a : LeaseHistory) (f : DeliveryRecoverFrame) : Prop :=
  ∀ (identity : ConnState) (connectionId : String) (lingering : List String) (now : Int)
    (current : Delivery), r.ledger.directedDeliveryRow a.deliveryId = some current →
    Authorised identity current →
    Registered r.sockets.connections identity connectionId current.recoveryAdapter →
    current.attempt = a.attempt → current.leaseEpoch = a.leaseEpoch →
    current.leaseToken = some f.nextLeaseToken → current.active = true →
    (∃ u, current.leaseUntil = some u ∧ now < u) →
    ∃ row, r.recovery identity connectionId f lingering now = some (.recovered, row) ∧
      row.leaseToken = some f.nextLeaseToken

theorem keepsWinning (r : Room) {f : DeliveryRecoverFrame} (hf : f.concerns a) :
    KeepsWinning r a f := by
  intro identity connectionId lingering now current hrow hid hreg hattempt hepoch htoken hactive
    hlive
  rw [← hf.1] at hrow
  refine ⟨_, recoverDirectedDelivery_again hrow hid hreg ?_ hactive hlive, rfl⟩
  exact (matchesCurrent_iff f).2 ⟨hattempt.trans hf.2.1.symm, hepoch.trans hf.2.2.symm,
    Or.inr htoken⟩

/-- The shared token and a foreign next token no longer match the row. -/
theorem loses_of_owned {r : Room} {p q : P} (h : Contest a (fun token => owner token = some p) r)
    (hrec : Recorded a r.ledger) (hT : owner a.leaseToken = none) {g : DeliveryRecoverFrame}
    (hg : g.concerns a) (hlease : g.leaseToken = a.leaseToken)
    (hq : owner g.nextLeaseToken = some q) (hne : q ≠ p) : Loses r a g := by
  intro identity connectionId lingering now
  have hmiss : ∀ row ∈ r.ledger.deliveries, row.id = a.deliveryId → g.matchesCurrent row = false := by
    intro row hrow hid
    by_contra hm
    obtain ⟨hattempt, -, htoken⟩ := (matchesCurrent_iff g).1 (by simpa using hm)
    obtain ⟨-, token, htok, hown, -⟩ := (h.contested row hrow hid).2 (hattempt.trans hg.2.1)
    rw [htok, Option.some.injEq, Option.some.injEq, hlease] at htoken
    rcases htoken with ht | ht <;> rw [ht] at hown
    · rw [hT] at hown
      cases hown
    · rw [hq, Option.some.injEq] at hown
      exact hne hown
  have hanswer : ∀ current, r.ledger.directedDeliveryRow a.deliveryId = some current →
      Authorised identity current → r.recovery identity connectionId g lingering now =
        some (if current.recoverySettled then .terminal else .supersededSafe, current) := by
    intro current hrow hid
    obtain ⟨hmem, hcid⟩ := row_eq_some.1 hrow
    rw [← hg.1] at hrow
    refine recoverDirectedDelivery_superseded hrow hid (hmiss current hmem hcid) ?_
    refine List.any_eq_true.2 ⟨a, hrec ⟨current, hmem, hcid⟩, ?_⟩
    simp [hg.1, hg.2.1, hg.2.2, DeliveryRecoverFrame.presents, hlease]
  refine ⟨fun row hrow => ?_, fun current hrow hid => ⟨_, _, hanswer current hrow hid, ?_⟩⟩
  · obtain ⟨current, hcurrent, hid⟩ := recoverDirectedDelivery_some hrow
    rw [hanswer current (hg.1 ▸ hcurrent) hid] at hrow
    split_ifs at hrow <;> simp at hrow
  · split_ifs <;> simp

/-- Token-fenced recovery elects one owner: of the processes that share the token of
assignment `a`, and whose next tokens `owner` tells apart, the first one that is
answered `recovered` wins it for as long as the row carries the token it won, and the
others never win it. -/
theorem recovery_elects_one_owner {r₀ r₁ r r₂ : Room} {evs₁ evs₂ : List Event} {p : P}
    {identity : ConnState} {connectionId : String} {f : DeliveryRecoverFrame}
    {lingering : List String} {now : Int} {row : Delivery} (h₀ : Reachable r₀)
    (hassigned : ∃ d ∈ r₀.ledger.deliveries, d.id = a.deliveryId ∧ d.attempt = a.attempt ∧
      d.leaseEpoch = a.leaseEpoch ∧ d.leaseToken = some a.leaseToken)
    (hT : owner a.leaseToken = none) (hf : f.concerns a) (hp : owner f.nextLeaseToken = some p)
    (h₁ : Run r₀ evs₁ r₁)
    (hwin : r₁.recovery identity connectionId f lingering now = some (.recovered, row))
    (hs : Step r₁ (.recover identity connectionId f lingering now) r) (h₂ : Run r evs₂ r₂)
    (hev : ∀ e ∈ evs₁ ++ Event.recover identity connectionId f lingering now :: evs₂,
      Contends owner a e) :
    (∀ (g : DeliveryRecoverFrame) (q : P), g.concerns a → g.leaseToken = a.leaseToken →
        owner g.nextLeaseToken = some q → q ≠ p → Loses r₂ a g) ∧
      KeepsWinning r₂ a f ∧
      ((∀ e ∈ evs₁ ++ evs₂, IsRecovery e) →
        ∃ current, r₂.ledger.directedDeliveryRow a.deliveryId = some current) := by
  obtain ⟨d, hd, hid, hattempt, hepoch, htoken⟩ := hassigned
  have hstart : Contest a (Shared owner a) r₀ := by
    refine ⟨h₀.sound, h₀.sound.known _ (Or.inl ⟨d, hd, Or.inl hid⟩), fun d' hd' hid' => ?_⟩
    rw [Table.eq_of_key hd' hd (hid'.trans hid.symm)]
    exact ⟨hattempt.ge, fun _ => ⟨hepoch, _, htoken, Or.inl rfl, Or.inl rfl⟩⟩
  have hbefore := run_shared hstart (fun e he => hev e (List.mem_append_left _ he)) h₁
  obtain ⟨hwon, hrec⟩ := step_wins hbefore hT hf hp (hev _ (by simp)) hwin hs
  obtain ⟨hafter, hrec'⟩ := run_owned hwon hT (fun e he => hev e (by simp [he])) hrec h₂
  refine ⟨fun g q hg hlease hq hne => loses_of_owned hafter hrec' hT hg hlease hq hne,
    keepsWinning r₂ hf, fun hall => ?_⟩
  have hrow₁ := run_keeps_row hstart.sound hstart.minted
    (fun e he => hall e (List.mem_append_left _ he)) ⟨d, hd, hid⟩ h₁
  have hwon' : IsRecovery (.recover identity connectionId f lingering now) := trivial
  have hrow := step_keeps_row hbefore.sound hbefore.minted hwon' hrow₁ hs
  obtain ⟨current, hmem, hcid⟩ := run_keeps_row hwon.sound hwon.minted
    (fun e he => hall e (List.mem_append_right _ he)) hrow h₂
  exact ⟨current, row_eq_some.2 ⟨hmem, hcid⟩⟩

end Election

/-! Two processes know the token of the claim; the first one moves it to `c2`. -/

def claimOfBot : LeaseHistory := ⟨deliveryUuid.val, 1, 1, tokenUuid.val⟩

def contender (next : String) (hne : next ≠ "") (hn : tokenUuid.val ≠ next) :
    DeliveryRecoverFrame :=
  ⟨deliveryUuid.val, 1, 1, tokenUuid.val, next, false, by decide, Nat.one_pos, Nat.one_pos, by decide,
    hne, hn⟩

def firstFrame : DeliveryRecoverFrame := contender "first" (by decide) (by decide)

def secondFrame : DeliveryRecoverFrame := contender "second" (by decide) (by decide)

/-- The processes are told apart by their tokens. -/
def contenders (token : String) : Option Bool :=
  if token = "first" then some true else if token = "second" then some false else none

def rejoined : Room := (initial.exec claimedEvents).exec (serveEvents "c2" true)

def firstRecovers : Event := .recover botState "c2" firstFrame [] 10

theorem recovery_elects_one_owner_first :
    ((rejoined.next firstRecovers).recovery botState "c2" secondFrame [] 20).map (·.1) =
        some .supersededSafe ∧
      Loses (rejoined.next firstRecovers) claimOfBot secondFrame ∧
      KeepsWinning (rejoined.next firstRecovers) claimOfBot firstFrame := by
  refine ⟨by decide, ?_⟩
  have hwin : (rejoined.recovery botState "c2" firstFrame [] 10).map (·.1) = some .recovered := by
    decide
  obtain ⟨⟨result, row⟩, hwin, rfl : result = .recovered⟩ := Option.map_eq_some_iff.1 hwin
  have hev : ∀ e ∈ serveEvents "c2" true ++ [firstRecovers], Contends contenders claimOfBot e := by
    simp [serveEvents, firstRecovers, Contends, contenders, firstFrame, contender, claimOfBot]
  obtain ⟨hloses, hkeeps, -⟩ := @recovery_elects_one_owner _ contenders claimOfBot
    (initial.exec claimedEvents) _ _ _ _ _ true _ _ _ _ _ _ ⟨claimedEvents, run_exec (by decide)⟩
    (by decide) (by decide) (by decide) (by decide) (run_exec (by decide)) hwin ⟨by decide, rfl⟩
    EventSystem.Run.nil hev
  exact ⟨hloses secondFrame false (by decide) rfl (by decide) (by decide), hkeeps⟩

end Room
end AgentParty
