import AgentParty.Proofs.Ownership

/-! The books of the process: what its entries, requests and answers say of the assignments
it has received, and how each operation of the journal moves the copies of a token. -/

namespace AgentParty
namespace RecoveryJournal

section Operations

variable (j : Journal) (now : Int) (c : Commit)

theorem recordClaim_cases (delivery : DirectedDelivery) (message : MsgFrame) :
    recordClaim j delivery message now c = (j, none) ∨
      (∃ current, j.entriesById.get? delivery.id = some current ∧
        recordClaim j delivery message now c = (j, some current)) ∨
      validClaim delivery message = true ∧
        recordClaim j delivery message now c = persistEntry j (claimedEntry delivery message now) c := by
  unfold recordClaim
  by_cases hvalid : validClaim delivery message = true
  · rw [if_neg (by simp [hvalid])]
    cases hcurrent : j.entriesById.get? delivery.id with
    | none =>
      dsimp only
      split_ifs
      · exact Or.inl rfl
      · exact Or.inr (Or.inr ⟨hvalid, rfl⟩)
    | some current =>
      dsimp only
      split_ifs
      · exact Or.inl rfl
      · exact Or.inr (Or.inr ⟨hvalid, rfl⟩)
      · exact Or.inl rfl
      · exact Or.inl rfl
      · exact Or.inr (Or.inl ⟨current, rfl, rfl⟩)
  · rw [if_pos (by simpa using hvalid)]
    exact Or.inl rfl

theorem update_cases (deliveryId : String) (patch : Patch) :
    (update j deliveryId patch now c).1 = j ∨
      ∃ current, j.entriesById.get? deliveryId = some current ∧
        (update j deliveryId patch now c).1 = (persistSnapshot j
          (j.entriesById.put { patch.apply current with updatedAt := now }) c).1 := by
  unfold update
  cases hcurrent : j.entriesById.get? deliveryId with
  | none => exact Or.inl rfl
  | some current => exact Or.inr ⟨current, rfl, rfl⟩

theorem removeMany_cases (ids : List String) :
    removeMany j ids c = j ∨ removeMany j ids c =
      (persistSnapshot j (j.entriesById.delete fun e => ids.contains e.delivery.id) c).1 := by
  unfold removeMany
  split_ifs
  · exact Or.inl rfl
  · exact Or.inr rfl

/-- A request is built from the entry as it stands, or as it has just been written. -/
theorem prepareRecovery_cases (deliveryId : String) (options : PrepareOptions)
    (minted requestId : String) :
    prepareRecovery j deliveryId options minted requestId now c = (j, none) ∨
      ∃ current leaseEpoch token, j.entriesById.get? deliveryId = some current ∧
        current.delivery.leaseEpoch = some leaseEpoch ∧ current.delivery.leaseToken = some token ∧
        ((∃ y, current.nextLeaseToken = some y ∧
            prepareRecovery j deliveryId options minted requestId now c =
              (j, some (requestFor current leaseEpoch token y options.replaySafe requestId))) ∨
          current.nextLeaseToken = none ∧
            prepareRecovery j deliveryId options minted requestId now c =
              ((persistEntry j { current with nextLeaseToken := some minted, updatedAt := now } c).1,
                (persistEntry j { current with nextLeaseToken := some minted, updatedAt := now }
                  c).2.map fun _ =>
                    requestFor current leaseEpoch token minted options.replaySafe requestId)) := by
  unfold prepareRecovery
  cases hcurrent : j.entriesById.get? deliveryId with
  | none => exact Or.inl rfl
  | some current =>
    dsimp only
    cases hepoch : current.delivery.leaseEpoch with
    | none => exact Or.inl rfl
    | some leaseEpoch =>
      cases htoken : current.delivery.leaseToken with
      | none => exact Or.inl rfl
      | some token =>
        dsimp only
        split_ifs
        · exact Or.inl rfl
        · exact Or.inl rfl
        · refine Or.inr ⟨current, leaseEpoch, token, rfl, hepoch, htoken, ?_⟩
          cases hnext : current.nextLeaseToken with
          | some y => exact Or.inl ⟨y, rfl, rfl⟩
          | none => exact Or.inr ⟨rfl, rfl⟩

theorem acceptRecovery_cases (frame : RecoveryResultFrame) :
    acceptRecovery j frame now c = (j, none) ∨
      ∃ current, j.entriesById.get? frame.deliveryId = some current ∧
        acknowledges frame current = true ∧
        acceptRecovery j frame now c = persistEntry j (acceptedEntry frame now current) c := by
  unfold acceptRecovery
  cases hcurrent : j.entriesById.get? frame.deliveryId with
  | none => exact Or.inl rfl
  | some current =>
    dsimp only
    by_cases hack : acknowledges frame current = true
    · rw [if_neg (by simp [hack])]
      exact Or.inr ⟨current, rfl, hack, rfl⟩
    · rw [if_pos (by simpa using hack)]
      exact Or.inl rfl

end Operations

section Copies

variable {entries : Entries} {a : Assignment} {e : DeliveryRecoveryEntry}

theorem copyAt_put (entries : Entries) (e : DeliveryRecoveryEntry) (a : Assignment) :
    copyAt (entries.put e) a = if e.delivery.id = a.1 then copyOf e a else copyAt entries a := by
  unfold copyAt
  rw [Table.get?_put]
  by_cases h : e.delivery.id = a.1
  · rw [if_pos h, if_pos h.symm]
    rfl
  · rw [if_neg h, if_neg (Ne.symm h)]

theorem copyAt_delete (ids : List String) (a : Assignment) :
    copyAt (entries.delete fun e => ids.contains e.delivery.id) a = copyAt entries a ∨
      copyAt (entries.delete fun e => ids.contains e.delivery.id) a = none := by
  unfold copyAt
  cases h : (entries.delete fun e => ids.contains e.delivery.id).get? a.1 with
  | none => exact Or.inr rfl
  | some e =>
    obtain ⟨hmem, hid⟩ := Table.get?_eq_some.1 h
    rw [Table.get?_eq_some.2 ⟨(Table.mem_delete.1 hmem).1, hid⟩]
    exact Or.inl rfl

theorem copyOf_eq {current : DeliveryRecoveryEntry} {token : String}
    (hattempt : current.delivery.attempt = a.2.1) (hepoch : current.delivery.leaseEpoch = some a.2.2)
    (htoken : current.delivery.leaseToken = some token) :
    copyOf current a = some (token, current.nextLeaseToken) := by
  rw [copyOf, if_pos ⟨hattempt, hepoch⟩, htoken]
  rfl

theorem copyOf_ne {current : DeliveryRecoveryEntry}
    (h : ¬ (current.delivery.attempt = a.2.1 ∧ current.delivery.leaseEpoch = some a.2.2)) :
    copyOf current a = none := if_neg h

/-- An entry in the place of one with the same tokens. -/
theorem copyAt_replace {current : DeliveryRecoveryEntry}
    (hcurrent : entries.get? e.delivery.id = some current) (h : copyOf e a = copyOf current a) :
    copyAt (entries.put e) a = copyAt entries a := by
  rw [copyAt_put]
  split_ifs with hid
  · rw [h, copyAt, ← hid, hcurrent]
    rfl
  · rfl

end Copies

section Writes

variable {current : String} {spent : List String} {asked : List (String × String)}
  {j : Journal} {a : Assignment} {entries : Entries} {c : Commit}

/-- The journal's two copies of the assignment stand well with the server. -/
def Stands (current : String) (spent : List String) (j : Journal) (a : Assignment)
    (asked : List (String × String)) : Prop :=
  Handover.Aligned current spent (copyAt j.file a) (copyAt j.entriesById a) asked

theorem Stands.persist (h : Stands current spent j a asked)
    (hentries : Handover.Aligned current spent (copyAt entries a) (copyAt j.entriesById a) asked ∧
      Handover.Aligned current spent (copyAt entries a) (copyAt entries a) asked) :
    Stands current spent (persistSnapshot j entries c).1 a asked := by
  cases c with
  | durable => exact hentries.2
  | refused => exact h
  | unsynced => exact hentries.1

/-- A snapshot that keeps the copy or drops it. -/
theorem Stands.carry (h : Stands current spent j a asked)
    (hentries : copyAt entries a = copyAt j.entriesById a ∨ copyAt entries a = none) :
    Stands current spent (persistSnapshot j entries c).1 a asked := by
  refine h.persist ?_
  rcases hentries with heq | heq <;> rw [heq]
  · exact ⟨Handover.Aligned.store h, Handover.Aligned.store h⟩
  · exact ⟨Handover.Aligned.erase h, (Handover.Aligned.erase h).crash⟩

theorem persistEntry_fst (j : Journal) (e : DeliveryRecoveryEntry) (c : Commit) :
    (persistEntry j e c).1 = (persistSnapshot j (j.entriesById.put e) c).1 := rfl

theorem Stands.update (h : Stands current spent j a asked) (deliveryId : String) (patch : Patch)
    (now : Int) : Stands current spent (update j deliveryId patch now c).1 a asked := by
  rcases update_cases j now c deliveryId patch with heq | ⟨e, hcurrent, heq⟩ <;> rw [heq]
  · exact h
  · refine h.carry (Or.inl (@copyAt_replace _ _ _ e ?_ ?_))
    · rw [show _ = _ from patch.id_eq e, (Table.get?_eq_some.1 hcurrent).2, hcurrent]
    · simp only [copyOf, patch.attempt_eq, patch.leaseEpoch_eq, patch.leaseToken_eq,
        patch.nextLeaseToken_eq]

theorem Stands.removeMany (h : Stands current spent j a asked) (ids : List String) :
    Stands current spent (removeMany j ids c) a asked := by
  rcases removeMany_cases j c ids with heq | heq <;> rw [heq]
  · exact h
  · exact h.carry (copyAt_delete ids a)

/-- The claim of another assignment. -/
theorem Stands.recordOther (h : Stands current spent j a asked) {delivery : DirectedDelivery}
    {message : MsgFrame} (now : Int) (hother : validClaim delivery message = true →
      ¬ (delivery.id = a.1 ∧ delivery.attempt = a.2.1 ∧ delivery.leaseEpoch = some a.2.2)) :
    Stands current spent (recordClaim j delivery message now c).1 a asked := by
  rcases recordClaim_cases j now c delivery message with heq | ⟨e, -, heq⟩ | ⟨hvalid, heq⟩ <;>
    rw [heq]
  · exact h
  · exact h
  · refine h.carry ?_
    rw [copyAt_put]
    split_ifs with hid
    · exact Or.inr (copyOf_ne fun hat => hother hvalid ⟨hid, hat⟩)
    · exact Or.inl rfl

theorem askedAt_cons (q : RecoverRequest) (requests : List RecoverRequest) (a : Assignment) :
    askedAt (q :: requests) a = if q.assignment = a then
      (q.leaseToken, q.nextLeaseToken) :: askedAt requests a else askedAt requests a := by
  unfold askedAt
  rw [List.filter_cons]
  by_cases h : q.assignment = a
  · rw [if_pos (by simpa using h), if_pos h]
    rfl
  · rw [if_neg (by simpa using h), if_neg h]

/-- The request that the entry gives is asked, or asked again. -/
theorem Stands.asks {requests : List RecoverRequest} {e : DeliveryRecoveryEntry}
    {leaseEpoch : ℕ} {token y deliveryId requestId : String} {replaySafe : Bool}
    (h : Stands current spent j a (askedAt requests a))
    (he : j.entriesById.get? deliveryId = some e) (hepoch : e.delivery.leaseEpoch = some leaseEpoch)
    (htoken : e.delivery.leaseToken = some token) (hnext : e.nextLeaseToken = some y) :
    Stands current spent j a
      (askedAt (requestFor e leaseEpoch token y replaySafe requestId :: requests) a) := by
  rw [askedAt_cons]
  split_ifs with ha
  · subst ha
    refine Handover.Aligned.ask h ?_
    change (j.entriesById.get? e.delivery.id).bind _ = _
    rw [(Table.get?_eq_some.1 he).2, he, Option.bind_some, copyOf_eq rfl hepoch htoken, hnext]
    rfl
  · exact h

theorem Stands.prepare {requests : List RecoverRequest} {deliveryId minted requestId : String}
    {options : PrepareOptions} {now : Int} (h : Stands current spent j a (askedAt requests a))
    (hne : minted ≠ current) (hns : minted ∉ spent) :
    Stands current spent (prepareRecovery j deliveryId options minted requestId now c).1 a
      (askedAt ((prepareRecovery j deliveryId options minted requestId now c).2.toList ++ requests)
        a) := by
  rcases prepareRecovery_cases j now c deliveryId options minted requestId with
    heq | ⟨e, leaseEpoch, token, he, hepoch, htoken, ⟨y, hnext, heq⟩ | ⟨hnext, heq⟩⟩ <;> rw [heq]
  · exact h
  · exact h.asks he hepoch htoken hnext
  · obtain ⟨e', he'⟩ : ∃ e' : DeliveryRecoveryEntry,
        e' = { e with nextLeaseToken := some minted, updatedAt := now } := ⟨_, rfl⟩
    have hid : e'.delivery.id = deliveryId := by
      rw [he']
      exact (Table.get?_eq_some.1 he).2
    rw [← he', persistEntry_fst]
    have hstands : Stands current spent (persistSnapshot j (j.entriesById.put e') c).1 a
        (askedAt requests a) := by
      by_cases ha : a = (deliveryId, e.delivery.attempt, leaseEpoch)
      · have hmemory : copyAt j.entriesById a = some (token, none) := by
          rw [ha, copyAt, he, Option.bind_some, copyOf_eq rfl hepoch htoken, hnext]
        have hwritten : copyAt (j.entriesById.put e') a = some (token, some minted) := by
          rw [copyAt_put, hid, ha, if_pos rfl, he']
          exact copyOf_eq rfl hepoch htoken
        refine h.persist ?_
        rw [hwritten]
        exact Handover.Aligned.mint h hmemory hne hns
      · refine h.carry ?_
        rw [copyAt_put, hid]
        split_ifs with hat
        · refine Or.inr (copyOf_ne fun hassign => ha ?_)
          rw [he', hepoch] at hassign
          exact Prod.ext hat.symm (Prod.ext hassign.1.symm (Option.some.inj hassign.2).symm)
        · exact Or.inl rfl
    cases c with
    | refused | unsynced => exact hstands
    | durable =>
      have hget : (j.entriesById.put e').get? deliveryId = some e' := by
        rw [Table.get?_put, if_pos hid.symm]
      have hasks : Stands current spent (persistSnapshot j (j.entriesById.put e') .durable).1 a
          (askedAt (requestFor e' leaseEpoch token minted options.replaySafe requestId :: requests)
            a) :=
        hstands.asks hget (by rw [he', hepoch]) (by rw [he', htoken]) (by rw [he'])
      subst he'
      exact hasks

theorem Stands.accept {requests : List (String × String)} {frame : RecoveryResultFrame} {now : Int}
    (h : Stands current spent j a requests)
    (hfiled : ∀ e ∈ j.entriesById, e.delivery.leaseToken.isSome = true)
    (hserved : ∀ y, frame.assignment = a → frame.leaseToken = some y → y = current ∨ y ∈ spent) :
    Stands current spent (acceptRecovery j frame now c).1 a requests := by
  rcases acceptRecovery_cases j now c frame with heq | ⟨e, he, hack, heq⟩ <;> rw [heq]
  · exact h
  · obtain ⟨hmem, hid⟩ := Table.get?_eq_some.1 he
    obtain ⟨token, htoken⟩ := Option.isSome_iff_exists.1 (hfiled e hmem)
    simp only [acknowledges, Bool.and_eq_true, decide_eq_true_eq] at hack
    obtain ⟨⟨⟨⟨⟨-, hsome⟩, -⟩, hattempt⟩, hepoch⟩, hnext⟩ := hack
    obtain ⟨y, hy⟩ := Option.isSome_iff_exists.1 hsome
    have hid' : (acceptedEntry frame now e).delivery.id = frame.deliveryId := hid
    rw [persistEntry_fst]
    by_cases ha : frame.assignment = a
    · have hmemory : copyAt j.entriesById a = some (token, some y) := by
        rw [← ha, copyAt]
        change (j.entriesById.get? frame.deliveryId).bind _ = _
        rw [he, Option.bind_some, copyOf_eq hattempt hepoch htoken, hnext, hy]
      obtain rfl : y = current := Handover.Aligned.next_eq h hmemory (hserved y ha hy)
      have hwritten : copyAt (j.entriesById.put (acceptedEntry frame now e)) a =
          some (y, none) := by
        rw [copyAt_put, hid', ← ha, if_pos (show frame.deliveryId = frame.assignment.1 from rfl)]
        exact copyOf_eq hattempt hepoch hy
      refine h.persist ?_
      rw [hwritten]
      exact Handover.Aligned.accept h hmemory
    · refine h.carry ?_
      rw [copyAt_put, hid']
      split_ifs with hat
      · refine Or.inr (copyOf_ne fun hassign => ha ?_)
        change e.delivery.attempt = a.2.1 ∧ e.delivery.leaseEpoch = some a.2.2 at hassign
        rw [hattempt, hepoch] at hassign
        exact Prod.ext hat (Prod.ext hassign.1 (Option.some.inj hassign.2))
      · exact Or.inl rfl

/-- The claim of an assignment that the journal has never had. -/
theorem Stands.recordNew {delivery : DirectedDelivery} (message : MsgFrame) (now : Int)
    {token : String} (hfile : copyAt j.file a = none) (hmemory : copyAt j.entriesById a = none)
    (htoken : delivery.leaseToken = some token) :
    Stands token [] (recordClaim j delivery message now c).1 a [] := by
  have hnew : ∀ copy, copyAt (j.entriesById.put (claimedEntry delivery message now)) a =
      some copy → copy = (token, none) := by
    intro copy hcopy
    rw [copyAt_put, hmemory] at hcopy
    split_ifs at hcopy
    unfold copyOf at hcopy
    split_ifs at hcopy
    rw [show (claimedEntry delivery message now).delivery.leaseToken = some token from htoken] at hcopy
    exact (Option.some.inj hcopy).symm
  have hnone : ∀ {o : Option (Handover.Copy String)} copy, o = none → o = some copy →
      copy = (token, none) := by
    rintro o copy rfl ⟨⟩
  have hkept : Stands token [] j a [] :=
    Handover.start token (fun copy => hnone copy hfile) (fun copy => hnone copy hmemory)
  rcases recordClaim_cases j now c delivery message with heq | ⟨e, -, heq⟩ | ⟨-, heq⟩ <;> rw [heq]
  · exact hkept
  · exact hkept
  · rw [persistEntry_fst]
    exact hkept.persist ⟨Handover.start token hnew fun copy => hnone copy hmemory,
      Handover.start token hnew hnew⟩

end Writes
section Entries

/-- An entry is that of a received assignment, and its tokens are the journal's. -/
structure Filed (received : List Assignment) (tokens : List String) (e : DeliveryRecoveryEntry)
    (leaseEpoch : ℕ) (token : String) : Prop where
  leaseEpoch_eq : e.delivery.leaseEpoch = some leaseEpoch
  leaseToken_eq : e.delivery.leaseToken = some token
  received : (e.delivery.id, e.delivery.attempt, leaseEpoch) ∈ received
  token_mem : token ∈ tokens
  acceptable : acceptable token = true
  next : ∀ y, e.nextLeaseToken = some y → y ∈ tokens ∧ RecoveryJournal.acceptable y = true ∧
    token ≠ y

def IsFiled (received : List Assignment) (tokens : List String) (e : DeliveryRecoveryEntry) : Prop :=
  ∃ leaseEpoch token, Filed received tokens e leaseEpoch token

variable {received received' : List Assignment} {tokens tokens' : List String}
  {P : DeliveryRecoveryEntry → Prop} {j : Journal} {c : Commit}

theorem IsFiled.mono {e : DeliveryRecoveryEntry} (h : IsFiled received tokens e)
    (hreceived : received ⊆ received') (htokens : tokens ⊆ tokens') :
    IsFiled received' tokens' e := by
  obtain ⟨leaseEpoch, token, h⟩ := h
  exact ⟨leaseEpoch, token, h.leaseEpoch_eq, h.leaseToken_eq, hreceived h.received,
    htokens h.token_mem, h.acceptable,
    fun y hy => ⟨htokens (h.next y hy).1, (h.next y hy).2⟩⟩

/-- Both the entries in memory and those in the file. -/
def Journal.All (P : DeliveryRecoveryEntry → Prop) (j : Journal) : Prop :=
  (∀ e ∈ j.file, P e) ∧ ∀ e ∈ j.entriesById, P e

theorem Journal.All.persist {entries : Entries} (h : j.All P) (hentries : ∀ e ∈ entries, P e) :
    (persistSnapshot j entries c).1.All P := by
  cases c with
  | durable => exact ⟨hentries, hentries⟩
  | refused => exact h
  | unsynced => exact ⟨hentries, h.2⟩

theorem Journal.All.persistEntry {e : DeliveryRecoveryEntry} (h : j.All P) (he : P e) :
    (persistEntry j e c).1.All P := by
  refine h.persist fun e' he' => ?_
  rcases Table.mem_put.1 he' with rfl | ⟨he', -⟩
  · exact he
  · exact h.2 e' he'

theorem Journal.All.update (h : j.All (IsFiled received tokens)) (deliveryId : String)
    (patch : Patch) (now : Int) :
    (update j deliveryId patch now c).1.All (IsFiled received tokens) := by
  rcases update_cases j now c deliveryId patch with heq | ⟨e, hcurrent, heq⟩ <;> rw [heq]
  · exact h
  · refine h.persistEntry ?_
    obtain ⟨leaseEpoch, token, he⟩ := h.2 e (Table.get?_eq_some.1 hcurrent).1
    refine ⟨leaseEpoch, token, (patch.leaseEpoch_eq e).trans he.leaseEpoch_eq,
      (patch.leaseToken_eq e).trans he.leaseToken_eq, ?_, he.token_mem, he.acceptable,
      fun y hy => he.next y ((patch.nextLeaseToken_eq e).symm.trans hy)⟩
    change ((patch.apply e).delivery.id, (patch.apply e).delivery.attempt, leaseEpoch) ∈ received
    rw [patch.id_eq, patch.attempt_eq]
    exact he.received

theorem Journal.All.removeMany (h : j.All P) (ids : List String) : (removeMany j ids c).All P := by
  rcases removeMany_cases j c ids with heq | heq <;> rw [heq]
  · exact h
  · exact h.persist fun e he => h.2 e (Table.mem_delete.1 he).1

theorem Journal.All.recordClaim (h : j.All (IsFiled received tokens)) {delivery : DirectedDelivery}
    (message : MsgFrame) (now : Int)
    (hassignment : ∀ leaseEpoch, delivery.leaseEpoch = some leaseEpoch →
      delivery.leaseToken.isSome = true → (delivery.id, delivery.attempt, leaseEpoch) ∈ received)
    (htoken : ∀ token, delivery.leaseToken = some token →
      token ∈ tokens ∧ (delivery.leaseEpoch.isSome = true → acceptable token = true)) :
    (recordClaim j delivery message now c).1.All (IsFiled received tokens) := by
  rcases recordClaim_cases j now c delivery message with heq | ⟨e, -, heq⟩ | ⟨hvalid, heq⟩ <;>
    rw [heq]
  · exact h
  · exact h
  · refine h.persistEntry ?_
    simp only [validClaim, Bool.and_eq_true, Option.any_eq_true] at hvalid
    obtain ⟨⟨-, leaseEpoch, hepoch, -⟩, token, htok, -⟩ := hvalid
    exact ⟨leaseEpoch, token, hepoch, htok,
      hassignment leaseEpoch hepoch (by rw [htok]; rfl), (htoken token htok).1,
      (htoken token htok).2 (by rw [hepoch]; rfl), nofun⟩

theorem Journal.All.prepareRecovery (h : j.All (IsFiled received tokens)) (deliveryId : String)
    (options : PrepareOptions) {minted : String} (requestId : String) (now : Int)
    (hnew : minted ∉ tokens) (hok : acceptable minted = true) :
    (prepareRecovery j deliveryId options minted requestId now c).1.All
      (IsFiled received (minted :: tokens)) := by
  have hmono : j.All (IsFiled received (minted :: tokens)) :=
    ⟨fun e he => (h.1 e he).mono (List.Subset.refl _) (List.subset_cons_self _ _),
      fun e he => (h.2 e he).mono (List.Subset.refl _) (List.subset_cons_self _ _)⟩
  rcases prepareRecovery_cases j now c deliveryId options minted requestId with
    heq | ⟨e, leaseEpoch, token, he, -, -, ⟨y, -, heq⟩ | ⟨-, heq⟩⟩ <;> rw [heq]
  · exact hmono
  · exact hmono
  · refine hmono.persistEntry ?_
    obtain ⟨leaseEpoch, token, hfiled⟩ := h.2 e (Table.get?_eq_some.1 he).1
    refine ⟨leaseEpoch, token, hfiled.leaseEpoch_eq, hfiled.leaseToken_eq, hfiled.received,
      List.mem_cons_of_mem _ hfiled.token_mem, hfiled.acceptable, ?_⟩
    rintro y ⟨rfl⟩
    exact ⟨List.mem_cons_self, hok, fun heq => hnew (heq ▸ hfiled.token_mem)⟩

theorem Journal.All.acceptRecovery (h : j.All (IsFiled received tokens))
    (frame : RecoveryResultFrame) (now : Int) :
    (acceptRecovery j frame now c).1.All (IsFiled received tokens) := by
  rcases acceptRecovery_cases j now c frame with heq | ⟨e, he, hack, heq⟩ <;> rw [heq]
  · exact h
  · refine h.persistEntry ?_
    obtain ⟨leaseEpoch, token, hfiled⟩ := h.2 e (Table.get?_eq_some.1 he).1
    simp only [acknowledges, Bool.and_eq_true, decide_eq_true_eq] at hack
    obtain ⟨y, hy⟩ := Option.isSome_iff_exists.1 hack.1.1.1.1.2
    have hnext := hfiled.next y (hack.2.trans hy)
    exact ⟨leaseEpoch, y, hfiled.leaseEpoch_eq, hy, hfiled.received, hnext.1, hnext.2.1, nofun⟩

end Entries

section Memory

variable {j : Journal} {a : Assignment} {c : Commit} (now : Int)

theorem copyAt_eq_some {entries : Entries} {copy : Handover.Copy String}
    (h : copyAt entries a = some copy) : ∃ e, entries.get? a.1 = some e ∧
      e.delivery.attempt = a.2.1 ∧ e.delivery.leaseEpoch = some a.2.2 ∧
      e.delivery.leaseToken = some copy.1 ∧ e.nextLeaseToken = copy.2 := by
  obtain ⟨e, he, hcopy⟩ := Option.bind_eq_some_iff.1 h
  unfold copyOf at hcopy
  split_ifs at hcopy with hassign
  obtain ⟨token, htoken, rfl⟩ := Option.map_eq_some_iff.1 hcopy
  exact ⟨e, he, hassign.1, hassign.2, htoken, rfl⟩

/-- A write that throws leaves the memory, and one that does not changes one entry. -/
theorem copyAt_persistEntry {e : DeliveryRecoveryEntry}
    (h : (persistEntry j e c).2 = none ∨ a.1 ≠ e.delivery.id) :
    copyAt (persistEntry j e c).1.entriesById a = copyAt j.entriesById a := by
  cases c with
  | refused | unsynced => rfl
  | durable =>
    change copyAt (j.entriesById.put e) a = _
    rw [copyAt_put, if_neg (h.resolve_left nofun).symm]

theorem copyAt_update (deliveryId : String) (patch : Patch) :
    copyAt (update j deliveryId patch now c).1.entriesById a = copyAt j.entriesById a := by
  rcases update_cases j now c deliveryId patch with heq | ⟨e, hcurrent, heq⟩ <;> rw [heq]
  cases c with
  | refused | unsynced => rfl
  | durable =>
    refine @copyAt_replace _ _ _ e ?_ ?_
    · rw [show _ = _ from patch.id_eq e, (Table.get?_eq_some.1 hcurrent).2, hcurrent]
    · simp only [copyOf, patch.attempt_eq, patch.leaseEpoch_eq, patch.leaseToken_eq,
        patch.nextLeaseToken_eq]

theorem copyAt_removeMany {ids : List String} (h : c = .durable → a.1 ∉ ids) :
    copyAt (removeMany j ids c).entriesById a = copyAt j.entriesById a := by
  rcases removeMany_cases j c ids with heq | heq <;> rw [heq]
  cases c with
  | refused | unsynced => rfl
  | durable =>
    change copyAt (j.entriesById.delete fun e => ids.contains e.delivery.id) a = _
    unfold copyAt
    cases he : j.entriesById.get? a.1 with
    | some e =>
      obtain ⟨hmem, hid⟩ := Table.get?_eq_some.1 he
      have hkeep : ids.contains e.delivery.id = false := by simpa [hid] using h rfl
      rw [Table.get?_eq_some.2 ⟨Table.mem_delete.2 ⟨hmem, hkeep⟩, hid⟩]
    | none =>
      rw [Table.get?_eq_none.2 fun e hmem =>
        Table.get?_eq_none.1 he e (Table.mem_delete.1 hmem).1]

theorem copyAt_recordClaim {delivery : DirectedDelivery} {message : MsgFrame}
    (h : (recordClaim j delivery message now c).2 = none ∨ a.1 ≠ delivery.id) :
    copyAt (recordClaim j delivery message now c).1.entriesById a = copyAt j.entriesById a := by
  rcases recordClaim_cases j now c delivery message with heq | ⟨e, -, heq⟩ | ⟨-, heq⟩ <;>
    rw [heq] at h ⊢
  exact copyAt_persistEntry h

theorem copyAt_acceptRecovery {frame : RecoveryResultFrame} (h : a.1 ≠ frame.deliveryId) :
    copyAt (acceptRecovery j frame now c).1.entriesById a = copyAt j.entriesById a := by
  rcases acceptRecovery_cases j now c frame with heq | ⟨e, he, -, heq⟩ <;> rw [heq]
  refine copyAt_persistEntry (Or.inr ?_)
  rw [show (acceptedEntry frame now e).delivery.id = e.delivery.id from rfl,
    (Table.get?_eq_some.1 he).2]
  exact h

theorem copyAt_prepareRecovery {deliveryId minted requestId : String} {options : PrepareOptions}
    (h : (prepareRecovery j deliveryId options minted requestId now c).2 = none ∨
      a.1 ≠ deliveryId) :
    copyAt (prepareRecovery j deliveryId options minted requestId now c).1.entriesById a =
      copyAt j.entriesById a := by
  rcases prepareRecovery_cases j now c deliveryId options minted requestId with
    heq | ⟨e, leaseEpoch, token, he, -, -, ⟨y, -, heq⟩ | ⟨-, heq⟩⟩ <;> rw [heq] at h ⊢
  refine copyAt_persistEntry ?_
  rw [show ({ e with nextLeaseToken := some minted, updatedAt := now } :
    DeliveryRecoveryEntry).delivery.id = deliveryId from (Table.get?_eq_some.1 he).2]
  exact h.imp_left Option.map_eq_none_iff.1

/-- The request that a preparation gives is that of the entry in memory after it. -/
theorem prepareRecovery_request {deliveryId minted requestId : String} {options : PrepareOptions}
    {q : RecoverRequest}
    (h : (prepareRecovery j deliveryId options minted requestId now c).2 = some q) :
    q.deliveryId = deliveryId ∧ q.requestId = requestId ∧
      copyAt (prepareRecovery j deliveryId options minted requestId now c).1.entriesById
        q.assignment = some (q.leaseToken, some q.nextLeaseToken) := by
  rcases prepareRecovery_cases j now c deliveryId options minted requestId with
    heq | ⟨e, leaseEpoch, token, he, hepoch, htoken, ⟨y, hnext, heq⟩ | ⟨-, heq⟩⟩ <;> rw [heq] at h ⊢
  · cases h
  · obtain rfl := Option.some.inj h
    obtain ⟨-, rfl⟩ := Table.get?_eq_some.1 he
    refine ⟨rfl, rfl, ?_⟩
    change (j.entriesById.get? e.delivery.id).bind _ = _
    rw [he, Option.bind_some, copyOf_eq rfl hepoch htoken, hnext]
    rfl
  · cases c with
    | refused | unsynced => cases h
    | durable =>
      obtain rfl : requestFor e leaseEpoch token minted options.replaySafe requestId = q :=
        Option.some.inj h
      obtain ⟨-, rfl⟩ := Table.get?_eq_some.1 he
      refine ⟨rfl, rfl, ?_⟩
      change copyAt (j.entriesById.put _) _ = _
      rw [copyAt_put]
      exact (if_pos rfl).trans (copyOf_eq rfl hepoch htoken)

end Memory

end RecoveryJournal
end AgentParty
