import AgentParty.Proofs.Writes

/-! `Steady` is what a row keeps under every write except a claim, a recovery and a
redelivery: its work, its assignment, and the direction of its life. -/

namespace AgentParty

/-- A linked reply can still settle the row. -/
def Delivery.completable (r : Delivery) : Bool :=
  r.state = .queued || r.state = .claimed || r.state = .running ||
    (r.state = .failed && r.isFailedDeliveryRevivable)

structure Steady (r r' : Delivery) : Prop where
  messageSeq : r'.messageSeq = r.messageSeq
  target : r'.target = r.target
  cause : r'.cause = r.cause
  attempt : r'.attempt = r.attempt
  leaseEpoch : r'.leaseEpoch = r.leaseEpoch
  leaseToken : r'.leaseToken = r.leaseToken
  active : r'.active = true → r.active = true
  unstarted : r'.unstarted = true → r.unstarted = true
  completable : r'.completable = true → r.completable = true
  released : r.released = true → r'.released = true

theorem Steady.refl (r : Delivery) : Steady r r :=
  ⟨rfl, rfl, rfl, rfl, rfl, rfl, id, id, id, id⟩

theorem Steady.trans {a b c : Delivery} (h : Steady a b) (h' : Steady b c) : Steady a c where
  messageSeq := h'.messageSeq.trans h.messageSeq
  target := h'.target.trans h.target
  cause := h'.cause.trans h.cause
  attempt := h'.attempt.trans h.attempt
  leaseEpoch := h'.leaseEpoch.trans h.leaseEpoch
  leaseToken := h'.leaseToken.trans h.leaseToken
  active := fun hc => h.active (h'.active hc)
  unstarted := fun hc => h.unstarted (h'.unstarted hc)
  completable := fun hc => h.completable (h'.completable hc)
  released := fun ha => h'.released (h.released ha)

namespace Delivery

theorem active_iff {r : Delivery} : r.active = true ↔ r.state = .claimed ∨ r.state = .running := by
  simp [active]

theorem unstarted_iff {r : Delivery} :
    r.unstarted = true ↔ r.state = .queued ∨ r.state = .claimed := by
  simp [unstarted]

theorem revivable_iff {r : Delivery} : r.isFailedDeliveryRevivable = true ↔
    r.state = .failed ∧ (r.terminalReason = none ∨ r.terminalReason = some .unknownOutcome) := by
  unfold isFailedDeliveryRevivable
  cases hr : r.terminalReason with
  | none => simp
  | some reason => cases reason <;> simp [REVIVABLE_DELIVERY_FAILURES]

theorem completable_iff {r : Delivery} : r.completable = true ↔
    r.state = .queued ∨ r.state = .claimed ∨ r.state = .running ∨
      (r.state = .failed ∧ (r.terminalReason = none ∨ r.terminalReason = some .unknownOutcome)) := by
  simp only [completable, Bool.or_eq_true, Bool.and_eq_true, decide_eq_true_eq, revivable_iff,
    or_assoc]
  tauto

theorem released_iff {r : Delivery} : r.released = true ↔
    r.state = .waitingOwner ∨ r.state = .replied ∨
      (r.state = .failed ∧ ∃ reason, r.terminalReason = some reason ∧ reason.final = true) := by
  unfold released
  cases r.terminalReason <;> simp [or_assoc]

end Delivery

/-- Only a held lease is rewritten. -/
theorem Ledger.Rewrite.active {r r' : Delivery} (h : Ledger.Rewrite r r') : r.active = true := by
  cases h with
  | starts _ _ h => exact h
  | heartbeats _ _ h => exact Delivery.active_iff.2 (Or.inr h)
  | renews _ _ h => exact Delivery.active_iff.2 (Or.inl h)
  | requeues _ h => exact Delivery.active_iff.2 (Or.inl h)
  | parks _ h => exact h
  | mints _ _ h => exact h

/-- Only a held lease or an unknown outcome is taken over. -/
theorem Ledger.Takeover.state {l : Ledger} {f : DeliveryRecoverFrame} {r r' : Delivery}
    (h : Ledger.Takeover l f r r') :
    r.active = true ∨ (r.state = .failed ∧ r.terminalReason = some .unknownOutcome) := by
  cases h with
  | defers _ _ hs hr => exact Or.inr ⟨hs, hr⟩
  | revives _ _ _ _ hs _ => exact hs.imp_left fun h => Delivery.active_iff.2 (Or.inr h)
  | rotates _ _ hs => exact Or.inl hs

section Rows

/-- A row update that keeps work and assignment is steady when its state moves forward. -/
theorem Steady.of_columns {r r' : Delivery}
    (hcol : (r'.messageSeq, r'.target, r'.cause, r'.attempt, r'.leaseEpoch, r'.leaseToken) =
      (r.messageSeq, r.target, r.cause, r.attempt, r.leaseEpoch, r.leaseToken))
    (hactive : r'.active = true → r.active = true)
    (hunstarted : r'.unstarted = true → r.unstarted = true)
    (hcompletable : r'.completable = true → r.completable = true)
    (hreleased : r.released = true → r'.released = true) : Steady r r' := by
  simp only [Prod.mk.injEq] at hcol
  obtain ⟨h1, h2, h3, h4, h5, h6⟩ := hcol
  exact ⟨h1, h2, h3, h4, h5, h6, hactive, hunstarted, hcompletable, hreleased⟩

theorem steady_rewrite {r r' : Delivery} (h : Ledger.Rewrite r r') : Steady r r' := by
  cases h with
  | starts _ _ h =>
    have hs := Delivery.active_iff.1 h
    refine Steady.of_columns rfl (fun _ => h) ?_ ?_ ?_ <;>
      rcases hs with hs | hs <;>
      simp [Ledger.runningRow, Delivery.unstarted_iff, Delivery.completable_iff,
        Delivery.released_iff, hs]
  | heartbeats _ _ h => exact Steady.of_columns rfl id id id id
  | renews _ _ h => exact Steady.of_columns rfl id id id id
  | requeues _ h =>
    refine Steady.of_columns rfl ?_ ?_ ?_ ?_ <;>
      simp [Ledger.requeuedRow, Delivery.active_iff, Delivery.unstarted_iff,
        Delivery.completable_iff, Delivery.released_iff, h]
  | parks _ h =>
    have hs := Delivery.active_iff.1 h
    refine Steady.of_columns rfl (fun _ => h) ?_ ?_ ?_ <;>
      rcases hs with hs | hs <;>
      simp [Ledger.parkedRow, Delivery.unstarted_iff, Delivery.completable_iff,
        Delivery.released_iff, hs]
  | mints _ _ h => exact Steady.of_columns rfl id id id id

theorem steady_purge {r r' : Delivery} (h : Ledger.Purge r r') : Steady r r' := by
  cases h with
  | reclassifies failure _ h hf =>
    refine Steady.of_columns rfl id id ?_ ?_
    · simp [Ledger.reclassifiedRow, Delivery.completable_iff, h]
      intro hr
      rw [hr] at hf
      cases hf
    · simp [Ledger.reclassifiedRow, Delivery.released_iff, h, hf]
  | scrubs => exact Steady.of_columns rfl id id id id

theorem steady_settled (r : Delivery) (st : TerminalState) (replySeq : Option ℕ)
    (error : Option String) (now : Int) :
    Steady r (Ledger.settledRow st replySeq error now r) := by
  cases st <;>
    exact Steady.of_columns rfl (by simp [Ledger.settledRow, Delivery.active_iff])
      (by simp [Ledger.settledRow, Delivery.unstarted_iff])
      (by simp [Ledger.settledRow, Delivery.completable_iff])
      (by simp [Ledger.settledRow, Delivery.released_iff, DeliveryTerminalReason.final])

/-- The gate's own row, when it fails: released rows fail for good. -/
theorem steady_closed {r : Delivery} (now : Int) (o : Ledger.TerminalOptions)
    (hs : r.state ≠ .replied) (hne : r.state ≠ .failed)
    (hw : r.state = .waitingOwner → (o.terminalReason.getD .deliveryFailed).final = true) :
    Steady r (Ledger.terminalRow .failed now o r) := by
  refine Steady.of_columns rfl ?_ ?_ ?_ ?_
  · simp [Ledger.terminalRow, TerminalState.toState, Delivery.active_iff]
  · simp [Ledger.terminalRow, TerminalState.toState, Delivery.unstarted_iff]
  · intro hc
    have hnw : r.state ≠ .waitingOwner := by
      intro hwt
      have hf := hw hwt
      simp only [Ledger.terminalRow, TerminalState.toState, Delivery.completable_iff,
        Ledger.TerminalOptions.storedReason] at hc
      simp only [reduceCtorEq, true_and, false_or, Option.some.injEq] at hc
      rw [hc] at hf
      cases hf
    rw [Delivery.completable_iff]
    cases hst : r.state <;> simp_all
  · intro hrel
    rw [Delivery.released_iff] at hrel ⊢
    rcases hrel with hwt | hr | ⟨hf, -⟩
    · exact Or.inr (Or.inr ⟨rfl, _, rfl, hw hwt⟩)
    · exact absurd hr hs
    · exact absurd hf hne

/-- The gate's own row, when it is answered. -/
theorem steady_completed (r : Delivery) (now : Int) (o : Ledger.TerminalOptions) :
    Steady r (Ledger.terminalRow .replied now o r) :=
  Steady.of_columns rfl (by simp [Ledger.terminalRow, TerminalState.toState, Delivery.active_iff])
    (by simp [Ledger.terminalRow, TerminalState.toState, Delivery.unstarted_iff])
    (by simp [Ledger.terminalRow, TerminalState.toState, Delivery.completable_iff])
    (by simp [Ledger.terminalRow, TerminalState.toState, Delivery.released_iff])

end Rows

namespace Ledger

/-- The tags of the writes that are not steady. -/
def Tag.steady : Tag → Bool
  | .takes _ | .recovers _ | .reclaims _ => false
  | _ => true

/-- A row of the later ledger continues one of the earlier, or a write created it. -/
def Continues (R : Delivery → Delivery → Prop) (created : List String) (l l' : Ledger) : Prop :=
  ∀ r' ∈ l'.deliveries, (∃ r ∈ l.deliveries, r.id = r'.id ∧ R r r') ∨
    (r'.id ∈ created ∧ ∃ r, r.state = .queued ∧ r.leaseToken = none ∧ R r r')

theorem Continues.of_pointwise {R : Delivery → Delivery → Prop} {l l' : Ledger}
    (h : Table.Pointwise R l.deliveries l'.deliveries) : Continues R [] l l' := by
  intro r' hr'
  exact Or.inl (h.backward hr')

theorem Continues.refl {R : Delivery → Delivery → Prop} (hR : ∀ r, R r r) (l : Ledger) :
    Continues R [] l l :=
  fun r hr => Or.inl ⟨r, hr, rfl, hR r⟩

theorem Continues.trans {R : Delivery → Delivery → Prop} (hR : ∀ a b c, R a b → R b c → R a c)
    {ids ids' : List String} {l l' l'' : Ledger} (h : Continues R ids l l')
    (h' : Continues R ids' l' l'') : Continues R (ids ++ ids') l l'' := by
  intro c hc
  rcases h' c hc with ⟨b, hb, hbc, hR'⟩ | ⟨hid, b, hs, ht, hR'⟩
  · rcases h b hb with ⟨a, ha, hab, hR''⟩ | ⟨hid, a, hs, ht, hR''⟩
    · exact Or.inl ⟨a, ha, hab.trans hbc, hR a b c hR'' hR'⟩
    · exact Or.inr ⟨List.mem_append_left _ (hbc ▸ hid), a, hs, ht, hR a b c hR'' hR'⟩
  · exact Or.inr ⟨List.mem_append_right _ hid, b, hs, ht, hR'⟩

theorem mem_insertDelivery {l : Ledger} {r r' : Delivery}
    (h : r' ∈ ({ l with deliveries := l.deliveries.insert r } : Ledger).deliveries) :
    r' ∈ l.deliveries ∨ r' = r :=
  (Table.mem_insert.1 h).imp_right And.left

theorem continues_updateDelivery {R : Delivery → Delivery → Prop} {l : Ledger} {id : String}
    {g : Delivery → Bool} {f : Delivery → Delivery} {hf : ∀ r, (f r).id = r.id}
    (hrefl : ∀ r, R r r) (h : ∀ r ∈ l.deliveries, r.id = id → g r = true → R r (f r)) :
    Continues R [] l (l.updateDelivery id g f hf) :=
  Continues.of_pointwise (pointwise_updateDelivery hrefl h)

/-- One case per write: what the steady ones do to the rows. -/
theorem Write.steady {l l' : Ledger} {t : Tag} (h : Write l t l') (ht : t.steady = true) :
    Continues Steady t.created.toList l l' := by
  cases h with
  | rewrite id g f hf h =>
    exact continues_updateDelivery Steady.refl fun r hr hid hg => steady_rewrite (h r hr hid hg)
  | purge id g f hf h =>
    exact continues_updateDelivery Steady.refl fun r hr hid hg => steady_purge (h r hr hid hg)
  | close id now o hs hw =>
    refine Continues.of_pointwise ((transition_spec l id .failed now o).2.2.2.mono ?_)
    rintro r - r' (⟨rfl, -⟩ | ⟨-, hne, hexp, -, -, rfl⟩ | ⟨-, -, -, _, _, rfl⟩)
    · exact Steady.refl _
    · exact steady_closed now o (fun h => hs (h ▸ hexp)) hne fun h => hw (h ▸ hexp)
    · exact steady_settled _ _ _ _ _
  | complete id now o hs =>
    refine Continues.of_pointwise ((transition_spec l id .replied now o).2.2.2.mono ?_)
    rintro r - r' (⟨rfl, -⟩ | ⟨-, -, -, -, -, rfl⟩ | ⟨-, -, -, _, _, rfl⟩)
    · exact Steady.refl _
    · exact steady_completed _ now o
    · exact steady_settled _ _ _ _ _
  | enqueue r hs _ htok =>
    intro r' hr'
    rcases mem_insertDelivery hr' with hr' | rfl
    · exact Or.inl ⟨r', hr', rfl, Steady.refl r'⟩
    · exact Or.inr ⟨by simp [Tag.created], r', hs, htok, Steady.refl _⟩
  | answer r hs _ htok =>
    intro r' hr'
    rcases mem_insertDelivery hr' with hr' | rfl
    · exact Or.inl ⟨r', hr', rfl, Steady.refl r'⟩
    · exact Or.inr ⟨by simp [Tag.created], r', hs, htok, Steady.refl _⟩
  | forget p => exact fun r' hr' => Or.inl ⟨r', (Table.mem_delete.1 hr').1, rfl, Steady.refl r'⟩
  | record h =>
    unfold recordLease
    split_ifs <;> exact Continues.refl Steady.refl l
  | store | edit | drop => exact Continues.refl Steady.refl l
  | take | recover | reclaim => simp [Tag.steady] at ht

theorem Writes.steady {P : Tag → Prop} (hP : ∀ t, P t → t.steady = true) {ids : List String}
    {l l' : Ledger} (h : Writes P ids l l') : Continues Steady ids l l' := by
  obtain ⟨tags, hr, hp, hs⟩ := h
  have hmain : Continues Steady (tags.filterMap Tag.created) l l' := by
    clear hs
    induction hr with
    | nil => exact Continues.refl Steady.refl l
    | @snoc evs t t' e _ hw ih =>
      rw [List.filterMap_append]
      have hlast : List.filterMap Tag.created [e] = e.created.toList := by
        cases hc : e.created <;> simp [hc]
      rw [hlast]
      have htrans : ∀ a b c, Steady a b → Steady b c → Steady a c := fun _ _ _ => Steady.trans
      exact (ih fun t ht => hp t (List.mem_append_left _ ht)).trans htrans
        (hw.steady (hP e (hp e (by simp))))
  intro r' hr'
  exact (hmain r' hr').imp_right fun ⟨hid, h⟩ => ⟨hs.subset hid, h⟩

end Ledger
end AgentParty
