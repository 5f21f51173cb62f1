import AgentParty.Proofs.ServeLease

/-! What a dispatch relies on between its waits. It claims for a candidate it has read at its
start; in a run that takes no sampled candidate away in between, the holder of a new claim is
open, still elected or still registered, and its clean-up has not run. -/

namespace AgentParty

open Connections EventSystem Ledger

/-- Open on both sides, and its close handler has not begun. -/
def Connection.Open (c : Connection) : Prop :=
  c.listed = true ∧ c.closed = false ∧ c.state.closing = false

namespace Ledger

/-- A claim of the connection that nothing reserves for a recovery. -/
def Stranded (connectionId : String) (r : Delivery) : Prop :=
  r.state = .claimed ∧ heldBy connectionId r = true ∧ r.leaseToken = none

theorem Rewrite.stranded {r r' : Delivery} (h : Rewrite r r') {connectionId : String}
    (hs : Stranded connectionId r') : Stranded connectionId r := by
  obtain ⟨hstate, hheld, htoken⟩ := hs
  cases h with
  | starts | requeues => cases hstate
  | heartbeats _ _ h => simp [heartbeatRow, h] at hstate
  | renews | mints => exact ⟨hstate, hheld, htoken⟩
  | parks => simp [parkedRow] at hstate

theorem Takeover.not_stranded {l : Ledger} {f : DeliveryRecoverFrame} {r r' : Delivery}
    (h : Takeover l f r r') {connectionId : String} : ¬ Stranded connectionId r' := by
  rintro ⟨hstate, -, htoken⟩
  cases h with
  | defers => cases hstate
  | revives | rotates => cases htoken

theorem stranded_update {l : Ledger} {id connectionId : String} {g : Delivery → Bool}
    {f : Delivery → Delivery} {hf : ∀ r, (f r).id = r.id}
    (h : ∀ r ∈ l.deliveries, r.id = id → g r = true → Stranded connectionId (f r) →
      Stranded connectionId r) {r' : Delivery} (hr' : r' ∈ (l.updateDelivery id g f hf).deliveries)
    (hs : Stranded connectionId r') :
    ∃ r ∈ l.deliveries, r.id = r'.id ∧ Stranded connectionId r := by
  obtain ⟨r, hr, rfl⟩ := mem_updateDelivery.1 hr'
  split_ifs at hs ⊢ with hg
  · exact ⟨r, hr, (hf r).symm, h r hr hg.1 hg.2 hs⟩
  · exact ⟨r, hr, rfl, hs⟩

theorem stranded_gate {l : Ledger} {id connectionId : String} {st : TerminalState} {now : Int}
    {o : TerminalOptions} {r' : Delivery}
    (hr' : r' ∈ (l.transitionDirectedDeliveryTerminal id st now o).1.deliveries)
    (hs : Stranded connectionId r') :
    ∃ r ∈ l.deliveries, r.id = r'.id ∧ Stranded connectionId r := by
  obtain ⟨r, hr, hid, hc⟩ := (transition_spec l id st now o).2.2.2.backward hr'
  rcases hc with ⟨rfl, -⟩ | ⟨-, -, -, -, -, rfl⟩ | ⟨-, -, -, _, _, rfl⟩
  · exact ⟨_, hr, hid, hs⟩
  · have hstate := hs.1
    cases st <;> cases hstate
  · have hstate := hs.1
    cases st <;> cases hstate

/-- Only a claim strands a row anew. -/
theorem Write.stranded {l l' : Ledger} {t : Tag} (h : Write l t l') (ht : ∀ id, t ≠ .takes id)
    {connectionId : String} {r' : Delivery} (hr' : r' ∈ l'.deliveries)
    (hs : Stranded connectionId r') :
    ∃ r ∈ l.deliveries, r.id = r'.id ∧ Stranded connectionId r := by
  cases h with
  | rewrite id g f hf h =>
    exact stranded_update (fun r hr hid hg => (h r hr hid hg).stranded) hr' hs
  | purge id g f hf h =>
    refine stranded_update (fun r hr hid hg hs => ?_) hr' hs
    have hpurge := h r hr hid hg
    generalize f r = r₁ at hpurge hs
    cases hpurge with
    | reclassifies => exact hs
    | scrubs =>
      have hheld := hs.2.1
      simp [heldBy, scrubbedRow] at hheld
  | close | complete => exact stranded_gate hr' hs
  | enqueue r hq | answer r hq =>
    rcases mem_insertDelivery hr' with hr' | rfl
    · exact ⟨r', hr', rfl, hs⟩
    · rw [hs.1] at hq
      cases hq
  | forget p => exact ⟨r', (Table.mem_delete.1 hr').1, rfl, hs⟩
  | store | edit | drop => exact ⟨r', hr', rfl, hs⟩
  | record h =>
    rw [recordLease_deliveries] at hr'
    exact ⟨r', hr', rfl, hs⟩
  | take id => exact absurd rfl (ht id)
  | recover f g u hu h =>
    refine stranded_update (fun r hr hid hg hs => ?_) hr' hs
    exact absurd hs (h r hr hid hg).1.not_stranded
  | reclaim id g holder leaseUntil now h =>
    refine stranded_update (fun r hr hid hg hs => ?_) hr' hs
    obtain ⟨-, hheld, -⟩ := hs
    simp [heldBy, reclaimedRow] at hheld

theorem requeueOne_stranded {l : Ledger} {connectionId : String} {now : Int} {row r' : Delivery}
    (hr' : r' ∈ (requeueOne connectionId now l row).deliveries) (hs : Stranded connectionId r') :
    (Stranded connectionId row → r'.id ≠ row.id) ∧
      ∃ r ∈ l.deliveries, r.id = r'.id ∧ Stranded connectionId r := by
  unfold requeueOne at hr'
  split_ifs at hr' with hreserved hlegacy
  · refine ⟨fun hrow => ?_, r', hr', rfl, hs⟩
    simp [hrow.2.2, text] at hreserved
  · refine ⟨fun hrow => ?_, stranded_gate hr' hs⟩
    simp [hrow.1] at hlegacy
  · constructor
    · rintro - hid
      obtain ⟨r, hr, rfl⟩ := mem_updateDelivery.1 hr'
      split_ifs at hs hid with hg
      · cases hs.1
      · refine hg ⟨hid, ?_⟩
        obtain ⟨hstate, hheld, -⟩ := hs
        simp only [heldBy, Bool.and_eq_true, decide_eq_true_eq] at hheld
        simp [hheld.1, hstate]
    · exact stranded_update (fun r _ _ _ hs => by cases hs.1) hr' hs

/-- The clean-up of a socket leaves it no claim but the reserved ones. -/
theorem requeue_not_stranded {l : Ledger} {connectionId : String} {now : Int} {r' : Delivery}
    (hr' : r' ∈ (l.requeueDirectedDeliveriesForConnection connectionId now).deliveries) :
    ¬ Stranded connectionId r' := by
  have hloop : ∀ (rows : List Delivery) (l : Ledger) (r' : Delivery),
      r' ∈ (rows.foldl (requeueOne connectionId now) l).deliveries → Stranded connectionId r' →
      (∀ row ∈ rows, Stranded connectionId row → r'.id ≠ row.id) ∧
        ∃ r ∈ l.deliveries, r.id = r'.id ∧ Stranded connectionId r := by
    intro rows
    induction rows with
    | nil => exact fun l r' hr' hs => ⟨by simp, r', hr', rfl, hs⟩
    | cons row rows ih =>
      intro l r' hr' hs
      obtain ⟨hrows, r, hr, hid, hs⟩ := ih _ r' hr' hs
      obtain ⟨hrow, r₀, hr₀, hid₀, hs₀⟩ := requeueOne_stranded hr hs
      refine ⟨?_, r₀, hr₀, hid₀.trans hid, hs₀⟩
      rw [List.forall_mem_cons]
      exact ⟨hid ▸ hrow, hrows⟩
  intro hs
  obtain ⟨hrows, r, hr, hid, hs₀⟩ := hloop _ l r' hr' hs
  exact hrows r (List.mem_filter.2 ⟨hr, hs₀.2.1⟩) hs₀ hid.symm

/-- The adapter a dispatch claims for. -/
inductive Chosen (m : Matching) : LeaseAdapter → Connection ⊕ AgentWebhook → Prop
  | serve {c : Connection} (h : c ∈ m.serve) : Chosen m .serve (.inl c)
  | watch {c : Connection} (h : c ∈ m.watch) : Chosen m .watch (.inl c)
  | webhook {hook : AgentWebhook} (h : hook ∈ m.webhooks) : Chosen m .webhook (.inr hook)
  | legacy {c : Connection} (h : c ∈ m.legacy) : Chosen m .legacyServe (.inl c)

theorem chosen_of_adapter {m : Matching} {adapter : LeaseAdapter}
    {holder : Connection ⊕ AgentWebhook} (h : m.adapter = some (adapter, holder)) :
    Chosen m adapter holder := by
  unfold Matching.adapter at h
  split at h
  · rename_i hserve
    cases h
    exact .serve (by simp [hserve])
  · rename_i hwatch
    cases h
    exact .watch (by simp [hwatch])
  · rename_i hhooks
    cases h
    exact .webhook (by simp [hhooks])
  · cases h

/-- A row at work after the decision was at work before it, or holds for the chosen adapter. -/
def ClaimedFor (l : Ledger) (m : Matching) (r' : Delivery) : Prop :=
  r' ∈ l.deliveries ∨ ∃ adapter holder, Chosen m adapter holder ∧
    r'.leaseAdapter = some adapter ∧ r'.leaseConnectionId = some (holderOf holder)

theorem claimedFor_update {l : Ledger} {m : Matching} {adapter : LeaseAdapter}
    {holder : Connection ⊕ AgentWebhook} (hm : Chosen m adapter holder) {id : String}
    {g : Delivery → Bool} {state : DeliveryState} {token : Option String} {leaseUntil now : Int}
    {r' : Delivery} (hr' : r' ∈ (l.updateDelivery id g
      (claimedRow state adapter token (holderOf holder) leaseUntil now)
      (claimedRow_id _ _ _ _ _ _)).deliveries) : ClaimedFor l m r' := by
  obtain ⟨r, hr, rfl⟩ := mem_updateDelivery.1 hr'
  split_ifs
  · exact Or.inr ⟨adapter, holder, hm, rfl, rfl⟩
  · exact Or.inl hr

theorem active_gate {l : Ledger} {id : String} {st : TerminalState} {now : Int}
    {o : TerminalOptions} {r' : Delivery}
    (hr' : r' ∈ (l.transitionDirectedDeliveryTerminal id st now o).1.deliveries)
    (ha : r'.active = true) : r' ∈ l.deliveries := by
  obtain ⟨r, hr, -, hc⟩ := (transition_spec l id st now o).2.2.2.backward hr'
  rcases hc with ⟨rfl, -⟩ | ⟨-, -, -, -, -, rfl⟩ | ⟨-, -, -, _, _, rfl⟩
  · exact hr
  · cases st <;> simp [Delivery.active, terminalRow, TerminalState.toState] at ha
  · cases st <;> simp [Delivery.active, settledRow] at ha

theorem claimFor_claims {l : Ledger} {m : Matching} {queued : Delivery} {principal : String}
    {adapter : LeaseAdapter} {holder : Connection ⊕ AgentWebhook} (hm : Chosen m adapter holder)
    {token : Uuid} {now : Int} {r' : Delivery}
    (hr' : r' ∈ (l.claimFor queued principal adapter holder token now).1.deliveries)
    (ha : r'.active = true) : ClaimedFor l m r' := by
  unfold claimFor at hr'
  dsimp only at hr'
  split at hr'
  · exact claimedFor_update hm hr'
  · split_ifs at hr'
    · exact claimedFor_update hm hr'
    · split at hr'
      · exact claimedFor_update hm (active_gate hr' ha)
      · exact claimedFor_update hm hr'

theorem dispatchDecide_claims {l : Ledger} {cs : Connections} {task : DispatchTask}
    {queued : Delivery} {principal : String} {token : Uuid} {now : Int} {r' : Delivery}
    (hr' : r' ∈ (l.dispatchDecide cs task queued principal token now).1.deliveries)
    (ha : r'.active = true) : ClaimedFor l (matching cs task queued principal) r' := by
  have hrecord : (l.recordQueuedLease queued).deliveries = l.deliveries := by
    unfold recordQueuedLease
    split_ifs
    · exact recordLease_deliveries l _
    · rfl
  have hclaimed : ∀ {r' : Delivery},
      ClaimedFor (l.recordQueuedLease queued) (matching cs task queued principal) r' →
      ClaimedFor l (matching cs task queued principal) r' := by
    intro r' h
    rwa [ClaimedFor, hrecord] at h
  unfold dispatchDecide at hr'
  dsimp only at hr'
  split_ifs at hr'
  · exact Or.inl hr'
  · exact Or.inl hr'
  · exact Or.inl hr'
  · exact Or.inl (active_gate hr' ha)
  · exact Or.inl hr'
  · cases hadapter : (matching cs task queued principal).adapter with
    | some holding =>
      obtain ⟨adapter, holder⟩ := holding
      rw [hadapter] at hr'
      dsimp only at hr'
      split at hr'
      · exact hclaimed (Or.inl hr')
      · split_ifs at hr'
        · exact hclaimed (claimFor_claims (chosen_of_adapter hadapter) hr' ha)
        · exact hclaimed (Or.inl hr')
    | none =>
      rw [hadapter] at hr'
      dsimp only at hr'
      split at hr'
      · exact hclaimed (Or.inl hr')
      · rename_i holder _ hlegacy
        exact hclaimed (claimedFor_update (.legacy (c := holder) (by simp [hlegacy])) hr')

end Ledger

namespace Connections

variable {cs cs' cs'' : Connections}

def StayClosed (cs cs' : Connections) : Prop :=
  ∀ c ∈ cs, c.closed = true → ∃ c' ∈ cs', c'.id = c.id ∧ c'.closed = true

theorem StayClosed.refl (cs : Connections) : StayClosed cs cs := fun c hc h => ⟨c, hc, rfl, h⟩

theorem StayClosed.trans (h : StayClosed cs cs') (h' : StayClosed cs' cs'') :
    StayClosed cs cs'' := by
  intro c hc hclosed
  obtain ⟨c', hc', hid, hclosed'⟩ := h c hc hclosed
  obtain ⟨c'', hc'', hid', hclosed''⟩ := h' c' hc' hclosed'
  exact ⟨c'', hc'', hid'.trans hid, hclosed''⟩

theorem stayClosed_update {pick : Connection → Bool} {f : Connection → Connection}
    (hf : ∀ c, (f c).id = c.id) (hkept : ∀ c, c.closed = true → (f c).closed = true) :
    StayClosed cs (cs.update pick f hf) := by
  intro c hc hclosed
  refine ⟨_, (Table.mem_update hf).2 ⟨c, hc, rfl⟩, ?_⟩
  split_ifs
  · exact ⟨hf c, hkept c hclosed⟩
  · exact ⟨rfl, hclosed⟩

theorem stayClosed_writeBack (id : String) (f : ConnState → ConnState) :
    StayClosed cs (writeBack cs id f) := by
  refine stayClosed_update (writtenBack_id f) fun c hclosed => ?_
  unfold writtenBack
  split <;> exact hclosed

theorem stayClosed_close (lingering : List String) (id : String) :
    StayClosed cs (close cs lingering id) :=
  stayClosed_update (closedConnection_id _) fun _ _ => rfl

theorem stayClosed_closes (lingering ids : List String) :
    StayClosed cs (ids.foldl (fun cs id => close cs lingering id) cs) := by
  induction ids generalizing cs with
  | nil => exact StayClosed.refl cs
  | cons id ids ih => exact (stayClosed_close lingering id).trans ih

theorem stayClosed_elect (name : String) (excludeId : Option String) :
    StayClosed cs (reconcileServeLease cs name excludeId).1 := by
  intro c hc hclosed
  obtain ⟨c', hc', hid, hflag⟩ := (reconcileServeLease_spec cs name excludeId).1.forward hc
  refine ⟨c', hc', hid, ?_⟩
  by_cases hcand : c ∈ claimedServeConnections cs name excludeId none
  · rwa [hflag.candidate hcand]
  · rwa [hflag.other hcand]

theorem stayClosed_expireTarget (lingering : List String) (expired : List (String × String))
    (acc : Connections × Outbox) (name : String) :
    StayClosed acc.1 (expireTarget lingering expired acc name).1 := by
  unfold expireTarget
  dsimp only
  split
  · exact stayClosed_elect name _
  · split_ifs
    · exact (stayClosed_close lingering _).trans (stayClosed_elect name _)
    · exact stayClosed_elect name _

theorem stayClosed_expire (lingering : List String) (expired : List (String × String))
    (names : List String) (acc : Connections × Outbox) :
    StayClosed acc.1 (names.foldl (expireTarget lingering expired) acc).1 := by
  induction names generalizing acc with
  | nil => exact StayClosed.refl acc.1
  | cons name names ih => exact (stayClosed_expireTarget lingering expired acc name).trans (ih _)

theorem stayClosed_fence (lingering : List String) (identity : ConnState) (connectionId : String)
    (adapter : Option LeaseAdapter) (previous : String) :
    StayClosed cs (fenceRecoveredDeliveryConnection cs lingering identity connectionId adapter
      previous).1 := by
  unfold fenceRecoveredDeliveryConnection
  dsimp only
  set closed : Connections := if previous ≠ "" && previous ≠ connectionId &&
      (getConnections cs).any (·.id = previous) then close cs lingering previous else cs with hclosed
  have hclose : StayClosed cs closed := by
    rw [hclosed]
    split_ifs
    · exact stayClosed_close lingering previous
    · exact StayClosed.refl cs
  refine hclose.trans ?_
  cases adapter with
  | none => exact StayClosed.refl closed
  | some adapter =>
    cases adapter with
    | watch =>
      dsimp only
      split_ifs
      · exact stayClosed_update (withState_id withWatchFence) fun c hc => hc
      · exact StayClosed.refl closed
    | serve =>
      refine stayClosed_update (withFence_id connectionId) fun c hc => ?_
      unfold withFence
      split_ifs <;> exact hc
    | webhook | legacyServe => exact StayClosed.refl closed

end Connections

theorem Sockets.apply_stayClosed (s : Sockets) (e : SocketEvent) :
    StayClosed s.connections (s.apply e).connections := by
  have helections : ∀ (names : List String) (s : Sockets), StayClosed s.connections
      (names.foldl (fun s name => s.reconcile name none) s).connections := by
    intro names
    induction names with
    | nil => exact fun s => StayClosed.refl s.connections
    | cons name names ih =>
      intro s
      have hname : StayClosed s.connections (s.reconcile name none).connections :=
        stayClosed_elect name none
      exact hname.trans (ih (s.reconcile name none))
  cases e with
  | connected id identity now =>
    exact fun c hc hclosed => ⟨c, Table.mem_insert.2 (Or.inl hc), rfl, hclosed⟩
  | frameBegins | frameEnds => exact stayClosed_update (withHandler_id _) fun _ h => h
  | unlisted => exact stayClosed_update withUnlisted_id fun _ h => h
  | closeBegins => exact stayClosed_update (withState_id markedClosing) fun _ h => h
  | frameTouched id =>
    refine stayClosed_update touched_id fun c hclosed => ?_
    unfold touched writtenBack
    split_ifs
    · exact hclosed
    · split <;> exact hclosed
  | hello id directedDelivery recovery since =>
    simp only [apply, hello]
    split
    · exact StayClosed.refl _
    · split_ifs
      · exact (stayClosed_writeBack id _).trans (stayClosed_elect _ none)
      · exact stayClosed_writeBack id _
  | claimServe id v1Conflict =>
    simp only [apply, claimServe]
    split
    · exact StayClosed.refl _
    · split_ifs
      · exact StayClosed.refl _
      · exact StayClosed.refl _
      · exact stayClosed_elect _ none
      · exact (stayClosed_writeBack id _).trans (stayClosed_elect _ none)
  | registerWatch id =>
    simp only [apply, registerWatch]
    split
    · exact StayClosed.refl _
    · split_ifs
      · exact StayClosed.refl _
      · exact stayClosed_writeBack id _
  | ocsRoster id canWrite parsed now =>
    simp only [apply, ocsRoster]
    split
    · exact StayClosed.refl _
    · split_ifs
      · exact StayClosed.refl _
      · exact StayClosed.refl _
      · exact stayClosed_writeBack id _
  | serverCloses id cause lingering =>
    have hmark : StayClosed s.connections (setState s.connections id (closedFor cause)) :=
      stayClosed_update (withState_id (closedFor cause)) fun c hc => hc
    exact hmark.trans (stayClosed_close lingering id)
  | closeHandled id lingering =>
    simp only [apply, closeHandled]
    split
    · exact stayClosed_close lingering id
    · split_ifs
      · exact (stayClosed_close lingering id).trans (stayClosed_elect _ _)
      · exact stayClosed_close lingering id
  | presenceStale ids lingering =>
    have hclose : StayClosed s.connections _ := stayClosed_closes lingering ids
    exact hclose.trans (helections (s.staleServeNames ids) ⟨_, s.claimSeq, s.sent⟩)

namespace Room

theorem apply_stayClosed (r : Room) (e : Event) :
    StayClosed r.sockets.connections (r.apply e).sockets.connections := by
  cases e with
  | socket e => exact r.sockets.apply_stayClosed e
  | leaseExpired lingering now => exact stayClosed_expire lingering _ _ (_, [])
  | recover identity connectionId f lingering now =>
    rcases Ledger.recoverDirectedDelivery_fences r.ledger r.sockets.connections lingering identity
      connectionId f now with ⟨hcs, -⟩ | ⟨row, -, -, -, ⟨hcs, -⟩ | ⟨previous, hcs, -, -⟩⟩ <;>
      simp only [apply, hcs]
    · exact StayClosed.refl _
    · exact StayClosed.refl _
    · exact stayClosed_fence lingering identity connectionId row.recoveryAdapter previous
  | dispatchPrincipal targetName isCurrent token now =>
    obtain ⟨added, -, hsockets⟩ := dispatchPrincipal_sockets r targetName isCurrent token now
    rw [hsockets]
    exact StayClosed.refl _
  | stage seq edited targets now =>
    simp only [apply]
    split <;> exact StayClosed.refl _
  | dispatchStart targetName excludeId =>
    simp only [apply]
    split_ifs <;> exact StayClosed.refl _
  | dispatchTop targetName now =>
    rw [dispatchTop_sockets]
    exact StayClosed.refl _
  | dispatchRemoval targetName isRemoved now =>
    rw [dispatchRemoval_sockets]
    exact StayClosed.refl _
  | handoffRemoval item isRemoved now =>
    simp only [apply, (aside_handoffRemoval item isRemoved now).sockets]
    exact StayClosed.refl _
  | handoffPrincipal item isCurrent now =>
    simp only [apply, (aside_handoffPrincipal item isCurrent now).sockets]
    exact StayClosed.refl _
  | _ => exact StayClosed.refl _

/-- What a dispatch has sampled is still there, and its target may still be woken. -/
structure Relies (r : Room) (task : DispatchTask) : Prop where
  serve : ∀ id ∈ task.serve ++ task.legacyServe, ∃ c ∈ r.sockets.connections,
    c.id = id ∧ c.Open ∧ c.state.serveLeaseHeld = some true
  watch : ∀ id ∈ task.watch, ∃ c ∈ r.sockets.connections,
    c.id = id ∧ c.Open ∧ c.state.watchCandidate = true
  webhooks : ∀ hook ∈ task.webhooks, hook ∈ r.hooks.webhooks
  unpaused : task.targetName ∉ r.paused
  present : task.targetName ∉ r.removed

/-- No listed socket of the name is on its way out. -/
def NoneLeaving (r : Room) (name : String) : Prop :=
  ∀ c ∈ r.sockets.connections, c.listed = true → c.state.name = name → c.Open

/-- The event takes nothing away that a dispatch in flight has sampled or a claim waits to
post to, and no dispatch starts while a socket of its target is on its way out. -/
def Calm (r : Room) (e : Event) : Prop :=
  (∀ t ∈ r.tails, r.Relies t.1 → (r.next e).Relies t.1) ∧
    (∀ p ∈ r.hooks.handoffs, p.2.binding ∈ r.hooks.webhooks →
      p.2.binding ∈ (r.next e).hooks.webhooks) ∧
    match e with
    | .dispatchStart targetName _ => r.NoneLeaving targetName
    | _ => True

/-- The samples leave the excluded connection out and are of the target's webhooks. -/
structure Sampled (task : DispatchTask) : Prop where
  included : ∀ id ∈ task.serve ++ task.legacyServe ++ task.watch,
    task.excludeConnectionId ≠ some id
  ofTarget : ∀ hook ∈ task.webhooks, hook.name = task.targetName

/-- The holder of a claim is a candidate at this moment. -/
def Fits (r : Room) (task : DispatchTask) (d : Delivery) : Prop :=
  task.targetName ∉ r.paused ∧ task.targetName ∉ r.removed ∧
    match d.leaseAdapter with
    | some .webhook => ∃ hook ∈ r.hooks.webhooks, hook.name = task.targetName ∧
        d.leaseConnectionId = some (webhookHolderId hook.registrationId)
    | some .watch => ∃ c ∈ r.sockets.connections, d.leaseConnectionId = some c.id ∧ c.Open ∧
        task.excludeConnectionId ≠ some c.id ∧ c.state.watchCandidate = true
    | _ => ∃ c ∈ r.sockets.connections, d.leaseConnectionId = some c.id ∧ c.Open ∧
        task.excludeConnectionId ≠ some c.id ∧ c.state.serveLeaseHeld = some true

theorem mem_ofIds {cs : Connections} {ids : List String} {principal : String} {c : Connection}
    (h : c ∈ ofIds cs ids principal) : c ∈ cs ∧ c.id ∈ ids := by
  obtain ⟨hmem, -⟩ := List.mem_filter.1 h
  obtain ⟨id, hid, hget⟩ := List.mem_filterMap.1 hmem
  obtain ⟨hc, rfl⟩ := Table.get?_eq_some.1 hget
  exact ⟨hc, hid⟩

/-- The adapter chosen among what the dispatch relies on is a candidate now. -/
theorem Relies.fits {r : Room} {task : DispatchTask} (h : r.Relies task) (hs : Sampled task)
    {queued : Delivery} {principal : String} {adapter : LeaseAdapter}
    {holder : Connection ⊕ AgentWebhook}
    (hc : Ledger.Chosen (Ledger.matching r.sockets.connections task queued principal) adapter holder)
    {d : Delivery} (ha : d.leaseAdapter = some adapter)
    (hid : d.leaseConnectionId = some (Ledger.holderOf holder)) : r.Fits task d := by
  have hserve : ∀ c ∈ r.sockets.connections, c.id ∈ task.serve ++ task.legacyServe →
      c.Open ∧ c.state.serveLeaseHeld = some true := by
    intro c hc hmem
    obtain ⟨c', hc', hid', hopen, hheld⟩ := h.serve c.id hmem
    rw [Table.eq_of_key hc hc' hid'.symm]
    exact ⟨hopen, hheld⟩
  refine ⟨h.unpaused, h.present, ?_⟩
  cases hc with
  | @serve c hc =>
    obtain ⟨hc, hmem⟩ := mem_ofIds hc
    rw [ha]
    have hmem' : c.id ∈ task.serve ++ task.legacyServe := List.mem_append_left _ hmem
    obtain ⟨hopen, hheld⟩ := hserve c hc hmem'
    exact ⟨c, hc, hid, hopen, hs.included c.id (List.mem_append_left _ hmem'), hheld⟩
  | @watch c hc =>
    obtain ⟨hc, hmem⟩ := mem_ofIds hc
    obtain ⟨c', hc', hid', hopen, hwatch⟩ := h.watch c.id hmem
    obtain rfl := Table.eq_of_key hc hc' hid'.symm
    rw [ha]
    exact ⟨c, hc, hid, hopen, hs.included c.id (List.mem_append_right _ hmem), hwatch⟩
  | @webhook hook hh =>
    have hmem := (List.mem_filter.1 hh).1
    rw [ha]
    exact ⟨hook, h.webhooks hook hmem, hs.ofTarget hook hmem, hid⟩
  | @legacy c hc =>
    have hc : c ∈ ofIds r.sockets.connections task.legacyServe principal := by
      simp only [Ledger.matching] at hc
      split_ifs at hc
      · simp at hc
      · exact (List.mem_filter.1 hc).1
    obtain ⟨hc, hmem⟩ := mem_ofIds hc
    rw [ha]
    have hmem' : c.id ∈ task.serve ++ task.legacyServe := List.mem_append_right _ hmem
    obtain ⟨hopen, hheld⟩ := hserve c hc hmem'
    exact ⟨c, hc, hid, hopen, hs.included c.id (List.mem_append_left _ hmem'), hheld⟩

theorem mem_watchCandidates {cs : Connections} {name : String} {excludeId : Option String}
    {c : Connection} (h : c ∈ watchLeaseCandidates cs name excludeId) :
    c ∈ cs ∧ c.listed = true ∧ c.state.watchCandidate = true ∧ c.state.name = name ∧
      excludeId ≠ some c.id := by
  simp only [watchLeaseCandidates, getConnections, (List.perm_insertionSort _ _).mem_iff,
    List.mem_filter, Bool.and_eq_true, decide_eq_true_eq, Bool.not_eq_true'] at h
  obtain ⟨⟨hc, hlisted⟩, ⟨⟨hex, hwatch⟩, -⟩, hname⟩ := h
  refine ⟨hc, hlisted, hwatch, hname, ?_⟩
  rintro rfl
  simp [excluded] at hex

/-- What a dispatch reads at its start. -/
theorem startDispatch_sampled (cs : Connections) (webhooks : List AgentWebhook)
    (targetName : String) (excludeId : Option String) :
    let task := startDispatch cs webhooks targetName excludeId
    (∀ id ∈ task.serve ++ task.legacyServe, ∃ c ∈ cs, c.id = id ∧ c.listed = true ∧
        c.state.name = targetName ∧ excludeId ≠ some id ∧ c.state.serveLeaseHeld = some true) ∧
      (∀ id ∈ task.watch, ∃ c ∈ cs, c.id = id ∧ c.listed = true ∧ c.state.name = targetName ∧
        excludeId ≠ some id ∧ c.state.watchCandidate = true) ∧
      ∀ hook ∈ task.webhooks, hook ∈ webhooks ∧ hook.name = targetName := by
  refine ⟨fun id hid => ?_, fun id hid => ?_, fun hook hh => ?_⟩
  · have hserve : ∃ c ∈ claimedServeConnections cs targetName excludeId none, c.id = id ∧
        c.state.serveLeaseHeld = some true := by
      rcases List.mem_append.1 hid with hid | hid
      · obtain ⟨c, hc, rfl⟩ := List.mem_map.1 hid
        obtain ⟨hc, hheld⟩ := List.mem_filter.1 hc
        exact ⟨c, (List.mem_filter.1 hc).1, rfl, by simpa using hheld⟩
      · obtain ⟨c, hc, rfl⟩ := List.mem_map.1 hid
        obtain ⟨hc, hheld⟩ := List.mem_filter.1 hc
        simp only [Bool.and_eq_true, decide_eq_true_eq] at hheld
        exact ⟨c, hc, rfl, hheld.2⟩
    obtain ⟨c, hc, rfl, hheld⟩ := hserve
    obtain ⟨hmem, hlisted, -, hname, hex⟩ := mem_claimedServe.1 hc
    exact ⟨c, hmem, rfl, hlisted, hname, hex, hheld⟩
  · obtain ⟨c, hc, rfl⟩ := List.mem_map.1 hid
    obtain ⟨hmem, hlisted, hwatch, hname, hex⟩ := mem_watchCandidates hc
    exact ⟨c, hmem, rfl, hlisted, hname, hex, hwatch⟩
  · obtain ⟨hmem, hname⟩ := List.mem_filter.1 hh
    exact ⟨hmem, by simpa using hname⟩

/-- A dispatch that starts while nobody leaves relies on what is there. -/
theorem relies_start {r : Room} {targetName : String} {excludeId : Option String}
    (h : r.NoneLeaving targetName) (hpaused : targetName ∉ r.paused)
    (hremoved : targetName ∉ r.removed) :
    let task := startDispatch r.sockets.connections r.hooks.webhooks targetName excludeId
    r.Relies task ∧ Sampled task := by
  obtain ⟨hserve, hwatch, hhooks⟩ :=
    startDispatch_sampled r.sockets.connections r.hooks.webhooks targetName excludeId
  refine ⟨⟨fun id hid => ?_, fun id hid => ?_, fun hook hh => (hhooks hook hh).1, hpaused,
    hremoved⟩, fun id hid => ?_, fun hook hh => (hhooks hook hh).2⟩
  · obtain ⟨c, hc, hcid, hlisted, hname, -, hheld⟩ := hserve id hid
    exact ⟨c, hc, hcid, h c hc hlisted hname, hheld⟩
  · obtain ⟨c, hc, hcid, hlisted, hname, -, hcand⟩ := hwatch id hid
    exact ⟨c, hc, hcid, h c hc hlisted hname, hcand⟩
  · rcases List.mem_append.1 hid with hid | hid
    · obtain ⟨c, -, -, -, -, hex, -⟩ := hserve id hid
      exact hex
    · obtain ⟨c, -, -, -, -, hex, -⟩ := hwatch id hid
      exact hex

/-- The tails of `r'` are tails of `r`, perhaps at another stage. -/
def SameTasks (r r' : Room) : Prop := ∀ t ∈ r'.tails, ∃ t₀ ∈ r.tails, t₀.1 = t.1

theorem SameTasks.of_eq {r r' : Room} (h : r'.tails = r.tails) : SameTasks r r' :=
  fun t ht => ⟨t, h ▸ ht, rfl⟩

theorem SameTasks.withTail {r : Room} {task : DispatchTask} {stage : DispatchStage}
    (r' : Room) (next : DispatchNext) (htail : (task, stage) ∈ r.tails) (h : r'.tails = r.tails) :
    SameTasks r (r'.withTail task next) := by
  intro t ht
  rcases mem_withTail ht with ht | ⟨stage', -, rfl⟩
  · exact ⟨t, h ▸ ht, rfl⟩
  · exact ⟨_, htail, rfl⟩

theorem sameTasks_dispatchStep {r : Room} {targetName : String}
    {f : DispatchTask → DispatchStage → Room}
    (h : ∀ task stage, (task, stage) ∈ r.tails → SameTasks r (f task stage)) :
    SameTasks r (r.dispatchStep targetName f) := by
  unfold dispatchStep
  split
  · exact SameTasks.of_eq rfl
  · rename_i task stage htail
    exact h task stage (List.mem_of_find?_eq_some htail)

theorem sameTasks_apply (r : Room) (e : Event)
    (h : ∀ targetName excludeId, e ≠ .dispatchStart targetName excludeId) :
    SameTasks r (r.apply e) := by
  cases e with
  | dispatchStart targetName excludeId => exact absurd rfl (h targetName excludeId)
  | dispatchTop targetName now =>
    refine sameTasks_dispatchStep fun task stage hmem => ?_
    cases stage with
    | top => exact SameTasks.withTail _ _ hmem rfl
    | _ => exact SameTasks.of_eq rfl
  | dispatchRemoval targetName isRemoved now =>
    refine sameTasks_dispatchStep fun task stage hmem => ?_
    cases stage with
    | removalCheck queued =>
      dsimp only
      split_ifs
      · exact SameTasks.withTail _ _ hmem rfl
      · exact SameTasks.withTail _ _ hmem rfl
    | _ => exact SameTasks.of_eq rfl
  | dispatchPrincipal targetName isCurrent token now =>
    refine sameTasks_dispatchStep fun task stage hmem => ?_
    cases stage with
    | principalCheck queued =>
      simp only [applyDispatchPrincipal]
      split
      · exact SameTasks.of_eq rfl
      · split_ifs
        · exact SameTasks.withTail _ _ hmem rfl
        · intro t ht
          rw [withHandoff_tails] at ht
          refine SameTasks.withTail _ _ hmem ?_ t ht
          rfl
    | _ => exact SameTasks.of_eq rfl
  | stage seq edited targets now =>
    simp only [apply]
    split <;> exact SameTasks.of_eq rfl
  | handoffRemoval item isRemoved now =>
    exact SameTasks.of_eq (aside_handoffRemoval item isRemoved now).tails
  | handoffPrincipal item isCurrent now =>
    exact SameTasks.of_eq (aside_handoffPrincipal item isCurrent now).tails
  | _ => exact SameTasks.of_eq rfl

theorem dispatchDecide_hook {l : Ledger} {cs : Connections} {task : DispatchTask}
    {queued : Delivery} {principal : String} {token : Uuid} {now : Int} {hook : AgentWebhook}
    {claimed : Delivery} (h : (l.dispatchDecide cs task queued principal token now).2.2 =
      some (.webhook hook claimed)) : hook ∈ task.webhooks := by
  unfold Ledger.dispatchDecide at h
  dsimp only at h
  split_ifs at h
  split at h
  · rename_i adapter holder hadapter
    split at h
    · cases h
    · split_ifs at h
      unfold Ledger.claimFor at h
      dsimp only at h
      split at h
      · cases h
      · split_ifs at h
        split at h
        · cases h
        · cases holder with
          | inl c => cases h
          | inr hook' =>
            cases h
            cases Ledger.chosen_of_adapter hadapter with
            | webhook hh => exact (List.mem_filter.1 hh).1
  · split at h <;> cases h

theorem handoffs_withTail (r : Room) (task : DispatchTask) (next : DispatchNext) :
    (r.withTail task next).hooks = r.hooks := by
  cases next <;> rfl

theorem handoffs_dispatchPosted (l : Ledger) (w : WebhookState) (item : WebhookItem) (ok : Bool)
    (now : Int) : (w.finishDispatchPost l item ok now).2.handoffs = w.handoffs := by
  unfold WebhookState.finishDispatchPost
  dsimp only
  split_ifs <;> rfl

theorem handoffs_retryStarts (l : Ledger) (w : WebhookState) (item : WebhookItem) (now : Int) :
    (w.startRetry l item now).2.handoffs = w.handoffs := by
  unfold WebhookState.startRetry
  dsimp only
  split_ifs <;> rfl

theorem handoffs_retryPosted (l : Ledger) (w : WebhookState) (item : WebhookItem) (ok : Bool)
    (now : Int) : (w.finishRetryPost l item ok now).2.handoffs = w.handoffs := by
  unfold WebhookState.finishRetryPost
  dsimp only
  split_ifs <;> rfl

theorem handoffs_redeliveryStarts (l : Ledger) (w : WebhookState) (item : WebhookItem)
    (now : Int) : (w.startRedelivery l item now).2.handoffs = w.handoffs := by
  unfold WebhookState.startRedelivery
  split_ifs
  · rfl
  · split <;> rfl

theorem handoffs_redeliveryPosted (l : Ledger) (w : WebhookState) (item : WebhookItem) (ok : Bool)
    (now : Int) : (w.finishRedelivery l item ok now).2.handoffs = w.handoffs := by
  unfold WebhookState.finishRedelivery
  dsimp only
  split_ifs <;> rfl

/-- A handoff of the later room is one of the earlier, perhaps past its first check, or one of
a claim for a webhook that a dispatch in flight has sampled. -/
theorem handoffs_apply (r : Room) (e : Event) {p : HandoffCheck × WebhookItem}
    (hp : p ∈ (r.apply e).hooks.handoffs) (hready : r.Enabled e) :
    (∃ p₀ ∈ r.hooks.handoffs, p₀.2.binding = p.2.binding) ∨
      ∃ t ∈ r.tails, p.2.binding ∈ t.1.webhooks := by
  have hkeep : p ∈ r.hooks.handoffs → (∃ p₀ ∈ r.hooks.handoffs, p₀.2.binding = p.2.binding) ∨
      ∃ t ∈ r.tails, p.2.binding ∈ t.1.webhooks := fun h => Or.inl ⟨p, h, rfl⟩
  have hstep : ∀ {targetName : String} {f : DispatchTask → DispatchStage → Room},
      (∀ task stage, (task, stage) ∈ r.tails → p ∈ (f task stage).hooks.handoffs →
        p ∈ r.hooks.handoffs ∨ p.2.binding ∈ task.webhooks) →
      p ∈ (r.dispatchStep targetName f).hooks.handoffs →
      (∃ p₀ ∈ r.hooks.handoffs, p₀.2.binding = p.2.binding) ∨
        ∃ t ∈ r.tails, p.2.binding ∈ t.1.webhooks := by
    intro targetName f hf hp
    unfold dispatchStep at hp
    split at hp
    · exact hkeep hp
    · rename_i task stage htail
      have hmem := List.mem_of_find?_eq_some htail
      rcases hf task stage hmem hp with h | h
      · exact hkeep h
      · exact Or.inr ⟨_, hmem, h⟩
  cases e with
  | dispatchTop targetName now =>
    refine hstep (fun task stage hmem hp => Or.inl ?_) hp
    cases stage with
    | top => rwa [handoffs_withTail] at hp
    | _ => exact hp
  | dispatchRemoval targetName isRemoved now =>
    refine hstep (fun task stage hmem hp => Or.inl ?_) hp
    cases stage with
    | removalCheck queued =>
      dsimp only at hp
      split_ifs at hp <;> exact (handoffs_withTail _ _ _ ▸ hp :)
    | _ => exact hp
  | dispatchPrincipal targetName isCurrent token now =>
    refine hstep (fun task stage hmem hp => ?_) hp
    cases stage with
    | principalCheck queued =>
      simp only [applyDispatchPrincipal] at hp
      split at hp
      · exact Or.inl hp
      · split_ifs at hp
        · rw [handoffs_withTail] at hp
          exact Or.inl hp
        · rename_i principal _ _
          have hhook := @dispatchDecide_hook r.ledger r.sockets.connections task queued principal
            token now
          generalize r.ledger.dispatchDecide r.sockets.connections task queued principal token
            now = result at hp hhook
          obtain ⟨l, next, handoff⟩ := result
          rcases handoff with _ | (⟨conn, frame⟩ | ⟨hook, claimed⟩)
          · simp only [withHandoff, handoffs_withTail] at hp
            exact Or.inl hp
          · simp only [withHandoff, handoffs_withTail] at hp
            exact Or.inl hp
          · simp only [withHandoff, handoffs_withTail] at hp
            rcases List.mem_append.1 hp with hp | hp
            · exact Or.inl hp
            · obtain rfl := List.mem_singleton.1 hp
              exact Or.inr (hhook rfl)
    | _ => exact Or.inl hp
  | handoffRemoval item isRemoved now =>
    simp only [apply, applyHandoffRemoval] at hp
    split_ifs at hp
    · exact hkeep (List.mem_of_mem_erase hp)
    · rcases List.mem_cons.1 hp with rfl | hp
      · exact Or.inl ⟨_, hready, rfl⟩
      · exact hkeep (List.mem_of_mem_erase hp)
  | handoffPrincipal item isCurrent now =>
    refine hkeep (List.mem_of_mem_erase (b := (.principal, item)) ?_)
    simp only [apply, applyHandoffPrincipal] at hp
    split at hp
    · exact hp
    · split_ifs at hp
      · exact hp
      · unfold WebhookState.startDispatchPost at hp
        split_ifs at hp <;> exact hp
  | stage seq edited targets now =>
    simp only [apply] at hp
    split at hp <;> exact hkeep hp
  | dispatchStart targetName excludeId =>
    simp only [apply] at hp
    split_ifs at hp <;> exact hkeep hp
  | dispatchPosted item ok now => exact hkeep (handoffs_dispatchPosted _ _ item ok now ▸ hp)
  | retryStarts item now => exact hkeep (handoffs_retryStarts _ _ item now ▸ hp)
  | retryPosted item ok now => exact hkeep (handoffs_retryPosted _ _ item ok now ▸ hp)
  | redeliveryStarts item now => exact hkeep (handoffs_redeliveryStarts _ _ item now ▸ hp)
  | redeliveryPosted item ok now => exact hkeep (handoffs_redeliveryPosted _ _ item ok now ▸ hp)
  | _ => exact hkeep hp

/-- What a calm run knows of its dispatches, its handoffs and the sockets it has cleaned up. -/
structure Informed (evs : List Event) (r : Room) : Prop where
  tails : ∀ t ∈ r.tails, r.Relies t.1 ∧ Sampled t.1
  handoffs : ∀ p ∈ r.hooks.handoffs, p.2.binding ∈ r.hooks.webhooks
  gone : ∀ id now, .socketLost id now ∈ evs →
    ∃ c ∈ r.sockets.connections, c.id = id ∧ c.closed = true
  cleaned : ∀ id now, .socketLost id now ∈ evs → ∀ d ∈ r.ledger.deliveries,
    ¬ Ledger.Stranded id d

/-- A row that is at work only since this decision is held by a candidate. -/
theorem Informed.claims {evs : List Event} {r : Room} (h : Informed evs r) {targetName : String}
    {isCurrent : Bool} {token : Uuid} {now : Int} {d : Delivery}
    (hd : d ∈ (r.apply (.dispatchPrincipal targetName isCurrent token now)).ledger.deliveries)
    (ha : d.active = true) : d ∈ r.ledger.deliveries ∨
      ∃ t ∈ r.tails, t.1.targetName = targetName ∧ r.Fits t.1 d := by
  simp only [apply, dispatchStep] at hd
  split at hd
  · exact Or.inl hd
  rename_i task stage htail
  have hmem := List.mem_of_find?_eq_some htail
  have hname : task.targetName = targetName := by simpa using List.find?_some htail
  obtain ⟨hrelies, hsampled⟩ := h.tails _ hmem
  cases stage with
  | principalCheck queued =>
    simp only [applyDispatchPrincipal] at hd
    split at hd
    · exact Or.inl hd
    · split_ifs at hd
      · rw [withTail_ledger] at hd
        have hrows : ∀ (rows : List Delivery) (l : Ledger),
            d ∈ (rows.foldl (fun l row => (l.transitionDirectedDeliveryTerminal row.id .failed now
              { error :=
                  some "target principal changed before delivery; refusing same-name reassignment",
                expectedStates := [row.state] }).1) l).deliveries → d ∈ l.deliveries := by
          intro rows
          induction rows with
          | nil => exact fun l hd => hd
          | cons row rows ih => exact fun l hd => Ledger.active_gate (ih _ hd) ha
        exact Or.inl (hrows _ _ hd)
      · rw [withHandoff_ledger, withTail_ledger] at hd
        rcases Ledger.dispatchDecide_claims hd ha with hd | ⟨adapter, holder, hc, hadapter, hid⟩
        · exact Or.inl hd
        · exact Or.inr ⟨_, hmem, hname, hrelies.fits hsampled hc hadapter hid⟩
  | _ => exact Or.inl hd

theorem Fits.open_holder {r : Room} {task : DispatchTask} {d : Delivery} (h : r.Fits task d)
    {id : String} (hs : Ledger.Stranded id d) :
    ∃ c ∈ r.sockets.connections, c.id = id ∧ c.closed = false := by
  obtain ⟨hstate, hheld, -⟩ := hs
  simp only [Ledger.heldBy, hstate, Bool.and_eq_true, Bool.or_eq_true, decide_eq_true_eq,
    reduceCtorEq, decide_true, Bool.true_and, decide_false, Bool.false_and, or_false] at hheld
  obtain ⟨hid, hadapter⟩ := hheld
  have hof : ∀ {p : Connection → Prop}, (∃ c ∈ r.sockets.connections,
      d.leaseConnectionId = some c.id ∧ c.Open ∧ p c) →
      ∃ c ∈ r.sockets.connections, c.id = id ∧ c.closed = false := by
    rintro p ⟨c, hc, hcid, hopen, -⟩
    rw [hid] at hcid
    exact ⟨c, hc, (Option.some.inj hcid).symm, hopen.2.1⟩
  have hfits := h.2.2
  rcases hadapter with (hadapter | hadapter) | hadapter <;> rw [hadapter] at hfits <;>
    exact hof hfits

theorem permits_takes {r : Room} {e : Event} {id : String} (h : r.permits e (.takes id)) :
    ∃ targetName isCurrent token now, e = .dispatchPrincipal targetName isCurrent token now := by
  cases e <;>
    simp [permits, Tag.settles, Tag.sends, Tag.prunes, Tag.isPlain, Tag.responds, Tag.sweeps,
      Tag.recoversWith, Completes] at h
  exact ⟨_, _, _, _, rfl⟩

/-- Only a dispatch strands a row anew. -/
theorem step_cleaned {r r' : Room} {e : Event} {id : String} (hr : r.Sound) (hs : Step r e r')
    (he : ∀ targetName isCurrent token now, e ≠ .dispatchPrincipal targetName isCurrent token now)
    (h : ∀ d ∈ r.ledger.deliveries, ¬ Ledger.Stranded id d) :
    ∀ d ∈ r'.ledger.deliveries, ¬ Ledger.Stranded id d := by
  have hw := step_writes hr hs
  obtain ⟨⟨hnodup, hfresh, -⟩, -⟩ := hs
  refine hw.invariant (I := fun _ l => ∀ d ∈ l.deliveries, ¬ Ledger.Stranded id d)
    (fun _ hi => hi) (fun hi hp hwr _ d' hd' hs => ?_) h ((creates_sublist e).nodup hnodup)
    fun i hi => hfresh i ((creates_sublist e).subset hi)
  obtain ⟨d, hd, -, hs⟩ := hwr.stranded (fun i ht => by
    obtain ⟨targetName, isCurrent, token, now, rfl⟩ := permits_takes (ht ▸ hp)
    exact he _ _ _ _ rfl) hd' hs
  exact hi d hd hs

theorem Informed.step {evs : List Event} {r r' : Room} {e : Event} (hr : r.Sound)
    (h : Informed evs r) (hs : Step r e r') (hcalm : r.Calm e) : Informed (evs ++ [e]) r' := by
  obtain ⟨hkeeps, hhooks, hstart⟩ := hcalm
  have hgone : ∀ id now, .socketLost id now ∈ evs ++ [e] →
      ∃ c ∈ r.sockets.connections, c.id = id ∧ c.closed = true := by
    intro id now hmem
    rcases List.mem_append.1 hmem with hmem | hmem
    · exact h.gone id now hmem
    · obtain rfl := List.mem_singleton.1 hmem
      exact hs.1.2.2
  have hcleaned : ∀ id now, .socketLost id now ∈ evs ++ [e] → ∀ d ∈ r'.ledger.deliveries,
      ¬ Ledger.Stranded id d := by
    intro id now hmem
    by_cases hnew : e = .socketLost id now
    · subst hnew
      rw [hs.2]
      exact fun d hd => Ledger.requeue_not_stranded hd
    have hold : Event.socketLost id now ∈ evs :=
      (List.mem_append.1 hmem).resolve_right fun h => hnew (List.mem_singleton.1 h).symm
    by_cases hdispatch : ∃ targetName isCurrent token now,
        e = .dispatchPrincipal targetName isCurrent token now
    · obtain ⟨targetName, isCurrent, token, now', rfl⟩ := hdispatch
      intro d hd hstranded
      rw [hs.2] at hd
      have ha : d.active = true := Delivery.active_iff.2 (Or.inl hstranded.1)
      rcases h.claims hd ha with hd | ⟨t, -, -, hfits⟩
      · exact h.cleaned id now hold d hd hstranded
      · obtain ⟨c, hc, hcid, hopen⟩ := hfits.open_holder hstranded
        obtain ⟨c', hc', hcid', hclosed⟩ := h.gone id now hold
        rw [Table.eq_of_key hc hc' (hcid.trans hcid'.symm), hclosed] at hopen
        cases hopen
    · refine step_cleaned hr hs (fun targetName isCurrent token now' he => hdispatch ?_)
        (h.cleaned id now hold)
      exact ⟨_, _, _, _, he⟩
  have hready : r.Enabled e := hs.1.2.2
  obtain rfl : r' = r.next e := hs.2
  refine ⟨fun t ht => ?_, fun p hp => ?_, fun id now hmem => ?_, hcleaned⟩
  · by_cases hnew : ∃ targetName excludeId, e = .dispatchStart targetName excludeId
    · obtain ⟨targetName, excludeId, rfl⟩ := hnew
      have ht' : t ∈ (r.apply (.dispatchStart targetName excludeId)).tails := ht
      simp only [apply] at ht'
      split_ifs at ht' with hblocked
      · exact ⟨hkeeps t ht' (h.tails t ht').1, (h.tails t ht').2⟩
      · rcases List.mem_cons.1 ht' with rfl | ht'
        · simp only [Bool.or_eq_true, List.contains_iff_mem, not_or] at hblocked
          have hnew : r.Relies (startDispatch r.sockets.connections r.hooks.webhooks targetName
              excludeId) ∧ Sampled (startDispatch _ _ _ _) :=
            relies_start hstart hblocked.2 hblocked.1
          obtain ⟨hrelies, hsampled⟩ := hnew
          refine ⟨?_, hsampled⟩
          simp only [next, apply]
          split_ifs <;> exact ⟨hrelies.serve, hrelies.watch, hrelies.webhooks, hrelies.unpaused,
            hrelies.present⟩
        · exact ⟨hkeeps t ht' (h.tails t ht').1, (h.tails t ht').2⟩
    · obtain ⟨t₀, ht₀, heq⟩ :=
        sameTasks_apply r e (fun targetName excludeId he => hnew ⟨_, _, he⟩) t ht
      rw [← heq]
      exact ⟨hkeeps t₀ ht₀ (h.tails t₀ ht₀).1, (h.tails t₀ ht₀).2⟩
  · rcases handoffs_apply r e hp hready with ⟨p₀, hp₀, heq⟩ | ⟨t, ht, hmem⟩
    · rw [← heq]
      exact hhooks p₀ hp₀ (h.handoffs p₀ hp₀)
    · exact (hkeeps t ht (h.tails t ht).1).webhooks _ hmem
  · obtain ⟨c, hc, hcid, hclosed⟩ := hgone id now hmem
    obtain ⟨c', hc', hcid', hclosed'⟩ := r.apply_stayClosed e c hc hclosed
    exact ⟨c', hc', hcid'.trans hcid, hclosed'⟩

theorem initial_informed : Informed [] initial where
  tails := by simp [initial]
  handoffs := by simp [initial]
  gone := by simp
  cleaned := by simp

theorem Informed.of_run {evs : List Event} {r : Room}
    (h : EventSystem.Run (Guarded Step Calm) initial evs r) : Informed evs r := by
  induction h with
  | nil => exact initial_informed
  | snoc hrun hs ih => exact ih.step (Reachable.sound ⟨_, hrun.of_guarded⟩) hs.1 hs.2

/-- In a calm run a dispatch claims for a holder that is a candidate at this moment, starts a
POST to a registration that is current, and no row stays claimed by a socket whose clean-up
has run. -/
theorem dispatch_on_current_facts {evs : List Event} {r : Room}
    (h : EventSystem.Run (Guarded Step Calm) initial evs r) :
    (∀ targetName isCurrent token now r',
        Step r (.dispatchPrincipal targetName isCurrent token now) r' →
        ∀ d ∈ r'.ledger.deliveries, d.active = true → d ∈ r.ledger.deliveries ∨
          ∃ t ∈ r.tails, t.1.targetName = targetName ∧ r.Fits t.1 d) ∧
      (∀ item isCurrent now r', Step r (.handoffPrincipal item isCurrent now) r' →
        r'.hooks.posts = r.hooks.posts ∨ item.binding ∈ r.hooks.webhooks) ∧
      ∀ id now, .socketLost id now ∈ evs → ∀ d ∈ r.ledger.deliveries, ¬ Ledger.Stranded id d := by
  have hinformed := Informed.of_run h
  refine ⟨fun targetName isCurrent token now r' hs d hd ha => ?_,
    fun item isCurrent now r' hs => Or.inr ?_, hinformed.cleaned⟩
  · rw [hs.2] at hd
    exact hinformed.claims hd ha
  · exact hinformed.handoffs _ hs.1.2.2

instance (c : Connection) : Decidable c.Open := inferInstanceAs (Decidable (_ ∧ _ ∧ _))

instance (r : Room) (task : DispatchTask) : Decidable (r.Relies task) :=
  decidable_of_iff
    ((∀ id ∈ task.serve ++ task.legacyServe, ∃ c ∈ r.sockets.connections,
        c.id = id ∧ c.Open ∧ c.state.serveLeaseHeld = some true) ∧
      (∀ id ∈ task.watch, ∃ c ∈ r.sockets.connections,
        c.id = id ∧ c.Open ∧ c.state.watchCandidate = true) ∧
      (∀ hook ∈ task.webhooks, hook ∈ r.hooks.webhooks) ∧
      task.targetName ∉ r.paused ∧ task.targetName ∉ r.removed)
    ⟨fun h => ⟨h.1, h.2.1, h.2.2.1, h.2.2.2.1, h.2.2.2.2⟩,
      fun h => ⟨h.serve, h.watch, h.webhooks, h.unpaused, h.present⟩⟩

instance (r : Room) (name : String) : Decidable (r.NoneLeaving name) :=
  inferInstanceAs (Decidable (∀ c ∈ r.sockets.connections, _))

instance (r : Room) (e : Event) : Decidable (r.Calm e) :=
  have : Decidable (match e with
      | .dispatchStart targetName _ => r.NoneLeaving targetName
      | _ => True) := by
    cases e <;> infer_instance
  inferInstanceAs (Decidable (_ ∧ _ ∧ _))

/-! `bot` serves on one connection, and its socket closes while the dispatch waits for the
directory. -/

def waitingDispatch : List Event :=
  serveEvents "c1" false ++ [Event.send mentionBot, .dispatchStart "bot" none, .dispatchTop "bot" 1,
    .dispatchRemoval "bot" false 1]

/-- The claim of a calm dispatch is held by the open connection. -/
theorem dispatch_on_current_facts_claimed :
    ∃ r d, EventSystem.Run (Guarded Step Calm) initial waitingDispatch r ∧
      d ∈ (r.next (.dispatchPrincipal "bot" true tokenUuid 1)).ledger.deliveries ∧
      ∃ t ∈ r.tails, t.1.targetName = "bot" ∧ r.Fits t.1 d := by
  have hready : EventSystem.AllReady (fun r e => r.Ready e ∧ r.Calm e) next initial
      waitingDispatch := by decide
  have hrun : EventSystem.Run (Guarded Step Calm) initial waitingDispatch
      (initial.exec waitingDispatch) :=
    EventSystem.run_of_ready (fun r e h => ⟨⟨h.1, rfl⟩, h.2⟩) hready
  obtain ⟨d, hd, ha⟩ : ∃ d ∈ ((initial.exec waitingDispatch).next
      (.dispatchPrincipal "bot" true tokenUuid 1)).ledger.deliveries, d.active = true := by decide
  have hidle : ∀ d ∈ (initial.exec waitingDispatch).ledger.deliveries, d.active = false := by decide
  refine ⟨_, d, hrun, hd, ?_⟩
  refine ((dispatch_on_current_facts hrun).1 "bot" true tokenUuid 1 _ ⟨by decide, rfl⟩ d hd
    ha).resolve_left fun hold => ?_
  rw [hidle d hold] at ha
  cases ha

def closedMeanwhile : List Event :=
  waitingDispatch ++ [Event.socket (.closeBegins "c1"), .socket (.closeHandled "c1" []),
    .socketLost "c1" 2, .dispatchPrincipal "bot" true tokenUuid 3]

/-- The row is claimed by a connection that is gone, and its clean-up has run before. -/
theorem claim_outlives_cleanup : ¬ ∀ (evs : List Event) (r : Room), Run initial evs r →
    (∀ targetName isCurrent token now r',
        Step r (.dispatchPrincipal targetName isCurrent token now) r' →
        ∀ d ∈ r'.ledger.deliveries, d.active = true → d ∈ r.ledger.deliveries ∨
          ∃ t ∈ r.tails, t.1.targetName = targetName ∧ r.Fits t.1 d) ∧
      (∀ item isCurrent now r', Step r (.handoffPrincipal item isCurrent now) r' →
        r'.hooks.posts = r.hooks.posts ∨ item.binding ∈ r.hooks.webhooks) ∧
      ∀ id now, .socketLost id now ∈ evs → ∀ d ∈ r.ledger.deliveries,
        ¬ Ledger.Stranded id d := by
  intro h
  obtain ⟨-, -, hcleaned⟩ := h closedMeanwhile _ (run_exec (by decide))
  obtain ⟨d, hd, hs⟩ : ∃ d ∈ (initial.exec closedMeanwhile).ledger.deliveries,
      d.state = .claimed ∧ heldBy "c1" d = true ∧ d.leaseToken = none := by decide
  exact hcleaned "c1" 2 (by simp [closedMeanwhile]) d hd hs

end Room

end AgentParty
