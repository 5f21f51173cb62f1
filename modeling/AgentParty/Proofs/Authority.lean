import AgentParty.Delivery.Authority
import AgentParty.Proofs.Retraction

/-! What a failed read of a gate does to the tables, and a run without the steps whose reads
failed: it ends with the same tables where those steps had nothing to take away. -/

namespace AgentParty

namespace Ledger

variable {l : Ledger}

/-- A failed row stays failed when another one fails. -/
theorem failed_stays (id : String) (now : Int) (o : TerminalOptions) {d : Delivery}
    (hd : d ∈ l.deliveries) (hstate : d.state = .failed) :
    ∃ d' ∈ (l.transitionDirectedDeliveryTerminal id .failed now o).1.deliveries,
      d'.id = d.id ∧ d'.state = .failed := by
  obtain ⟨d', hd', hid, hchange⟩ := (transition_spec l id .failed now o).2.2.2.forward hd
  refine ⟨d', hd', hid, ?_⟩
  rcases hchange with ⟨rfl, -⟩ | ⟨-, hne, -⟩ | ⟨-, hwaiting, -⟩
  · exact hstate
  · exact absurd hstate hne
  · rw [hstate] at hwaiting
    cases hwaiting

theorem foldl_failed_stays (now : Int) (error : String) (rows : List Delivery) {d : Delivery}
    (hd : d ∈ l.deliveries) (hstate : d.state = .failed) :
    ∃ d' ∈ (rows.foldl (fun l r => (l.transitionDirectedDeliveryTerminal r.id .failed now
        { error := some error, expectedStates := [r.state] }).1) l).deliveries,
      d'.id = d.id ∧ d'.state = .failed := by
  induction rows generalizing l d with
  | nil => exact ⟨d, hd, rfl, hstate⟩
  | cons r rows ih =>
    obtain ⟨d₁, hd₁, hid₁, hstate₁⟩ := failed_stays r.id now
      { error := some error, expectedStates := [r.state] } hd hstate
    obtain ⟨d₂, hd₂, hid₂, hstate₂⟩ := ih hd₁ hstate₁
    exact ⟨d₂, hd₂, hid₂.trans hid₁, hstate₂⟩

theorem unfinished_not_failed {d : Delivery} (h : d.unfinished = true) : d.state ≠ .failed := by
  intro hstate
  simp [Delivery.unfinished, hstate] at h

/-- The gate takes an unfinished row in its own state to `failed`. -/
theorem unfinished_fails {d : Delivery} (hd : d ∈ l.deliveries) (hd' : d.unfinished = true)
    (now : Int) (error : String) : ∃ d' ∈ (l.transitionDirectedDeliveryTerminal d.id .failed now
        { error := some error, expectedStates := [d.state] }).1.deliveries,
      d'.id = d.id ∧ d'.state = .failed := by
  obtain ⟨d', hmem, hid, hchange⟩ := (transition_spec l d.id .failed now
    { error := some error, expectedStates := [d.state] }).2.2.2.forward hd
  refine ⟨d', hmem, hid, ?_⟩
  rcases hchange with ⟨-, hkept⟩ | ⟨-, -, -, -, -, rfl⟩ | ⟨hne, -⟩
  · rcases hkept rfl with hfailed | hrefused | hrefused | hrefused
    · exact absurd hfailed (unfinished_not_failed hd')
    · exact absurd hrefused.1 (unfinished_not_failed hd')
    · exact absurd List.mem_cons_self hrefused
    · simp [TerminalOptions.admits] at hrefused
  · rfl
  · exact absurd rfl hne

theorem removeParticipantRows_fails {p : Delivery → Bool} (now : Int) (error : String)
    {d : Delivery} (hd : d ∈ l.deliveries) (hp : p d = true) (hunfinished : d.unfinished = true) :
    ∃ d ∈ l.deliveries, d.state ≠ .failed ∧
      ∃ d' ∈ (l.removeParticipantRows p error now).deliveries,
        d'.id = d.id ∧ d'.state = .failed := by
  unfold removeParticipantRows
  cases hrows : l.deliveries.rows.filter fun r => p r && r.unfinished with
  | nil => exact absurd (by simp [hp, hunfinished]) (List.filter_eq_nil_iff.1 hrows d hd)
  | cons first rows =>
    have hfirst : first ∈ l.deliveries.rows.filter fun r => p r && r.unfinished := by
      rw [hrows]
      exact List.mem_cons_self
    obtain ⟨hmem, hboth⟩ := List.mem_filter.1 hfirst
    rw [Bool.and_eq_true] at hboth
    obtain ⟨d₁, hd₁, hid₁, hstate₁⟩ := unfinished_fails hmem hboth.2 now error
    obtain ⟨d₂, hd₂, hid₂, hstate₂⟩ := foldl_failed_stays now error rows hd₁ hstate₁
    exact ⟨first, hmem, unfinished_not_failed hboth.2, d₂, hd₂, hid₂.trans hid₁, hstate₂⟩

theorem removeParticipantRows_none {p : Delivery → Bool} (now : Int) (error : String)
    (h : ∀ d ∈ l.deliveries, p d = true → d.unfinished = false) :
    l.removeParticipantRows p error now = l := by
  have hrows : (l.deliveries.rows.filter fun r => p r && r.unfinished) = [] := by
    rw [List.filter_eq_nil_iff]
    intro d hd hboth
    rw [Bool.and_eq_true] at hboth
    rw [h d hd hboth.1] at hboth
    cases hboth.2
  rw [removeParticipantRows, hrows, List.foldl_nil]

end Ledger

namespace Authority

open EventSystem

/-- No webhook, queued row or dead letter is taken away, no delivery fails and no mark is set. -/
structure Spares (t t' : Tables) : Prop where
  hooks : ∀ h ∈ t.hooks, h ∈ t'.hooks
  queue : ∀ q ∈ t.queue, q ∈ t'.queue
  letters : ∀ q ∈ t.letters, q ∈ t'.letters
  deliveries : ∀ d ∈ t.ledger.deliveries, d.state ≠ .failed →
    ∀ d' ∈ t'.ledger.deliveries, d'.id = d.id → d'.state ≠ .failed
  removed : t'.removed = t.removed

theorem Spares.refl (t : Tables) : Spares t t where
  hooks _ h := h
  queue _ h := h
  letters _ h := h
  deliveries d hd hstate d' hd' hid := by rwa [Table.eq_of_key hd' hd hid]
  removed := rfl

/-- What `removeStaleDeliveryPrincipal` would take away or fail. -/
structure Unbound (t : Tables) (name principal : String) : Prop where
  hooks : ∀ h ∈ t.hooks, ¬ (h.name = name ∧ h.mode = .agent ∧ h.targetOwner = some principal)
  queue : ∀ q ∈ t.queue, ¬ (q.webhookName = name ∧ q.targetOwner = some principal)
  deliveries : ∀ d ∈ t.ledger.deliveries, d.targetName = name → d.targetOwner = some principal →
    d.unfinished = false

theorem Unbound.removeStale {t : Tables} {name principal : String} (h : Unbound t name principal)
    (now : Int) : t.removeStaleDeliveryPrincipal name principal now = t := by
  have hhooks : (t.hooks.filter fun h =>
      !(h.name = name && h.mode = .agent && h.targetOwner = some principal)) = t.hooks := by
    rw [List.filter_eq_self]
    intro hook hmem
    have := h.hooks hook hmem
    simp only [Bool.not_eq_true', Bool.and_eq_false_iff, decide_eq_false_iff_not]
    tauto
  have hqueue : (t.queue.filter fun q =>
      !(q.webhookName = name && q.targetOwner = some principal)) = t.queue := by
    rw [List.filter_eq_self]
    intro q hmem
    have := h.queue q hmem
    simp only [Bool.not_eq_true', Bool.and_eq_false_iff, decide_eq_false_iff_not]
    tauto
  have hledger : t.ledger.removeStaleDeliveries name principal now = t.ledger := by
    refine Ledger.removeParticipantRows_none now _ fun d hd hp => ?_
    rw [Bool.and_eq_true, decide_eq_true_eq, decide_eq_true_eq] at hp
    exact h.deliveries d hd hp.1 hp.2
  rw [Tables.removeStaleDeliveryPrincipal, hhooks, hqueue, hledger]

/-- The clean-up for a principal spares the tables exactly when nothing is bound to it. -/
theorem spares_removeStale (t : Tables) (name principal : String) (now : Int) :
    Spares t (t.removeStaleDeliveryPrincipal name principal now) ↔ Unbound t name principal := by
  constructor
  · intro h
    refine ⟨fun hook hmem hbound => ?_, fun q hmem hbound => ?_, fun d hd hname howner => ?_⟩
    · have := (List.mem_filter.1 (h.hooks hook hmem)).2
      simp [hbound] at this
    · have := (List.mem_filter.1 (h.queue q hmem)).2
      simp [hbound] at this
    · by_contra hunfinished
      rw [Bool.not_eq_false] at hunfinished
      obtain ⟨d₁, hd₁, hstate₁, d₂, hd₂, hid, hstate₂⟩ :=
        Ledger.removeParticipantRows_fails
          (p := fun r => r.targetName = name && r.targetOwner = some principal) now
          "target principal changed before delivery; refusing same-name reassignment" hd
          (by simp [hname, howner]) hunfinished
      exact h.deliveries d₁ hd₁ hstate₁ d₂ hd₂ hid hstate₂
  · intro h
    rw [h.removeStale]
    exact Spares.refl t

theorem not_spares_removeParticipant (t : Tables) (name : String) (now : Int) :
    ¬ Spares t (t.removeParticipantDeliveryAdapters name now) := by
  intro h
  have := congrArg List.length h.removed
  simp [Tables.removeParticipantDeliveryAdapters] at this

/-- A dispatch of the name would have nothing to work on. -/
def Quiet (t : Tables) (targetName : String) (excludeId : Option String) : Prop :=
  targetName ∈ t.removed ∨ targetName ∈ t.paused ∨
    ∀ queued, t.ledger.nextQueued targetName = some queued →
      queued.principal ≠ none ∧ (t.startDispatch targetName excludeId).noAdapters = true

/-- The socket leaves no delivery behind, its going moves no serve lease, and what its close
dispatches is quiet. -/
structure Idle (t : Tables) (c : Connection) : Prop where
  deliveries : t.leftBehind c.id = []
  leases : c.state.serveCandidate = true →
    ∀ d ∈ Connections.claimedServeConnections t.connections c.state.name (some c.id) none,
      d.state.serveLeaseHeld = some ((t.successors c.state.name c.id).contains d.id)
  queues : ∀ name ∈ t.scheduled c, Quiet t name (some c.id)

theorem foldl_requeueOne {id : String} {now : Int} {l : Ledger} {rows : List Delivery}
    (h : ∀ r ∈ rows, r.state = .claimed ∧ text r.leaseToken ≠ "") :
    rows.foldl (Ledger.requeueOne id now) l = l := by
  induction rows with
  | nil => rfl
  | cons r rows ih =>
    obtain ⟨hstate, htoken⟩ := h r List.mem_cons_self
    have hkept : Ledger.requeueOne id now l r = l := by simp [Ledger.requeueOne, hstate, htoken]
    rw [List.foldl_cons, hkept]
    exact ih fun r' hr' => h r' (List.mem_cons_of_mem _ hr')

theorem foldl_announceHeld {name : String} {holders : List String} {acc : Connections × Outbox}
    {candidates : List Connection}
    (h : ∀ c ∈ candidates, c.state.serveLeaseHeld = some (holders.contains c.id)) :
    candidates.foldl (Connections.announceHeld name holders) acc = acc := by
  induction candidates with
  | nil => rfl
  | cons c candidates ih =>
    have hkept : Connections.announceHeld name holders acc c = acc := by
      simp [Connections.announceHeld, h c List.mem_cons_self]
    rw [List.foldl_cons, hkept]
    exact ih fun c' hc' => h c' (List.mem_cons_of_mem _ hc')

theorem Idle.requeue {t : Tables} {c : Connection} (h : Idle t c) (now : Int) :
    t.ledger.requeueDirectedDeliveriesForConnection c.id now = t.ledger := by
  refine foldl_requeueOne fun r hr => ?_
  obtain ⟨hmem, hheld⟩ := List.mem_filter.1 hr
  by_contra htoken
  have hleft : r ∈ t.leftBehind c.id := by
    refine List.mem_filter.2 ⟨hmem, ?_⟩
    rcases not_and_or.1 htoken with hstate | hempty
    · simp [hheld, hstate]
    · simp [hheld, not_not.1 hempty]
  rw [h.deliveries] at hleft
  cases hleft

theorem Idle.part {t : Tables} {c : Connection} (h : Idle t c) (now : Int) : t.part c now = t := by
  have hleases : (if c.state.serveCandidate then
      (Connections.reconcileServeLease t.connections c.state.name (some c.id)).1
        else t.connections) = t.connections := by
    cases hcandidate : c.state.serveCandidate with
    | false => rfl
    | true => exact congrArg Prod.fst (foldl_announceHeld (h.leases hcandidate))
  rw [Tables.part, h.requeue, hleases]

namespace Room

variable {s s' : Room} {e : Event}

/-- A read of the step fails, and the directory itself would let the work through. -/
def unavailable (s : Room) : Event → Bool
  | .batch _ fails _ _ => fails
  | .close _ fails _ => fails
  | .removalRead w fails _ => fails && !s.db.removes w.name w.owner
  | .principalRead w fails _ _ =>
    fails && w.owner.all fun principal => s.db.currentPrincipal w.name s.clock = some principal
  | _ => false

/-- Where the step's read fails, it is not the removal check's, and if it is the principal
check's, nothing is bound to the principal. -/
def Withholds (s : Room) (e : Event) : Prop :=
  s.unavailable e = true →
    match e with
    | .removalRead _ _ _ => False
    | .principalRead w _ _ _ =>
      ∀ principal, w.owner = some principal → Unbound s.tables w.name principal
    | _ => True

/-- A socket whose close cannot reconcile has nothing to hand back. -/
def PartsIdly (s : Room) : Event → Prop
  | .close connectionId true _ => ∀ c, s.tables.connections.get? connectionId = some c →
      c.state.authorizationRevoked = false → Idle s.tables c
  | _ => True

theorem principalRead_fails (w : Work) (fit : Fit) (token : Uuid) :
    s.principalRead w true fit token = match w.owner with
      | none => s.without w .principal
      | some principal => (s.without w .principal).withTables
          (s.tables.removeStaleDeliveryPrincipal w.name principal s.clock) := by
  unfold principalRead
  cases w.owner with
  | none => rfl
  | some principal => simp [isCurrentAgentDeliveryPrincipal, without, withTables]

/-- The exact condition on a step whose read fails. -/
theorem spares_iff_withholds :
    (s.unavailable e = true → Spares s.tables (s.next e).tables) ↔ s.Withholds e := by
  refine forall_congr' fun hfails => ?_
  cases e with
  | directory db clock => cases hfails
  | other f => cases hfails
  | dispatch name excludeId => cases hfails
  | loop task => cases hfails
  | start w => cases hfails
  | batch shelf fails rows v =>
    obtain rfl : fails = true := hfails
    exact iff_of_true (Spares.refl _) trivial
  | close id fails v =>
    obtain rfl : fails = true := hfails
    exact iff_of_true (Spares.refl _) trivial
  | removalRead w fails fit =>
    obtain rfl : fails = true := (Bool.and_eq_true_iff.1 hfails).1
    exact iff_of_false (not_spares_removeParticipant s.tables w.name s.clock) id
  | principalRead w fails fit token =>
    obtain rfl : fails = true := (Bool.and_eq_true_iff.1 hfails).1
    rw [next, principalRead_fails]
    cases howner : w.owner with
    | none => exact iff_of_true (Spares.refl _) (by simp [howner])
    | some principal =>
      refine (spares_removeStale s.tables w.name principal s.clock).trans ?_
      simp [howner]

theorem top_quiet {task : DispatchTask}
    (h : ∀ queued, s.tables.ledger.nextQueued task.targetName = some queued →
      queued.principal ≠ none ∧ task.noAdapters = true) : s.top task = s := by
  have htop : s.tables.ledger.dispatchTop task s.clock = (s.tables.ledger, .finished) := by
    unfold Ledger.dispatchTop
    cases hqueued : s.tables.ledger.nextQueued task.targetName with
    | none => rfl
    | some queued =>
      obtain ⟨hprincipal, hadapters⟩ := h queued hqueued
      cases hq : queued.principal with
      | none => exact absurd hq hprincipal
      | some principal => simp [hq, hadapters]
  rw [top, htop]
  rfl

theorem dispatch_quiet {name : String} {excludeId : Option String}
    (h : Quiet s.tables name excludeId) : s.dispatch name excludeId = s := by
  unfold dispatch
  rcases h with hremoved | hpaused | hqueue
  · simp [hremoved]
  · simp [hpaused]
  · split
    · rfl
    · exact top_quiet hqueue

theorem close_clear {id : String} (hidle : ∀ c, s.tables.connections.get? id = some c →
    c.state.authorizationRevoked = false → Idle s.tables c) : s.close id false .clear = s := by
  have hreconcile : s.tables.reconcile .clear s.clock = s.tables := rfl
  unfold close
  simp only [Bool.false_eq_true, if_false, hreconcile]
  cases hc : s.tables.connections.get? id with
  | none => rfl
  | some c =>
    cases hrevoked : c.state.authorizationRevoked with
    | true => simp [withTables, hrevoked]
    | false => simp [(hidle c hc hrevoked).part, withTables, hrevoked]

/-- The same room with more work in hand. -/
def Holds (s s' : Room) : Prop := ∃ works, s.works.Subperm works ∧ s' = { s with works }

theorem Holds.refl (s : Room) : Holds s s := ⟨s.works, List.Subperm.refl _, rfl⟩

theorem Holds.trans {s'' : Room} (h : Holds s s') (h' : Holds s' s'') : Holds s s'' := by
  obtain ⟨works, hsub, rfl⟩ := h
  obtain ⟨works', hsub', rfl⟩ := h'
  exact ⟨works', hsub.trans hsub', rfl⟩

theorem holds_of {works works' : List (Work × Stage)} (h : works.Subperm works') (s : Room) :
    Holds { s with works } { s with works := works' } := ⟨works', h, rfl⟩

theorem Holds.without (h : Holds s s') (w : Work) (stage : Stage) :
    Holds (s.without w stage) (s'.without w stage) := by
  obtain ⟨works, hsub, rfl⟩ := h
  exact holds_of (hsub.erase _) s

theorem Holds.wait (h : Holds s s') (w : Work) (stage : Stage) :
    Holds (s.wait w stage) (s'.wait w stage) := by
  obtain ⟨works, hsub, rfl⟩ := h
  exact holds_of ((List.subperm_append_right _).2 hsub) s

theorem Holds.withTables (h : Holds s s') (t : Tables) :
    Holds (s.withTables t) (s'.withTables t) := by
  obtain ⟨works, hsub, rfl⟩ := h
  exact ⟨works, hsub, rfl⟩

theorem Holds.tables (h : Holds s s') : s'.tables = s.tables := by
  obtain ⟨works, -, rfl⟩ := h
  rfl

theorem Holds.db (h : Holds s s') : s'.db = s.db := by
  obtain ⟨works, -, rfl⟩ := h
  rfl

theorem Holds.clock (h : Holds s s') : s'.clock = s.clock := by
  obtain ⟨works, -, rfl⟩ := h
  rfl

theorem Holds.mem (h : Holds s s') {x : Work × Stage} (hx : x ∈ s.works) : x ∈ s'.works := by
  obtain ⟨works, hsub, rfl⟩ := h
  exact hsub.subset hx

theorem Holds.post (h : Holds s s') (w : Work) (fit : Fit) :
    Holds (s.post w fit) (s'.post w fit) := by
  unfold Room.post
  rw [h.tables, h.clock]
  split <;> exact h.withTables _

theorem Holds.afterRemoval (h : Holds s s') (w : Work) (fit : Fit) :
    Holds (s.afterRemoval w fit) (s'.afterRemoval w fit) := by
  unfold Room.afterRemoval
  rw [h.tables, h.clock]
  cases w with
  | dispatch task queued principal => exact h.wait _ _
  | direct hook id =>
    dsimp only
    split
    · exact h
    · exact h.wait _ _
  | notify hook seq => exact h.post _ fit
  | again shelf row =>
    dsimp only
    split
    · exact h.withTables _
    · split
      · exact h.withTables _
      · split
        · exact h.wait _ _
        · exact h.post _ fit

theorem Holds.afterPrincipal (h : Holds s s') (w : Work) (fit : Fit) (token : Uuid) :
    Holds (s.afterPrincipal w fit token) (s'.afterPrincipal w fit token) := by
  cases w with
  | dispatch task queued principal =>
    simp only [Room.afterPrincipal, h.tables, h.clock]
    exact h.withTables _
  | direct hook id => exact h.post _ fit
  | notify hook seq => exact h.post _ fit
  | again shelf row => exact h.post _ fit

theorem Holds.top (h : Holds s s') (task : DispatchTask) : Holds (s.top task) (s'.top task) := by
  unfold Room.top
  rw [h.tables, h.clock]
  dsimp only
  split
  · split
    · exact h.withTables _
    · exact (h.withTables _).wait _ _
  · exact h.withTables _

theorem Holds.dispatch (h : Holds s s') (name : String) (excludeId : Option String) :
    Holds (s.dispatch name excludeId) (s'.dispatch name excludeId) := by
  unfold Room.dispatch
  rw [h.tables]
  split
  · exact h
  · exact h.top _

theorem Holds.close (h : Holds s s') (id : String) (fails : Bool) (v : Verdict) :
    Holds (s.close id fails v) (s'.close id fails v) := by
  unfold Room.close
  rw [h.tables, h.clock]
  split
  · exact h
  · dsimp only
    split <;> exact h.withTables _

theorem Holds.ready (h : Holds s s') (hready : s.Ready e) : s'.Ready e := by
  cases e with
  | directory db clock => trivial
  | other f => trivial
  | dispatch name excludeId => trivial
  | loop task => trivial
  | start w =>
    cases w <;> simp only [Ready, h.tables] at hready ⊢ <;> exact hready
  | batch shelf fails rows v =>
    simp only [Ready, h.tables] at hready ⊢
    exact hready
  | close id fails v =>
    simp only [Ready, h.tables] at hready ⊢
    exact hready
  | removalRead w fails fit => exact h.mem hready
  | principalRead w fails fit token => exact h.mem hready

/-- A step does the same to the tables of a room with more work in hand. -/
theorem Holds.next (h : Holds s s') (e : Event) : Holds (s.next e) (s'.next e) := by
  cases e with
  | directory db clock =>
    obtain ⟨works, hsub, rfl⟩ := h
    exact ⟨works, hsub, rfl⟩
  | other f =>
    rw [Room.next, Room.next, h.tables]
    exact h.withTables _
  | dispatch name excludeId => exact h.dispatch name excludeId
  | loop task => exact h.top task
  | start w => exact h.wait w .removal
  | batch shelf fails rows v =>
    simp only [Room.next, Room.batch, h.tables, h.clock]
    split
    · exact h
    · obtain ⟨works, hsub, rfl⟩ := h
      exact ⟨_, (List.subperm_append_right _).2 hsub, rfl⟩
  | close id fails v => exact h.close id fails v
  | removalRead w fails fit =>
    have hw := h.without w .removal
    simp only [Room.next, Room.removalRead, hw.tables, hw.clock, hw.db]
    split
    · exact hw.withTables _
    · exact hw.afterRemoval w fit
  | principalRead w fails fit token =>
    have hw := h.without w .principal
    simp only [Room.next, Room.principalRead, hw.tables, hw.clock, hw.db]
    split
    · exact hw
    · split
      · exact hw.afterPrincipal w fit token
      · exact hw.withTables _

/-- What a room does, one with more work in hand can do. -/
theorem Holds.run (h : Holds s s') {evs : List Event} {t : Room} (hrun : Run Step s evs t) :
    ∃ t', Run Step s' evs t' ∧ Holds t t' := by
  induction hrun with
  | nil => exact ⟨s', Run.nil, h⟩
  | @snoc evs u u' e hbefore hstep ih =>
    obtain ⟨t', hrun', hholds⟩ := ih
    obtain ⟨hready, rfl⟩ := hstep
    exact ⟨t'.next e, hrun'.snoc ⟨hholds.ready hready, rfl⟩, hholds.next e⟩

/-- A failed read that takes nothing away only gives up the work in hand. -/
theorem holds_of_withholds (hfails : s.unavailable e = true) (hwithholds : s.Withholds e) :
    Holds (s.next e) s := by
  have hspares := hwithholds hfails
  cases e with
  | directory db clock => cases hfails
  | other f => cases hfails
  | dispatch name excludeId => cases hfails
  | loop task => cases hfails
  | start w => cases hfails
  | batch shelf fails rows v =>
    obtain rfl : fails = true := hfails
    exact Holds.refl s
  | close id fails v =>
    obtain rfl : fails = true := hfails
    exact Holds.refl s
  | removalRead w fails fit => exact hspares.elim
  | principalRead w fails fit token =>
    obtain rfl : fails = true := (Bool.and_eq_true_iff.1 hfails).1
    have herase : Holds (s.without w .principal) s := ⟨s.works, List.erase_subperm _ _, rfl⟩
    rw [next, principalRead_fails]
    cases howner : w.owner with
    | none => exact herase
    | some principal =>
      dsimp only
      rw [(hspares principal howner).removeStale]
      exact herase

end Room

/-- The same answer from a read that does not fail. -/
def Event.read : Event → Event
  | .removalRead w _ fit => .removalRead w false fit
  | .principalRead w _ fit token => .principalRead w false fit token
  | e => e

namespace Room

variable {s s' : Room} {e : Event}

theorem ready_read (hready : s.Ready e) : s.Ready e.read := by
  cases e <;> exact hready

/-- Where the directory denies the work itself, it is all one whether the read fails. -/
theorem next_read (havailable : s.unavailable e = false) : s.next e.read = s.next e := by
  cases e with
  | removalRead w fails fit =>
    cases fails with
    | false => rfl
    | true =>
      have hremoves : s.db.removes w.name w.owner = true := by simpa [unavailable] using havailable
      simp [Event.read, next, removalRead, isParticipantRemoved, without, hremoves]
  | principalRead w fails fit token =>
    cases fails with
    | false => rfl
    | true =>
      simp only [Event.read, next, principalRead]
      cases howner : w.owner with
      | none => rfl
      | some principal =>
        have hstale : s.db.currentPrincipal w.name s.clock ≠ some principal := by
          simpa [unavailable, howner] using havailable
        simp [isCurrentAgentDeliveryPrincipal, without, hstale]
  | _ => rfl

/-- The dispatches that the close of the socket schedules. -/
def schedules (s : Room) (connectionId : String) : List String :=
  match s.tables.connections.get? connectionId with
  | none => []
  | some c => if c.state.authorizationRevoked then [] else s.tables.scheduled c

/-- What happens in place of the step where no read fails: a close is answered and its dispatches
start, a gate or a batch whose read failed for no reason in the directory is still waiting. -/
def answered (s : Room) : Event → List Event
  | .close connectionId true _ =>
    .close connectionId false .clear ::
      (s.schedules connectionId).map fun name => .dispatch name (some connectionId)
  | e => if s.unavailable e then [] else [e.read]

def undisturbed (s : Room) : List Event → List Event
  | [] => []
  | e :: evs => s.answered e ++ (s.next e).undisturbed evs

theorem undisturbed_append (s : Room) (evs evs' : List Event) :
    s.undisturbed (evs ++ evs') = s.undisturbed evs ++ (evs.foldl next s).undisturbed evs' := by
  induction evs generalizing s with
  | nil => rfl
  | cons e evs ih => simp [undisturbed, ih]

theorem step_eq (s : Room) (e : Event) (s' : Room) (h : Step s e s') : s' = s.next e := h.2

/-- Events that leave the room as it is run one after another. -/
theorem run_of_still {evs : List Event} (h : ∀ e ∈ evs, s.Ready e ∧ s.next e = s) :
    Run Step s evs s := by
  induction evs with
  | nil => exact Run.nil
  | cons e evs ih =>
    obtain ⟨hready, hnext⟩ := h e List.mem_cons_self
    have hfirst : Run Step s [e] s := Run.single ⟨hready, hnext.symm⟩
    exact hfirst.append (ih fun e' he' => h e' (List.mem_cons_of_mem _ he'))

/-- The answered close of a socket that parts idly, and its dispatches, change nothing. -/
theorem run_answered_close {id : String} {v : Verdict} (hready : s.Ready (.close id true v))
    (hidle : s.PartsIdly (.close id true v)) : Run Step s (s.answered (.close id true v)) s := by
  refine run_of_still fun e he => ?_
  rcases List.mem_cons.1 he with rfl | hdispatch
  · exact ⟨hready, close_clear hidle⟩
  · obtain ⟨name, hname, rfl⟩ := List.mem_map.1 hdispatch
    refine ⟨trivial, dispatch_quiet ?_⟩
    unfold schedules at hname
    split at hname
    · cases hname
    · rename_i c hc
      split at hname
      · cases hname
      · rename_i hrevoked
        have hid : c.id = id := (Table.get?_eq_some.1 hc).2
        rw [← hid]
        exact (hidle c hc (by simpa using hrevoked)).queues name hname

/-- A step whose read fails, beside what happens in its place. -/
theorem holds_answered {t' : Room} (hready : s.Ready e) (hwithholds : s.Withholds e)
    (hidle : s.PartsIdly e) (hholds : Holds s t') :
    ∃ u, Run Step t' (s.answered e) u ∧ Holds (s.next e) u := by
  unfold answered
  split
  · exact hholds.run (run_answered_close hready hidle)
  · cases hfails : s.unavailable e with
    | true => exact ⟨t', Run.nil, (holds_of_withholds hfails hwithholds).trans hholds⟩
    | false =>
      have hread : Step t' e.read (t'.next e.read) := ⟨hholds.ready (ready_read hready), rfl⟩
      exact ⟨t'.next e.read, Run.single hread, next_read hfails ▸ hholds.next e.read⟩

theorem run_undisturbed {evs : List Event} {t : Room}
    (h : Run (Guarded Step fun u e => u.Withholds e ∧ u.PartsIdly e) s evs t) :
    ∃ t', Run Step s (s.undisturbed evs) t' ∧ Holds t t' := by
  induction h with
  | nil => exact ⟨s, Run.nil, Holds.refl s⟩
  | @snoc evs u u' e hbefore hstep ih =>
    obtain ⟨t', hrun, hholds⟩ := ih
    obtain ⟨⟨hready, rfl⟩, hwithholds, hidle⟩ := hstep
    obtain ⟨t'', hrun', hholds'⟩ := holds_answered hready hwithholds hidle hholds
    refine ⟨t'', ?_, hholds'⟩
    rw [undisturbed_append, ← hbefore.of_guarded.eq_foldl step_eq]
    simpa [undisturbed] using hrun.append hrun'

end Room

/-- The work waits for the principal check as well. -/
def Work.asksPrincipal : Work → Bool
  | .notify _ _ => false
  | .again _ row => row.binding.any (·.mode = .agent)
  | _ => true

/-- The gates of the work, with the answers that let it through. -/
def Work.gates (w : Work) (token : Uuid) : List Event :=
  .removalRead w false .fits ::
    if w.asksPrincipal then [.principalRead w false .fits token] else []

namespace Room

variable {s s' : Room} {w : Work}

/-- Nobody removed the name, the principal is current where that is asked, and a stored payload
is still of a registered webhook. -/
structure Admits (s : Room) (w : Work) : Prop where
  present : s.db.removes w.name w.owner = false
  current : w.asksPrincipal = true →
    ∃ principal, w.owner = some principal ∧ s.db.currentPrincipal w.name s.clock = some principal
  registered : ∀ shelf row, w = .again shelf row →
    ∃ binding, row.binding = some binding ∧ binding ∈ s.tables.hooks

theorem Admits.afterRemoval_asks (h : s.Admits w) (hasks : w.asksPrincipal = true) :
    s.afterRemoval w .fits = s.wait w .principal := by
  obtain ⟨principal, howner, -⟩ := h.current hasks
  cases w with
  | dispatch task queued principal => rfl
  | direct hook id =>
    have hhook : hook.targetOwner = some principal := howner
    simp [afterRemoval, hhook]
  | notify hook seq => cases hasks
  | again shelf row =>
    obtain ⟨binding, hbinding, hmem⟩ := h.registered shelf row rfl
    have hmode : binding.mode = .agent := by simpa [Work.asksPrincipal, hbinding] using hasks
    simp [afterRemoval, hbinding, hmem, hmode]

theorem Admits.afterRemoval_posts (h : s.Admits w) (hasks : w.asksPrincipal = false)
    (token : Uuid) :
    (s.afterRemoval w .fits).tables = s.tables.handOut w token s.clock := by
  cases w with
  | dispatch task queued principal => cases hasks
  | direct hook id => cases hasks
  | notify hook seq => rfl
  | again shelf row =>
    obtain ⟨binding, hbinding, hmem⟩ := h.registered shelf row rfl
    have hmode : binding.mode ≠ .agent := by simpa [Work.asksPrincipal, hbinding] using hasks
    simp [afterRemoval, hbinding, hmem, hmode, post, withTables, Tables.handOut]

theorem afterPrincipal_fits (s : Room) (w : Work) (token : Uuid) :
    (s.afterPrincipal w .fits token).tables = s.tables.handOut w token s.clock := by
  cases w <;> rfl

/-- Work that the directory admits passes its gates once they answer. -/
theorem Admits.run_gates (h : s.Admits w) (hwork : (w, .removal) ∈ s.works) (token : Uuid) :
    ∃ u, Run Step s (w.gates token) u ∧ u.tables = s.tables.handOut w token s.clock := by
  have hpresent : isParticipantRemoved s.db false w.name w.owner = false := h.present
  have hremoval : s.next (.removalRead w false .fits) =
      (s.without w .removal).afterRemoval w .fits := by
    simp [next, removalRead, without, hpresent]
  have hfirst : Run Step s [.removalRead w false .fits]
      ((s.without w .removal).afterRemoval w .fits) := Run.single ⟨hwork, hremoval.symm⟩
  have hadmits : (s.without w .removal).Admits w := ⟨h.present, h.current, h.registered⟩
  unfold Work.gates
  cases hasks : w.asksPrincipal with
  | false => exact ⟨_, hfirst, hadmits.afterRemoval_posts hasks token⟩
  | true =>
    obtain ⟨principal, howner, hcurrent⟩ := h.current hasks
    rw [hadmits.afterRemoval_asks hasks] at hfirst
    set u := (s.without w .removal).wait w .principal with hu
    have hwaits : (w, .principal) ∈ u.works := List.mem_append_right _ (List.mem_singleton_self _)
    have hprincipal : u.next (.principalRead w false .fits token) =
        (u.without w .principal).afterPrincipal w .fits token := by
      have hlive : isCurrentAgentDeliveryPrincipal u.db false w.name principal u.clock = true := by
        simpa [isCurrentAgentDeliveryPrincipal, hu, wait, without] using hcurrent
      simp [next, principalRead, howner, without, hlive]
    have hsecond : Run Step u [.principalRead w false .fits token]
        ((u.without w .principal).afterPrincipal w .fits token) :=
      Run.single ⟨hwaits, hprincipal.symm⟩
    exact ⟨_, hfirst.append hsecond, afterPrincipal_fits _ w token⟩

/-- The event takes up the work and does nothing else. -/
def TakesUp (s : Room) (e : Event) (w : Work) : Prop := s.Ready e ∧ s.next e = s.wait w .removal

/-- Once the reads answer again, the work that a room takes up is handed out. -/
theorem TakesUp.delivered {e : Event} (h : s.TakesUp e w) (hadmits : s.Admits w) (token : Uuid) :
    ∃ u, Run Step s (e :: w.gates token) u ∧ u.tables = s.tables.handOut w token s.clock := by
  obtain ⟨hready, hnext⟩ := h
  have hstart : Run Step s [e] (s.wait w .removal) := Run.single ⟨hready, hnext.symm⟩
  have hwaits : (w, .removal) ∈ (s.wait w .removal).works :=
    List.mem_append_right _ (List.mem_singleton_self _)
  have hadmits' : (s.wait w .removal).Admits w :=
    ⟨hadmits.present, hadmits.current, hadmits.registered⟩
  obtain ⟨u, hrun, htables⟩ := hadmits'.run_gates hwaits token
  exact ⟨u, hstart.append hrun, htables⟩

/-- A dispatch takes up the next queued delivery of a name that is neither removed nor paused,
if an adapter is there. -/
theorem dispatch_takesUp {name principal : String} {queued : Delivery} (excludeId : Option String)
    (hremoved : name ∉ s.tables.removed) (hpaused : name ∉ s.tables.paused)
    (hqueued : s.tables.ledger.nextQueued name = some queued)
    (hprincipal : queued.principal = some principal)
    (hadapters : (s.tables.startDispatch name excludeId).noAdapters = false) :
    s.TakesUp (.dispatch name excludeId)
      (.dispatch (s.tables.startDispatch name excludeId) queued principal) := by
  refine ⟨trivial, ?_⟩
  have htop : s.tables.ledger.dispatchTop (s.tables.startDispatch name excludeId) s.clock =
      (s.tables.ledger, .awaiting (.removalCheck queued)) := by
    have hname : (s.tables.startDispatch name excludeId).targetName = name := rfl
    simp [Ledger.dispatchTop, hname, hqueued, hprincipal, hadapters]
  simp [next, dispatch, hremoved, hpaused, top, htop, hprincipal, withTables]

theorem batch_takesUp {shelf : Shelf} {row : Stored} (hrow : row ∈ Shelf.rows s.tables shelf) :
    s.TakesUp (.batch shelf false [row] .clear) (.again shelf row) := by
  refine ⟨fun r hr => ?_, rfl⟩
  rw [List.mem_singleton.1 hr]
  exact hrow

/-- The two rooms agree from here on: the tables are the same, what `t` goes on to do `t'` can do,
and in `t` every delivery, stored payload and POST is taken up and handed out as if no read had
ever failed. -/
structure SameCourse (t t' : Room) : Prop where
  tables : t'.tables = t.tables
  follows : ∀ evs u, Run Step t evs u → ∃ u', Run Step t' evs u' ∧ u'.tables = u.tables
  queued : ∀ name excludeId queued principal, name ∉ t.tables.removed → name ∉ t.tables.paused →
    t.tables.ledger.nextQueued name = some queued → queued.principal = some principal →
    (t.tables.startDispatch name excludeId).noAdapters = false →
    t.TakesUp (.dispatch name excludeId)
      (.dispatch (t.tables.startDispatch name excludeId) queued principal)
  stored : ∀ shelf row, row ∈ Shelf.rows t.tables shelf →
    t.TakesUp (.batch shelf false [row] .clear) (.again shelf row)
  delivered : ∀ e w token, t.TakesUp e w → t.Admits w →
    ∃ u, Run Step t (e :: w.gates token) u ∧ u.tables = t.tables.handOut w token t.clock

theorem Holds.sameCourse {t t' : Room} (h : Holds t t') : SameCourse t t' where
  tables := h.tables
  follows evs u hrun := by
    obtain ⟨u', hrun', hholds⟩ := h.run hrun
    exact ⟨u', hrun', hholds.tables⟩
  queued _ excludeId _ _ hremoved hpaused hqueued hprincipal hadapters :=
    dispatch_takesUp excludeId hremoved hpaused hqueued hprincipal hadapters
  stored _ _ hrow := batch_takesUp hrow
  delivered _ _ token htakes hadmits := htakes.delivered hadmits token

/-- A channel with one agent, whom nobody removed, and another one's socket. -/
def oneAgent : Room where
  db := { removals := [], profiles := [], bindings := [],
          tokens := [⟨"bot", some "owner", "hash", true, false, none, true⟩] }
  clock := 0
  tables := { hooks := [], queue := [], letters := [], removed := [], paused := [], sent := [],
              connections := Table.empty.insert
                (Connections.newConnection "socket" ⟨"other", .agent, none, "hash-2"⟩ 0)
              ledger := { deliveries := Table.empty, leaseHistory := [], messages := Table.empty,
                          revSeq := 0 } }
  works := []

/-- The agent's delivery, before it is leased. -/
def queuedRow : Delivery :=
  { Ledger.leasedRow with
    targetName := "bot", state := .queued, attempt := 0, leaseEpoch := 0, leaseToken := none,
    leaseConnectionId := none, lastLeaseConnectionId := none, leaseAdapter := none,
    leaseUntil := none }

/-- Its message. -/
def asking : Message :=
  ⟨1, Nat.one_pos, "alice", .human, none, .message, none, none, none, none, none, false, none,
    none⟩

def botHook : Hook := ⟨"bot", "registration", .agent, some "owner"⟩

/-- An earlier delivery whose POST failed. -/
def botRetry : Stored :=
  ⟨1, "bot", some "registration", some .agent, some "owner", 1,
    some ⟨"d", 1, "bot", "work", "continuation"⟩, 1⟩

def withBot (t : Tables) : Tables :=
  { t with hooks := [botHook], queue := [botRetry]
           ledger := { t.ledger with
             deliveries := t.ledger.deliveries.insert queuedRow
             messages := t.ledger.messages.insert asking } }

def botTask : DispatchTask :=
  ⟨"bot", none, [], [], [], [⟨"bot", "registration", some "owner"⟩]⟩

def botToken : Uuid := ⟨"0b7f7c51-8b54-4a0e-9a1d-2f6a3c9d0032", by decide⟩

/-- The other agent's socket closes and the alarm goes off while reconciliation fails; then the
agent's delivery is dispatched. -/
def lateDispatch : List Event :=
  [.close "socket" true .clear, .other withBot, .batch .queue true [] .clear,
    .dispatch "bot" none, .removalRead (.dispatch botTask queuedRow "owner") false .fits,
    .principalRead (.dispatch botTask queuedRow "owner") false .fits botToken]

/-- The alarm takes up the retry, and the removal check cannot reach the directory. -/
def failedRead : List Event :=
  [.other withBot, .batch .queue false [botRetry] .clear,
    .removalRead (.again .queue botRetry) true .fits]

/-- A claim without a token. -/
def watchedRow : Delivery :=
  { Ledger.leasedRow with
    targetName := "other", leaseToken := none, leaseAdapter := some .watch,
    leaseConnectionId := some "socket", lastLeaseConnectionId := some "socket" }

def withClaim (t : Tables) : Tables :=
  { t with ledger := { t.ledger with deliveries := t.ledger.deliveries.insert watchedRow } }

def failedClose : List Event := [.other withClaim, .close "socket" true .clear]

/-- A close that cannot reconcile keeps the claim that the answered one gives back. -/
theorem failed_close_keeps_claim : ∃ t t', Run Step oneAgent failedClose t ∧
    Run Step oneAgent (oneAgent.undisturbed failedClose) t' ∧
    t.tables.ledger.deliveries.rows.any (·.state = .claimed) = true ∧
    t'.tables.ledger.deliveries.rows.any (·.state = .queued) = true := by
  have hanswered : oneAgent.undisturbed failedClose = [.other withClaim,
      .close "socket" false .clear, .dispatch "other" (some "socket")] := by rfl
  rw [hanswered]
  exact ⟨_, _, run_of_ready (fun _ _ h => ⟨h, rfl⟩) ⟨trivial, rfl, trivial⟩,
    run_of_ready (fun _ _ h => ⟨h, rfl⟩) ⟨trivial, rfl, trivial, trivial⟩, by decide, by decide⟩

end Room

end Authority
end AgentParty
