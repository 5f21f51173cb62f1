import AgentParty.Lib.Sorting
import AgentParty.Proofs.Election

/-! Runs of elections. A message handler writes back what it read before it waited,
the lease flag included; as long as no handler is behind the stored flag and no
closed holder is passed over while it is still listed, every election of every run
does what it is for. -/

namespace AgentParty
open Connections Ledger

namespace Sockets

/-- The elections of a list of names, one after another. -/
def electionsInTurn (s : Sockets) : List String → List ElectionCall
  | [] => []
  | name :: names => ⟨s, name, none⟩ :: electionsInTurn (s.reconcile name none) names

/-- The calls of `reconcileServeLease` that a socket event makes. -/
def elections (s : Sockets) : SocketEvent → List ElectionCall
  | .hello id directedDelivery recovery since =>
    match s.handlerState id with
    | none => []
    | some st =>
      let s := { s with
        connections := writeBack s.connections id (saidHello directedDelivery recovery since) }
      if st.kind = .agent && st.serveCandidate then [⟨s, st.name, none⟩] else []
  | .claimServe id v1Conflict =>
    match s.handlerState id with
    | none => []
    | some st =>
      if st.helloPending then []
      else if !st.directedDeliveryV1 && v1Conflict then []
      else
        let s :=
          if st.serveCandidate then s
          else { s with
            connections := writeBack s.connections id (claimedServe (s.claimSeq + 1))
            claimSeq := s.claimSeq + 1 }
        [⟨s, st.name, none⟩]
  | .closeHandled id lingering =>
    let s := { s with connections := close s.connections lingering id }
    match s.connections.get? id with
    | none => []
    | some c => if c.state.serveCandidate then [⟨s, c.state.name, some id⟩] else []
  | .presenceStale ids lingering =>
    let names := s.staleServeNames ids
    let s := { s with connections := ids.foldl (fun cs id => close cs lingering id) s.connections }
    s.electionsInTurn names
  | _ => []

/-- The event writes no lease flag back that has changed since its handler read it,
and elects without no holder that `getConnections()` still yields. -/
def Orderly (s : Sockets) : SocketEvent → Prop
  | .frameTouched id => UpToDate s id
  | .hello id _ _ _ => UpToDate s id
  | .registerWatch id => ∀ st, s.handlerState id = some st → st.helloPending = false →
      st.kind = .agent → st.watchCandidate = false → UpToDate s id
  | .ocsRoster id canWrite parsed now => ∀ st, s.handlerState id = some st →
      st.helloPending = false → st.kind = .agent → canWrite = true → mayReport now st = true →
      parsed = true → UpToDate s id
  | .closeHandled id lingering => ∀ c ∈ s.connections, c.id = id → c.holds → id ∉ lingering
  | _ => True

/-- From `s` to `s'` by way of the elections `calls`. -/
structure Sequel (s s' : Sockets) (calls : List ElectionCall) : Prop where
  leased : Leased s'
  keeps : KeepsHolders s.connections s'.connections
  fair : ∀ call ∈ calls, call.Fair

theorem Sequel.refl {s : Sockets} (h : Leased s) : Sequel s s [] :=
  ⟨h, KeepsHolders.refl _, by simp⟩

theorem lastLease_nil (id : String) : lastLease [] id = none := rfl

theorem Sequel.quiet {s : Sockets} {cs : Connections} (h : Leased s)
    (hq : Table.Pointwise Quiet s.connections cs) (claimSeq : ℕ) :
    Sequel s ⟨cs, claimSeq, s.sent⟩ [] := by
  refine ⟨?_, KeepsHolders.quiet hq, by simp⟩
  have hl := h.quiet hq lastLease_nil claimSeq
  rwa [List.append_nil] at hl

theorem Sequel.trans {s s' s'' : Sockets} {calls calls' : List ElectionCall}
    (h : Sequel s s' calls) (h' : Sequel s' s'' calls') : Sequel s s'' (calls ++ calls') :=
  ⟨h'.leased, h.keeps.trans h'.keeps,
    fun call hc => (List.mem_append.1 hc).elim (h.fair call) (h'.fair call)⟩

theorem Sequel.elect {s : Sockets} {name : String} {excludeId : Option String}
    (h : ElectionCall.Fair ⟨s, name, excludeId⟩) :
    Sequel s (s.reconcile name excludeId) [⟨s, name, excludeId⟩] :=
  ⟨h.1.reconcile h.2, KeepsHolders.reconcile h.1.single _ _, by simpa using h⟩

theorem Sequel.elect_all {s : Sockets} (h : Leased s) (name : String) :
    Sequel s (s.reconcile name none) [⟨s, name, none⟩] :=
  Sequel.elect ⟨h, fun _ _ _ _ => by simp⟩

theorem sequel_electionsInTurn {s : Sockets} (h : Leased s) (names : List String) :
    Sequel s (names.foldl (fun s name => s.reconcile name none) s) (s.electionsInTurn names) := by
  induction names generalizing s with
  | nil => exact Sequel.refl h
  | cons n ns ih => exact (Sequel.elect_all h n).trans (ih (Sequel.elect_all h n).leased)

theorem pointwise_quiet_refl {s : Sockets} (h : Leased s) :
    Table.Pointwise Quiet s.connections s.connections :=
  Table.Pointwise.refl fun c hc => Quiet.refl (h.handlers c hc)

theorem sequel_close {s : Sockets} (h : Leased s) (lingering ids : List String) :
    Sequel s { s with connections := ids.foldl (fun cs id => close cs lingering id) s.connections }
      [] := by
  induction ids generalizing s with
  | nil => exact Sequel.refl h
  | cons id ids ih =>
    have hq := Sequel.quiet h (h.quiet_close lingering id) s.claimSeq
    exact hq.trans (ih hq.leased)

/-- One case per event: what it does to the lease. -/
theorem sequel_apply {s : Sockets} (h : Leased s) {e : SocketEvent} (ho : s.Orderly e)
    (hnew : ∀ id identity now, e = .connected id identity now → s.connections.get? id = none) :
    Sequel s (s.apply e) (s.elections e) := by
  cases e with
  | connected id identity now =>
    refine ⟨h.connected (hnew id identity now rfl) identity now, fun c hc => ?_, by
      simp [elections]⟩
    exact ⟨c, Table.mem_insert.2 (Or.inl hc), rfl, fun hl => hl, fun hh _ => hh⟩
  | frameBegins id =>
    refine Sequel.quiet h (h.quiet_update (f := withHandler fun c => some c.state)
      fun c hc _ => ⟨rfl, rfl, fun hr => hr, fun hl => hl, ?_⟩) s.claimSeq
    rintro st hst
    cases hst
    refine ⟨rfl, rfl, fun hno => ?_⟩
    by_contra hne
    have hruns := Connection.runs_iff.1 (h.flagged c hc hne)
    rw [hno] at hruns
    cases hruns.1
  | frameTouched id =>
    exact Sequel.quiet h (h.quiet_update fun c hc hid => h.quiet_touched ho hc hid) s.claimSeq
  | frameEnds id =>
    refine Sequel.quiet h (h.quiet_update (f := withHandler fun _ => none)
      fun c hc _ => ⟨rfl, rfl, fun hr => hr, fun hl => hl, ?_⟩) s.claimSeq
    rintro st hst
    cases hst
  | hello id directedDelivery recovery since =>
    simp only [apply, hello, elections]
    cases s.handlerState id with
    | none => exact Sequel.refl h
    | some st =>
      have hq := Sequel.quiet h (h.quiet_writeBack ho (f := saidHello directedDelivery recovery since)
        fun st => ⟨rfl, rfl, fun hc => hc⟩) s.claimSeq
      dsimp only
      split_ifs
      · exact hq.trans (Sequel.elect_all hq.leased _)
      · exact hq
  | claimServe id v1Conflict =>
    simp only [apply, claimServe, elections]
    cases hst : s.handlerState id with
    | none => exact Sequel.refl h
    | some st =>
      dsimp only
      split_ifs with h1 h2 h3
      · exact Sequel.refl h
      · exact Sequel.refl h
      · exact Sequel.elect_all h _
      · have hup := h.upToDate_of_new hst (by simpa using h3)
        have hq := Sequel.quiet h (h.quiet_writeBack hup (f := claimedServe (s.claimSeq + 1))
          fun st => ⟨rfl, rfl, fun _ => rfl⟩) (s.claimSeq + 1)
        exact hq.trans (Sequel.elect_all hq.leased _)
  | registerWatch id =>
    simp only [apply, registerWatch, elections]
    cases hst : s.handlerState id with
    | none => exact Sequel.refl h
    | some st =>
      dsimp only
      split_ifs with hno
      · exact Sequel.refl h
      · simp only [Bool.or_eq_true, decide_eq_true_eq, not_or, not_not, Bool.not_eq_true] at hno
        have hup : UpToDate s id := ho st hst hno.1.1 hno.1.2 hno.2
        exact Sequel.quiet h (h.quiet_writeBack hup (f := registeredWatch (s.claimSeq + 1))
          fun st => ⟨rfl, rfl, fun hc => hc⟩) (s.claimSeq + 1)
  | ocsRoster id canWrite parsed now =>
    simp only [apply, ocsRoster, elections]
    cases hst : s.handlerState id with
    | none => exact Sequel.refl h
    | some st =>
      dsimp only
      split_ifs with hrefused hdropped
      · exact Sequel.refl h
      · exact Sequel.refl h
      · simp only [Bool.or_eq_true, decide_eq_true_eq, Bool.not_eq_true', not_or, not_not,
          Bool.not_eq_true, Bool.not_eq_false] at hrefused hdropped
        have hup : UpToDate s id :=
          ho st hst hrefused.1.1 hrefused.1.2 hrefused.2 hdropped.1 hdropped.2
        exact Sequel.quiet h (h.quiet_writeBack hup (f := reportedOcs now)
          fun st => ⟨rfl, rfl, fun hc => hc⟩) s.claimSeq
  | serverCloses id cause lingering =>
    have hmark : ∀ st, (closedFor cause st).toIdentity = st.toIdentity ∧
        (closedFor cause st).serveLeaseHeld = st.serveLeaseHeld ∧
        (closedFor cause st).serveCandidate = st.serveCandidate := by
      intro st
      cases cause <;> exact ⟨rfl, rfl, rfl⟩
    have hq : Sequel s ⟨setState s.connections id (closedFor cause), s.claimSeq, s.sent⟩ [] :=
      Sequel.quiet h (h.quiet_setState hmark) s.claimSeq
    exact hq.trans (Sequel.quiet hq.leased (hq.leased.quiet_close lingering id) s.claimSeq)
  | closeBegins id =>
    exact Sequel.quiet h (h.quiet_setState (f := markedClosing) fun st => ⟨rfl, rfl, rfl⟩) s.claimSeq
  | unlisted id =>
    refine Sequel.quiet h (h.quiet_update (f := withUnlisted)
      fun c hc _ => ⟨rfl, rfl, fun hr => hr, fun hl => ?_,
        fun st hst => (h.handlers c hc st hst).of_same rfl rfl⟩) s.claimSeq
    cases hl
  | closeHandled id lingering =>
    have hq := Sequel.quiet h (h.quiet_close lingering id) s.claimSeq
    simp only [apply, closeHandled, elections]
    cases (close s.connections lingering id).get? id with
    | none => exact hq
    | some closed =>
      dsimp only
      split_ifs
      · refine hq.trans (Sequel.elect ⟨hq.leased, fun c' hc' hh _ hid => ?_⟩)
        obtain ⟨c, hc, rfl⟩ := (Table.mem_update (closedConnection_id _)).1 hc'
        split_ifs at hh hid with hcid
        · simp only [decide_eq_true_eq] at hcid
          obtain ⟨hl, hr, hheld⟩ := hh
          simp only [closedConnection, Bool.and_eq_true, List.contains_iff_mem] at hl
          exact ho c hc hcid ⟨hl.1, hr, hheld⟩ hl.2
        · simp only [decide_eq_true_eq] at hcid
          exact hcid (Option.some.inj hid).symm
      · exact hq
  | presenceStale ids lingering =>
    have hq := sequel_close h lingering ids
    exact hq.trans (sequel_electionsInTurn hq.leased _)

end Sockets

namespace Ledger

variable {l : Ledger} {cs : Connections} {lingering : List String} {identity : ConnState}
  {connectionId : String} {f : DeliveryRecoverFrame} {now : Int} {row : Delivery}

/-- The frame gets past every refusal to the fence, if the row's adapter is its own. -/
def ReachesFence (l : Ledger) (identity : ConnState) (f : DeliveryRecoverFrame) (now : Int)
    (row : Delivery) : Prop :=
  Authorised identity row ∧ f.matchesCurrent row = true ∧
    (row.state = .running ∨ (row.state = .claimed ∧ row.recoveryExpired now = false) ∨
      (replaySafeUnknown f now row = true ∧ row.state = .failed ∧
        l.successor identity.toIdentity f.deliveryId = none))

/-- The sockets after a recovery: as they were, or behind the fence, and then the
answer tells whether the fence found its connection. -/
def Fences (cs : Connections) (lingering : List String) (identity : ConnState)
    (connectionId : String) (adapter : Option LeaseAdapter) (out : RecoveryOutcome) : Prop :=
  (out.connections = cs ∧ out.sent = []) ∨ ∃ previous,
    let fence := fenceRecoveredDeliveryConnection cs lingering identity connectionId adapter previous
    out.connections = fence.1 ∧ out.sent = fence.2.1 ∧ (fence.2.2 = true → out.answer.isSome = true)

theorem reviveReplay_fences : Fences cs lingering identity connectionId row.recoveryAdapter
    (reviveReplay l cs lingering identity connectionId f now row) := by
  unfold reviveReplay
  dsimp only
  split
  · exact Or.inl ⟨rfl, rfl⟩
  · split_ifs with hno hfound
    · exact Or.inl ⟨rfl, rfl⟩
    · exact Or.inr ⟨_, rfl, rfl, fun _ => rfl⟩
    · exact Or.inr ⟨_, rfl, rfl, fun h => absurd h hfound⟩

theorem expireRunning_fences : Fences cs lingering identity connectionId row.recoveryAdapter
    (expireRunning l cs lingering identity connectionId f now row) := by
  unfold expireRunning
  dsimp only
  split
  · exact Or.inl ⟨rfl, rfl⟩
  · split_ifs with hno hfound
    · exact Or.inl ⟨rfl, rfl⟩
    · exact Or.inr ⟨_, rfl, rfl, fun _ => rfl⟩
    · exact Or.inr ⟨_, rfl, rfl, fun h => absurd h hfound⟩

theorem rotateLease_fences : Fences cs lingering identity connectionId row.recoveryAdapter
    (rotateLease l cs lingering identity connectionId f now row) := by
  unfold rotateLease
  dsimp only
  split
  · exact Or.inl ⟨rfl, rfl⟩
  · split_ifs with hno hfound
    · exact Or.inl ⟨rfl, rfl⟩
    · exact Or.inr ⟨_, rfl, rfl, fun _ => rfl⟩
    · exact Or.inr ⟨_, rfl, rfl, fun h => absurd h hfound⟩

theorem deferReplay_sockets :
    (deferReplay l cs f now).connections = cs ∧ (deferReplay l cs f now).sent = [] := by
  unfold deferReplay
  dsimp only
  split
  · exact ⟨rfl, rfl⟩
  · split_ifs <;> exact ⟨rfl, rfl⟩

theorem recoverUnsettled_fences (hid : Authorised identity row) :
    let out := recoverUnsettled l cs lingering identity connectionId f now row
    (out.connections = cs ∧ out.sent = []) ∨
      (ReachesFence l identity f now row ∧ adapterRegistered row.recoveryAdapter identity = true ∧
        Fences cs lingering identity connectionId row.recoveryAdapter out) := by
  have hsucc : (recordCurrentLease l f row).successor identity.toIdentity f.deliveryId =
      l.successor identity.toIdentity f.deliveryId := by
    rw [successor, recordCurrentLease_deliveries, successor]
  unfold recoverUnsettled
  dsimp only
  by_cases hsafe : replaySafeUnknown f now row = true
  · rw [if_pos hsafe]
    split_ifs with hreg hdefer
    · exact Or.inl ⟨rfl, rfl⟩
    · exact Or.inl deferReplay_sockets
    · refine Or.inr ⟨⟨hid, ?_, ?_⟩, by simpa using hreg, reviveReplay_fences⟩
      · simp only [replaySafeUnknown, Bool.and_eq_true] at hsafe
        exact hsafe.1.2
      · by_cases hf : row.state = .failed
        · refine Or.inr (Or.inr ⟨hsafe, hf, ?_⟩)
          rw [← hsucc]
          simpa [hf] using hdefer
        · refine Or.inl ?_
          simp only [replaySafeUnknown, Bool.and_eq_true, Bool.or_eq_true, decide_eq_true_eq]
            at hsafe
          exact hsafe.2.elim And.left fun h => absurd h.1 hf
  · rw [if_neg hsafe]
    split_ifs with hmiss hexpired hreg hfailed hunknown hreplied hreg'
    · exact Or.inl ⟨rfl, rfl⟩
    · exact Or.inl ⟨rfl, rfl⟩
    · simp only [Bool.or_eq_true, not_or, Bool.not_eq_true', Bool.not_eq_false] at hmiss
      simp only [Bool.and_eq_true, decide_eq_true_eq] at hexpired
      exact Or.inr ⟨⟨hid, hmiss.1.1, Or.inl hexpired.1⟩, by simpa using hreg,
        expireRunning_fences⟩
    · exact Or.inl ⟨rfl, rfl⟩
    · exact Or.inl ⟨rfl, rfl⟩
    · exact Or.inl ⟨rfl, rfl⟩
    · exact Or.inl ⟨rfl, rfl⟩
    · simp only [Bool.or_eq_true, not_or, Bool.not_eq_true', Bool.not_eq_false, Bool.and_eq_true,
        decide_eq_true_eq, not_and, Bool.not_eq_true] at hmiss hreplied
      refine Or.inr ⟨⟨hid, hmiss.1.1, ?_⟩, by simpa using hreg', rotateLease_fences⟩
      cases hst : row.state with
      | queued => exact absurd hst hmiss.1.2
      | claimed => exact Or.inr (Or.inl ⟨rfl, hmiss.2 hst⟩)
      | running => exact Or.inl rfl
      | waitingOwner => exact absurd hst hreplied.2
      | replied => exact absurd hst hreplied.1
      | failed => exact absurd hst hfailed

/-- A recovery that moves the lease has reached the fence. -/
theorem recoverDirectedDelivery_fences (l : Ledger) (cs : Connections) (lingering : List String)
    (identity : ConnState) (connectionId : String) (f : DeliveryRecoverFrame) (now : Int) :
    let out := l.recoverDirectedDelivery cs lingering identity connectionId f now
    (out.connections = cs ∧ out.sent = []) ∨
      ∃ row, l.directedDeliveryRow f.deliveryId = some row ∧ ReachesFence l identity f now row ∧
        adapterRegistered row.recoveryAdapter identity = true ∧
        Fences cs lingering identity connectionId row.recoveryAdapter out := by
  unfold recoverDirectedDelivery
  split
  · exact Or.inl ⟨rfl, rfl⟩
  · rename_i row hrow
    dsimp only
    split_ifs with hid hknown hsettled
    · exact Or.inl ⟨rfl, rfl⟩
    · exact Or.inl ⟨rfl, rfl⟩
    · exact Or.inl ⟨rfl, rfl⟩
    · simp only [Bool.or_eq_true, decide_eq_true_eq, not_or, not_not, Bool.not_eq_true',
        Bool.not_eq_false] at hid
      exact (recoverUnsettled_fences ⟨hid.1.1, hid.1.2, hid.2⟩).imp_right fun h => ⟨row, hrow, h⟩

end Ledger

section Fence

variable {s : Sockets} {cs : Connections} {lingering : List String} {identity : ConnState}
  {connectionId : String}

theorem keeps_of_quiet {c c' : Connection} {cs' : Connections} (hc : c ∈ cs)
    (hq : Table.Pointwise Quiet cs cs') (hc' : c' ∈ cs') (hid : c'.id = c.id) : Quiet c c' := by
  obtain ⟨c₁, hc₁, hid₁, hq⟩ := hq.backward hc'
  rwa [← Table.eq_of_key hc₁ hc (hid₁.trans hid)]

/-- What a fence does to the lease: the former holder of the principal may lose it to the
recovering connection, everyone else keeps it. -/
theorem sequel_fence (h : Leased s) (lingering : List String) (identity : ConnState)
    (connectionId : String) (adapter : Option LeaseAdapter) (previous : String) :
    let fence := fenceRecoveredDeliveryConnection s.connections lingering identity connectionId
      adapter previous
    Leased ⟨fence.1, s.claimSeq, s.sent ++ fence.2.1⟩ ∧
      ∀ c ∈ s.connections, c.holds → ∀ c' ∈ fence.1, c'.id = c.id → c'.listed = true → c'.holds ∨
        (adapter = some .serve ∧ fenced identity c = true ∧ c.id ≠ connectionId) := by
  unfold fenceRecoveredDeliveryConnection
  dsimp only
  set closed : Connections := if previous ≠ "" && previous ≠ connectionId &&
      (getConnections s.connections).any (·.id = previous) then
      close s.connections lingering previous else s.connections with hclosed
  have hq : Table.Pointwise Quiet s.connections closed := by
    rw [hclosed]
    split_ifs
    · exact h.quiet_close lingering previous
    · exact Sockets.pointwise_quiet_refl h
  have hl : Leased ⟨closed, s.claimSeq, s.sent⟩ := (Sockets.Sequel.quiet h hq s.claimSeq).leased
  have hquiet : ∀ {cs' : Connections}, Table.Pointwise Quiet closed cs' →
      Leased ⟨cs', s.claimSeq, s.sent ++ []⟩ ∧ ∀ c ∈ s.connections, c.holds → ∀ c' ∈ cs',
        c'.id = c.id → c'.listed = true → c'.holds := by
    intro cs' hq'
    refine ⟨hl.quiet hq' Sockets.lastLease_nil _, fun c hc hh c' hc' hid hlisted => ?_⟩
    obtain ⟨c₁, hc₁, hid₁, hq₁⟩ := hq'.backward hc'
    have hq₀ := keeps_of_quiet hc hq hc₁ (hid₁.trans hid)
    exact ⟨hlisted, hq₁.runs (hq₀.runs hh.2.1), (hq₁.held.trans hq₀.held).trans hh.2.2⟩
  have hrefl := hquiet (Sockets.pointwise_quiet_refl hl)
  have hnone : ∀ {cs' : Connections} {out : Outbox}, (Leased ⟨cs', s.claimSeq, s.sent ++ out⟩ ∧
      ∀ c ∈ s.connections, c.holds → ∀ c' ∈ cs', c'.id = c.id → c'.listed = true → c'.holds) →
      Leased ⟨cs', s.claimSeq, s.sent ++ out⟩ ∧ ∀ c ∈ s.connections, c.holds → ∀ c' ∈ cs',
        c'.id = c.id → c'.listed = true → c'.holds ∨
          (adapter = some .serve ∧ fenced identity c = true ∧ c.id ≠ connectionId) :=
    fun h => ⟨h.1, fun c hc hh c' hc' hid hlisted => Or.inl (h.2 c hc hh c' hc' hid hlisted)⟩
  rcases adapter with _ | adapter
  · exact hnone hrefl
  · cases adapter with
    | watch =>
      dsimp only
      split_ifs
      · exact hnone (hquiet (hl.quiet_setState fun st => ⟨rfl, rfl, rfl⟩))
      · exact hnone hrefl
    | serve =>
      refine ⟨hl.fenceServe, fun c hc hh c' hc' hid hlisted => ?_⟩
      obtain ⟨c₁, hc₁, rfl⟩ := (Table.mem_update (withFence_id connectionId)).1 hc'
      by_cases hf : fenced identity c₁ = true
      · rw [if_pos hf] at hid hlisted ⊢
        rw [withFence_id] at hid
        have hq₀ := keeps_of_quiet hc hq hc₁ hid
        by_cases hcid : c.id = connectionId
        · refine Or.inl ⟨hlisted, ?_, ?_⟩
          · obtain ⟨h1, h2, -, -⟩ := withFence_quiet connectionId c₁
            exact Connection.runs_of_same h1 h2.trans (fenced_iff.1 hf).2.1
          · rw [withFence_held, hid, hcid]
            simp
        · refine Or.inr ⟨rfl, fenced_iff.2 ⟨hh.1, hh.2.1, ?_, ?_⟩, hcid⟩
          · rw [← (fenced_iff.1 hf).2.2.1, hq₀.identity]
          · rw [← (fenced_iff.1 hf).2.2.2, principal_of_identity hq₀.identity]
      · rw [if_neg hf] at hid hlisted ⊢
        have hq₀ := keeps_of_quiet hc hq hc₁ hid
        exact Or.inl ⟨hlisted, hq₀.runs hh.2.1, hq₀.held.trans hh.2.2⟩
    | webhook => exact hnone hrefl
    | legacyServe => exact hnone hrefl

end Fence

namespace Sockets

/-- The holder that a target's expiry closes. -/
def expiredHolder (expired : List (String × String)) (name : String) : Option String :=
  (expired.find? fun e => e.1 = name).map (·.2)

/-- The sockets before the election of one expired target. -/
def silence (s : Sockets) (lingering : List String) (connectionId : Option String) : Sockets :=
  { s with
    connections := match connectionId with
      | none => s.connections
      | some id =>
        if (getConnections s.connections).any (·.id = id) then close s.connections lingering id
        else s.connections }

/-- The elections of the expiry loop. -/
def expiryElections (lingering : List String) (expired : List (String × String)) (s : Sockets) :
    List String → List ElectionCall
  | [] => []
  | name :: names =>
    let call : ElectionCall :=
      ⟨s.silence lingering (expiredHolder expired name), name, expiredHolder expired name⟩
    call :: expiryElections lingering expired (call.sockets.reconcile name call.excludeId) names

/-- The sockets after the expiry loop. -/
def expireTargets (lingering : List String) (expired : List (String × String)) (s : Sockets)
    (names : List String) : Sockets :=
  names.foldl (fun s name => (s.silence lingering (expiredHolder expired name)).reconcile name
    (expiredHolder expired name)) s

theorem foldl_expireTarget (lingering : List String) (expired : List (String × String))
    (names : List String) (cs : Connections) (out sent : Outbox) (claimSeq : ℕ) :
    let acc := names.foldl (expireTarget lingering expired) (cs, out)
    expireTargets lingering expired ⟨cs, claimSeq, sent ++ out⟩ names =
      ⟨acc.1, claimSeq, sent ++ acc.2⟩ := by
  induction names generalizing cs out with
  | nil => rfl
  | cons n ns ih =>
    dsimp only at ih ⊢
    rw [List.foldl_cons, ← ih, expireTargets, List.foldl_cons, expireTargets]
    congr 1
    unfold silence reconcile expireTarget
    dsimp only
    rw [List.append_assoc]
    rfl

theorem closeExpiredHolders_eq (s : Sockets) (lingering : List String) (rows : List Delivery) :
    (⟨(closeExpiredHolders s.connections lingering rows).1, s.claimSeq,
        s.sent ++ (closeExpiredHolders s.connections lingering rows).2⟩ : Sockets) =
      expireTargets lingering (expiredConnections rows) s (rows.map (·.targetName)).eraseDups := by
  have := foldl_expireTarget lingering (expiredConnections rows)
    (rows.map (·.targetName)).eraseDups s.connections [] s.sent s.claimSeq
  rw [List.append_nil] at this
  exact this.symm

theorem quiet_silence {s : Sockets} (h : Leased s) (lingering : List String)
    (connectionId : Option String) :
    Table.Pointwise Quiet s.connections (s.silence lingering connectionId).connections := by
  unfold silence
  dsimp only
  split
  · exact pointwise_quiet_refl h
  · split_ifs
    · exact h.quiet_close lingering _
    · exact pointwise_quiet_refl h

/-- A silenced holder that does not linger is not listed any more. -/
theorem silence_unlisted {s : Sockets} {lingering : List String} {id : String}
    (hl : id ∉ lingering) {c' : Connection}
    (hc' : c' ∈ (s.silence lingering (some id)).connections) (hid : c'.id = id) :
    c'.listed = false := by
  unfold silence at hc'
  dsimp only at hc'
  split_ifs at hc' with hany
  · obtain ⟨c, hc, rfl⟩ := (Table.mem_update (closedConnection_id _)).1 hc'
    split_ifs at hid ⊢ with hcid
    · simp [closedConnection, hl]
    · exact absurd hid (by simpa using hcid)
  · by_contra hlisted
    refine hany (List.any_eq_true.2 ⟨c', List.mem_filter.2 ⟨hc', ?_⟩, by simpa using hid⟩)
    simpa using hlisted

theorem sequel_expire (lingering : List String) (expired : List (String × String))
    {names : List String} (hn : names.Nodup) {s : Sockets} (h : Leased s)
    (hgone : ∀ c ∈ s.connections, c.holds → c.state.name ∈ names →
      expiredHolder expired c.state.name = some c.id → c.id ∉ lingering) :
    Sequel s (expireTargets lingering expired s names)
      (expiryElections lingering expired s names) := by
  induction names generalizing s with
  | nil => exact Sequel.refl h
  | cons n ns ih =>
    have hq := quiet_silence h lingering (expiredHolder expired n)
    have hsilent := Sequel.quiet h hq s.claimSeq
    have hback : ∀ c' ∈ (s.silence lingering (expiredHolder expired n)).connections, c'.holds →
        ∃ c ∈ s.connections, c.id = c'.id ∧ c.holds ∧ c.state.name = c'.state.name := by
      intro c' hc' hh
      obtain ⟨c, hc, hid, hqc⟩ := hq.backward hc'
      exact ⟨c, hc, hid, hqc.holds (h.flagged c hc) hh, (congrArg Identity.name hqc.identity).symm⟩
    have helect : Sequel (s.silence lingering (expiredHolder expired n)) _
        [⟨_, n, expiredHolder expired n⟩] := Sequel.elect ⟨hsilent.leased, fun c' hc' hh hname hex => ?_⟩
    · refine hsilent.trans (helect.trans (ih hn.of_cons helect.leased fun c'' hc'' hh hname hex => ?_))
      have hne : c''.state.name ≠ n := fun he => (List.nodup_cons.1 hn).1 (he ▸ hname)
      obtain ⟨c', hc', hid', hflag⟩ := (reconcileServeLease_spec _ n
        (expiredHolder expired n)).1.backward hc''
      have hsame : c'' = c' := by
        refine hflag.other fun hcand => hne ?_
        rw [hflag.candidate hcand]
        exact (mem_claimedServe.1 hcand).2.2.2.1
      rw [hsame] at hh hname hex ⊢
      obtain ⟨c, hc, hid, hch, hcn⟩ := hback c' hc' hh
      rw [← hid]
      refine hgone c hc hch (hcn ▸ List.mem_cons_of_mem _ hname) ?_
      rw [hcn, hid, hex]
    · obtain ⟨c, hc, hid, hch, hcn⟩ := hback c' hc' hh
      have hnot := hgone c hc hch (hcn.trans hname ▸ List.mem_cons_self)
        (by rw [hcn, hname, hid]; exact hex)
      rw [show expiredHolder expired n = some c'.id from hex] at hc'
      have := silence_unlisted (hid ▸ hnot) hc' rfl
      rw [hh.1] at this
      cases this

end Sockets

namespace Room
open Sockets

/-- The calls of `reconcileServeLease` an event makes. -/
def elections (r : Room) : Event → List ElectionCall
  | .socket e => r.sockets.elections e
  | .leaseExpired lingering now =>
    expiryElections lingering (expiredConnections (r.ledger.expiredRows now)) r.sockets
      ((r.ledger.expiredRows now).map (·.targetName)).eraseDups
  | _ => []

/-- No stale flag is written back, no holder is passed over while it is still listed,
and a recovery reaches the fence while its own connection is listed. -/
def Orderly (r : Room) : Event → Prop
  | .socket e => r.sockets.Orderly e
  | .leaseExpired lingering now => ∀ c ∈ r.sockets.connections, c.holds →
      expiredHolder (expiredConnections (r.ledger.expiredRows now)) c.state.name = some c.id →
      c.id ∉ lingering
  | .recover identity connectionId f _ now => ∀ row,
      r.ledger.directedDeliveryRow f.deliveryId = some row →
      ReachesFence r.ledger identity f now row → row.recoveryAdapter = some .serve →
      identity.serveCandidate = true →
      ∃ c ∈ r.sockets.connections, fenced identity c = true ∧ c.id = connectionId
  | _ => True

/-- Another connection of the principal gets past the serve fence and is answered: it has
recovered a delivery, or has learnt that the outcome of its run is unknown. -/
def Displaces (r : Room) (c : Connection) : Event → Prop
  | .recover identity connectionId f lingering now =>
    fenced identity c = true ∧ c.id ≠ connectionId ∧
      (∃ row, r.ledger.directedDeliveryRow f.deliveryId = some row ∧
        ReachesFence r.ledger identity f now row ∧ row.recoveryAdapter = some .serve) ∧
      (r.recovery identity connectionId f lingering now).isSome = true
  | _ => False

theorem withTail_sockets (r : Room) (task : DispatchTask) (next : DispatchNext) :
    (r.withTail task next).sockets = r.sockets := by
  cases next <;> rfl

theorem dispatchTop_sockets (r : Room) (targetName : String) (now : Int) :
    (r.apply (.dispatchTop targetName now)).sockets = r.sockets := by
  simp only [apply, dispatchStep]
  split
  · rfl
  · split
    · exact withTail_sockets _ _ _
    · rfl

theorem dispatchRemoval_sockets (r : Room) (targetName : String) (isRemoved : Bool) (now : Int) :
    (r.apply (.dispatchRemoval targetName isRemoved now)).sockets = r.sockets := by
  simp only [apply, dispatchStep]
  split
  · rfl
  · split
    · split_ifs
      · exact withTail_sockets _ _ _
      · exact withTail_sockets _ _ _
    · rfl

/-- The dispatch only adds frames that are not about the lease. -/
theorem dispatchPrincipal_sockets (r : Room) (targetName : String) (isCurrent : Bool) (token : Uuid)
    (now : Int) : ∃ added : Outbox,
      (∀ f ∈ added, ∃ d attempt epoch token, f.2 = .delivery d attempt epoch token) ∧
      (r.apply (.dispatchPrincipal targetName isCurrent token now)).sockets =
        ⟨r.sockets.connections, r.sockets.claimSeq, r.sockets.sent ++ added⟩ := by
  have hnone : ∃ added : Outbox,
      (∀ f ∈ added, ∃ d attempt epoch token, f.2 = .delivery d attempt epoch token) ∧
      r.sockets = ⟨r.sockets.connections, r.sockets.claimSeq, r.sockets.sent ++ added⟩ :=
    ⟨[], by simp, by simp⟩
  simp only [apply, dispatchStep]
  split
  · exact hnone
  · simp only [applyDispatchPrincipal]
    split
    · split
      · exact hnone
      · split_ifs
        · rw [withTail_sockets]
          exact hnone
        · rename_i task _ queued _ _ principal _ _
          generalize hd : r.ledger.dispatchDecide r.sockets.connections task queued principal token
            now = result
          obtain ⟨l, next, handoff⟩ := result
          rcases handoff with _ | handoff
          · simp only [withHandoff]
            rw [withTail_sockets]
            exact hnone
          · have hframe := (dispatchDecide_queued handoff (by rw [hd])).2
            cases handoff with
            | webhook hook claimed =>
              simp only [withHandoff]
              rw [withTail_sockets]
              exact hnone
            | connection conn frame =>
              obtain ⟨attempt, epoch, token', rfl⟩ := hframe conn frame rfl
              refine ⟨[(conn, .delivery queued.id attempt epoch token')], by simp, ?_⟩
              simp only [withHandoff]
              rw [withTail_sockets]
    · exact hnone

theorem sequel_same {s s' : Sockets} {cs : Connections} {out : Outbox} (h : Leased s)
    (hsame : cs = s.connections ∧ out = []) (hs' : s' = ⟨cs, s.claimSeq, s.sent ++ out⟩) :
    Sequel s s' [] := by
  obtain ⟨rfl, rfl⟩ := hsame
  rw [hs', List.append_nil]
  exact Sequel.refl h

/-- What one orderly event does to the lease. -/
theorem step_leased {r r' : Room} {e : Event} (h : Leased r.sockets) (hs : Step r e r')
    (ho : r.Orderly e) : Leased r'.sockets ∧ (∀ call ∈ r.elections e, call.Fair) ∧
      ∀ c ∈ r.sockets.connections, c.holds → ¬ r.Displaces c e →
        ∀ c' ∈ r'.sockets.connections, c'.id = c.id → c'.listed = true → c'.holds := by
  obtain ⟨⟨-, -, hen⟩, rfl⟩ := hs
  change Leased (r.apply e).sockets ∧ _ ∧ ∀ c ∈ r.sockets.connections, c.holds → _ →
    ∀ c' ∈ (r.apply e).sockets.connections, _
  have hsequel : ∀ {s' : Sockets} {calls : List ElectionCall}, Sequel r.sockets s' calls →
      Leased s' ∧ (∀ call ∈ calls, call.Fair) ∧ ∀ c ∈ r.sockets.connections, c.holds →
        ¬ r.Displaces c e → ∀ c' ∈ s'.connections, c'.id = c.id → c'.listed = true → c'.holds := by
    intro s' calls hq
    refine ⟨hq.leased, hq.fair, fun c hc hh _ c' hc' hid hl => ?_⟩
    obtain ⟨c₁, hc₁, hid₁, -, hholds⟩ := hq.keeps c hc
    obtain rfl := Table.eq_of_key hc₁ hc' (hid₁.trans hid.symm)
    exact hholds hh hl
  cases e with
  | socket e =>
    refine hsequel (sequel_apply h ho ?_)
    rintro id identity now rfl
    exact hen
  | leaseExpired lingering now =>
    have hexpire := sequel_expire lingering (expiredConnections (r.ledger.expiredRows now))
      (List.nodup_eraseDups ((r.ledger.expiredRows now).map (·.targetName))) h
      fun c hc hh _ hex => ho c hc hh hex
    rw [← closeExpiredHolders_eq] at hexpire
    exact hsequel hexpire
  | recover identity connectionId f lingering now =>
    rcases recoverDirectedDelivery_fences r.ledger r.sockets.connections lingering identity connectionId
      f now with hsame | ⟨row, hrow, hreach, hreg, hfence⟩
    · exact hsequel (sequel_same h hsame rfl)
    · rcases hfence with hsame | ⟨previous, hcs, hsent, hfound⟩
      · exact hsequel (sequel_same h hsame rfl)
      · obtain ⟨hleased, hkeeps⟩ := sequel_fence h lingering identity
          connectionId row.recoveryAdapter previous
        rw [← hcs, ← hsent] at hleased
        rw [← hcs] at hkeeps
        refine ⟨hleased, by simp [elections], fun c hc hh hno c' hc' hid hl => ?_⟩
        refine (hkeeps c hc hh c' hc' hid hl).resolve_right fun ⟨hserve, hfc, hne⟩ => hno ?_
        -- the fence finds the recovering connection, so the recovery is answered
        have hcand : identity.serveCandidate = true := by
          rw [hserve] at hreg
          exact hreg
        obtain ⟨c₀, hc₀, hf₀, hid₀⟩ := ho row hrow hreach hserve hcand
        refine ⟨hfc, hne, ⟨row, hrow, hreach, hserve⟩, hfound (fence_found ?_ previous)⟩
        rw [hserve]
        exact ⟨hcand, c₀, hc₀, hf₀, hid₀⟩
  | dispatchPrincipal targetName isCurrent token now =>
    obtain ⟨added, hadded, hsockets⟩ := dispatchPrincipal_sockets r targetName isCurrent token now
    rw [hsockets]
    exact hsequel ⟨h.quiet (pointwise_quiet_refl h) (lastLease_deliveries hadded) _,
      KeepsHolders.refl _, by simp [elections]⟩
  | stage seq edited targets now =>
    refine hsequel (?_ : Sequel r.sockets _ [])
    simp only [apply]
    split <;> exact Sequel.refl h
  | dispatchStart targetName excludeId =>
    refine hsequel (?_ : Sequel r.sockets _ [])
    simp only [apply]
    split_ifs <;> exact Sequel.refl h
  | dispatchTop targetName now =>
    refine hsequel (?_ : Sequel r.sockets _ [])
    rw [dispatchTop_sockets]
    exact Sequel.refl h
  | dispatchRemoval targetName isRemoved now =>
    refine hsequel (?_ : Sequel r.sockets _ [])
    rw [dispatchRemoval_sockets]
    exact Sequel.refl h
  | handoffRemoval item isRemoved now =>
    simp only [apply, (aside_handoffRemoval item isRemoved now).sockets]
    exact hsequel (Sequel.refl h)
  | handoffPrincipal item isCurrent now =>
    simp only [apply, (aside_handoffPrincipal item isCurrent now).sockets]
    exact hsequel (Sequel.refl h)
  | _ => exact hsequel (Sequel.refl h)

theorem initial_leased : Leased initial.sockets where
  told := fun c hc => absurd hc (Table.not_mem_empty c)
  addressed := by simp [initial, lastLease]
  single := fun a ha => absurd ha (Table.not_mem_empty a)
  flagged := fun c hc => absurd hc (Table.not_mem_empty c)
  handlers := fun c hc => absurd hc (Table.not_mem_empty c)

/-- In a run of orderly steps every election leaves one holder in each principal group
and tells the candidates their flags, and a holder keeps the lease until it is gone or
another connection of its principal gets past the serve fence. -/
theorem serve_lease_elects {evs : List Event} {r r' : Room} {e : Event}
    (h : EventSystem.Run (EventSystem.Guarded Step Orderly) initial evs r)
    (hs : EventSystem.Guarded Step Orderly r e r') :
    (∀ call ∈ r.elections e, call.Elected) ∧
      ∀ c ∈ r.sockets.connections, c.holds → ¬ r.Displaces c e →
        ∀ c' ∈ r'.sockets.connections, c'.id = c.id → c'.listed = true → c'.holds := by
  have hleased : Leased r.sockets :=
    h.invariant (I := fun r => Leased r.sockets)
      (fun _ _ _ hi hs => (step_leased hi hs.1 hs.2).1) initial_leased
  obtain ⟨-, hfair, hkeeps⟩ := step_leased hleased hs.1 hs.2
  exact ⟨fun call hc => (hfair call hc).elected, hkeeps⟩

/-! Three runners of `bot`. While a frame of the v1 standby `b` waits, `a` goes and `b`
is elected; the frame then writes the old flag back, and `d` is elected next to `b`. -/

def joins (id : String) (v1 : Bool) : List Event :=
  [.socket (.connected id bot 0), .socket (.frameBegins id), .socket (.hello id v1 v1 0),
    .socket (.claimServe id false), .socket (.frameEnds id)]

def lostFlag : List Event :=
  joins "a" false ++ joins "d" false ++ joins "b" true ++
    [Event.socket (.frameBegins "b"), .socket (.closeHandled "a" []), .socket (.frameTouched "b"),
      .socket (.frameEnds "b"), .socket (.frameBegins "d")]

/-- The claim of a first runner elects it. -/
theorem serve_lease_elects_joined :
    let r := initial.exec ((joins "b" true).take 3)
    (∀ call ∈ r.elections (.socket (.claimServe "b" false)), call.Elected) ∧
      ∃ call ∈ r.elections (.socket (.claimServe "b" false)),
        (claimedServeConnections (call.sockets.reconcile "bot" none).connections "bot" none none).map
          (fun c => (c.id, c.held)) = [("b", some true)] := by
  have hup : UpToDate (initial.exec ((joins "b" true).take 2)).sockets "b" := by
    have hall : (initial.exec ((joins "b" true).take 2)).sockets.connections.rows.all
        (fun c => c.handler.all fun st => decide (st.serveLeaseHeld = c.held)) = true := by decide
    intro c hc _ st hst
    have := List.all_eq_true.1 hall c hc
    rw [hst] at this
    simpa using this
  have hrun : EventSystem.Run (EventSystem.Guarded Step Orderly) initial ((joins "b" true).take 3)
      (initial.exec ((joins "b" true).take 3)) :=
    ((EventSystem.Run.single ⟨⟨by decide, rfl⟩, trivial⟩).append
      (EventSystem.Run.single ⟨⟨by decide, rfl⟩, trivial⟩)).append
      (EventSystem.Run.single ⟨⟨by decide, rfl⟩, hup⟩)
  have hclaim : EventSystem.Guarded Step Orderly (initial.exec ((joins "b" true).take 3))
      (.socket (.claimServe "b" false))
      ((initial.exec ((joins "b" true).take 3)).next (.socket (.claimServe "b" false))) :=
    ⟨⟨by decide, rfl⟩, trivial⟩
  exact ⟨(serve_lease_elects hrun hclaim).1, by decide⟩

/-- `b` was told that it holds the lease, and its stored flag says that it does not. -/
theorem stale_write_back :
    ¬ ∀ (evs : List Event) (r r' : Room) (e : Event), Run initial evs r → Step r e r' →
      ∀ call ∈ r.elections e, call.Elected := by
  intro h
  have hcall : ∃ call ∈ (initial.exec lostFlag).elections (.socket (.hello "d" true true 0)),
      ∃ c ∈ claimedServeConnections (call.sockets.reconcile call.name call.excludeId).connections
        call.name call.excludeId none, c.held = some false ∧
          lastLease (call.sockets.reconcile call.name call.excludeId).sent c.id = some true := by
    decide
  obtain ⟨call, hmem, c, hc, hheld, hlast⟩ := hcall
  obtain ⟨held, hh, hl⟩ := (h _ _ _ _ (run_exec (by decide)) ⟨by decide, rfl⟩ call hmem).told c hc
  rw [hheld] at hh
  rw [hlast, ← hh] at hl
  cases hl

end Room

end AgentParty
