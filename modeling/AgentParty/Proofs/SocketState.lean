import AgentParty.Proofs.ServeLease

/-! What the events do to the connection state that a message handler writes back whole. A
column keeps its value through every event that does not set it, as long as each handler that
writes back has read what is stored. -/

namespace AgentParty

open Connections EventSystem

/-- The columns that other events write while a handler waits. -/
inductive SharedField
  | serveLeaseHeld
  | serveClaimSeq
  | closing
  | upgradeRequired
  | helloExpired
  deriving DecidableEq, Repr

namespace SharedField

def Kept (st st' : ConnState) : SharedField → Prop
  | serveLeaseHeld => st'.serveLeaseHeld = st.serveLeaseHeld
  | serveClaimSeq => st'.serveClaimSeq = st.serveClaimSeq
  | closing => st'.closing = st.closing
  | upgradeRequired => st'.upgradeRequired = st.upgradeRequired
  | helloExpired => st'.helloExpired = st.helloExpired

theorem kept_refl (field : SharedField) (st : ConnState) : field.Kept st st := by
  cases field <;> rfl

theorem Kept.trans {field : SharedField} {st st' st'' : ConnState} (h : field.Kept st st')
    (h' : field.Kept st' st'') : field.Kept st st'' := by
  cases field <;> exact Eq.trans h' h

end SharedField

def CloseCause.field : CloseCause → SharedField
  | .helloExpired => .helloExpired
  | .revoked => .closing
  | .removed => .closing
  | .upgradeRequired => .upgradeRequired

namespace SocketEvent

/-- The columns that the event itself is about, the lease flag apart. -/
def Sets : SocketEvent → String → SharedField → Prop
  | .hello id _ _ _, id', field => id = id' ∧ field = .helloExpired
  | .claimServe id _, id', field => id = id' ∧ field = .serveClaimSeq
  | .serverCloses id cause _, id', field => id = id' ∧ field = cause.field
  | .closeBegins id, id', field => id = id' ∧ field = .closing
  | _, _, _ => False

/-- The handler of `c` spreads what it has read over the stored state. -/
def WritesBack (c : Connection) : SocketEvent → Prop
  | .frameTouched id => c.id = id ∧ c.state.authorizationRevoked = false
  | .hello id _ _ _ => c.id = id
  | .claimServe id v1Conflict => c.id = id ∧ ∃ st, c.handler = some st ∧
      st.helloPending = false ∧ (st.directedDeliveryV1 = true ∨ v1Conflict = false) ∧
      st.serveCandidate = false
  | .registerWatch id => c.id = id ∧ ∃ st, c.handler = some st ∧
      st.helloPending = false ∧ st.kind = .agent ∧ st.watchCandidate = false
  | .ocsRoster id canWrite parsed now => c.id = id ∧ ∃ st, c.handler = some st ∧
      st.helloPending = false ∧ st.kind = .agent ∧ canWrite = true ∧ mayReport now st = true ∧
      parsed = true
  | _ => False

end SocketEvent

namespace Sockets

/-- A handler that writes back has read the columns that its frame is not about as they are
stored. -/
def Undisturbed (s : Sockets) (e : SocketEvent) : Prop :=
  ∀ c ∈ s.connections, e.WritesBack c → ∀ st, c.handler = some st →
    ∀ field, ¬ e.Sets c.id field → field.Kept c.state st

variable {p : String → SharedField → Prop} {s s' s'' : Sockets} {cs : Connections}

/-- From `s` to `s'` only what `p` allows changes, the lease flag apart, which is the last one
sent. -/
structure Follows (p : String → SharedField → Prop) (s s' : Sockets) : Prop where
  announced : Announced s'
  keeps : ∀ c ∈ s.connections, ∃ c' ∈ s'.connections, c'.id = c.id ∧
    ∀ field, field ≠ .serveLeaseHeld → ¬ p c.id field → field.Kept c.state c'.state

theorem Follows.refl (h : Announced s) : Follows p s s :=
  ⟨h, fun c hc => ⟨c, hc, rfl, fun field _ _ => field.kept_refl c.state⟩⟩

theorem Follows.trans (h : Follows p s s') (h' : Follows p s' s'') : Follows p s s'' := by
  refine ⟨h'.announced, fun c hc => ?_⟩
  obtain ⟨c', hc', hid, hk⟩ := h.keeps c hc
  obtain ⟨c'', hc'', hid', hk'⟩ := h'.keeps c' hc'
  exact ⟨c'', hc'', hid'.trans hid,
    fun field hf hp => (hk field hf hp).trans (hk' field hf (hid ▸ hp))⟩

theorem Follows.quiet (h : Announced s) (hflag : ∀ id, ¬ p id .serveLeaseHeld)
    {pick : Connection → Bool} {f : Connection → Connection} (hf : ∀ c, (f c).id = c.id)
    (hkept : ∀ c ∈ s.connections, pick c = true → ∀ field, ¬ p c.id field →
      field.Kept c.state (f c).state) (claimSeq : ℕ) :
    Follows p s ⟨s.connections.update pick f hf, claimSeq, s.sent⟩ := by
  have hrows : Table.Pointwise (fun c c' => ∀ field, ¬ p c.id field → field.Kept c.state c'.state)
      s.connections (s.connections.update pick f hf) := by
    refine Table.pointwise_update hf fun c hc => ?_
    split_ifs with hpick
    · exact hkept c hc hpick
    · exact fun field _ => field.kept_refl c.state
  constructor
  · have hheld := h.unflagged (hrows.mono fun c _ c' hk => hk .serveLeaseHeld (hflag c.id))
      lastLease_nil claimSeq
    rwa [List.append_nil] at hheld
  · intro c hc
    obtain ⟨c', hc', hid, hk⟩ := hrows.forward hc
    exact ⟨c', hc', hid, fun field _ hp => hk field hp⟩

theorem Follows.elect (h : Announced s) (name : String) (excludeId : Option String) :
    Follows p s (s.reconcile name excludeId) := by
  refine ⟨h.reconcile name excludeId, fun c hc => ?_⟩
  obtain ⟨c', hc', hid, hflag⟩ :=
    (reconcileServeLease_spec s.connections name excludeId).1.forward hc
  refine ⟨c', hc', hid, fun field hf _ => ?_⟩
  by_cases hcand : c ∈ claimedServeConnections s.connections name excludeId none
  · rw [hflag.candidate hcand]
    cases field with
    | serveLeaseHeld => exact absurd rfl hf
    | _ => rfl
  · rw [hflag.other hcand]
    exact field.kept_refl c.state

theorem follows_electionsInTurn (h : Announced s) (names : List String) :
    Follows p s (names.foldl (fun s name => s.reconcile name none) s) := by
  induction names generalizing s with
  | nil => exact Follows.refl h
  | cons name names ih =>
    have hname : Follows p s (s.reconcile name none) := Follows.elect h name none
    exact hname.trans (ih hname.announced)

theorem Follows.close (h : Announced s) (hflag : ∀ id, ¬ p id .serveLeaseHeld)
    (lingering : List String) (id : String) :
    Follows p s { s with connections := close s.connections lingering id } :=
  Follows.quiet h hflag (closedConnection_id _) (fun c _ _ field _ => field.kept_refl c.state)
    s.claimSeq

theorem follows_close (h : Announced s) (hflag : ∀ id, ¬ p id .serveLeaseHeld)
    (lingering ids : List String) : Follows p s
      { s with connections := ids.foldl (fun cs id => close cs lingering id) s.connections } := by
  induction ids generalizing s with
  | nil => exact Follows.refl h
  | cons id ids ih =>
    have hclose := Follows.close h hflag lingering id
    exact hclose.trans (ih hclose.announced)

theorem handler_of_handlerState {c : Connection} {id : String} {st : ConnState}
    (hc : c ∈ s.connections) (hid : c.id = id) (hst : s.handlerState id = some st) :
    c.handler = some st := by
  rwa [handlerState, ← hid, Table.get?_key hc, Option.bind_some] at hst

/-- A write-back of `f` where the handler of `c` has read what is stored. -/
theorem kept_writtenBack {c : Connection} {f : ConnState → ConnState} {field : SharedField}
    (hread : ∀ st, c.handler = some st → field.Kept c.state st) (hf : ∀ st, field.Kept st (f st)) :
    field.Kept c.state (writtenBack f c).state := by
  unfold writtenBack
  split
  · exact field.kept_refl c.state
  · rename_i st hst
    exact (hread st hst).trans (hf st)

theorem not_sets_serveLeaseHeld (e : SocketEvent) (id : String) : ¬ e.Sets id .serveLeaseHeld := by
  cases e with
  | serverCloses id' cause lingering =>
    rintro ⟨-, hfield⟩
    cases cause <;> cases hfield
  | hello id' directedDelivery recovery since => exact fun h => by cases h.2
  | claimServe id' v1Conflict => exact fun h => by cases h.2
  | closeBegins id' => exact fun h => by cases h.2
  | _ => exact fun h => h

/-- One case per event: what it does to the columns. -/
theorem follows_apply (h : Announced s) {e : SocketEvent} (hu : s.Undisturbed e)
    (hnew : ∀ id identity now, e = .connected id identity now → s.connections.get? id = none) :
    Follows e.Sets s (s.apply e) := by
  have hflag := not_sets_serveLeaseHeld e
  cases e with
  | connected id identity now =>
    refine ⟨h.connected (hnew id identity now rfl) identity now, fun c hc => ?_⟩
    exact ⟨c, Table.mem_insert.2 (Or.inl hc), rfl, fun field _ _ => field.kept_refl c.state⟩
  | frameBegins id =>
    exact Follows.quiet h hflag (withHandler_id fun c => some c.state)
      (fun c _ _ field _ => field.kept_refl c.state) s.claimSeq
  | frameTouched id =>
    refine Follows.quiet h hflag touched_id (fun c hc hid field hp => ?_) s.claimSeq
    unfold touched
    split_ifs with hrevoked
    · exact field.kept_refl c.state
    · refine kept_writtenBack (fun st hst => ?_) field.kept_refl
      exact hu c hc ⟨by simpa using hid, by simpa using hrevoked⟩ st hst field hp
  | frameEnds id =>
    exact Follows.quiet h hflag (withHandler_id fun _ => none)
      (fun c _ _ field _ => field.kept_refl c.state) s.claimSeq
  | hello id directedDelivery recovery since =>
    simp only [apply, hello]
    cases s.handlerState id with
    | none => exact Follows.refl h
    | some st =>
      have hq : Follows (SocketEvent.hello id directedDelivery recovery since).Sets s
          ⟨writeBack s.connections id (saidHello directedDelivery recovery since), s.claimSeq,
            s.sent⟩ := by
        refine Follows.quiet h hflag (writtenBack_id _) (fun c hc hid field hp => ?_) s.claimSeq
        have hid : c.id = id := by simpa using hid
        refine kept_writtenBack (fun st hst => hu c hc hid st hst field hp) fun st => ?_
        cases field with
        | helloExpired => exact absurd ⟨hid.symm, rfl⟩ hp
        | _ => rfl
      dsimp only
      split_ifs
      · exact hq.trans (Follows.elect hq.announced _ _)
      · exact hq
  | claimServe id v1Conflict =>
    simp only [apply, claimServe]
    cases hst : s.handlerState id with
    | none => exact Follows.refl h
    | some st =>
      dsimp only
      split_ifs with hpending hconflict hcand
      · exact Follows.refl h
      · exact Follows.refl h
      · exact Follows.elect h _ _
      · have hq : Follows (SocketEvent.claimServe id v1Conflict).Sets s
            ⟨writeBack s.connections id (claimedServe (s.claimSeq + 1)), s.claimSeq + 1, s.sent⟩ := by
          refine Follows.quiet h hflag (writtenBack_id _) (fun c hc hid field hp => ?_) _
          have hid : c.id = id := by simpa using hid
          have hread : c.handler = some st := handler_of_handlerState hc hid hst
          have hwrites : (SocketEvent.claimServe id v1Conflict).WritesBack c := by
            refine ⟨hid, st, hread, by simpa using hpending, ?_, by simpa using hcand⟩
            cases hv1 : st.directedDeliveryV1 with
            | false => exact Or.inr (by simpa [hv1] using hconflict)
            | true => exact Or.inl rfl
          refine kept_writtenBack (fun st hst => hu c hc hwrites st hst field hp) fun st => ?_
          cases field with
          | serveClaimSeq => exact absurd ⟨hid.symm, rfl⟩ hp
          | _ => rfl
        exact hq.trans (Follows.elect hq.announced _ _)
  | registerWatch id =>
    simp only [apply, registerWatch]
    cases hst : s.handlerState id with
    | none => exact Follows.refl h
    | some st =>
      dsimp only
      split_ifs with hno
      · exact Follows.refl h
      · simp only [Bool.or_eq_true, decide_eq_true_eq, not_or, not_not, Bool.not_eq_true] at hno
        refine Follows.quiet h hflag (writtenBack_id _) (fun c hc hid field hp => ?_) _
        have hid : c.id = id := by simpa using hid
        have hread : c.handler = some st := handler_of_handlerState hc hid hst
        have hwrites : (SocketEvent.registerWatch id).WritesBack c :=
          ⟨hid, st, hread, hno.1.1, hno.1.2, hno.2⟩
        refine kept_writtenBack (fun st hst => hu c hc hwrites st hst field hp) fun st => ?_
        cases field <;> rfl
  | ocsRoster id canWrite parsed now =>
    simp only [apply, ocsRoster]
    cases hst : s.handlerState id with
    | none => exact Follows.refl h
    | some st =>
      dsimp only
      split_ifs with hrefused hdropped
      · exact Follows.refl h
      · exact Follows.refl h
      · simp only [Bool.or_eq_true, decide_eq_true_eq, Bool.not_eq_true', not_or, not_not,
          Bool.not_eq_true, Bool.not_eq_false] at hrefused hdropped
        refine Follows.quiet h hflag (writtenBack_id _) (fun c hc hid field hp => ?_) s.claimSeq
        have hid : c.id = id := by simpa using hid
        have hread : c.handler = some st := handler_of_handlerState hc hid hst
        have hwrites : (SocketEvent.ocsRoster id canWrite parsed now).WritesBack c :=
          ⟨hid, st, hread, hrefused.1.1, hrefused.1.2, hrefused.2, hdropped.1, hdropped.2⟩
        refine kept_writtenBack (fun st hst => hu c hc hwrites st hst field hp) fun st => ?_
        cases field <;> rfl
  | serverCloses id cause lingering =>
    have hq : Follows (SocketEvent.serverCloses id cause lingering).Sets s
        ⟨setState s.connections id (closedFor cause), s.claimSeq, s.sent⟩ := by
      refine Follows.quiet h hflag (withState_id (closedFor cause)) (fun c _ hid field hp => ?_)
        s.claimSeq
      have hid : c.id = id := by simpa using hid
      cases cause <;> cases field <;> first | rfl | exact absurd ⟨hid.symm, rfl⟩ hp
    exact hq.trans (Follows.close hq.announced hflag lingering id)
  | unlisted id =>
    exact Follows.quiet h hflag withUnlisted_id (fun c _ _ field _ => field.kept_refl c.state)
      s.claimSeq
  | closeBegins id =>
    refine Follows.quiet h hflag (withState_id markedClosing) (fun c _ hid field hp => ?_) s.claimSeq
    have hid : c.id = id := by simpa using hid
    cases field with
    | closing => exact absurd ⟨hid.symm, rfl⟩ hp
    | _ => rfl
  | closeHandled id lingering =>
    have hq := Follows.close h hflag lingering id
    simp only [apply, closeHandled]
    cases (Connections.close s.connections lingering id).get? id with
    | none => exact hq
    | some closed =>
      dsimp only
      split_ifs
      · exact hq.trans (Follows.elect hq.announced _ _)
      · exact hq
  | presenceStale ids lingering =>
    have hq := follows_close h hflag lingering ids
    exact hq.trans (follows_electionsInTurn hq.announced _)

theorem follows_silence (h : Announced s) (hflag : ∀ id, ¬ p id .serveLeaseHeld)
    (lingering : List String) (connectionId : Option String) :
    Follows p s (s.silence lingering connectionId) := by
  unfold silence
  split
  · exact Follows.refl h
  · split_ifs
    · exact Follows.close h hflag lingering _
    · exact Follows.refl h

theorem follows_expireTargets (h : Announced s) (hflag : ∀ id, ¬ p id .serveLeaseHeld)
    (lingering : List String) (expired : List (String × String)) (names : List String) :
    Follows p s (expireTargets lingering expired s names) := by
  induction names generalizing s with
  | nil => exact Follows.refl h
  | cons name names ih =>
    have hsilent := follows_silence h hflag lingering (expiredHolder expired name)
    have helect : Follows p _ _ :=
      Follows.elect hsilent.announced name (expiredHolder expired name)
    exact hsilent.trans (helect.trans (ih helect.announced))

/-- The fence sets the claim sequence of the recovering connection. -/
theorem follows_fence (h : Announced s) (hflag : ∀ id, ¬ p id .serveLeaseHeld)
    (lingering : List String) (identity : ConnState) (connectionId : String)
    (hp : p connectionId .serveClaimSeq) (adapter : Option LeaseAdapter) (previous : String) :
    let fence := fenceRecoveredDeliveryConnection s.connections lingering identity connectionId
      adapter previous
    Follows p s ⟨fence.1, s.claimSeq, s.sent ++ fence.2.1⟩ := by
  unfold fenceRecoveredDeliveryConnection
  dsimp only
  set closed : Connections := if previous ≠ "" && previous ≠ connectionId &&
      (getConnections s.connections).any (·.id = previous) then
      Connections.close s.connections lingering previous else s.connections with hclosed
  have hclose : Follows p s ⟨closed, s.claimSeq, s.sent⟩ := by
    rw [hclosed]
    split_ifs
    · exact Follows.close h hflag lingering previous
    · exact Follows.refl h
  have hnone : Follows p s ⟨closed, s.claimSeq, s.sent ++ []⟩ := by
    rwa [List.append_nil]
  rcases adapter with _ | adapter
  · exact hnone
  · cases adapter with
    | watch =>
      dsimp only
      split_ifs
      · rw [List.append_nil]
        refine hclose.trans (Follows.quiet hclose.announced hflag (withState_id withWatchFence)
          (fun c _ _ field _ => ?_) s.claimSeq)
        cases field <;> rfl
      · exact hnone
    | serve =>
      refine hclose.trans ⟨hclose.announced.fenceServe, fun c hc => ?_⟩
      refine ⟨_, mem_fenceServe.2 ⟨c, hc, rfl⟩, ?_⟩
      split_ifs with hfenced
      · refine ⟨withFence_id connectionId c, fun field hne hpc => ?_⟩
        unfold withFence
        split_ifs with hid
        · cases field with
          | serveLeaseHeld => exact absurd rfl hne
          | serveClaimSeq => exact absurd (hid ▸ hp) hpc
          | _ => rfl
        · cases field with
          | serveLeaseHeld => exact absurd rfl hne
          | _ => rfl
      · exact ⟨rfl, fun field _ _ => field.kept_refl c.state⟩
    | webhook => exact hnone
    | legacyServe => exact hnone

end Sockets

def Event.Sets : Event → String → SharedField → Prop
  | .socket e, id, field => e.Sets id field
  | .recover _ connectionId _ _ _, id, field => connectionId = id ∧ field = .serveClaimSeq
  | _, _, _ => False

namespace Room

open Sockets

def Undisturbed (r : Room) : Event → Prop
  | .socket e => r.sockets.Undisturbed e
  | _ => True

/-- The event is about the column, or tells the connection a new lease flag. -/
def Writes (r : Room) (id : String) (field : SharedField) (e : Event) : Prop :=
  e.Sets id field ∨ field = .serveLeaseHeld ∧
    lastLease (r.next e).sockets.sent id ≠ lastLease r.sockets.sent id

theorem event_not_sets_serveLeaseHeld (e : Event) (id : String) : ¬ e.Sets id .serveLeaseHeld := by
  cases e with
  | socket e => exact not_sets_serveLeaseHeld e id
  | recover identity connectionId f lingering now => exact fun h => by cases h.2
  | _ => exact fun h => h

theorem step_follows {r r' : Room} {e : Event} (h : Announced r.sockets) (hs : Step r e r')
    (hu : r.Undisturbed e) : Follows e.Sets r.sockets r'.sockets := by
  obtain ⟨⟨-, -, hen⟩, rfl⟩ := hs
  change Follows e.Sets r.sockets (r.apply e).sockets
  have hflag := event_not_sets_serveLeaseHeld e
  cases e with
  | socket e =>
    refine follows_apply h hu ?_
    rintro id identity now rfl
    exact hen
  | leaseExpired lingering now =>
    have hexpire := follows_expireTargets h hflag lingering
      (expiredConnections (r.ledger.expiredRows now))
      ((r.ledger.expiredRows now).map (·.targetName)).eraseDups
    rwa [← closeExpiredHolders_eq] at hexpire
  | recover identity connectionId f lingering now =>
    rcases Ledger.recoverDirectedDelivery_fences r.ledger r.sockets.connections lingering identity
      connectionId f now with ⟨hcs, hsent⟩ | ⟨row, -, -, -, ⟨hcs, hsent⟩ | ⟨previous, hcs, hsent, -⟩⟩
    · simp only [apply, hcs, hsent, List.append_nil]
      exact Follows.refl h
    · simp only [apply, hcs, hsent, List.append_nil]
      exact Follows.refl h
    · have hfence := follows_fence h hflag lingering identity connectionId ⟨rfl, rfl⟩
        row.recoveryAdapter previous
      dsimp only at hfence
      rwa [← hcs, ← hsent] at hfence
  | dispatchPrincipal targetName isCurrent token now =>
    obtain ⟨added, hadded, hsockets⟩ := dispatchPrincipal_sockets r targetName isCurrent token now
    rw [hsockets]
    refine ⟨h.unflagged (Table.Pointwise.refl fun _ _ => rfl) (lastLease_deliveries hadded) _, ?_⟩
    exact fun c hc => ⟨c, hc, rfl, fun field _ _ => field.kept_refl c.state⟩
  | stage seq edited targets now =>
    simp only [apply]
    split <;> exact Follows.refl h
  | dispatchStart targetName excludeId =>
    simp only [apply]
    split_ifs <;> exact Follows.refl h
  | dispatchTop targetName now =>
    rw [dispatchTop_sockets]
    exact Follows.refl h
  | dispatchRemoval targetName isRemoved now =>
    rw [dispatchRemoval_sockets]
    exact Follows.refl h
  | handoffRemoval item isRemoved now =>
    simp only [apply, (aside_handoffRemoval item isRemoved now).sockets]
    exact Follows.refl h
  | handoffPrincipal item isCurrent now =>
    simp only [apply, (aside_handoffPrincipal item isCurrent now).sockets]
    exact Follows.refl h
  | _ => exact Follows.refl h

theorem step_kept {r r' : Room} {e : Event} {id : String} {field : SharedField}
    (h : Announced r.sockets) (hs : Step r e r') (hu : r.Undisturbed e)
    (hw : ¬ r.Writes id field e) : Announced r'.sockets ∧ ∀ c ∈ r.sockets.connections, c.id = id →
      ∃ c' ∈ r'.sockets.connections, c'.id = id ∧ field.Kept c.state c'.state := by
  have hf := step_follows h hs hu
  refine ⟨hf.announced, fun c hc hid => ?_⟩
  subst hid
  obtain ⟨c', hc', hid', hk⟩ := hf.keeps c hc
  refine ⟨c', hc', hid', ?_⟩
  by_cases hflag : field = .serveLeaseHeld
  · subst hflag
    have hlast : lastLease r'.sockets.sent c.id = lastLease r.sockets.sent c.id := by
      by_contra hne
      exact hw (Or.inr ⟨rfl, by rwa [← hs.2]⟩)
    change c'.held = c.held
    rw [hf.announced.told c' hc', h.told c hc, hid', hlast]
  · exact hk field hflag fun hset => hw (Or.inl hset)

theorem initial_announced : Announced initial.sockets := initial_leased.announced

/-- In a run of undisturbed handlers the stored lease flag is the last one sent, and a column
keeps its value through every stretch without an event that writes it. -/
theorem no_lost_update {evs evs' : List Event} {r r' : Room} {id : String} {field : SharedField}
    (h : EventSystem.Run (Guarded Step Undisturbed) initial evs r)
    (h' : EventSystem.Run (Guarded Step fun r e => r.Undisturbed e ∧ ¬ r.Writes id field e)
      r evs' r') :
    (∀ c ∈ r'.sockets.connections, c.held = lastLease r'.sockets.sent c.id) ∧
      ∀ c ∈ r.sockets.connections, c.id = id → ∀ c' ∈ r'.sockets.connections, c'.id = id →
        field.Kept c.state c'.state := by
  have hann : Announced r.sockets := h.invariant (I := fun r => Announced r.sockets)
    (fun _ _ _ hi hs => (step_follows hi hs.1 hs.2).announced) initial_announced
  have hrun : Announced r'.sockets ∧ ∀ c ∈ r.sockets.connections, c.id = id →
      ∃ c' ∈ r'.sockets.connections, c'.id = id ∧ field.Kept c.state c'.state := by
    refine h'.invariant (I := fun r' => Announced r'.sockets ∧ ∀ c ∈ r.sockets.connections,
      c.id = id → ∃ c' ∈ r'.sockets.connections, c'.id = id ∧ field.Kept c.state c'.state)
      (fun t e t' ht hs => ?_) ⟨hann, fun c hc hid => ⟨c, hc, hid, field.kept_refl c.state⟩⟩
    obtain ⟨hann', hstep⟩ := step_kept ht.1 hs.1 hs.2.1 hs.2.2
    refine ⟨hann', fun c hc hid => ?_⟩
    obtain ⟨c', hc', hid', hk⟩ := ht.2 c hc hid
    obtain ⟨c'', hc'', hid'', hk'⟩ := hstep c' hc' hid'
    exact ⟨c'', hc'', hid'', hk.trans hk'⟩
  refine ⟨hrun.1.told, fun c hc hid c' hc' hid' => ?_⟩
  obtain ⟨c'', hc'', hid'', hk⟩ := hrun.2 c hc hid
  rwa [Table.eq_of_key hc' hc'' (hid'.trans hid''.symm)]

/-! The token of `b` is revoked between two of its frames. -/

def revokedEvents : List Event :=
  [.socket (.connected "b" bot 0), .socket (.frameBegins "b"), .socket (.hello "b" true true 0),
    .socket (.frameEnds "b"), .socket (.serverCloses "b" .revoked ["b"])]

def nextFrame : List Event :=
  [.socket (.frameBegins "b"), .socket (.frameTouched "b"), .socket (.frameEnds "b")]

theorem undisturbed_of_reread {r : Room} (e : Event)
    (h : r.sockets.connections.rows.all
      (fun c => c.handler.all fun st => decide (st = c.state)) = true) : r.Undisturbed e := by
  cases e with
  | socket e =>
    intro c hc _ st hst field _
    have hread := List.all_eq_true.1 h c hc
    rw [hst, Option.all_some, decide_eq_true_eq] at hread
    rw [hread]
    exact field.kept_refl c.state
  | _ => trivial

/-- What one step of a handler of `b` needs to keep `closing`. -/
theorem keeps_closing {r : Room} {e : Event} (hready : r.Ready e)
    (hread : r.sockets.connections.rows.all
      (fun c => c.handler.all fun st => decide (st = c.state)) = true)
    (hset : ¬ e.Sets "b" .closing) : EventSystem.Run (Guarded Step fun r e =>
      r.Undisturbed e ∧ ¬ r.Writes "b" .closing e) r [e] (r.next e) := by
  refine EventSystem.Run.single ⟨⟨hready, rfl⟩, undisturbed_of_reread e hread, ?_⟩
  rintro (h | ⟨h, -⟩)
  · exact hset h
  · cases h

/-- The mark of the revoked socket outlives its next frame. -/
theorem no_lost_update_revoked :
    ∃ c ∈ ((initial.exec revokedEvents).exec nextFrame).sockets.connections,
      c.id = "b" ∧ c.state.closing = true := by
  have hready : EventSystem.AllReady (fun r e => r.Ready e ∧ r.sockets.connections.rows.all
      (fun c => c.handler.all fun st => decide (st = c.state)) = true) next initial
      revokedEvents := by decide
  have hrun : EventSystem.Run (Guarded Step Undisturbed) initial revokedEvents
      (initial.exec revokedEvents) :=
    EventSystem.run_of_ready (fun r e h => ⟨⟨h.1, rfl⟩, undisturbed_of_reread e h.2⟩) hready
  have hbegins := keeps_closing (r := initial.exec revokedEvents)
    (e := .socket (.frameBegins "b")) (by decide) (by decide) id
  have hframe := (hbegins.append
    (keeps_closing (e := .socket (.frameTouched "b")) (by decide) (by decide) id)).append
    (keeps_closing (e := .socket (.frameEnds "b")) (by decide) (by decide) id)
  obtain ⟨c₀, hc₀, hid₀, hclosing⟩ : ∃ c ∈ (initial.exec revokedEvents).sockets.connections,
      c.id = "b" ∧ c.state.closing = true := by decide
  obtain ⟨c, hc, hid⟩ : ∃ c ∈ ((initial.exec revokedEvents).exec nextFrame).sockets.connections,
      c.id = "b" := by decide
  have hkept : c.state.closing = c₀.state.closing :=
    (no_lost_update hrun hframe).2 c₀ hc₀ hid₀ c hc hid
  exact ⟨c, hc, hid, hkept.trans hclosing⟩

/-- `b` is elected while its frame waits. -/
def electedMeanwhile : List Event :=
  joins "a" false ++ joins "b" true ++
    [Event.socket (.frameBegins "b"), .socket (.closeHandled "a" [])]

/-- `b` is told that it holds the lease, and its frame takes the stored flag back. -/
theorem stale_frame_takes_lease :
    ¬ ∀ (evs evs' : List Event) (r r' : Room) (id : String) (field : SharedField),
      Run initial evs r →
      EventSystem.Run (Guarded Step fun r e => ¬ r.Writes id field e) r evs' r' →
      (∀ c ∈ r'.sockets.connections, c.held = lastLease r'.sockets.sent c.id) ∧
        ∀ c ∈ r.sockets.connections, c.id = id → ∀ c' ∈ r'.sockets.connections, c'.id = id →
          field.Kept c.state c'.state := by
  intro h
  have hrun : Run initial electedMeanwhile (initial.exec electedMeanwhile) := run_exec (by decide)
  have hsilent : ¬ (initial.exec electedMeanwhile).Writes "b" .serveLeaseHeld
      (.socket (.frameTouched "b")) := by
    rintro (hset | ⟨-, hne⟩)
    · exact hset
    · exact hne (by decide)
  have hstep : Step (initial.exec electedMeanwhile) (.socket (.frameTouched "b"))
      ((initial.exec electedMeanwhile).next (.socket (.frameTouched "b"))) := ⟨by decide, rfl⟩
  have hkept := (h _ _ _ _ "b" .serveLeaseHeld hrun
    (EventSystem.Run.single ⟨hstep, hsilent⟩)).2
  have hlost : ∃ c ∈ (initial.exec electedMeanwhile).sockets.connections, c.id = "b" ∧
      ∃ c' ∈ ((initial.exec electedMeanwhile).next
        (.socket (.frameTouched "b"))).sockets.connections, c'.id = "b" ∧
          c'.state.serveLeaseHeld ≠ c.state.serveLeaseHeld := by decide
  obtain ⟨c, hc, hid, c', hc', hid', hne⟩ := hlost
  exact hne (hkept c hc hid c' hc' hid')

end Room
end AgentParty
