import AgentParty.Proofs.Fence

/-! The same-name serve lease. One election leaves one holder in each principal group
and tells everyone whose flag changed. -/

namespace AgentParty

namespace Connection

/-- A connection that runs for the lease. -/
def runs (c : Connection) : Bool := c.state.serveCandidate && c.state.kind = .agent

def principal (c : Connection) : String := c.state.identityDeliveryPrincipal

def held (c : Connection) : Option Bool := c.state.serveLeaseHeld

/-- It is listed, runs, and its flag says that it holds the lease. -/
def holds (c : Connection) : Prop := c.listed = true ∧ c.runs = true ∧ c.held = some true

theorem runs_iff {c : Connection} :
    c.runs = true ↔ c.state.serveCandidate = true ∧ c.state.kind = .agent := by
  simp [runs]

theorem runs_of_same {c c' : Connection} (hid : c'.state.toIdentity = c.state.toIdentity)
    (hcand : c.state.serveCandidate = true → c'.state.serveCandidate = true) :
    c.runs = true → c'.runs = true := by
  rw [runs_iff, runs_iff]
  exact fun hr => ⟨hcand hr.1, (congrArg Identity.kind hid).trans hr.2⟩

instance (c : Connection) : Decidable c.holds :=
  inferInstanceAs (Decidable (c.listed = true ∧ c.runs = true ∧ c.held = some true))

end Connection

namespace Connections

theorem mem_claimedServe {cs : Connections} {name : String} {excludeId : Option String}
    {c : Connection} : c ∈ claimedServeConnections cs name excludeId none ↔
      c ∈ cs ∧ c.listed = true ∧ c.runs = true ∧ c.state.name = name ∧ excludeId ≠ some c.id := by
  have hex : excluded excludeId c = false ↔ excludeId ≠ some c.id := by
    cases excludeId with
    | none => simp [excluded]
    | some id => simp [excluded, eq_comm]
  simp only [claimedServeConnections, getConnections, (List.perm_insertionSort _ _).mem_iff,
    List.mem_filter, Bool.and_eq_true, decide_eq_true_eq, ofPrincipal, Bool.not_eq_true', hex,
    Connection.runs, Table.mem_def]
  tauto

section Holder

variable {group : List Connection}

theorem leaseHolder_mem {c : Connection} (h : leaseHolder group = some c) : c ∈ group := by
  unfold leaseHolder at h
  split at h
  · rename_i incumbent hi
    cases h
    exact List.mem_of_find?_eq_some hi
  · split at h
    · rename_i v1 hv
      cases h
      exact List.mem_of_find?_eq_some hv
    · exact List.mem_of_mem_head? h

theorem leaseHolder_isSome (h : group ≠ []) : ∃ c, leaseHolder group = some c := by
  unfold leaseHolder
  split
  · exact ⟨_, rfl⟩
  · split
    · exact ⟨_, rfl⟩
    · exact ⟨group.head h, List.head?_eq_some_head h⟩

/-- The incumbent is chosen again. -/
theorem leaseHolder_incumbent {c : Connection} (hc : c ∈ group) (hheld : c.held = some true)
    (honly : ∀ d ∈ group, d.held = some true → d = c) : leaseHolder group = some c := by
  unfold leaseHolder
  split
  · rename_i incumbent hi
    have hh : incumbent.held = some true := by simpa [Connection.held] using List.find?_some hi
    rw [honly incumbent (List.mem_of_find?_eq_some hi) hh]
  · rename_i hnone
    have := List.find?_eq_none.1 hnone c hc
    exact absurd hheld (by simpa [Connection.held] using this)

end Holder

section Holders

variable {candidates : List Connection}

theorem mem_principalGroup {p : String} {c : Connection} :
    c ∈ principalGroup candidates p ↔ c ∈ candidates ∧ c.principal = p := by
  simp [principalGroup, Connection.principal]

/-- A candidate is elected exactly when its group chose it. -/
theorem mem_holderIds (hids : ∀ a ∈ candidates, ∀ b ∈ candidates, a.id = b.id → a = b)
    {c : Connection} (hc : c ∈ candidates) : c.id ∈ holderIds candidates ↔
      leaseHolder (principalGroup candidates c.principal) = some c := by
  simp only [holderIds, List.mem_map, List.mem_filterMap, List.mem_eraseDups]
  constructor
  · rintro ⟨d, ⟨p, -, hd⟩, hid⟩
    obtain ⟨hmem, hp⟩ := mem_principalGroup.1 (leaseHolder_mem hd)
    obtain rfl := hids d hmem c hc hid
    rwa [hp]
  · intro h
    exact ⟨c, ⟨c.principal, ⟨c, hc, rfl⟩, h⟩, rfl⟩

end Holders

section Announce

/-- The connection after the notification loop over `ids`. -/
def announced (holders ids : List String) (c : Connection) : Connection :=
  if c.id ∈ ids then withState (withHeld (holders.contains c.id)) c else c

def notices (name : String) (holders : List String) (candidates : List Connection) : Outbox :=
  (candidates.filter fun c => c.held ≠ some (holders.contains c.id)).map fun c =>
    (c.id, .serveLease name (holders.contains c.id))

theorem notices_append (name : String) (holders : List String) (xs ys : List Connection) :
    notices name holders xs ++ notices name holders ys = notices name holders (xs ++ ys) := by
  simp [notices]

theorem announced_announced (holders ids ids' : List String) (c : Connection) :
    announced holders ids' (announced holders ids c) = announced holders (ids ++ ids') c := by
  unfold announced
  by_cases h : c.id ∈ ids <;> by_cases h' : c.id ∈ ids' <;> simp [h, h', withState, withHeld]

theorem pointwise_setState (cs : Connections) (id : String) (f : ConnState → ConnState) :
    Table.Pointwise (fun c c' => c' = if c.id = id then withState f c else c) cs
      (setState cs id f) := by
  refine Table.pointwise_update _ fun c _ => ?_
  simp

/-- One turn sets the flag of its candidate. -/
theorem announceHeld_spec {cs : Connections} (sent : Outbox) (name : String) (holders : List String)
    {x : Connection} (hx : x ∈ cs) :
    Table.Pointwise (fun c c' => c' = announced holders [x.id] c) cs
        (announceHeld name holders (cs, sent) x).1 ∧
      (announceHeld name holders (cs, sent) x).2 = sent ++ notices name holders [x] := by
  unfold announceHeld
  dsimp only
  split_ifs with h
  · refine ⟨Table.Pointwise.refl fun c hc => ?_, by simp [notices, Connection.held, h]⟩
    unfold announced
    split_ifs with hid
    · rw [Table.eq_of_key hc hx (List.mem_singleton.1 hid)]
      unfold withState withHeld
      rw [← h]
    · rfl
  · refine ⟨(pointwise_setState cs x.id _).mono ?_, ?_⟩
    · rintro c - c' rfl
      by_cases hid : c.id = x.id
      · rw [if_pos hid, announced, if_pos (by simp [hid]), hid]
      · rw [if_neg hid, announced, if_neg (by simp [hid])]
    · simp only [notices, Connection.held]
      rw [List.filter_cons_of_pos (by simpa using h)]
      rfl

theorem foldl_announceHeld_spec (name : String) (holders : List String) {xs : List Connection}
    (hids : (xs.map (·.id)).Nodup) {cs : Connections} (sent : Outbox) (hxs : ∀ x ∈ xs, x ∈ cs) :
    Table.Pointwise (fun c c' => c' = announced holders (xs.map (·.id)) c) cs
        (xs.foldl (announceHeld name holders) (cs, sent)).1 ∧
      (xs.foldl (announceHeld name holders) (cs, sent)).2 = sent ++ notices name holders xs := by
  induction xs generalizing cs sent with
  | nil => exact ⟨Table.Pointwise.refl fun c _ => by simp [announced], by simp [notices]⟩
  | cons x xs ih =>
    obtain ⟨hrows, hsent⟩ := announceHeld_spec sent name holders
      (hxs x List.mem_cons_self)
    rw [List.map_cons, List.nodup_cons] at hids
    rw [List.foldl_cons]
    generalize announceHeld name holders (cs, sent) x = acc at hrows hsent
    obtain ⟨cs₁, sent₁⟩ := acc
    have hxs₁ : ∀ y ∈ xs, y ∈ cs₁ := by
      intro y hy
      obtain ⟨y', hy', -, rfl⟩ := hrows.forward (hxs y (List.mem_cons_of_mem _ hy))
      have hne : y.id ≠ x.id := fun h => hids.1 (h ▸ List.mem_map_of_mem hy)
      rwa [announced, if_neg (by simpa using hne)] at hy'
    obtain ⟨hrows', hsent'⟩ := ih hids.2 sent₁ hxs₁
    refine ⟨hrows.comp (fun a b c hab hbc => ?_) hrows', ?_⟩
    · rw [hbc, hab, announced_announced]
      rfl
    · change sent₁ = sent ++ notices name holders [x] at hsent
      rw [hsent', hsent, List.append_assoc, notices_append]
      rfl

end Announce

section Reconcile

variable (cs : Connections) (name : String) (excludeId : Option String)

/-- Whether the election gives the lease to `c`. -/
def elects (c : Connection) : Bool :=
  (holderIds (claimedServeConnections cs name excludeId none)).contains c.id

theorem candidates_nodup :
    ((claimedServeConnections cs name excludeId none).map (·.id)).Nodup := by
  have hperm := (List.perm_insertionSort (claimOrder (·.serveClaimSeq))
    ((getConnections cs).filter fun c => !excluded excludeId c && c.state.serveCandidate &&
      c.state.kind = .agent && c.state.name = name && ofPrincipal none c)).map (·.id)
  refine hperm.nodup_iff.2 (List.Nodup.sublist ?_ cs.nodup)
  exact (List.filter_sublist.trans List.filter_sublist).map _

theorem candidates_eq_of_id {a b : Connection}
    (ha : a ∈ claimedServeConnections cs name excludeId none)
    (hb : b ∈ claimedServeConnections cs name excludeId none) (h : a.id = b.id) : a = b :=
  Table.eq_of_key (mem_claimedServe.1 ha).1 (mem_claimedServe.1 hb).1 h

/-- The election sets the flags of the candidates and leaves everything else alone. -/
structure Reflagged (c c' : Connection) : Prop where
  candidate : c ∈ claimedServeConnections cs name excludeId none →
    c' = withState (withHeld (elects cs name excludeId c)) c
  other : c ∉ claimedServeConnections cs name excludeId none → c' = c

theorem reconcileServeLease_spec :
    Table.Pointwise (Reflagged cs name excludeId) cs (reconcileServeLease cs name excludeId).1 ∧
      (reconcileServeLease cs name excludeId).2 =
        notices name (holderIds (claimedServeConnections cs name excludeId none))
          (claimedServeConnections cs name excludeId none) := by
  obtain ⟨hrows, hsent⟩ := foldl_announceHeld_spec name
    (holderIds (claimedServeConnections cs name excludeId none))
    (candidates_nodup cs name excludeId) [] fun x hx => (mem_claimedServe.1 hx).1
  refine ⟨hrows.mono ?_, hsent⟩
  rintro c hc c' rfl
  refine ⟨fun h => if_pos (List.mem_map_of_mem h), fun h => if_neg fun hmem => h ?_⟩
  obtain ⟨d, hd, hid⟩ := List.mem_map.1 hmem
  rwa [← Table.eq_of_key (mem_claimedServe.1 hd).1 hc hid]

theorem elects_iff {c : Connection} (hc : c ∈ claimedServeConnections cs name excludeId none) :
    elects cs name excludeId c = true ↔ leaseHolder
      (principalGroup (claimedServeConnections cs name excludeId none) c.principal) = some c := by
  rw [elects, List.contains_iff_mem,
    mem_holderIds (fun a ha b hb => candidates_eq_of_id cs name excludeId ha hb) hc]

/-- The candidates after the election are the candidates before it. -/
theorem mem_claimedServe_reconcile {c' : Connection} :
    c' ∈ claimedServeConnections (reconcileServeLease cs name excludeId).1 name excludeId none ↔
      ∃ c ∈ claimedServeConnections cs name excludeId none,
        c' = withState (withHeld (elects cs name excludeId c)) c := by
  have hrows := (reconcileServeLease_spec cs name excludeId).1
  constructor
  · intro h
    obtain ⟨hmem, hrest⟩ := mem_claimedServe.1 h
    obtain ⟨c, hc, -, hflag⟩ := hrows.backward hmem
    by_cases hcand : c ∈ claimedServeConnections cs name excludeId none
    · exact ⟨c, hcand, hflag.candidate hcand⟩
    · rw [hflag.other hcand] at hrest
      exact absurd (mem_claimedServe.2 ⟨hc, hrest⟩) hcand
  · rintro ⟨c, hc, rfl⟩
    obtain ⟨hmem, hrest⟩ := mem_claimedServe.1 hc
    obtain ⟨c', hc', -, hflag⟩ := hrows.forward hmem
    rw [hflag.candidate hc] at hc'
    exact mem_claimedServe.2 ⟨hc', hrest⟩

/-- Exactly one holder in each principal group that has a candidate. -/
theorem reconcile_one_holder {c₀ : Connection}
    (h₀ : c₀ ∈ claimedServeConnections (reconcileServeLease cs name excludeId).1 name excludeId
      none) :
    ∃! c, c ∈ claimedServeConnections (reconcileServeLease cs name excludeId).1 name excludeId
      none ∧ c.principal = c₀.principal ∧ c.held = some true := by
  obtain ⟨d₀, hd₀, rfl⟩ := (mem_claimedServe_reconcile cs name excludeId).1 h₀
  have hne : principalGroup (claimedServeConnections cs name excludeId none) d₀.principal ≠ [] :=
    List.ne_nil_of_mem (mem_principalGroup.2 ⟨hd₀, rfl⟩)
  obtain ⟨h, hh⟩ := leaseHolder_isSome hne
  obtain ⟨hmem, hprincipal⟩ := mem_principalGroup.1 (leaseHolder_mem hh)
  have helected : elects cs name excludeId h = true := by
    rw [elects_iff cs name excludeId hmem, hprincipal, hh]
  refine ⟨withState (withHeld true) h, ⟨?_, hprincipal, rfl⟩, ?_⟩
  · exact (mem_claimedServe_reconcile cs name excludeId).2 ⟨h, hmem, by rw [helected]⟩
  · rintro c' ⟨hc', hp, hheld⟩
    obtain ⟨c, hc, rfl⟩ := (mem_claimedServe_reconcile cs name excludeId).1 hc'
    have he : elects cs name excludeId c = true := by
      simpa [Connection.held, withState, withHeld] using hheld
    have hcp : c.principal = d₀.principal := hp
    rw [elects_iff cs name excludeId hc, hcp, hh] at he
    cases he
    rw [helected]

/-- No two connections of one principal hold the lease of one name. -/
def SingleHolder (cs : Connections) : Prop :=
  ∀ a ∈ cs, ∀ b ∈ cs, a.holds → b.holds → a.state.name = b.state.name →
    a.principal = b.principal → a = b

theorem elects_incumbent (h : SingleHolder cs) {c : Connection}
    (hc : c ∈ claimedServeConnections cs name excludeId none) (hheld : c.held = some true) :
    elects cs name excludeId c = true := by
  rw [elects_iff cs name excludeId hc]
  refine leaseHolder_incumbent (mem_principalGroup.2 ⟨hc, rfl⟩) hheld fun d hd hdh => ?_
  obtain ⟨hdmem, hdp⟩ := mem_principalGroup.1 hd
  obtain ⟨hdcs, hdl, hdr, hdn, -⟩ := mem_claimedServe.1 hdmem
  obtain ⟨hccs, hcl, hcr, hcn, -⟩ := mem_claimedServe.1 hc
  exact h d hdcs c hccs ⟨hdl, hdr, hdh⟩ ⟨hcl, hcr, hheld⟩ (hdn.trans hcn.symm) hdp

/-- An election that does not pass over a listed holder keeps the holders apart. -/
theorem SingleHolder.reconcile (h : SingleHolder cs)
    (hex : ∀ c ∈ cs, c.holds → c.state.name = name → excludeId ≠ some c.id) :
    SingleHolder (reconcileServeLease cs name excludeId).1 := by
  have hrows := (reconcileServeLease_spec cs name excludeId).1
  intro a' ha' b' hb' hah hbh hname hp
  obtain ⟨a, ha, -, hfa⟩ := hrows.backward ha'
  obtain ⟨b, hb, -, hfb⟩ := hrows.backward hb'
  have hcand : ∀ {c c' : Connection}, c ∈ cs → Reflagged cs name excludeId c c' → c'.holds →
      c'.state.name = name → c ∈ claimedServeConnections cs name excludeId none ∧
        elects cs name excludeId c = true := by
    intro c c' hc hf hh hn
    by_cases hcand : c ∈ claimedServeConnections cs name excludeId none
    · refine ⟨hcand, ?_⟩
      obtain rfl := hf.candidate hcand
      simpa [Connection.held, withState, withHeld] using hh.2.2
    · obtain rfl := hf.other hcand
      exact absurd (mem_claimedServe.2 ⟨hc, hh.1, hh.2.1, hn, hex c' hc hh hn⟩) hcand
  by_cases hn : a'.state.name = name
  · obtain ⟨hac, hae⟩ := hcand ha hfa hah hn
    obtain ⟨hbc, hbe⟩ := hcand hb hfb hbh (hname ▸ hn)
    obtain rfl := hfa.candidate hac
    obtain rfl := hfb.candidate hbc
    have hp' : a.principal = b.principal := hp
    rw [elects_iff cs name excludeId hac, hp'] at hae
    rw [elects_iff cs name excludeId hbc, hae] at hbe
    cases hbe
    rfl
  · have hsame : ∀ {c c' : Connection}, Reflagged cs name excludeId c c' → c'.state.name ≠ name →
        c' = c := by
      intro c c' hf hn
      by_cases hcand : c ∈ claimedServeConnections cs name excludeId none
      · obtain rfl := hf.candidate hcand
        exact absurd (mem_claimedServe.1 hcand).2.2.2.1 hn
      · exact hf.other hcand
    obtain rfl := hsame hfa hn
    obtain rfl := hsame hfb (hname ▸ hn)
    exact h a' ha b' hb hah hbh hname hp

end Reconcile

section Told

/-- The flag in the last `serve_lease` frame sent to `id`. -/
def lastLease (sent : Outbox) (id : String) : Option Bool :=
  (sent.filterMap fun s => match s.2 with
    | .serveLease _ held => if s.1 = id then some held else none
    | .delivery _ _ _ _ => none).getLast?

theorem lastLease_append (sent added : Outbox) (id : String) :
    lastLease (sent ++ added) id = (lastLease added id).or (lastLease sent id) := by
  simp [lastLease, List.getLast?_append]

theorem getLast?_constant {α : Type*} {xs : List α} {b : α} (h : ∀ x ∈ xs, x = b) (hne : xs ≠ []) :
    xs.getLast? = some b := by
  rw [List.getLast?_eq_some_getLast hne, h _ (List.getLast_mem hne)]

/-- Frames that all tell `id` the same. -/
theorem lastLease_of_told {sent : Outbox} {id : String} (name : String) {b : Bool}
    (hall : ∀ s ∈ sent, s.1 = id → s.2 = .serveLease name b) (hsome : ∃ s ∈ sent, s.1 = id) :
    lastLease sent id = some b := by
  refine getLast?_constant (fun x hx => ?_) ?_
  · obtain ⟨s, hs, hx⟩ := List.mem_filterMap.1 hx
    split at hx
    · rename_i n held hframe
      split_ifs at hx with hid
      have := hall s hs hid
      rw [hframe] at this
      cases this
      exact (Option.some.inj hx).symm
    · cases hx
  · obtain ⟨s, hs, hid⟩ := hsome
    refine List.ne_nil_of_mem (a := b) (List.mem_filterMap.2 ⟨s, hs, ?_⟩)
    simp [hall s hs hid, hid]

theorem lastLease_of_untold {sent : Outbox} {id : String} (h : ∀ s ∈ sent, s.1 ≠ id) :
    lastLease sent id = none := by
  have hnil : (sent.filterMap fun s : String × ServerFrame => match s.2 with
      | .serveLease _ held => if s.1 = id then some held else none
      | .delivery _ _ _ _ => none) = [] := by
    refine List.filterMap_eq_nil_iff.2 fun s hs => ?_
    split
    · exact if_neg (h s hs)
    · rfl
  rw [lastLease, hnil]
  rfl

theorem lastLease_deliveries {sent : Outbox}
    (h : ∀ s ∈ sent, ∃ d attempt epoch token, s.2 = .delivery d attempt epoch token) (id : String) :
    lastLease sent id = none := by
  have hnil : (sent.filterMap fun s : String × ServerFrame => match s.2 with
      | .serveLease _ held => if s.1 = id then some held else none
      | .delivery _ _ _ _ => none) = [] := by
    refine List.filterMap_eq_nil_iff.2 fun s hs => ?_
    obtain ⟨d, attempt, epoch, token, he⟩ := h s hs
    rw [he]
  rw [lastLease, hnil]
  rfl

/-- What the election tells a connection: its new flag, if that changed. -/
theorem lastLease_notices {name : String} {holders : List String} {candidates : List Connection}
    (hids : ∀ a ∈ candidates, ∀ b ∈ candidates, a.id = b.id → a = b) (id : String) :
    (∀ c ∈ candidates, c.id = id → lastLease (notices name holders candidates) id =
        if c.held = some (holders.contains id) then none else some (holders.contains id)) ∧
      ((∀ c ∈ candidates, c.id ≠ id) → lastLease (notices name holders candidates) id = none) := by
  have hmem : ∀ s ∈ notices name holders candidates, ∃ c ∈ candidates,
      c.held ≠ some (holders.contains c.id) ∧ s = (c.id, .serveLease name (holders.contains c.id)) := by
    intro s hs
    obtain ⟨c, hc, rfl⟩ := List.mem_map.1 hs
    obtain ⟨hc, hne⟩ := List.mem_filter.1 hc
    exact ⟨c, hc, by simpa using hne, rfl⟩
  refine ⟨fun c hc hid => ?_, fun hnone => lastLease_of_untold fun s hs => ?_⟩
  · subst hid
    split_ifs with hflag
    · refine lastLease_of_untold fun s hs hsid => ?_
      obtain ⟨d, hd, hne, rfl⟩ := hmem s hs
      obtain rfl := hids d hd c hc hsid
      exact hne hflag
    · refine lastLease_of_told name (fun s hs hsid => ?_)
        ⟨(c.id, .serveLease name (holders.contains c.id)), ?_, rfl⟩
      · obtain ⟨d, hd, -, rfl⟩ := hmem s hs
        obtain rfl := hids d hd c hc hsid
        rfl
      · exact List.mem_map.2 ⟨c, List.mem_filter.2 ⟨hc, by simpa using hflag⟩, rfl⟩
  · obtain ⟨c, hc, -, rfl⟩ := hmem s hs
    exact hnone c hc

end Told

end Connections
open Connections

/-- The stored flags are the last ones sent. -/
structure Announced (s : Sockets) : Prop where
  told : ∀ c ∈ s.connections, c.held = lastLease s.sent c.id
  addressed : ∀ id, (lastLease s.sent id).isSome → ∃ c ∈ s.connections, c.id = id

theorem Announced.unflagged {s : Sockets} {cs : Connections} {added : Outbox} (h : Announced s)
    (hq : Table.Pointwise (fun c c' => c'.held = c.held) s.connections cs)
    (hadded : ∀ id, lastLease added id = none) (claimSeq : ℕ) :
    Announced ⟨cs, claimSeq, s.sent ++ added⟩ := by
  have hlast : ∀ id, lastLease (s.sent ++ added) id = lastLease s.sent id := by
    intro id
    rw [lastLease_append, hadded, Option.none_or]
  refine ⟨fun c' hc' => ?_, fun id hid => ?_⟩
  · obtain ⟨c, hc, hid, hheld⟩ := hq.backward hc'
    change c'.held = lastLease (s.sent ++ added) c'.id
    rw [hlast, hheld, h.told c hc, hid]
  · change (lastLease (s.sent ++ added) id).isSome at hid
    rw [hlast] at hid
    obtain ⟨c, hc, hcid⟩ := h.addressed id hid
    obtain ⟨c', hc', hid', -⟩ := hq.forward hc
    exact ⟨c', hc', hid'.trans hcid⟩

theorem Announced.reconcile {s : Sockets} (h : Announced s) (name : String)
    (excludeId : Option String) : Announced (s.reconcile name excludeId) := by
  obtain ⟨hrows, hsent⟩ := reconcileServeLease_spec s.connections name excludeId
  have hcs : (s.reconcile name excludeId).connections =
      (reconcileServeLease s.connections name excludeId).1 := rfl
  have hout : (s.reconcile name excludeId).sent =
      s.sent ++ (reconcileServeLease s.connections name excludeId).2 := rfl
  have hids : ∀ a ∈ claimedServeConnections s.connections name excludeId none,
      ∀ b ∈ claimedServeConnections s.connections name excludeId none, a.id = b.id → a = b :=
    fun a ha b hb => candidates_eq_of_id s.connections name excludeId ha hb
  have htold : ∀ id, (∀ c ∈ claimedServeConnections s.connections name excludeId none, c.id ≠ id) →
      lastLease (s.reconcile name excludeId).sent id = lastLease s.sent id := by
    intro id hno
    rw [hout, lastLease_append, hsent, (lastLease_notices hids id).2 hno, Option.none_or]
  refine ⟨fun c' hc' => ?_, fun id hid => ?_⟩
  · obtain ⟨c, hc, hid, hf⟩ := hrows.backward (hcs ▸ hc')
    by_cases hcand : c ∈ claimedServeConnections s.connections name excludeId none
    · obtain rfl := hf.candidate hcand
      rw [hout, lastLease_append, hsent, withState_id,
        (lastLease_notices hids c.id).1 c hcand rfl, ← h.told c hc]
      change some (elects s.connections name excludeId c) = _
      split_ifs with he
      · rw [Option.none_or, he, elects]
      · rw [Option.some_or, elects]
    · obtain rfl := hf.other hcand
      rw [htold, h.told c' hc]
      rintro d hd hdid
      exact hcand (Table.eq_of_key (mem_claimedServe.1 hd).1 hc hdid ▸ hd)
  · have hmem : ∃ c ∈ s.connections, c.id = id := by
      by_cases hno : ∀ c ∈ claimedServeConnections s.connections name excludeId none, c.id ≠ id
      · rw [htold id hno] at hid
        exact h.addressed id hid
      · push Not at hno
        obtain ⟨c, hc, hcid⟩ := hno
        exact ⟨c, (mem_claimedServe.1 hc).1, hcid⟩
    obtain ⟨c, hc, hcid⟩ := hmem
    obtain ⟨c', hc', hid', -⟩ := hrows.forward hc
    exact ⟨c', hc', hid'.trans hcid⟩

theorem Announced.connected {s : Sockets} (h : Announced s) {id : String}
    (hnew : s.connections.get? id = none) (identity : Identity) (now : Int) :
    Announced { s with connections := s.connections.insert (newConnection id identity now) } := by
  refine ⟨fun c hc => ?_, fun id' hid => ?_⟩
  · rcases Table.mem_insert.1 hc with hc | ⟨rfl, -⟩
    · exact h.told c hc
    · change none = lastLease s.sent id
      by_contra hne
      obtain ⟨c, hc, hid⟩ := h.addressed id (Option.isSome_iff_ne_none.2 fun hn => hne hn.symm)
      exact Table.get?_eq_none.1 hnew c hc hid
  · obtain ⟨c, hc, hcid⟩ := h.addressed id' hid
    exact ⟨c, Table.mem_insert.2 (Or.inl hc), hcid⟩

/-- What the handler of `c` has read is up to date but for the lease flag. -/
structure Reads (st : ConnState) (c : Connection) : Prop where
  identity : st.toIdentity = c.state.toIdentity
  serveCandidate : st.serveCandidate = c.state.serveCandidate
  unflagged : st.serveCandidate = false → st.serveLeaseHeld = none

theorem Reads.of_same {st : ConnState} {c c' : Connection} (h : Reads st c)
    (hid : c'.state.toIdentity = c.state.toIdentity)
    (hcand : c'.state.serveCandidate = c.state.serveCandidate) : Reads st c' :=
  ⟨h.identity.trans hid.symm, h.serveCandidate.trans hcand.symm, h.unflagged⟩

/-- What every election can rely on. -/
structure Leased (s : Sockets) : Prop where
  told : ∀ c ∈ s.connections, c.held = lastLease s.sent c.id
  addressed : ∀ id, (lastLease s.sent id).isSome → ∃ c ∈ s.connections, c.id = id
  single : SingleHolder s.connections
  flagged : ∀ c ∈ s.connections, c.held ≠ none → c.runs = true
  handlers : ∀ c ∈ s.connections, ∀ st, c.handler = some st → Reads st c

theorem Leased.announced {s : Sockets} (h : Leased s) : Announced s := ⟨h.told, h.addressed⟩

/-- A change of a connection that is not about the lease. -/
structure Quiet (c c' : Connection) : Prop where
  identity : c'.state.toIdentity = c.state.toIdentity
  held : c'.held = c.held
  runs : c.runs = true → c'.runs = true
  listed : c'.listed = true → c.listed = true
  handlers : ∀ st, c'.handler = some st → Reads st c'

theorem Quiet.holds {c c' : Connection} (h : Quiet c c') (hr : c.held ≠ none → c.runs = true)
    (hh : c'.holds) : c.holds := by
  obtain ⟨hl, -, hheld⟩ := hh
  rw [h.held] at hheld
  exact ⟨h.listed hl, hr (by simp [hheld]), hheld⟩

theorem principal_of_identity {c c' : Connection} (h : c'.state.toIdentity = c.state.toIdentity) :
    c'.principal = c.principal := by
  rw [Connection.principal, h, Connection.principal]

theorem Leased.quiet {s : Sockets} {cs : Connections} {added : Outbox} (h : Leased s)
    (hq : Table.Pointwise Quiet s.connections cs) (hadded : ∀ id, lastLease added id = none)
    (claimSeq : ℕ) : Leased ⟨cs, claimSeq, s.sent ++ added⟩ := by
  have hann : Announced ⟨cs, claimSeq, s.sent ++ added⟩ :=
    h.announced.unflagged (hq.mono fun _ _ _ hqc => hqc.held) hadded claimSeq
  refine ⟨hann.told, hann.addressed, ?_, fun c' hc' hf => ?_, fun c' hc' => ?_⟩
  · intro a' ha' b' hb' hah hbh hname hp
    obtain ⟨a, ha, haid, hqa⟩ := hq.backward ha'
    obtain ⟨b, hb, hbid, hqb⟩ := hq.backward hb'
    have hab : a = b := by
      refine h.single a ha b hb (hqa.holds (h.flagged a ha) hah) (hqb.holds (h.flagged b hb) hbh)
        ?_ ?_
      · rwa [hqa.identity, hqb.identity] at hname
      · rwa [principal_of_identity hqa.identity, principal_of_identity hqb.identity] at hp
    exact Table.eq_of_key ha' hb' (by rw [← haid, ← hbid, hab])
  · obtain ⟨c, hc, -, hq⟩ := hq.backward hc'
    rw [hq.held] at hf
    exact hq.runs (h.flagged c hc hf)
  · obtain ⟨c, hc, -, hq⟩ := hq.backward hc'
    exact hq.handlers

theorem Leased.reconcile {s : Sockets} (h : Leased s) {name : String} {excludeId : Option String}
    (hex : ∀ c ∈ s.connections, c.holds → c.state.name = name → excludeId ≠ some c.id) :
    Leased (s.reconcile name excludeId) := by
  have hrows := (reconcileServeLease_spec s.connections name excludeId).1
  have hcs : (s.reconcile name excludeId).connections =
      (reconcileServeLease s.connections name excludeId).1 := rfl
  have hann := h.announced.reconcile name excludeId
  refine ⟨hann.told, hann.addressed, hcs ▸ h.single.reconcile _ _ _ hex,
    fun c' hc' hf => ?_, fun c' hc' => ?_⟩
  · obtain ⟨c, hc, -, hflag⟩ := hrows.backward (hcs ▸ hc')
    by_cases hcand : c ∈ claimedServeConnections s.connections name excludeId none
    · obtain rfl := hflag.candidate hcand
      exact (mem_claimedServe.1 hcand).2.2.1
    · obtain rfl := hflag.other hcand
      exact h.flagged c' hc hf
  · obtain ⟨c, hc, -, hflag⟩ := hrows.backward (hcs ▸ hc')
    by_cases hcand : c ∈ claimedServeConnections s.connections name excludeId none
    · obtain rfl := hflag.candidate hcand
      exact fun st hst => (h.handlers c hc st hst).of_same rfl rfl
    · obtain rfl := hflag.other hcand
      exact h.handlers c' hc

section Fence

variable {s : Sockets} {identity : ConnState} {connectionId : String}

theorem fenced_iff {c : Connection} : fenced identity c = true ↔ c.listed = true ∧
    c.runs = true ∧ c.state.name = identity.name ∧
      c.principal = identity.identityDeliveryPrincipal := by
  simp only [fenced, Connection.runs, Connection.principal, Bool.and_eq_true, decide_eq_true_eq]
  tauto

/-- The rows and frames of a serve fence. -/
def fenceServe (s : Sockets) (identity : ConnState) (connectionId : String) : Sockets :=
  { s with
    connections := s.connections.update (fenced identity) (withFence connectionId)
      (withFence_id connectionId)
    sent := s.sent ++ (s.connections.rows.filter (fenced identity)).map fun c =>
      (c.id, .serveLease identity.name (c.id = connectionId)) }

theorem withFence_held (c : Connection) :
    (withFence connectionId c).held = some (decide (c.id = connectionId)) := by
  unfold withFence
  split_ifs with h <;> simp [Connection.held, h]

theorem withFence_quiet (connectionId : String) (c : Connection) :
    (withFence connectionId c).state.toIdentity = c.state.toIdentity ∧
      (withFence connectionId c).state.serveCandidate = c.state.serveCandidate ∧
      (withFence connectionId c).listed = c.listed ∧
      (withFence connectionId c).handler = c.handler := by
  unfold withFence
  split_ifs <;> exact ⟨rfl, rfl, rfl, rfl⟩

theorem mem_fenceServe {c' : Connection} :
    c' ∈ (fenceServe s identity connectionId).connections ↔ ∃ c ∈ s.connections,
      c' = if fenced identity c = true then withFence connectionId c else c :=
  Table.mem_update (withFence_id connectionId)

theorem Announced.fenceServe (h : Announced s) : Announced (fenceServe s identity connectionId) := by
  have hlast : ∀ id, (∀ c ∈ s.connections, fenced identity c = true → c.id ≠ id) →
      lastLease (AgentParty.fenceServe s identity connectionId).sent id = lastLease s.sent id := by
    intro id hno
    change lastLease (s.sent ++ _) id = _
    rw [lastLease_append, lastLease_of_untold, Option.none_or]
    intro f hf
    obtain ⟨c, hc, rfl⟩ := List.mem_map.1 hf
    obtain ⟨hmem, hfc⟩ := List.mem_filter.1 hc
    exact hno c hmem hfc
  have hfenced : ∀ {c : Connection}, c ∈ s.connections → fenced identity c = true →
      lastLease (AgentParty.fenceServe s identity connectionId).sent c.id =
        some (decide (c.id = connectionId)) := by
    intro c hc hfc
    change lastLease (s.sent ++ _) c.id = _
    rw [lastLease_append, lastLease_of_told identity.name (b := decide (c.id = connectionId)),
      Option.some_or]
    · intro f hf hid
      obtain ⟨d, -, rfl⟩ := List.mem_map.1 hf
      rw [show d.id = c.id from hid]
    · exact ⟨_, List.mem_map_of_mem (List.mem_filter.2 ⟨hc, hfc⟩), rfl⟩
  refine ⟨fun c' hc' => ?_, fun id hid => ?_⟩
  · obtain ⟨c, hc, rfl⟩ := mem_fenceServe.1 hc'
    split_ifs with hfc
    · rw [withFence_held, withFence_id, hfenced hc hfc]
    · rw [hlast, h.told c hc]
      rintro d hd hfd hid
      exact hfc (Table.eq_of_key hd hc hid ▸ hfd)
  · have hmem : ∃ c ∈ s.connections, c.id = id := by
      by_cases hno : ∀ c ∈ s.connections, fenced identity c = true → c.id ≠ id
      · rw [hlast id hno] at hid
        exact h.addressed id hid
      · push Not at hno
        obtain ⟨c, hc, -, hcid⟩ := hno
        exact ⟨c, hc, hcid⟩
    obtain ⟨c, hc, hcid⟩ := hmem
    refine ⟨_, mem_fenceServe.2 ⟨c, hc, rfl⟩, ?_⟩
    split_ifs
    · rw [withFence_id, hcid]
    · exact hcid

/-- A fence leaves one holder of its principal, the recovering connection. -/
theorem Leased.fenceServe (h : Leased s) : Leased (fenceServe s identity connectionId) := by
  have hann : Announced (AgentParty.fenceServe s identity connectionId) := h.announced.fenceServe
  refine ⟨hann.told, hann.addressed, ?_, fun c' hc' hf => ?_, fun c' hc' => ?_⟩
  · intro a' ha' b' hb' hah hbh hname hp
    obtain ⟨a, ha, rfl⟩ := mem_fenceServe.1 ha'
    obtain ⟨b, hb, rfl⟩ := mem_fenceServe.1 hb'
    have hback : ∀ {c : Connection}, c ∈ s.connections →
        (if fenced identity c = true then withFence connectionId c else c).state.name =
          identity.name →
        (if fenced identity c = true then withFence connectionId c else c).principal =
          identity.identityDeliveryPrincipal →
        (if fenced identity c = true then withFence connectionId c else c).holds →
        fenced identity c = true ∧ c.id = connectionId := by
      intro c hc hn hpr hh
      split_ifs at hn hpr hh with hfc
      · exact ⟨hfc, by simpa [withFence_held] using hh.2.2⟩
      · exact absurd (fenced_iff.2 ⟨hh.1, hh.2.1, hn, hpr⟩) hfc
    have hident : ∀ c : Connection,
        (if fenced identity c = true then withFence connectionId c else c).state.toIdentity =
          c.state.toIdentity := by
      intro c
      split_ifs
      · exact (withFence_quiet connectionId c).1
      · rfl
    by_cases hfa : fenced identity a = true
    · obtain ⟨-, -, hn, hpr⟩ := fenced_iff.1 hfa
      have hna := (congrArg Identity.name (hident a)).trans hn
      have hpa := (principal_of_identity (hident a)).trans hpr
      obtain ⟨-, haid⟩ := hback ha hna hpa hah
      obtain ⟨-, hbid⟩ := hback hb (hname ▸ hna) (hp ▸ hpa) hbh
      rw [Table.eq_of_key ha hb (haid.trans hbid.symm)]
    · by_cases hfb : fenced identity b = true
      · obtain ⟨-, -, hn, hpr⟩ := fenced_iff.1 hfb
        have hnb := (congrArg Identity.name (hident b)).trans hn
        have hpb := (principal_of_identity (hident b)).trans hpr
        exact absurd (hback ha (hname ▸ hnb) (hp ▸ hpb) hah).1 hfa
      · rw [if_neg hfa] at hah hname hp ⊢
        rw [if_neg hfb] at hbh hname hp ⊢
        exact h.single a ha b hb hah hbh hname hp
  · obtain ⟨c, hc, rfl⟩ := mem_fenceServe.1 hc'
    split_ifs with hfc
    · obtain ⟨h1, h2, -, -⟩ := withFence_quiet connectionId c
      exact Connection.runs_of_same h1 h2.trans (fenced_iff.1 hfc).2.1
    · rw [if_neg hfc] at hf
      exact h.flagged c hc hf
  · obtain ⟨c, hc, rfl⟩ := mem_fenceServe.1 hc'
    split_ifs with hfc
    · obtain ⟨h1, h2, -, h4⟩ := withFence_quiet connectionId c
      rw [h4]
      exact fun st hst => (h.handlers c hc st hst).of_same h1 h2
    · exact h.handlers c hc

end Fence

section Events

variable {s : Sockets}

theorem Quiet.refl {c : Connection} (h : ∀ st, c.handler = some st → Reads st c) : Quiet c c :=
  ⟨rfl, rfl, id, id, h⟩

/-- A quiet change of the connection `id`. -/
theorem Leased.quiet_update (h : Leased s) {id : String} {f : Connection → Connection}
    {hf : ∀ c, (f c).id = c.id} (hq : ∀ c ∈ s.connections, c.id = id → Quiet c (f c)) :
    Table.Pointwise Quiet s.connections (s.connections.update (fun c => c.id = id) f hf) := by
  refine Table.pointwise_update hf fun c hc => ?_
  by_cases hid : c.id = id
  · rw [if_pos (by simpa using hid)]
    exact hq c hc hid
  · rw [if_neg (by simpa using hid)]
    exact Quiet.refl (h.handlers c hc)

theorem Leased.quiet_close (h : Leased s) (lingering : List String) (id : String) :
    Table.Pointwise Quiet s.connections (close s.connections lingering id) :=
  h.quiet_update fun c hc _ => ⟨rfl, rfl, fun hr => hr, fun hl => (Bool.and_eq_true _ _ ▸ hl).1,
    fun st hst => (h.handlers c hc st hst).of_same rfl rfl⟩

/-- `setState` on columns other than the lease flag and the identity. -/
theorem Leased.quiet_setState (h : Leased s) {id : String} {f : ConnState → ConnState}
    (hf : ∀ st, (f st).toIdentity = st.toIdentity ∧ (f st).serveLeaseHeld = st.serveLeaseHeld ∧
      (f st).serveCandidate = st.serveCandidate) :
    Table.Pointwise Quiet s.connections (setState s.connections id f) := by
  refine h.quiet_update fun c hc _ => ?_
  obtain ⟨h1, h2, h3⟩ := hf c.state
  exact ⟨h1, h2, Connection.runs_of_same h1 h3.trans, fun hl => hl,
    fun st hst => (h.handlers c hc st hst).of_same h1 h3⟩

/-- The handler of `id` has the flag that is stored. -/
def UpToDate (s : Sockets) (id : String) : Prop :=
  ∀ c ∈ s.connections, c.id = id → ∀ st, c.handler = some st → st.serveLeaseHeld = c.held

theorem Leased.quiet_writtenBack (h : Leased s) {id : String} (hup : UpToDate s id)
    {f : ConnState → ConnState}
    (hf : ∀ st, (f st).toIdentity = st.toIdentity ∧ (f st).serveLeaseHeld = st.serveLeaseHeld ∧
      (st.serveCandidate = true → (f st).serveCandidate = true))
    {c : Connection} (hc : c ∈ s.connections) (hid : c.id = id) : Quiet c (writtenBack f c) := by
  unfold writtenBack
  split
  · exact Quiet.refl (h.handlers c hc)
  · rename_i st hst
    obtain ⟨h1, h2, h3⟩ := hf st
    obtain ⟨hident, hcand, hun⟩ := h.handlers c hc st hst
    refine ⟨h1.trans hident, h2.trans (hup c hc hid st hst),
      Connection.runs_of_same (h1.trans hident) fun hr => h3 (hcand.trans hr), fun hl => hl, ?_⟩
    rintro st' hst'
    cases hst'
    refine ⟨rfl, rfl, fun hno => ?_⟩
    rw [h2]
    refine hun ?_
    by_contra hc
    rw [h3 (by simpa using hc)] at hno
    cases hno

theorem Leased.quiet_touched (h : Leased s) {id : String} (hup : UpToDate s id) {c : Connection}
    (hc : c ∈ s.connections) (hid : c.id = id) : Quiet c (touched c) := by
  unfold touched
  split_ifs
  · refine ⟨rfl, rfl, fun hr => hr, fun hl => hl, fun st hst => ?_⟩
    cases hst
  · exact h.quiet_writtenBack hup (fun st => ⟨rfl, rfl, fun hc => hc⟩) hc hid

/-- A write-back of an up-to-date handler. -/
theorem Leased.quiet_writeBack (h : Leased s) {id : String} (hup : UpToDate s id)
    {f : ConnState → ConnState}
    (hf : ∀ st, (f st).toIdentity = st.toIdentity ∧ (f st).serveLeaseHeld = st.serveLeaseHeld ∧
      (st.serveCandidate = true → (f st).serveCandidate = true)) :
    Table.Pointwise Quiet s.connections (writeBack s.connections id f) :=
  h.quiet_update fun _ hc hid => h.quiet_writtenBack hup hf hc hid

/-- Before its first claim a connection has no flag to lose. -/
theorem Leased.upToDate_of_new (h : Leased s) {id : String} {st : ConnState}
    (hst : s.handlerState id = some st) (hno : st.serveCandidate = false) : UpToDate s id := by
  intro c hc hid st' hst'
  obtain rfl : st' = st := by
    rw [Sockets.handlerState, ← hid, Table.get?_key hc, Option.bind_some, hst'] at hst
    exact Option.some.inj hst
  have hreads := h.handlers c hc st' hst'
  rw [hreads.unflagged hno]
  by_contra hne
  have hruns := h.flagged c hc fun hn => hne hn.symm
  simp only [Connection.runs, Bool.and_eq_true] at hruns
  rw [← hreads.serveCandidate, hno] at hruns
  cases hruns.1

theorem Leased.connected (h : Leased s) {id : String} (hnew : s.connections.get? id = none)
    (identity : Identity) (now : Int) :
    Leased { s with connections := s.connections.insert (newConnection id identity now) } := by
  have hmem : ∀ c ∈ s.connections.insert (newConnection id identity now),
      c ∈ s.connections ∨ c = newConnection id identity now := fun c hc =>
    (Table.mem_insert.1 hc).imp_right And.left
  have hann := h.announced.connected hnew identity now
  refine ⟨hann.told, hann.addressed, ?_, fun c hc hf => ?_, fun c hc => ?_⟩
  · intro a ha b hb hah hbh
    rcases hmem a ha with ha | rfl
    · rcases hmem b hb with hb | rfl
      · exact h.single a ha b hb hah hbh
      · cases hbh.2.2
    · cases hah.2.2
  · rcases hmem c hc with hc | rfl
    · exact h.flagged c hc hf
    · exact absurd rfl hf
  · rcases hmem c hc with hc | rfl
    · exact h.handlers c hc
    · rintro st hst
      cases hst

end Events

section Keeps

/-- Who holds the lease and is still listed afterwards holds it still. -/
def KeepsHolders (cs cs' : Connections) : Prop :=
  ∀ c ∈ cs, ∃ c' ∈ cs', c'.id = c.id ∧ (c'.listed = true → c.listed = true) ∧
    (c.holds → c'.listed = true → c'.holds)

theorem KeepsHolders.refl (cs : Connections) : KeepsHolders cs cs :=
  fun c hc => ⟨c, hc, rfl, id, fun h _ => h⟩

theorem KeepsHolders.trans {cs cs' cs'' : Connections} (h : KeepsHolders cs cs')
    (h' : KeepsHolders cs' cs'') : KeepsHolders cs cs'' := by
  intro c hc
  obtain ⟨c', hc', hid, hl, hh⟩ := h c hc
  obtain ⟨c'', hc'', hid', hl', hh'⟩ := h' c' hc'
  exact ⟨c'', hc'', hid'.trans hid, fun h => hl (hl' h), fun hc h => hh' (hh hc (hl' h)) h⟩

theorem KeepsHolders.quiet {cs cs' : Connections} (hq : Table.Pointwise Quiet cs cs') :
    KeepsHolders cs cs' := by
  intro c hc
  obtain ⟨c', hc', hid, hq⟩ := hq.forward hc
  exact ⟨c', hc', hid, hq.listed, fun h hl => ⟨hl, hq.runs h.2.1, hq.held.trans h.2.2⟩⟩

theorem KeepsHolders.reconcile {cs : Connections} (h : SingleHolder cs) (name : String)
    (excludeId : Option String) :
    KeepsHolders cs (reconcileServeLease cs name excludeId).1 := by
  intro c hc
  obtain ⟨c', hc', hid, hf⟩ := (reconcileServeLease_spec cs name excludeId).1.forward hc
  refine ⟨c', hc', hid, ?_⟩
  by_cases hcand : c ∈ claimedServeConnections cs name excludeId none
  · obtain rfl := hf.candidate hcand
    refine ⟨id, fun hh _ => ⟨hh.1, hh.2.1, ?_⟩⟩
    rw [elects_incumbent cs name excludeId h hcand hh.2.2]
    rfl
  · obtain rfl := hf.other hcand
    exact ⟨id, fun hh _ => hh⟩

end Keeps

section Calls

/-- One call of `reconcileServeLease`, with the sockets it finds. -/
structure ElectionCall where
  sockets : Sockets
  name : String
  excludeId : Option String

/-- The call finds the sockets in order, and passes over no listed holder. -/
def ElectionCall.Fair (call : ElectionCall) : Prop :=
  Leased call.sockets ∧ ∀ c ∈ call.sockets.connections, c.holds → c.state.name = call.name →
    call.excludeId ≠ some c.id

/-- What the call is for. -/
structure ElectionCall.Elected (call : ElectionCall) : Prop where
  oneHolder : ∀ c₀ ∈ claimedServeConnections
      (call.sockets.reconcile call.name call.excludeId).connections call.name call.excludeId none,
    ∃! c, c ∈ claimedServeConnections
        (call.sockets.reconcile call.name call.excludeId).connections call.name call.excludeId none ∧
      c.principal = c₀.principal ∧ c.held = some true
  incumbent : ∀ c ∈ claimedServeConnections call.sockets.connections call.name call.excludeId none,
    c.held = some true →
    ∀ c' ∈ (call.sockets.reconcile call.name call.excludeId).connections, c'.id = c.id →
      c'.held = some true
  told : ∀ c ∈ claimedServeConnections
      (call.sockets.reconcile call.name call.excludeId).connections call.name call.excludeId none,
    ∃ held, c.held = some held ∧
      lastLease (call.sockets.reconcile call.name call.excludeId).sent c.id = some held
  notified : ∃ added,
    (call.sockets.reconcile call.name call.excludeId).sent = call.sockets.sent ++ added ∧
      ∀ c ∈ call.sockets.connections,
        ∀ c' ∈ (call.sockets.reconcile call.name call.excludeId).connections, c'.id = c.id →
          added.filter (fun f => f.1 = c.id) = if c'.held = c.held then []
            else [(c.id, .serveLease call.name (decide (c'.held = some true)))]

theorem filter_of_nodup {xs : List Connection} (h : (xs.map (·.id)).Nodup) {c : Connection}
    (hc : c ∈ xs) : xs.filter (fun x => x.id = c.id) = [c] := by
  induction xs with
  | nil => cases hc
  | cons x xs ih =>
    rw [List.map_cons, List.nodup_cons] at h
    by_cases hx : x.id = c.id
    · have hnone : xs.filter (fun x => x.id = c.id) = [] := by
        refine List.filter_eq_nil_iff.2 fun y hy hid => h.1 ?_
        rw [hx, ← of_decide_eq_true hid]
        exact List.mem_map_of_mem hy
      have hxc : x = c := by
        rcases List.mem_cons.1 hc with rfl | hc
        · rfl
        · exact absurd (hx ▸ List.mem_map_of_mem hc) h.1
      rw [List.filter_cons_of_pos (by simpa using hx), hnone, hxc]
    · rw [List.filter_cons_of_neg (by simpa using hx)]
      exact ih h.2 ((List.mem_cons.1 hc).resolve_left fun he => hx (he ▸ rfl))

theorem filter_notices {name : String} {holders : List String} {candidates : List Connection}
    (h : (candidates.map (·.id)).Nodup) {c : Connection} (hc : c ∈ candidates) :
    (notices name holders candidates).filter (fun f => f.1 = c.id) =
      if c.held = some (holders.contains c.id) then []
      else [(c.id, .serveLease name (holders.contains c.id))] := by
  have hcomm : (notices name holders candidates).filter (fun f => f.1 = c.id) =
      notices name holders (candidates.filter fun x => x.id = c.id) := by
    rw [notices, List.filter_map, List.filter_filter, notices, List.filter_filter]
    simp only [Function.comp_def, Bool.and_comm]
  rw [hcomm, filter_of_nodup h hc, notices]
  split_ifs with hflag
  · rw [List.filter_cons_of_neg (by simpa using hflag)]
    rfl
  · rw [List.filter_cons_of_pos (by simpa using hflag)]
    rfl

theorem filter_notices_other {name : String} {holders : List String}
    {candidates : List Connection} {id : String} (h : ∀ c ∈ candidates, c.id ≠ id) :
    (notices name holders candidates).filter (fun f => f.1 = id) = [] := by
  refine List.filter_eq_nil_iff.2 fun f hf hid => ?_
  obtain ⟨c, hc, rfl⟩ := List.mem_map.1 hf
  exact h c (List.mem_filter.1 hc).1 (of_decide_eq_true hid)

/-- A fair call elects. -/
theorem ElectionCall.Fair.elected {call : ElectionCall} (h : call.Fair) : call.Elected := by
  obtain ⟨hrows, hsent⟩ := reconcileServeLease_spec call.sockets.connections call.name
    call.excludeId
  refine ⟨fun c₀ h₀ => reconcile_one_holder _ _ _ h₀, fun c hc hh c' hc' hid => ?_, fun c hc => ?_,
    (reconcileServeLease call.sockets.connections call.name call.excludeId).2, rfl,
    fun c hc c' hc' hid => ?_⟩
  · obtain ⟨c₁, hc₁, hid₁, hf⟩ := hrows.backward hc'
    obtain rfl := Table.eq_of_key hc₁ (mem_claimedServe.1 hc).1 (hid₁.trans hid)
    rw [hf.candidate hc, elects_incumbent _ _ _ h.1.single hc hh]
    rfl
  · obtain ⟨c₁, hc₁, rfl⟩ := (mem_claimedServe_reconcile _ _ _).1 hc
    exact ⟨_, rfl, ((h.1.reconcile h.2).told _ (mem_claimedServe.1 hc).1).symm⟩
  · obtain ⟨c₁, hc₁, hid₁, hf⟩ := hrows.backward hc'
    obtain rfl := Table.eq_of_key hc₁ hc (hid₁.trans hid)
    rw [hsent]
    by_cases hcand : c₁ ∈ claimedServeConnections call.sockets.connections call.name call.excludeId
        none
    · have hheld : c'.held = some (elects call.sockets.connections call.name call.excludeId c₁) := by
        rw [hf.candidate hcand]
        rfl
      rw [filter_notices (candidates_nodup _ _ _) hcand, hheld, elects]
      generalize (holderIds _).contains c₁.id = elected
      by_cases he : c₁.held = some elected
      · rw [if_pos he, if_pos he.symm]
      · rw [if_neg he, if_neg (Ne.symm he)]
        simp
    · rw [hf.other hcand, if_pos rfl]
      refine filter_notices_other fun d hd hdid => hcand ?_
      rwa [← Table.eq_of_key (mem_claimedServe.1 hd).1 hc hdid]

end Calls

end AgentParty
