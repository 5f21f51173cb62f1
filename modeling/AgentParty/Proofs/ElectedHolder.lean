import AgentParty.Lib.Sorting
import AgentParty.Proofs.ServeLease
import Mathlib.Data.List.Lex

/-! The holder test of a runner's report. It takes the first v1 claimant of the
principal, while the election keeps the incumbent. -/

namespace AgentParty

theorem localeLe_total (a b : String) : localeLe a b = true ∨ localeLe b a = true := by
  simp only [localeLe, Bool.or_eq_true, Bool.and_eq_true, decide_eq_true_eq, Bool.not_eq_true',
    decide_eq_false_iff_not, not_lt]
  rcases lt_trichotomy (a.toList.map fun c => (collationWeight c).1)
    (b.toList.map fun c => (collationWeight c).1) with h | h | h
  · exact Or.inl (Or.inl h)
  · rcases le_total (a.toList.map fun c => (collationWeight c).2)
      (b.toList.map fun c => (collationWeight c).2) with hle | hle
    · exact Or.inl (Or.inr ⟨h, hle⟩)
    · exact Or.inr (Or.inr ⟨h.symm, hle⟩)
  · exact Or.inr (Or.inl h)

theorem localeLe_trans {a b c : String} (hab : localeLe a b = true) (hbc : localeLe b c = true) :
    localeLe a c = true := by
  simp only [localeLe, Bool.or_eq_true, Bool.and_eq_true, decide_eq_true_eq, Bool.not_eq_true',
    decide_eq_false_iff_not, not_lt] at hab hbc ⊢
  rcases hab with hab | ⟨hab, hab'⟩
  · rcases hbc with hbc | ⟨hbc, -⟩
    · exact Or.inl (hab.trans hbc)
    · exact Or.inl (hbc ▸ hab)
  · rcases hbc with hbc | ⟨hbc, hbc'⟩
    · exact Or.inl (hab ▸ hbc)
    · exact Or.inr ⟨hab.trans hbc, hab'.trans hbc'⟩

section ClaimOrder

variable (claimSeq : ConnState → Option ℕ)

theorem claimOrder_total (a b : Connection) : claimOrder claimSeq a b ∨ claimOrder claimSeq b a := by
  unfold claimOrder
  rcases lt_trichotomy ((claimSeq a.state).getD MAX_SAFE_INTEGER)
    ((claimSeq b.state).getD MAX_SAFE_INTEGER) with h | h | h
  · exact Or.inl (Or.inl h)
  · exact (localeLe_total a.id b.id).imp (fun hl => Or.inr ⟨h, hl⟩) fun hl => Or.inr ⟨h.symm, hl⟩
  · exact Or.inr (Or.inl h)

theorem claimOrder_trans (a b c : Connection) (hab : claimOrder claimSeq a b)
    (hbc : claimOrder claimSeq b c) : claimOrder claimSeq a c := by
  unfold claimOrder at *
  rcases hab with hab | ⟨hab, hab'⟩
  · rcases hbc with hbc | ⟨hbc, -⟩
    · exact Or.inl (hab.trans hbc)
    · exact Or.inl (hbc ▸ hab)
  · rcases hbc with hbc | ⟨hbc, hbc'⟩
    · exact Or.inl (hab ▸ hbc)
    · exact Or.inr ⟨hab.trans hbc, localeLe_trans hab' hbc'⟩

end ClaimOrder

namespace Connection

/-- A v1 claimant for the work of the same principal. -/
def rivals (c d : Connection) : Bool :=
  d.runs && d.state.directedDeliveryV1 && d.state.name = c.state.name && d.principal = c.principal

end Connection

namespace Connections

theorem serveLeaseCandidates_eq (cs : Connections) (c : Connection) :
    serveLeaseCandidates cs c.state.name none (some c.principal) =
      ((getConnections cs).filter c.rivals).insertionSort (claimOrder (·.serveClaimSeq)) := by
  rw [serveLeaseCandidates, claimedServeConnections,
    List.filter_insertionSort (claimOrder_total _) (claimOrder_trans _), List.filter_filter]
  congr 1
  refine List.filter_congr fun d _ => ?_
  simp only [Connection.rivals, Connection.runs, Connection.principal, excluded, ofPrincipal,
    Bool.not_false, Bool.true_and]
  ac_rfl

/-- No listed v1 claimant of its principal comes before the connection. -/
def FirstClaimant (cs : Connections) (c : Connection) : Prop :=
  (getConnections cs).Foremost (claimOrder (·.serveClaimSeq)) (fun d => c.rivals d = true) c

/-- The holder test passes for the first claimant only. -/
theorem electedHolder_iff {cs : Connections} {c : Connection} (hc : c ∈ cs)
    (hruns : c.runs = true) (hv1 : c.state.directedDeliveryV1 = true) :
    Ledger.electedHolder cs c.state c.id = true ↔ FirstClaimant cs c := by
  have hself : c.rivals c = true := by simp [Connection.rivals, hruns, hv1]
  have hcand : c.state.serveCandidate = true := (Connection.runs_iff.1 hruns).1
  rw [FirstClaimant, ← List.foremost_filter hself,
    ← List.head?_insertionSort (claimOrder_total _) (claimOrder_trans _),
    ← serveLeaseCandidates_eq]
  simp only [Ledger.electedHolder, hcand, Bool.not_true, Bool.false_or]
  change Option.any _ (serveLeaseCandidates cs c.state.name none (some c.principal)).head? = true ↔ _
  constructor
  · intro h
    obtain ⟨d, hd, hid⟩ := (Option.any_eq_true _ _).1 h
    have hmem : d ∈ cs := by
      have := List.mem_of_head? hd
      rw [serveLeaseCandidates_eq, List.mem_insertionSort] at this
      exact (List.mem_filter.1 (List.mem_filter.1 this).1).1
    rw [hd, Table.eq_of_key hmem hc (by simpa using hid)]
  · intro h
    simp [h]

end Connections

namespace Ledger

/-- An active row that connection `c` leases as a serve adapter, and a report that the
run has started. `parseDeliveryUpdateFrame` lets no reply into such a report. -/
structure Reports (l : Ledger) (c : Connection) (row : Delivery) (u : DeliveryUpdateFrame) :
    Prop where
  mem : row ∈ l.deliveries
  active : row.active = true
  adapter : row.leaseAdapter = some .serve
  lease : row.leaseConnectionId = some c.id
  target : c.state.identityMatchesDeliveryTarget row = true
  delivery : u.deliveryId = row.id
  running : u.state = .running
  replySeq : u.replySeq = none
  assignment : u.matchesRow row = true

variable {l : Ledger} {cs : Connections} {c : Connection} {row : Delivery} {u : DeliveryUpdateFrame}

/-- Behind the ownership checks only the holder test is left. -/
theorem Reports.update_eq (h : l.Reports c row u) (cs : Connections) (now : Int) :
    l.applyDirectedDeliveryUpdate cs c.state c.id u now =
      if electedHolder cs c.state c.id = true then l.applyOwnedUpdate c.state c.id u row now
      else (l, false) := by
  have hrow : l.directedDeliveryRow u.deliveryId = some row := by
    rw [directedDeliveryRow, h.delivery]
    exact Table.get?_key h.mem
  have hown : text row.leaseConnectionId = c.id := by rw [h.lease, text, Option.getD_some]
  unfold applyDirectedDeliveryUpdate
  rw [hrow]
  rcases Delivery.active_iff.1 h.active with hs | hs <;>
    cases he : electedHolder cs c.state c.id <;>
      simp [h.target, h.assignment, hs, hown]

/-- The report keeps the row running for another lease. -/
theorem Reports.owned (h : l.Reports c row u) (now : Int) :
    (l.applyOwnedUpdate c.state c.id u row now).2 = true ∧
      runningRow (now + DIRECTED_DELIVERY_LEASE_MS) now row ∈
        (l.applyOwnedUpdate c.state c.id u row now).1.deliveries := by
  have hguard : (decide (row.id = u.deliveryId) && (c.state.boundTo row &&
      decide (row.leaseConnectionId = some c.id) && row.active)) = true := by
    simp [h.delivery, boundTo_of_matches h.target, h.lease, h.active]
  have hmem : runningRow (now + DIRECTED_DELIVERY_LEASE_MS) now row ∈
      (l.updateDelivery u.deliveryId (fun r => c.state.boundTo r &&
        r.leaseConnectionId = some c.id && r.active)
        (runningRow (now + DIRECTED_DELIVERY_LEASE_MS) now) (runningRow_id _ _)).deliveries :=
    (Table.mem_update (runningRow_id _ _)).2 ⟨row, h.mem, by rw [if_pos hguard]⟩
  have hlinked : u.replyLinked l c.state.toIdentity row = true := by
    simp [DeliveryUpdateFrame.replyLinked, h.replySeq]
  have hget := Table.get?_key hmem
  rw [runningRow_id, ← h.delivery] at hget
  have howned : l.applyOwnedUpdate c.state c.id u row now =
      (l.updateDelivery u.deliveryId (fun r => c.state.boundTo r &&
        r.leaseConnectionId = some c.id && r.active)
        (runningRow (now + DIRECTED_DELIVERY_LEASE_MS) now) (runningRow_id _ _), true) := by
    rcases Delivery.active_iff.1 h.active with hs | hs <;>
      simp [applyOwnedUpdate, hs, h.running, hlinked, directedDeliveryRow, hget, runningRow]
  rw [howned]
  exact ⟨rfl, hmem⟩

end Ledger

namespace Room

open Connections

/-- The run goes on with the report of a v1 holder. The room accepts it exactly when the
holder is also the first claimant; the lease then starts anew. -/
theorem holder_report_accepted {evs : List Event} {r : Room} {c : Connection} {row : Delivery}
    {u : DeliveryUpdateFrame} (h : Run initial evs r) (hc : c ∈ r.sockets.connections)
    (hholds : c.holds) (hv1 : c.state.directedDeliveryV1 = true) (hu : r.ledger.Reports c row u)
    (now : Int) :
    ∃ r', Run initial (evs ++ [Event.update c.state c.id u now]) r' ∧
      ((r.ledger.applyDirectedDeliveryUpdate r.sockets.connections c.state c.id u now).2 = true ↔
        FirstClaimant r.sockets.connections c) ∧
      (FirstClaimant r.sockets.connections c →
        Ledger.runningRow (now + DIRECTED_DELIVERY_LEASE_MS) now row ∈ r'.ledger.deliveries) := by
  have hstep : Step r (.update c.state c.id u now) (r.next (.update c.state c.id u now)) :=
    ⟨by simp [Ready, mints, Enabled], rfl⟩
  have hholder := electedHolder_iff hc hholds.2.1 hv1
  obtain ⟨haccepted, hmem⟩ := hu.owned now
  have hupdate := hu.update_eq r.sockets.connections now
  refine ⟨_, h.snoc hstep, ?_, ?_⟩
  · rw [← hholder, hupdate]
    split_ifs with he
    · simp [he, haccepted]
    · simp [he]
  · intro hfirst
    rw [if_pos (hholder.2 hfirst)] at hupdate
    simpa [next, apply, hupdate] using hmem

/-! `b` is elected when `a` goes and takes the delivery; then `d`, which claimed before
`b`, says hello as a v1 runner. -/

def failedOver : List Event :=
  joins "a" false ++ joins "d" false ++ joins "b" true ++
    [Event.socket (.closeHandled "a" []), .send mentionBot] ++ dispatchEvents tokenUuid 1

def upgraded : List Event :=
  failedOver ++
    [Event.socket (.frameBegins "d"), .socket (.hello "d" true true 0), .socket (.frameEnds "d")]

/-- The holder `b` as its connection stands. -/
def heldByB : Connection where
  id := "b"
  state := { botState with serveClaimSeq := some 3, helloDeadlineAt := some HELLO_TIMEOUT_MS }
  listed := true
  closed := false
  handler := none

theorem failedOver_reports : ∃ row ∈ (initial.exec failedOver).ledger.deliveries,
    (initial.exec failedOver).ledger.Reports heldByB row reportRunning := by
  have hrow : ∃ row ∈ (initial.exec failedOver).ledger.deliveries, row.active = true ∧
      row.leaseAdapter = some .serve ∧ row.leaseConnectionId = some heldByB.id ∧
      heldByB.state.identityMatchesDeliveryTarget row = true ∧
      reportRunning.deliveryId = row.id ∧ reportRunning.matchesRow row = true := by decide
  obtain ⟨row, hmem, h1, h2, h3, h4, h5, h6⟩ := hrow
  exact ⟨row, hmem, hmem, h1, h2, h3, h4, h5, rfl, rfl, h6⟩

theorem upgraded_deliveries :
    (initial.exec upgraded).ledger.deliveries = (initial.exec failedOver).ledger.deliveries := by
  rfl

theorem holder_report_accepted_failedOver :
    ∃ row ∈ (initial.exec failedOver).ledger.deliveries,
      ∃ r', Run initial (failedOver ++ [Event.update heldByB.state "b" reportRunning 2]) r' ∧
        Ledger.runningRow (2 + DIRECTED_DELIVERY_LEASE_MS) 2 row ∈ r'.ledger.deliveries := by
  obtain ⟨row, hmem, hu⟩ := failedOver_reports
  have hmemb : heldByB ∈ (initial.exec failedOver).sockets.connections.rows := by decide
  have hrun : Run initial failedOver (initial.exec failedOver) := run_exec (by decide)
  have haccepted : ((initial.exec failedOver).ledger.applyDirectedDeliveryUpdate
      (initial.exec failedOver).sockets.connections heldByB.state heldByB.id reportRunning
      2).2 = true := by decide
  obtain ⟨r', hrun', hiff, hlease⟩ :=
    holder_report_accepted hrun hmemb (by decide) rfl hu 2
  exact ⟨row, hmem, r', hrun', hlease (hiff.1 haccepted)⟩

/-- The report of the holder `b` is refused once `d` runs v1. -/
theorem upgraded_claimant_shadows :
    ¬ ∀ (evs : List Event) (r : Room) (c : Connection) (row : Delivery) (u : DeliveryUpdateFrame)
      (now : Int), Run initial evs r → c ∈ r.sockets.connections → c.closed = false → c.holds →
      c.state.directedDeliveryV1 = true → r.ledger.Reports c row u →
      (r.ledger.applyDirectedDeliveryUpdate r.sockets.connections c.state c.id u now).2 = true := by
  intro h
  obtain ⟨row, -, hu⟩ := failedOver_reports
  have hu' : (initial.exec upgraded).ledger.Reports heldByB row reportRunning :=
    { hu with mem := upgraded_deliveries ▸ hu.mem }
  have hmem : heldByB ∈ (initial.exec upgraded).sockets.connections.rows := by decide
  have haccepted := h upgraded (initial.exec upgraded) heldByB row reportRunning 2
    (run_exec (by decide)) hmem rfl (by decide) rfl hu'
  revert haccepted
  decide

end Room

end AgentParty
