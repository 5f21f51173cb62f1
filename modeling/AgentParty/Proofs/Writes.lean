import AgentParty.Delivery.Dispatch
import AgentParty.Delivery.Tree
import AgentParty.Delivery.Update
import AgentParty.Delivery.Webhook
import AgentParty.Lib.Run
import AgentParty.Proofs.Settlement

/-! The statements of the ledger. Every operation is a sequence of `Write`s, each
with the guard its WHERE clause or the code before it has established; what a
claim needs to know of an operation is which writes it may contain. -/

namespace AgentParty

/-- No recovery policy and no redelivery reopens a row that failed for this reason. -/
def DeliveryTerminalReason.final : DeliveryTerminalReason → Bool
  | .unknownOutcome | .webhookDeliveryFailed => false
  | _ => true

/-- Parked, answered, or failed for good: the row takes no lease again. -/
def Delivery.released (r : Delivery) : Bool :=
  r.state = .waitingOwner || r.state = .replied ||
    (r.state = .failed && r.terminalReason.any (·.final))

/-- Queued or claimed: the work of the row has not started. -/
def Delivery.unstarted (r : Delivery) : Bool := r.state = .queued || r.state = .claimed

namespace Ledger

/-- A lineage value that `activeDecisionDelivery` keeps. -/
def Usable (limit : ℕ) (stored : Option String) : Prop :=
  text stored ≠ "" ∧ jsLength (text stored) ≤ limit

/-- The guarded row updates of a lease that is held or has ended. -/
inductive Rewrite : Delivery → Delivery → Prop
  | starts {r : Delivery} (leaseUntil now : Int) (h : r.active = true) :
      Rewrite r (runningRow leaseUntil now r)
  | heartbeats {r : Delivery} (leaseUntil now : Int) (h : r.state = .running) :
      Rewrite r (heartbeatRow leaseUntil now r)
  | renews {r : Delivery} (leaseUntil now : Int) (h : r.state = .claimed) :
      Rewrite r (renewedRow leaseUntil now r)
  | requeues {r : Delivery} (now : Int) (h : r.state = .claimed) : Rewrite r (requeuedRow now r)
  | parks {r : Delivery} (now : Int) (h : r.active = true) : Rewrite r (parkedRow now r)
  | mints {r : Delivery} (workId continuationRef : String) (h : r.active = true)
      (hw : Usable DELIVERY_WORK_ID_LIMIT r.workId → workId = text r.workId)
      (hc : Usable DELIVERY_CONTINUATION_REF_LIMIT r.continuationRef →
        continuationRef = text r.continuationRef) :
      Rewrite r (mintedRow workId continuationRef r)

/-- The row updates of a sweep. -/
inductive Purge : Delivery → Delivery → Prop
  | reclassifies {r : Delivery} (failure : DeliveryFailure) (now : Int) (h : r.state = .failed)
      (hf : failure.terminalReason.final = true) : Purge r (reclassifiedRow failure now r)
  | scrubs {r : Delivery} : Purge r (scrubbedRow r)

/-- The row updates of a recovery; `hf` holds behind a replay-safe frame only. -/
inductive Takeover (l : Ledger) (f : DeliveryRecoverFrame) : Delivery → Delivery → Prop
  | defers {r : Delivery} (now : Int) (hf : f.replaySafe = true) (hs : r.state = .failed)
      (hr : r.terminalReason = some .unknownOutcome) : Takeover l f r (deferredRow now r)
  | revives {r : Delivery} (connectionId : String) (adapter : Option LeaseAdapter) (now : Int)
      (hf : f.replaySafe = true)
      (hs : r.state = .running ∨ (r.state = .failed ∧ r.terminalReason = some .unknownOutcome))
      (hx : r.state = .failed →
        ∀ r' ∈ l.deliveries, r'.active = true → r'.target = r.target → r'.id = r.id) :
      Takeover l f r (revivedRow connectionId adapter f.nextLeaseToken now r)
  | rotates {r : Delivery} (connectionId : String) (now : Int) (hs : r.active = true) :
      Takeover l f r (rotatedRow connectionId f.nextLeaseToken now r)

/-- A message row across an edit: its decision columns stay or go. -/
structure MessageEdit (m m' : Message) : Prop where
  decisionRequest : m'.decisionRequest = m.decisionRequest ∨ m'.decisionRequest = none
  decisionResponse : m'.decisionResponse = m.decisionResponse ∨ m'.decisionResponse = none

/-- The lineage of a pending or answered question. -/
def Message.requestLineage (m : Message) : Option DecisionLineage :=
  (m.decisionRequest.bind (·.parsed)).bind (·.lineage)

def Message.responseLineage (m : Message) : Option DecisionLineage :=
  m.decisionResponse.bind (·.lineage)

/-- The ids that rows and messages of the ledger refer to. -/
def Mentions (l : Ledger) (id : String) : Prop :=
  (∃ r ∈ l.deliveries, r.id = id ∨ r.parentDeliveryId = some id) ∨
    ∃ m ∈ l.messages, ∃ lineage, (Message.requestLineage m = some lineage ∨
      Message.responseLineage m = some lineage) ∧ lineage.deliveryId = id

/-- What distinguishes the writes for those who rely on them. -/
inductive Tag
  | plain
  | forgets
  | purges
  | closes
  | completes (id : String)
  | enqueues (id : String)
  | answers (id : String)
  | takes (id : String)
  | recovers (f : DeliveryRecoverFrame)
  | reclaims (id : String)

def Tag.isPlain (t : Tag) : Prop := t = .plain

/-- The new primary key a write brings in. -/
def Tag.created : Tag → Option String
  | .enqueues id | .answers id => some id
  | _ => none

/-- The parent of a new answer, as `exactDecisionSource` found it. -/
structure AnswersFor (l : Ledger) (a : Delivery) : Prop where
  cause : a.cause = .ownerAnswer
  /-- Either the question had no lineage, or the row carries all of it. -/
  response : ∃ resp, l.storedResponse a.messageSeq = some resp ∧
    match resp.lineage with
    | none => a.parentDeliveryId = none
    | some lineage =>
      a.parentDeliveryId = some lineage.deliveryId ∧ a.workId = some lineage.workId ∧
        a.continuationRef = some lineage.continuationRef ∧
        Usable DELIVERY_WORK_ID_LIMIT a.workId ∧
        Usable DELIVERY_CONTINUATION_REF_LIMIT a.continuationRef ∧
        ∀ p ∈ l.deliveries, p.id = lineage.deliveryId →
          p.released = true ∧ p.messageSeq = lineage.originSeq

inductive Write : Ledger → Tag → Ledger → Prop
  | rewrite {l : Ledger} (id : String) (g : Delivery → Bool) (f : Delivery → Delivery)
      (hf : ∀ r, (f r).id = r.id)
      (h : ∀ r ∈ l.deliveries, r.id = id → g r = true → Rewrite r (f r)) :
      Write l .plain (l.updateDelivery id g f hf)
  | purge {l : Ledger} (id : String) (g : Delivery → Bool) (f : Delivery → Delivery)
      (hf : ∀ r, (f r).id = r.id)
      (h : ∀ r ∈ l.deliveries, r.id = id → g r = true → Purge r (f r)) :
      Write l .purges (l.updateDelivery id g f hf)
  | close {l : Ledger} (id : String) (now : Int) (o : TerminalOptions)
      (hs : DeliveryState.replied ∉ o.expectedStates)
      (hw : DeliveryState.waitingOwner ∈ o.expectedStates →
        (o.terminalReason.getD .deliveryFailed).final = true) :
      Write l .closes (l.transitionDirectedDeliveryTerminal id .failed now o).1
  | complete {l : Ledger} (id : String) (now : Int) (o : TerminalOptions)
      (hs : DeliveryState.waitingOwner ∉ o.expectedStates) :
      Write l (.completes id) (l.transitionDirectedDeliveryTerminal id .replied now o).1
  | enqueue {l : Ledger} (r : Delivery) (hs : r.state = .queued) (hc : r.cause ≠ .ownerAnswer)
      (ht : r.leaseToken = none) (hm : ∃ m ∈ l.messages, m.seq = r.messageSeq)
      (hp : ∀ p, r.parentDeliveryId = some p → l.Mentions p) :
      Write l (.enqueues r.id) { l with deliveries := l.deliveries.insert r }
  | answer {l : Ledger} (r : Delivery) (hs : r.state = .queued) (h : l.AnswersFor r)
      (ht : r.leaseToken = none) (hm : ∃ m ∈ l.messages, m.seq = r.messageSeq)
      (hp : ∀ p, r.parentDeliveryId = some p → l.Mentions p) :
      Write l (.answers r.id) { l with deliveries := l.deliveries.insert r }
  | forget {l : Ledger} (p : Delivery → Bool) : Write l .forgets (l.deleteDeliveries p)
  | store {l : Ledger} (m : Message) (hm : ∀ m' ∈ l.messages, m'.seq < m.seq)
      (hl : ∀ lineage, Message.requestLineage m = some lineage ∨
        Message.responseLineage m = some lineage → l.Mentions lineage.deliveryId)
      (hu : ∀ lineage, Message.requestLineage m = some lineage →
        jsLength lineage.workId ≤ DELIVERY_WORK_ID_LIMIT ∧
          jsLength lineage.continuationRef ≤ DELIVERY_CONTINUATION_REF_LIMIT) :
      Write l .plain { l with messages := l.messages.insert m }
  | edit {l : Ledger} (messages : Messages) (revSeq : ℕ)
      (h : Table.Pointwise MessageEdit l.messages messages) :
      Write l .plain { l with messages := messages, revSeq := revSeq }
  | drop {l : Ledger} (p : Message → Bool)
      (h : ∀ m ∈ l.messages, p m = true → ∀ r ∈ l.deliveries, r.messageSeq ≠ m.seq) :
      Write l .plain { l with messages := l.messages.delete p }
  | record {l : Ledger} (h : LeaseHistory) : Write l .plain (l.recordLease h)
  | take {l : Ledger} (id : String) (g : Delivery → Bool) (state : DeliveryState)
      (adapter : LeaseAdapter) (token : Option String) (holderId : String) (leaseUntil now : Int)
      (h : ∀ r ∈ l.deliveries, r.id = id → g r = true → r.state = .queued ∧
        ∀ r' ∈ l.deliveries, r'.active = true → r'.target ≠ r.target) :
      Write l (.takes id) (l.updateDelivery id g
        (claimedRow state adapter token holderId leaseUntil now) (claimedRow_id _ _ _ _ _ _))
  | recover {l : Ledger} (f : DeliveryRecoverFrame) (g : Delivery → Bool)
      (u : Delivery → Delivery) (hu : ∀ r, (u r).id = r.id)
      (h : ∀ r ∈ l.deliveries, r.id = f.deliveryId → g r = true →
        Takeover l f r (u r) ∧ assignmentOf f r = true ∧
          ⟨f.deliveryId, f.attempt, f.leaseEpoch, text r.leaseToken⟩ ∈ l.leaseHistory) :
      Write l (.recovers f) (l.updateDelivery f.deliveryId g u hu)
  | reclaim {l : Ledger} (id : String) (g : Delivery → Bool) (holder : String)
      (leaseUntil now : Int)
      (h : ∀ r ∈ l.deliveries, r.id = id → g r = true →
        r.state = .failed ∧ r.terminalReason = some .webhookDeliveryFailed) :
      Write l (.reclaims id) (l.updateDelivery id g (reclaimedRow holder leaseUntil now)
        (reclaimedRow_id _ _ _))

/-- A run of writes whose tags meet `P`, with the primary keys it creates among `ids`. -/
def Writes (P : Tag → Prop) (ids : List String) (l l' : Ledger) : Prop :=
  ∃ tags, EventSystem.Run Write l tags l' ∧ (∀ t ∈ tags, P t) ∧
    (tags.filterMap Tag.created).Sublist ids

section Writes

variable {P Q : Tag → Prop} {ids ids' : List String} {l l' l'' : Ledger}

theorem Writes.refl (l : Ledger) : Writes P [] l l :=
  ⟨[], EventSystem.Run.nil, by simp, by simp⟩

theorem Writes.single {t : Tag} (h : Write l t l') (ht : P t) : Writes P t.created.toList l l' :=
  ⟨[t], EventSystem.Run.single h, by simpa using ht, by cases hc : t.created <;> simp [hc]⟩

theorem Writes.trans (h : Writes P ids l l') (h' : Writes P ids' l' l'') :
    Writes P (ids ++ ids') l l'' := by
  obtain ⟨tags, hr, hp, hs⟩ := h
  obtain ⟨tags', hr', hp', hs'⟩ := h'
  refine ⟨tags ++ tags', hr.append hr', ?_, ?_⟩
  · intro t ht
    exact (List.mem_append.1 ht).elim (hp t) (hp' t)
  · rw [List.filterMap_append]
    exact hs.append hs'

/-- Writes that create nothing, then more. -/
theorem Writes.seq (h : Writes P [] l l') (h' : Writes P ids l' l'') : Writes P ids l l'' :=
  h.trans h'

theorem Writes.mono (hPQ : ∀ t, P t → Q t) (h : Writes P ids l l') : Writes Q ids l l' := by
  obtain ⟨tags, hr, hp, hs⟩ := h
  exact ⟨tags, hr, fun t ht => hPQ t (hp t ht), hs⟩

theorem Writes.ids_mono (hs : ids.Sublist ids') (h : Writes P ids l l') : Writes P ids' l l' := by
  obtain ⟨tags, hr, hp, hs'⟩ := h
  exact ⟨tags, hr, hp, hs'.trans hs⟩

theorem Writes.foldl {α : Type*} {f : Ledger → α → Ledger} {as : List α}
    (h : ∀ l, ∀ a ∈ as, Writes P [] l (f l a)) (l : Ledger) : Writes P [] l (as.foldl f l) := by
  induction as generalizing l with
  | nil => exact Writes.refl l
  | cons a as ih =>
    exact (h l a List.mem_cons_self).trans
      (ih (fun l b hb => h l b (List.mem_cons_of_mem _ hb)) (f l a))

/-- The induction rule for writes: an invariant over the keys seen so far. -/
theorem Writes.invariant {I : List String → Ledger → Prop}
    (hmono : ∀ {seen seen' : List String} {l : Ledger}, seen ⊆ seen' → I seen l → I seen' l)
    (hstep : ∀ {seen : List String} {l l' : Ledger} {t : Tag}, I seen l → P t → Write l t l' →
      (∀ id ∈ t.created, id ∉ seen) → I (seen ++ t.created.toList) l')
    {seen : List String} (hi : I seen l) (hn : ids.Nodup) (hfresh : ∀ id ∈ ids, id ∉ seen)
    (h : Writes P ids l l') : I (seen ++ ids) l' := by
  obtain ⟨tags, hr, hp, hs⟩ := h
  have hsub : seen ++ tags.filterMap Tag.created ⊆ seen ++ ids := fun x hx =>
    (List.mem_append.1 hx).elim (List.mem_append_left _)
      fun h => List.mem_append_right _ (hs.subset h)
  refine hmono hsub ?_
  have hn' := hs.nodup hn
  have hfresh' : ∀ id ∈ tags.filterMap Tag.created, id ∉ seen := fun id h => hfresh id (hs.subset h)
  clear hs hn hfresh hsub
  induction hr with
  | nil => simpa using hi
  | @snoc evs t t' e _ hw ih =>
    rw [List.filterMap_append] at hn' hfresh' ⊢
    obtain ⟨hn1, -, hdis⟩ := List.nodup_append.1 hn'
    have hlast : List.filterMap Tag.created [e] = e.created.toList := by
      cases hc : e.created <;> simp [hc]
    rw [hlast] at hdis hfresh' ⊢
    rw [← List.append_assoc]
    refine hstep (ih (fun t ht => hp t (List.mem_append_left _ ht)) hn1
      fun id h => hfresh' id (List.mem_append_left _ h)) (hp e (by simp)) hw ?_
    intro id hid hmem
    have hidl : id ∈ e.created.toList := by simpa using hid
    rcases List.mem_append.1 hmem with h | h
    · exact hfresh' id (List.mem_append_right _ hidl) h
    · exact hdis id h id hidl rfl

end Writes

end Ledger
end AgentParty
