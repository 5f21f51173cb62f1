import AgentParty.Proofs.Steps

/-! At most one active row per principal. A claim and the revival of a failed row
check for another active row first; every other write leaves an active row where
there was one. -/

namespace AgentParty
open Ledger

namespace Ledger

/-- No two active rows share a target name and a target owner. -/
def Exclusive (l : Ledger) : Prop :=
  ∀ a ∈ l.deliveries, ∀ b ∈ l.deliveries, a.active = true → b.active = true →
    a.target = b.target → a = b

/-- Active rows that all come from active rows, except at most one that found no
other active row on its queue. -/
theorem Exclusive.of_origins {l l' : Ledger} (hx : l.Exclusive) (id : String)
    (h : ∀ r' ∈ l'.deliveries, r'.active = true → ∃ r ∈ l.deliveries, r.id = r'.id ∧
      r.target = r'.target ∧ (r.active = true ∨ (r.id = id ∧
        ∀ x ∈ l.deliveries, x.active = true → x.target = r.target → x.id = r.id))) :
    l'.Exclusive := by
  intro a' ha' b' hb' haa hba ht
  obtain ⟨a, ha, haid, hat, hacase⟩ := h a' ha' haa
  obtain ⟨b, hb, hbid, hbt, hbcase⟩ := h b' hb' hba
  have htarget : a.target = b.target := by rw [hat, ht, hbt]
  have hid : a.id = b.id := by
    rcases hacase with hact | ⟨hai, halone⟩ <;> rcases hbcase with hbct | ⟨hbi, hblone⟩
    · rw [hx a ha b hb hact hbct htarget]
    · exact hblone a ha hact htarget
    · exact (halone b hb hbct htarget.symm).symm
    · rw [hai, hbi]
  exact Table.eq_of_key ha' hb' (haid.symm.trans (hid.trans hbid))

theorem Continues.exclusive {l l' : Ledger} {ids : List String} (hx : l.Exclusive)
    (h : Continues Steady ids l l') : l'.Exclusive := by
  refine hx.of_origins "" fun r' hr' ha => ?_
  rcases h r' hr' with ⟨r, hr, hid, hst⟩ | ⟨-, r, hq, -, hst⟩
  · exact ⟨r, hr, hid, hst.target.symm, Or.inl (hst.active ha)⟩
  · have := hst.active ha
    simp [Delivery.active, hq] at this

theorem Write.exclusive {l l' : Ledger} {t : Tag} (h : Write l t l')
    (ht : ∀ id, t ≠ .reclaims id) (hx : l.Exclusive) : l'.Exclusive := by
  cases hst : t.steady with
  | true => exact (h.steady hst).exclusive hx
  | false =>
    cases h with
    | take id g state adapter token holderId leaseUntil now h =>
      refine hx.of_origins id fun r' hr' ha => ?_
      obtain ⟨r, hr, rfl⟩ := mem_updateDelivery.1 hr'
      split_ifs with hg
      · refine ⟨r, hr, rfl, rfl, Or.inr ⟨hg.1, fun x hx ha ht => ?_⟩⟩
        exact absurd ht ((h r hr hg.1 hg.2).2 x hx ha)
      · rw [if_neg hg] at ha
        exact ⟨r, hr, rfl, rfl, Or.inl ha⟩
    | recover f g u hu h =>
      refine hx.of_origins f.deliveryId fun r' hr' ha => ?_
      obtain ⟨r, hr, rfl⟩ := mem_updateDelivery.1 hr'
      split_ifs with hg
      · rw [if_pos hg] at ha
        obtain ⟨htake, -, -⟩ := h r hr hg.1 hg.2
        refine ⟨r, hr, (hu r).symm, (kept_takeover htake).target.symm, ?_⟩
        generalize u r = r' at htake ha
        cases htake with
        | defers => simp [deferredRow, Delivery.active] at ha
        | revives _ _ _ _ hs halone =>
          rcases hs with hs | ⟨hs, -⟩
          · exact Or.inl (Delivery.active_iff.2 (Or.inr hs))
          · exact Or.inr ⟨hg.1, halone hs⟩
        | rotates _ _ hs => exact Or.inl hs
      · rw [if_neg hg] at ha
        exact ⟨r, hr, rfl, rfl, Or.inl ha⟩
    | reclaim id => exact absurd rfl (ht id)
    | _ => simp [Tag.steady] at hst

end Ledger

namespace Room

/-- The events of the delivery machine proper: no operator redelivers a dead letter. -/
def IsRedelivery : Event → Prop
  | .redeliveryStarts _ _ => True
  | _ => False

theorem permits_reclaims {r : Room} {e : Event} {id : String} (h : r.permits e (.reclaims id)) :
    ∃ item now, e = .redeliveryStarts item now ∧ id = item.payload.deliveryId := by
  cases e <;>
    simp [permits, Tag.settles, Tag.sends, Tag.prunes, Tag.isPlain, Tag.responds, Tag.sweeps,
      Tag.recoversWith, Completes] at h
  exact ⟨_, _, rfl, h⟩

theorem step_exclusive {r r' : Room} {e : Event} (h : r.Sound) (he : ¬ IsRedelivery e)
    (hx : r.ledger.Exclusive) (hs : Step r e r') : r'.ledger.Exclusive := by
  obtain ⟨tags, hrun, hp, -⟩ := step_writes h hs
  generalize r'.ledger = l at hrun ⊢
  induction hrun with
  | nil => exact hx
  | @snoc evs l l' t _ hw ih =>
    refine hw.exclusive ?_ (ih fun t ht => hp t (List.mem_append_left _ ht))
    rintro id rfl
    obtain ⟨item, now, rfl, -⟩ := permits_reclaims (hp (.reclaims id) (by simp))
    exact he trivial

/-- At most one active work item per principal, over every run. -/
theorem one_active_per_principal {evs : List Event} {r : Room} (h : Run initial evs r)
    (hev : ∀ e ∈ evs, ¬ IsRedelivery e) : r.ledger.Exclusive := by
  induction h with
  | nil => exact fun a ha => absurd ha (Table.not_mem_empty a)
  | @snoc evs t t' e hrun hs ih =>
    exact step_exclusive (Reachable.sound ⟨evs, hrun⟩) (hev e (by simp))
      (ih fun e he => hev e (List.mem_append_left _ he)) hs

/-! A small channel: `alice` mentions `bot`, whose connection has the serve lease. -/

def alice : Identity := ⟨"alice", .human, some "acme", "a1"⟩

def bot : Identity := ⟨"bot", .agent, some "acme", "b2"⟩

def deliveryUuid : Uuid := ⟨"0b7f7c51-8b54-4a0e-9a1d-2f6a3c9d0001", by decide⟩

def workUuid : Uuid := ⟨"0b7f7c51-8b54-4a0e-9a1d-2f6a3c9d0002", by decide⟩

def continuationUuid : Uuid := ⟨"0b7f7c51-8b54-4a0e-9a1d-2f6a3c9d0003", by decide⟩

def tokenUuid : Uuid := ⟨"0b7f7c51-8b54-4a0e-9a1d-2f6a3c9d0004", by decide⟩

def mentionBot : SendCommit where
  identity := alice
  seq := 1
  seq_pos := Nat.one_pos
  kind := .message
  replyTo := none
  statusSummarySeq := none
  alsoResolves := []
  reviewPending := false
  question := none
  targets := [⟨"bot", some "acme", false, deliveryUuid, workUuid, continuationUuid⟩]
  now := 0

def serveEvents (id : String) (recovery : Bool) : List Event :=
  [.socket (.connected id bot 0), .socket (.frameBegins id), .socket (.hello id true recovery 0),
    .socket (.claimServe id false), .socket (.frameEnds id)]

def dispatchEvents (token : Uuid) (now : Int) : List Event :=
  [.dispatchStart "bot" none, .dispatchTop "bot" now, .dispatchRemoval "bot" false now,
    .dispatchPrincipal "bot" true token now]

def claimedEvents : List Event :=
  serveEvents "c1" true ++ [Event.send mentionBot] ++ dispatchEvents tokenUuid 1

def secondUuid : Uuid := ⟨"0b7f7c51-8b54-4a0e-9a1d-2f6a3c9d0021", by decide⟩

def secondWorkUuid : Uuid := ⟨"0b7f7c51-8b54-4a0e-9a1d-2f6a3c9d0022", by decide⟩

def secondContinuationUuid : Uuid := ⟨"0b7f7c51-8b54-4a0e-9a1d-2f6a3c9d0023", by decide⟩

def secondTokenUuid : Uuid := ⟨"0b7f7c51-8b54-4a0e-9a1d-2f6a3c9d0024", by decide⟩

def mentionBotAgain : SendCommit :=
  { mentionBot with
    seq := 2
    seq_pos := Nat.two_pos
    targets := [⟨"bot", some "acme", false, secondUuid, secondWorkUuid, secondContinuationUuid⟩]
    now := 2 }

/-- `bot` is mentioned again while it works, and a second dispatch starts. -/
def claimedTwice : List Event :=
  claimedEvents ++ [Event.send mentionBotAgain] ++ dispatchEvents secondTokenUuid 3

/-- The first dispatch claims, and the second one leaves the row of the same principal queued. -/
theorem one_active_per_principal_claimed :
    (initial.exec claimedTwice).ledger.deliveries.rows.map
        (fun d => (d.messageSeq, d.targetOwner, d.state)) =
        [(1, some "acme", .claimed), (2, some "acme", .queued)] ∧
      (initial.exec claimedTwice).ledger.Exclusive :=
  ⟨by decide, one_active_per_principal (run_exec (by decide)) (by
    simp [claimedTwice, claimedEvents, serveEvents, dispatchEvents, IsRedelivery])⟩

end Room
end AgentParty
