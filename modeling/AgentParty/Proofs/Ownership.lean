import AgentParty.Cli.RecoveryOwner
import AgentParty.Lib.Handover
import AgentParty.Proofs.Claims

/-! Recovery does not lock its owner out. For each assignment that the journal has been
given, the token in the room's row, the copies of it in the journal's memory and file, and
the recovery frames ever sent stand as `Handover.Aligned` says. -/

namespace AgentParty
open Ledger
namespace RecoveryJournal

def RecoverRequest.assignment (q : RecoverRequest) : Assignment :=
  (q.deliveryId, q.attempt, q.leaseEpoch)

def RecoveryResultFrame.assignment (frame : RecoveryResultFrame) : Assignment :=
  (frame.deliveryId, frame.attempt, frame.leaseEpoch)

/-- The token of the assignment as the history of the row would keep it. -/
def historyOf (a : Assignment) (token : String) : LeaseHistory := ⟨a.1, a.2.1, a.2.2, token⟩

/-- What an entry keeps of an assignment. -/
def copyOf (e : DeliveryRecoveryEntry) (a : Assignment) : Option (Handover.Copy String) :=
  if e.delivery.attempt = a.2.1 ∧ e.delivery.leaseEpoch = some a.2.2 then
    e.delivery.leaseToken.map fun token => (token, e.nextLeaseToken)
  else none

def copyAt (entries : Entries) (a : Assignment) : Option (Handover.Copy String) :=
  (entries.get? a.1).bind (copyOf · a)

def askedAt (asked : List RecoverRequest) (a : Assignment) : List (String × String) :=
  (asked.filter fun q => q.assignment = a).map fun q => (q.leaseToken, q.nextLeaseToken)

/-- The tokens that an answer has named to the process. -/
def servedAt (answers : List RecoveryResultFrame) (a : Assignment) : List String :=
  (answers.filter fun frame => decide (frame.result = .recovered) &&
    decide (frame.assignment = a)).filterMap (·.leaseToken)

/-- What the process has of one assignment. -/
structure Holding where
  disk : Option (Handover.Copy String)
  memory : Option (Handover.Copy String)
  asked : List (String × String)
  served : List String

/-- While the row is at the assignment, its token and the process agree. -/
def HandedOver (a : Assignment) (tokens : List String) (p : Holding) (l : Ledger) : Prop :=
  ∀ r ∈ l.deliveries, r.id = a.1 → a.2.1 ≤ r.attempt ∧ (r.attempt = a.2.1 → r.leaseEpoch = a.2.2 ∧
    ∃ current spent, r.leaseToken = some current ∧ current ∈ tokens ∧
      (∀ t ∈ spent, t ∈ tokens ∧ historyOf a t ∈ l.leaseHistory) ∧
      (∀ y ∈ p.served, y = current ∨ y ∈ spent) ∧
      Handover.Aligned current spent p.disk p.memory p.asked)

/-- The row is at the assignment with the token of its claim, or past it. -/
def ClaimStands (a : Assignment) (token : String) (l : Ledger) : Prop :=
  ∀ r ∈ l.deliveries, r.id = a.1 → a.2.1 ≤ r.attempt ∧
    (r.attempt = a.2.1 → r.leaseEpoch = a.2.2 ∧ r.leaseToken = some token)

section Rows

variable {r r' : Room} {e : Event} {a : Assignment}

/-- The token of a row at an assignment changes by a frame that presents it, and the old
token is history then. -/
theorem step_token {token : String} (h : r.Sound) (hd : a.1 ∈ r.minted)
    (hi : ClaimStands a token r.ledger) (hs : Room.Step r e r') :
    ∀ row ∈ r'.ledger.deliveries, row.id = a.1 → a.2.1 ≤ row.attempt ∧
      (row.attempt = a.2.1 → row.leaseEpoch = a.2.2 ∧ (row.leaseToken = some token ∨
        ∃ f, Room.recoverFrame e = some f ∧ f.concerns (historyOf a token) ∧
          f.presents token = true ∧ row.leaseToken = some f.nextLeaseToken ∧
          historyOf a token ∈ r'.ledger.leaseHistory)) := by
  have hstart : Contested (historyOf a token) (fun z => z = token ∨ ∃ f,
      Room.recoverFrame e = some f ∧ f.concerns (historyOf a token) ∧
        f.presents token = true ∧ z = f.nextLeaseToken) r.ledger := by
    intro row hrow hid
    obtain ⟨hle, hat⟩ := hi row hrow hid
    exact ⟨hle, fun he => ⟨(hat he).1, token, (hat he).2, Or.inl rfl, Or.inl rfl⟩⟩
  have hend := Room.step_contested (K := fun z => z = token ∨ ∃ f,
      Room.recoverFrame e = some f ∧ f.concerns (historyOf a token) ∧
        f.presents token = true ∧ z = f.nextLeaseToken) h hd ?_ hstart hs
  · intro row hrow hid
    obtain ⟨hle, hat⟩ := hend row hrow hid
    refine ⟨hle, fun he => ?_⟩
    obtain ⟨hepoch, z, hz, rfl | ⟨f, hf, hc, hp, rfl⟩, hor⟩ := hat he
    · exact ⟨hepoch, Or.inl hz⟩
    · refine ⟨hepoch, ?_⟩
      rcases hor with heq | hhist
      · exact Or.inl (by rw [hz, heq]; rfl)
      · exact Or.inr ⟨f, hf, hc, hp, hz, hhist⟩
  · rintro identity connectionId f lingering now rfl hc (hk | hk)
    · rcases hk with heq | ⟨f', hf', -, hp, -⟩
      · exact Or.inr ⟨f, rfl, hc, by simp [DeliveryRecoverFrame.presents, heq], rfl⟩
      · cases hf'
        exact Or.inr ⟨f, rfl, hc, hp, rfl⟩
    · exact hk

/-- A row that is past the assignment stays so. -/
theorem step_past (h : r.Sound) (hd : a.1 ∈ r.minted)
    (hi : ∀ row ∈ r.ledger.deliveries, row.id = a.1 → a.2.1 < row.attempt)
    (hs : Room.Step r e r') : ∀ row ∈ r'.ledger.deliveries, row.id = a.1 → a.2.1 < row.attempt := by
  have hstart : Contested (historyOf a "") (fun _ => False) r.ledger := fun row hrow hid =>
    ⟨(hi row hrow hid).le, fun he => absurd he (hi row hrow hid).ne'⟩
  have hend := Room.step_contested (K := fun _ => False) h hd
    (fun _ _ _ _ _ _ _ hk => hk.elim id id) hstart hs
  intro row hrow hid
  obtain ⟨hle, hat⟩ := hend row hrow hid
  refine lt_of_le_of_ne hle fun heq => ?_
  obtain ⟨-, -, -, hfalse, -⟩ := hat heq.symm
  exact hfalse

theorem step_history {t : String} (h : r.Sound) (hd : a.1 ∈ r.minted)
    (hi : historyOf a t ∈ r.ledger.leaseHistory) (hs : Room.Step r e r') {row : Delivery}
    (hrow : row ∈ r'.ledger.deliveries) (hid : row.id = a.1) :
    historyOf a t ∈ r'.ledger.leaseHistory :=
  Room.step_recorded (a := historyOf a t) h hd (fun _ => hi) hs ⟨row, hrow, hid⟩

/-- The claim of a row stands until someone presents its token. -/
theorem ClaimStands.step {token : String} (hi : ClaimStands a token r.ledger) (h : r.Sound)
    (hd : a.1 ∈ r.minted) (hs : Room.Step r e r')
    (hothers : ∀ f, Room.recoverFrame e = some f → f.concerns (historyOf a token) →
      f.presents token = false) : ClaimStands a token r'.ledger := by
  intro row hrow hid
  obtain ⟨hle, hat⟩ := step_token h hd hi hs row hrow hid
  refine ⟨hle, fun he => ?_⟩
  obtain ⟨hepoch, hor⟩ := hat he
  refine ⟨hepoch, hor.resolve_right ?_⟩
  rintro ⟨f, hf, hc, hp, -⟩
  rw [hothers f hf hc] at hp
  cases hp

/-- One step of the room. What presents a token of the process is one of its requests; an
answer to it names the token that the row has then. -/
theorem HandedOver.step {tokens : List String} {p : Holding} {served : List String}
    (hi : HandedOver a tokens p r.ledger) (h : r.Sound) (hd : a.1 ∈ r.minted)
    (hs : Room.Step r e r')
    (hown : ∀ f, Room.recoverFrame e = some f → f.concerns (historyOf a "") →
      (∀ t ∈ tokens, f.presents t = false) ∨
        (f.leaseToken, f.nextLeaseToken) ∈ p.asked ∧ f.nextLeaseToken ∈ tokens)
    (hserved : ∀ y ∈ served, y ∈ p.served ∨ ∀ row ∈ r'.ledger.deliveries, row.id = a.1 →
      row.attempt = a.2.1 → row.leaseToken = some y) :
    HandedOver a tokens { p with served := served } r'.ledger := by
  by_cases hat : ∃ row ∈ r.ledger.deliveries, row.id = a.1 ∧ row.attempt = a.2.1
  · obtain ⟨row, hrow, hid, hattempt⟩ := hat
    obtain ⟨hepoch, current, spent, htoken, hmem, hspent, hreached, haligned⟩ :=
      (hi row hrow hid).2 hattempt
    have hstands : ClaimStands a current r.ledger := by
      intro row₁ hrow₁ hid₁
      rw [Table.eq_of_key hrow₁ hrow (hid₁.trans hid.symm)]
      exact ⟨hattempt.ge, fun _ => ⟨hepoch, htoken⟩⟩
    intro row' hrow' hid'
    obtain ⟨hle, hafter⟩ := step_token h hd hstands hs row' hrow' hid'
    refine ⟨hle, fun he => ?_⟩
    obtain ⟨hepoch', hor⟩ := hafter he
    have hhistory : ∀ t ∈ spent, t ∈ tokens ∧ historyOf a t ∈ r'.ledger.leaseHistory :=
      fun t ht => ⟨(hspent t ht).1, step_history h hd (hspent t ht).2 hs hrow' hid'⟩
    have hnamed : ∀ (token : String) (spent' : List String), row'.leaseToken = some token →
        (∀ y, y = current ∨ y ∈ spent → y = token ∨ y ∈ spent') →
        ∀ y ∈ served, y = token ∨ y ∈ spent' := by
      intro token spent' htok hsub y hy
      rcases hserved y hy with hold | hnew
      · exact hsub y (hreached y hold)
      · have := hnew row' hrow' hid' he
        rw [htok] at this
        exact Or.inl (Option.some.inj this).symm
    have hstay : row'.leaseToken = some current → row'.leaseEpoch = a.2.2 ∧ ∃ current spent,
        row'.leaseToken = some current ∧ current ∈ tokens ∧
        (∀ t ∈ spent, t ∈ tokens ∧ historyOf a t ∈ r'.ledger.leaseHistory) ∧
        (∀ y ∈ served, y = current ∨ y ∈ spent) ∧
        Handover.Aligned current spent p.disk p.memory p.asked := fun htok =>
      ⟨hepoch', current, spent, htok, hmem, hhistory, hnamed current spent htok fun _ hy => hy,
        haligned⟩
    rcases hor with htok | ⟨f, hf, hc, hp, htok, hhist⟩
    · exact hstay htok
    · rcases hown f hf hc with hforeign | ⟨hasked, hnext⟩
      · rw [hforeign current hmem] at hp
        cases hp
      · by_cases hlease : f.leaseToken = current
        · refine ⟨hepoch', f.nextLeaseToken, current :: spent, htok, hnext, ?_, ?_,
            haligned.serve hasked hlease⟩
          · intro t ht
            rcases List.mem_cons.1 ht with rfl | ht
            · exact ⟨hmem, hhist⟩
            · exact hhistory t ht
          · refine hnamed _ _ htok fun y hy => Or.inr ?_
            rcases hy with rfl | hy
            · exact List.mem_cons_self
            · exact List.mem_cons_of_mem _ hy
        · have hnext' : f.nextLeaseToken = current := by
            simp only [DeliveryRecoverFrame.presents, Bool.or_eq_true, decide_eq_true_eq] at hp
            exact (hp.resolve_left fun heq => hlease heq.symm).symm
          exact hstay (hnext' ▸ htok)
  · have hpast : ∀ row ∈ r.ledger.deliveries, row.id = a.1 → a.2.1 < row.attempt :=
      fun row hrow hid => lt_of_le_of_ne (hi row hrow hid).1 fun heq =>
        hat ⟨row, hrow, hid, heq.symm⟩
    intro row' hrow' hid'
    have hlt := step_past h hd hpast hs row' hrow' hid'
    exact ⟨hlt.le, fun he => absurd he hlt.ne'⟩

/-- What the process does by itself. -/
theorem HandedOver.goes {tokens tokens' : List String} {p p' : Holding} {l : Ledger}
    (hi : HandedOver a tokens p l) (hsub : tokens ⊆ tokens') (hserved : p'.served = p.served)
    (hgoes : ∀ current spent, current ∈ tokens → (∀ t ∈ spent, t ∈ tokens) →
      (∀ y ∈ p.served, y = current ∨ y ∈ spent) →
      Handover.Aligned current spent p.disk p.memory p.asked →
      Handover.Aligned current spent p'.disk p'.memory p'.asked) : HandedOver a tokens' p' l := by
  intro row hrow hid
  obtain ⟨hle, hat⟩ := hi row hrow hid
  refine ⟨hle, fun he => ?_⟩
  obtain ⟨hepoch, current, spent, htoken, hmem, hspent, hreached, haligned⟩ := hat he
  exact ⟨hepoch, current, spent, htoken, hsub hmem,
    fun t ht => ⟨hsub (hspent t ht).1, (hspent t ht).2⟩, hserved ▸ hreached,
    hgoes current spent hmem (fun t ht => (hspent t ht).1) hreached haligned⟩

end Rows

end RecoveryJournal
end AgentParty
