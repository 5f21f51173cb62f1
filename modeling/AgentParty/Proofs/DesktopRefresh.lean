import AgentParty.Desktop.Requests

/-! Refresh rotation of a desktop session, over every interleaving of the requests of the device
flow: where the hashes of a session's refresh tokens are, how often a token is exchanged, and
what a refused request leaves behind. -/

namespace AgentParty
namespace Desktop

open EventSystem

section Tables

variable {Cipher : Type} {db : Db Cipher} {p : Session → Bool} {row : Retired} {pair : Hashes}
  {now : Int} {h : String} {read marker : Int} {x y : Session}

@[simp] theorem Session.issue_id : (y.issue pair now).id = y.id := rfl
@[simp] theorem Session.issue_refreshHash : (y.issue pair now).refreshHash = pair.refresh := rfl
@[simp] theorem Session.issue_revokedAt : (y.issue pair now).revokedAt = y.revokedAt := rfl
@[simp] theorem Session.revoke_id : (y.revoke now).id = y.id := rfl
@[simp] theorem Session.revoke_refreshHash : (y.revoke now).refreshHash = y.refreshHash := rfl

theorem Session.revoke_revokedAt : (y.revoke now).revokedAt.isSome = true := by
  unfold Session.revoke
  cases y.revokedAt <;> rfl

theorem Session.holds_iff {sid : String} :
    y.holds sid h = true ↔ y.id = sid ∧ y.refreshHash = h ∧ y.revokedAt = none := by
  simp [Session.holds, and_assoc]

/-- No two sessions have one refresh hash, and the hash of a session is not retired. -/
structure Db.Sound (db : Db Cipher) : Prop where
  apart : ∀ x ∈ db.sessions, ∀ y ∈ db.sessions, x.refreshHash = y.refreshHash → x.id = y.id
  current : ∀ row ∈ db.history, ∀ x ∈ db.sessions, x.refreshHash ≠ row.refreshHash
  times : ∀ row ∈ db.history, row.rotatedAt ≠ 0

/-- `h` is nobody's refresh hash. -/
def Db.Unused (db : Db Cipher) (h : String) : Prop :=
  (∀ x ∈ db.sessions, x.refreshHash ≠ h) ∧ ∀ row ∈ db.history, row.refreshHash ≠ h

variable (row now) in
theorem Db.reissue_none (hp : ∀ y ∈ db.sessions, p y = false) (hnew : db.Unused pair.refresh) :
    db.reissue p row pair now = (db, 0, 0) := by
  have hsame : db.sessions.update p (Session.issue pair now) (fun _ => rfl) = db.sessions :=
    Table.update_eq_self hp
  have hnone : db.sessions.rows.any (Session.holds row.sessionId pair.refresh) = false := by
    rw [List.any_eq_false]
    intro y hy hholds
    exact hnew.1 y hy (Session.holds_iff.1 hholds).2.1
  have hcount : db.sessions.rows.countP p = 0 :=
    List.countP_eq_zero.2 fun y hy => by simp [hp y hy]
  unfold reissue
  rw [hsame]
  simp [retire, retireChanges, hnone, hcount]

variable (row pair now) in
theorem Db.reissue_some (hsound : db.Sound) (hy : y ∈ db.sessions) (hpy : p y = true)
    (hp : ∀ z, p z = true → z.holds row.sessionId row.refreshHash = true) :
    (db.reissue p row pair now).2 = (1, 1) ∧
      (db.reissue p row pair now).1.history = db.history.insert row ∧
      (db.reissue p row pair now).1.sessions =
        db.sessions.update p (Session.issue pair now) (fun _ => rfl) ∧
      db.history.get? row.refreshHash = none := by
  obtain ⟨hid, hhash, hlive⟩ := Session.holds_iff.1 (hp y hpy)
  have hmoved : (db.sessions.update p (Session.issue pair now) fun _ => rfl).rows.any
      (Session.holds row.sessionId pair.refresh) = true := by
    rw [List.any_eq_true]
    refine ⟨y.issue pair now, (Table.mem_update _).2 ⟨y, hy, by rw [hpy]; rfl⟩, ?_⟩
    exact Session.holds_iff.2 ⟨hid, rfl, hlive⟩
  have hcount : db.sessions.rows.countP p = 1 := by
    refine Table.countP_eq_one hy hpy fun z _ hpz => ?_
    exact (Session.holds_iff.1 (hp z hpz)).1.trans hid.symm
  have hfree : db.history.get? row.refreshHash = none :=
    Table.get?_eq_none.2 fun old hold heq => hsound.current old hold y hy (hhash.trans heq.symm)
  unfold reissue
  simp [retire, retireChanges, hmoved, hcount, hfree]

theorem Retired.claimable_iff :
    row.claimable h read = true ↔ row.refreshHash = h ∧ row.rotatedAt = read ∧ 0 ≤ row.rotatedAt := by
  simp [Retired.claimable, and_assoc]

theorem Retired.claimedBy_iff {sid : String} : row.claimedBy h sid marker = true ↔
    row.refreshHash = h ∧ row.sessionId = sid ∧ row.rotatedAt = marker := by
  simp [Retired.claimedBy, and_assoc]

/-- The history row of `h` is as it was read. -/
def Db.Claimable (db : Db Cipher) (h : String) (read : Int) : Prop :=
  ∃ row ∈ db.history, row.claimable h read = true

/-- The session is as a recovery has read it, live and not expired. -/
def Db.Unmoved (db : Db Cipher) (x : Session) (now : Int) : Prop :=
  ∃ y ∈ db.sessions, y.holds x.id x.refreshHash = true ∧ now < y.refreshExpiresAt

/-- The history row of `h` has the marker. -/
def Db.Marked (db : Db Cipher) (h : String) (x : Session) (marker : Int) : Prop :=
  ∃ row ∈ db.history, row.claimedBy h x.id marker = true

instance : Decidable (db.Claimable h read) := Table.decidableExists

instance : Decidable (db.Unmoved x now) := Table.decidableExists

instance : Decidable (db.Marked h x marker) := Table.decidableExists

theorem Db.claim_eq_self (hnot : ¬ db.Claimable h read) : db.claim h read marker = db := by
  unfold claim
  rw [Table.update_eq_self fun row hrow => ?_]
  exact Bool.eq_false_iff.2 fun hclaim => hnot ⟨row, hrow, hclaim⟩

theorem Db.recovers_iff : db.recovers h x marker now y = true ↔
    y.holds x.id x.refreshHash = true ∧ now < y.refreshExpiresAt ∧ db.Marked h x marker := by
  simp [recovers, Db.Marked, Table.mem_def, and_assoc]

/-- `y` is what became of the session `x`. -/
structure Session.Continues (history : Table Retired Retired.refreshHash) (x y : Session) :
    Prop where
  id : y.id = x.id
  pairingId : y.pairingId = x.pairingId
  deviceSecretChallenge : y.deviceSecretChallenge = x.deviceSecretChallenge
  revoked : x.revokedAt.isSome = true → y.revokedAt.isSome = true ∧ y.refreshHash = x.refreshHash
  hash : y.refreshHash = x.refreshHash ∨
    ∃ row ∈ history, row.refreshHash = x.refreshHash ∧ row.sessionId = x.id

/-- A retired hash stays, and what has claimed it stays. -/
structure Retired.Continues (row row' : Retired) : Prop where
  refreshHash : row'.refreshHash = row.refreshHash
  sessionId : row'.sessionId = row.sessionId
  rotationTime : row'.rotationTime = row.rotationTime
  claimed : row.rotatedAt < 0 → row' = row

theorem Retired.Continues.refl (row : Retired) : row.Continues row := ⟨rfl, rfl, rfl, fun _ => rfl⟩

theorem Retired.Continues.trans {row row' row'' : Retired} (h : row.Continues row')
    (h' : row'.Continues row'') : row.Continues row'' where
  refreshHash := h'.refreshHash.trans h.refreshHash
  sessionId := h'.sessionId.trans h.sessionId
  rotationTime := h'.rotationTime.trans h.rotationTime
  claimed hneg := by
    have heq := h.claimed hneg
    rw [h'.claimed (heq ▸ hneg), heq]

structure Db.Evolves (db db' : Db Cipher) : Prop where
  session : ∀ x ∈ db.sessions, ∃ y ∈ db'.sessions, x.Continues db'.history y
  history : ∀ row ∈ db.history, ∃ row' ∈ db'.history, row.Continues row'

theorem Db.Evolves.trans {db db' db'' : Db Cipher} (h : db.Evolves db') (h' : db'.Evolves db'') :
    db.Evolves db'' where
  session x hx := by
    obtain ⟨y, hy, hxy⟩ := h.session x hx
    obtain ⟨z, hz, hyz⟩ := h'.session y hy
    refine ⟨z, hz, hyz.id.trans hxy.id, hyz.pairingId.trans hxy.pairingId,
      hyz.deviceSecretChallenge.trans hxy.deviceSecretChallenge, fun hrev => ?_, ?_⟩
    · obtain ⟨hy', hhash⟩ := hxy.revoked hrev
      exact (hyz.revoked hy').imp_right (·.trans hhash)
    · rcases hxy.hash with hsame | ⟨row, hrow, hhash, hsid⟩
      · rw [← hsame, ← hxy.id]
        exact hyz.hash
      · obtain ⟨row', hrow', hcont⟩ := h'.history row hrow
        exact Or.inr ⟨row', hrow', hcont.refreshHash.trans hhash, hcont.sessionId.trans hsid⟩
  history row hrow := by
    obtain ⟨row', hrow', hcont⟩ := h.history row hrow
    obtain ⟨row'', hrow'', hcont'⟩ := h'.history row' hrow'
    exact ⟨row'', hrow'', hcont.trans hcont'⟩

/-- Sessions that keep their hash, and a history that only changes by claims. -/
theorem Db.evolves_of {db db' : Db Cipher}
    (hsessions : ∀ x ∈ db.sessions, ∃ y ∈ db'.sessions, y.id = x.id ∧
      y.pairingId = x.pairingId ∧ y.deviceSecretChallenge = x.deviceSecretChallenge ∧
      (x.revokedAt.isSome = true → y.revokedAt.isSome = true) ∧ y.refreshHash = x.refreshHash)
    (hhistory : ∀ row ∈ db.history, ∃ row' ∈ db'.history, row.Continues row') :
    db.Evolves db' where
  session x hx := by
    obtain ⟨y, hy, hid, hpairing, hsecret, hrev, hhash⟩ := hsessions x hx
    exact ⟨y, hy, hid, hpairing, hsecret, fun h => ⟨hrev h, hhash⟩, Or.inl hhash⟩
  history := hhistory

theorem Db.evolves_same {db db' : Db Cipher} (hs : db'.sessions = db.sessions)
    (hh : db'.history = db.history) : db.Evolves db' :=
  Db.evolves_of (fun x hx => ⟨x, hs ▸ hx, rfl, rfl, rfl, id, rfl⟩)
    fun row hrow => ⟨row, hh ▸ hrow, .refl row⟩

theorem Db.sound_same {db db' : Db Cipher} (h : db.Sound) (hs : db'.sessions = db.sessions)
    (hh : db'.history = db.history) : db'.Sound where
  apart := by rw [hs]; exact h.apart
  current := by rw [hs, hh]; exact h.current
  times := by rw [hh]; exact h.times

section Revoke

variable {db' : Db Cipher}
  (hs : db'.sessions = db.sessions.update p (Session.revoke now) fun _ => rfl)
  (hh : db'.history = db.history)
include hs hh

theorem Db.evolves_revoke : db.Evolves db' := by
  refine Db.evolves_of (fun x hx => ?_) fun row hrow => ⟨row, hh ▸ hrow, .refl row⟩
  refine ⟨if p x then x.revoke now else x, hs ▸ (Table.mem_update _).2 ⟨x, hx, rfl⟩, ?_⟩
  cases p x
  · exact ⟨rfl, rfl, rfl, id, rfl⟩
  · exact ⟨rfl, rfl, rfl, fun _ => Session.revoke_revokedAt, rfl⟩

omit hh in
theorem Db.mem_revoke (hy : y ∈ db'.sessions) :
    ∃ x ∈ db.sessions, y.id = x.id ∧ y.refreshHash = x.refreshHash ∧ y.accessHash = x.accessHash ∧
      y.pairingId = x.pairingId ∧ y.deviceSecretChallenge = x.deviceSecretChallenge := by
  rw [hs] at hy
  obtain ⟨x, hx, rfl⟩ := (Table.mem_update _).1 hy
  refine ⟨x, hx, ?_⟩
  cases p x <;> exact ⟨rfl, rfl, rfl, rfl, rfl⟩

theorem Db.sound_revoke (h : db.Sound) : db'.Sound where
  apart y hy z hz heq := by
    obtain ⟨x, hx, hid, hhash, -⟩ := Db.mem_revoke hs hy
    obtain ⟨w, hw, hid', hhash', -⟩ := Db.mem_revoke hs hz
    rw [hid, hid']
    exact h.apart x hx w hw (by rw [← hhash, ← hhash', heq])
  current row hrow y hy := by
    obtain ⟨x, hx, -, hhash, -⟩ := Db.mem_revoke hs hy
    rw [hhash]
    exact h.current row (hh ▸ hrow) x hx
  times := by rw [hh]; exact h.times

end Revoke

section Claim

variable {k : Fin REFRESH_RECOVERY_CLAIM_SCALE}

theorem Db.claim_history : (db.claim h read marker).history =
    db.history.update (Retired.claimable h read) (Retired.mark marker)
      (Retired.mark_refreshHash marker) := rfl

theorem Db.evolves_claim (hread : 0 < read) :
    db.Evolves (db.claim h read (claimMarker read k)) := by
  refine Db.evolves_of (fun x hx => ⟨x, hx, rfl, rfl, rfl, id, rfl⟩) fun row hrow => ?_
  rw [Db.claim_history]
  refine ⟨_, (Table.mem_update _).2 ⟨row, hrow, rfl⟩, ?_⟩
  cases hclaim : row.claimable h read with
  | false => exact .refl row
  | true =>
    obtain ⟨-, hrot, -⟩ := Retired.claimable_iff.1 hclaim
    refine ⟨rfl, rfl, ?_, fun hneg => absurd hneg (by omega)⟩
    have hplain : row.rotationTime = read := by
      rw [Retired.rotationTime, if_neg (by omega), hrot]
    rw [hplain]
    exact rotationTime_claimMarker hread k row.refreshHash row.sessionId

theorem Db.mem_claim {row' : Retired} (hrow : row' ∈ (db.claim h read marker).history) :
    row' ∈ db.history ∨ (∃ row ∈ db.history, row.claimable h read = true ∧
      row' = row.mark marker) := by
  rw [Db.claim_history] at hrow
  obtain ⟨row, hmem, rfl⟩ := (Table.mem_update _).1 hrow
  cases hclaim : row.claimable h read with
  | false => exact Or.inl hmem
  | true => exact Or.inr ⟨row, hmem, hclaim, rfl⟩

theorem Db.sound_claim (hsound : db.Sound) (hread : 0 < read) :
    (db.claim h read (claimMarker read k)).Sound where
  apart := hsound.apart
  current row hrow x hx := by
    rcases Db.mem_claim hrow with hold | ⟨old, hold, -, rfl⟩
    · exact hsound.current row hold x hx
    · exact hsound.current old hold x hx
  times row hrow := by
    rcases Db.mem_claim hrow with hold | ⟨old, -, -, rfl⟩
    · exact hsound.times row hold
    · exact (claimMarker_neg hread k).ne

end Claim

/-- The refresh hashes of the tables are in `drawn`. -/
structure Db.Known (db : Db Cipher) (drawn : List String) : Prop where
  sessions : ∀ x ∈ db.sessions, x.refreshHash ∈ drawn
  history : ∀ row ∈ db.history, row.refreshHash ∈ drawn

theorem Db.Known.unused {drawn : List String} (h : db.Known drawn) (hh : pair.refresh ∉ drawn) :
    db.Unused pair.refresh :=
  ⟨fun x hx heq => hh (heq ▸ h.sessions x hx), fun row hrow heq => hh (heq ▸ h.history row hrow)⟩

theorem Db.Known.mono {drawn drawn' : List String} (h : db.Known drawn) (hsub : drawn ⊆ drawn') :
    db.Known drawn' :=
  ⟨fun x hx => hsub (h.sessions x hx), fun row hrow => hsub (h.history row hrow)⟩

theorem Db.Known.same {db' : Db Cipher} {drawn : List String} (h : db.Known drawn)
    (hs : db'.sessions = db.sessions) (hh : db'.history = db.history) : db'.Known drawn :=
  ⟨by rw [hs]; exact h.sessions, by rw [hh]; exact h.history⟩

theorem Db.Known.claim {drawn : List String} (hknown : db.Known drawn) :
    (db.claim h read marker).Known drawn where
  sessions := hknown.sessions
  history row hrow := by
    rcases Db.mem_claim hrow with hold | ⟨old, hold, -, rfl⟩
    · exact hknown.history row hold
    · exact hknown.history old hold

theorem subset_drawn (pair : Hashes) (drawn : List String) :
    drawn ⊆ pair.access :: pair.refresh :: drawn :=
  fun _ hh => List.mem_cons_of_mem _ (List.mem_cons_of_mem _ hh)

section Reissue

variable (hsound : db.Sound) (hnew : db.Unused pair.refresh)
  (hp : ∀ z, p z = true → z.holds row.sessionId row.refreshHash = true)
include hsound hnew hp

theorem Db.evolves_reissue : db.Evolves (db.reissue p row pair now).1 := by
  by_cases hany : ∃ y ∈ db.sessions, p y = true
  · obtain ⟨y, hy, hpy⟩ := hany
    obtain ⟨-, hh, hs, hfree⟩ := Db.reissue_some row pair now hsound hy hpy hp
    constructor
    · intro x hx
      refine ⟨if p x then x.issue pair now else x, hs ▸ (Table.mem_update _).2 ⟨x, hx, rfl⟩, ?_⟩
      cases hpx : p x with
      | false => exact ⟨rfl, rfl, rfl, fun h => ⟨h, rfl⟩, Or.inl rfl⟩
      | true =>
        obtain ⟨hid, hhash, hlive⟩ := Session.holds_iff.1 (hp x hpx)
        refine ⟨rfl, rfl, rfl, fun hrev => absurd hrev (by simp [hlive]), Or.inr ⟨row, ?_, ?_⟩⟩
        · rw [hh]
          exact Table.mem_insert.2 (Or.inr ⟨rfl, Table.get?_eq_none.1 hfree⟩)
        · exact ⟨hhash.symm, hid.symm⟩
    · intro old hold
      exact ⟨old, hh ▸ Table.mem_insert.2 (Or.inl hold), .refl old⟩
  · rw [Db.reissue_none _ _ (fun y hy => Bool.eq_false_iff.2 fun hpy => hany ⟨y, hy, hpy⟩) hnew]
    exact Db.evolves_same rfl rfl

/-- A session afterwards is as it was, or has the new pair. -/
theorem Db.mem_reissue (hy : y ∈ (db.reissue p row pair now).1.sessions) :
    (y ∈ db.sessions ∧ p y = false) ∨ ∃ x ∈ db.sessions, p x = true ∧ y = x.issue pair now := by
  by_cases hany : ∃ x ∈ db.sessions, p x = true
  · obtain ⟨z, hz, hpz⟩ := hany
    obtain ⟨-, -, hs, -⟩ := Db.reissue_some row pair now hsound hz hpz hp
    rw [hs] at hy
    obtain ⟨x, hx, rfl⟩ := (Table.mem_update _).1 hy
    cases hpx : p x with
    | false => exact Or.inl ⟨hx, hpx⟩
    | true => exact Or.inr ⟨x, hx, hpx, rfl⟩
  · have hnone : ∀ x ∈ db.sessions, p x = false :=
      fun x hx => Bool.eq_false_iff.2 fun hpx => hany ⟨x, hx, hpx⟩
    rw [Db.reissue_none _ _ hnone hnew] at hy
    exact Or.inl ⟨hy, hnone y hy⟩

theorem Db.mem_reissue_history {row' : Retired}
    (hrow : row' ∈ (db.reissue p row pair now).1.history) :
    row' ∈ db.history ∨ (row' = row ∧ ∃ x ∈ db.sessions, p x = true) := by
  by_cases hany : ∃ x ∈ db.sessions, p x = true
  · obtain ⟨z, hz, hpz⟩ := hany
    obtain ⟨-, hh, -, -⟩ := Db.reissue_some row pair now hsound hz hpz hp
    rw [hh] at hrow
    exact (Table.mem_insert.1 hrow).imp id fun h => ⟨h.1, z, hz, hpz⟩
  · rw [Db.reissue_none _ _ (fun x hx => Bool.eq_false_iff.2 fun hpx => hany ⟨x, hx, hpx⟩) hnew] at hrow
    exact Or.inl hrow

theorem Db.sound_reissue (hrow : row.rotatedAt ≠ 0) : (db.reissue p row pair now).1.Sound where
  apart y hy z hz heq := by
    rcases Db.mem_reissue hsound hnew hp hy with ⟨hy, -⟩ | ⟨x, hx, hpx, rfl⟩ <;>
      rcases Db.mem_reissue hsound hnew hp hz with ⟨hz, -⟩ | ⟨w, hw, hpw, rfl⟩
    · exact hsound.apart y hy z hz heq
    · exact absurd heq (hnew.1 y hy)
    · exact absurd heq.symm (hnew.1 z hz)
    · exact (Session.holds_iff.1 (hp x hpx)).1.trans (Session.holds_iff.1 (hp w hpw)).1.symm
  current row' hrow' y hy := by
    rcases Db.mem_reissue_history hsound hnew hp hrow' with hold | ⟨rfl, z, hz, hpz⟩ <;>
      rcases Db.mem_reissue hsound hnew hp hy with ⟨hy, hpy⟩ | ⟨x, hx, hpx, rfl⟩
    · exact hsound.current row' hold y hy
    · exact (hnew.2 row' hold).symm
    · intro heq
      obtain ⟨hid, hhash, -⟩ := Session.holds_iff.1 (hp z hpz)
      have hsame := Table.eq_of_key hy hz (hsound.apart y hy z hz (heq.trans hhash.symm))
      rw [hsame, hpz] at hpy
      exact absurd hpy (by simp)
    · rw [Session.issue_refreshHash, ← (Session.holds_iff.1 (hp x hpx)).2.1]
      exact (hnew.1 x hx).symm
  times row' hrow' := by
    rcases Db.mem_reissue_history hsound hnew hp hrow' with hold | ⟨rfl, -⟩
    · exact hsound.times row' hold
    · exact hrow

theorem Db.Known.reissue {drawn : List String} (h : db.Known drawn) :
    (db.reissue p row pair now).1.Known (pair.access :: pair.refresh :: drawn) where
  sessions y hy := by
    rcases Db.mem_reissue hsound hnew hp hy with ⟨hy, -⟩ | ⟨x, hx, hpx, rfl⟩
    · exact subset_drawn pair drawn (h.sessions y hy)
    · exact List.mem_cons_of_mem _ List.mem_cons_self
  history row' hrow' := by
    rcases Db.mem_reissue_history hsound hnew hp hrow' with hold | ⟨rfl, z, hz, hpz⟩
    · exact subset_drawn pair drawn (h.history row' hold)
    · rw [← (Session.holds_iff.1 (hp z hpz)).2.1]
      exact subset_drawn pair drawn (h.sessions z hz)

omit hp in
/-- A session after a rotation is as it was, or has the new pair. -/
theorem Db.mem_rotate (hy : y ∈ (db.rotate h x pair now).1.sessions) :
    y ∈ db.sessions ∨ ∃ z ∈ db.sessions, z.holds x.id h = true ∧ y = z.issue pair now := by
  rw [Db.rotate] at hy
  refine (Db.mem_reissue hsound hnew ?_ hy).imp_left And.left
  exact fun z hz => hz

omit hp in
theorem Db.mem_rotate_history {row' : Retired}
    (hrow : row' ∈ (db.rotate h x pair now).1.history) :
    row' ∈ db.history ∨ ∃ z ∈ db.sessions, z.id = row'.sessionId ∧ row'.refreshHash = z.refreshHash := by
  rw [Db.rotate] at hrow
  refine (Db.mem_reissue_history hsound hnew ?_ hrow).imp_right ?_
  · exact fun z hz => hz
  · rintro ⟨rfl, z, hz, hholds⟩
    obtain ⟨hid, hhash, -⟩ := Session.holds_iff.1 hholds
    exact ⟨z, hz, hid, hhash.symm⟩

end Reissue

section Recover

variable {row : Retired} {k : Fin REFRESH_RECOVERY_CLAIM_SCALE}

theorem Db.recover_eq : db.recover h row x pair marker now =
    (((db.claim h row.rotatedAt marker).reissue
        ((db.claim h row.rotatedAt marker).recovers h x marker now)
        ⟨x.refreshHash, x.id, now⟩ pair now).1,
      db.history.rows.countP (Retired.claimable h row.rotatedAt),
      ((db.claim h row.rotatedAt marker).reissue
        ((db.claim h row.rotatedAt marker).recovers h x marker now)
        ⟨x.refreshHash, x.id, now⟩ pair now).2) := rfl

theorem Db.recovers_holds (z : Session) (hz : db.recovers h x marker now z = true) :
    z.holds x.id x.refreshHash = true := (Db.recovers_iff.1 hz).1

theorem Retired.rotationTime_of_pos (hrow : 0 < row.rotatedAt) :
    row.rotationTime = row.rotatedAt := by
  rw [Retired.rotationTime, if_neg (by omega)]

theorem Db.unused_claim (hnew : db.Unused pair.refresh) :
    (db.claim h read marker).Unused pair.refresh := by
  refine ⟨hnew.1, fun row hrow => ?_⟩
  rcases Db.mem_claim hrow with hold | ⟨old, hold, -, rfl⟩
  · exact hnew.2 row hold
  · exact hnew.2 old hold

variable (hsound : db.Sound) (hnew : db.Unused pair.refresh) (hrow : 0 < row.rotatedAt)
include hsound hnew hrow

theorem Db.evolves_recover :
    db.Evolves (db.recover h row x pair (claimMarker row.rotationTime k) now).1 := by
  rw [Retired.rotationTime_of_pos hrow]
  exact (Db.evolves_claim hrow).trans (Db.evolves_reissue (Db.sound_claim hsound hrow)
    (Db.unused_claim hnew) Db.recovers_holds)

theorem Db.mem_recover
    (hy : y ∈ (db.recover h row x pair (claimMarker row.rotationTime k) now).1.sessions) :
    y ∈ db.sessions ∨ ∃ z ∈ db.sessions, z.holds x.id x.refreshHash = true ∧
      y = z.issue pair now := by
  rw [Db.recover_eq, Retired.rotationTime_of_pos hrow] at hy
  rcases Db.mem_reissue (Db.sound_claim hsound hrow) (Db.unused_claim hnew) Db.recovers_holds hy
    with ⟨hold, -⟩ | ⟨z, hz, hrec, rfl⟩
  · exact Or.inl hold
  · exact Or.inr ⟨z, hz, Db.recovers_holds z hrec, rfl⟩

theorem Db.mem_recover_history {row' : Retired}
    (hmem : row' ∈ (db.recover h row x pair (claimMarker row.rotationTime k) now).1.history) :
    (∃ old ∈ db.history, old.sessionId = row'.sessionId) ∨
      ∃ z ∈ db.sessions, z.id = row'.sessionId ∧ row'.refreshHash = z.refreshHash := by
  rw [Db.recover_eq, Retired.rotationTime_of_pos hrow] at hmem
  rcases Db.mem_reissue_history (Db.sound_claim hsound hrow) (Db.unused_claim hnew)
    Db.recovers_holds hmem with hold | ⟨rfl, z, hz, hrec⟩
  · rcases Db.mem_claim hold with hsame | ⟨old, hold', -, rfl⟩
    · exact Or.inl ⟨row', hsame, rfl⟩
    · exact Or.inl ⟨old, hold', rfl⟩
  · obtain ⟨hid, hhash, -⟩ := Session.holds_iff.1 (Db.recovers_holds z hrec)
    exact Or.inr ⟨z, hz, hid, hhash.symm⟩

theorem Db.Known.recover {drawn : List String} (hknown : db.Known drawn) :
    (db.recover h row x pair (claimMarker row.rotationTime k) now).1.Known
      (pair.access :: pair.refresh :: drawn) := by
  rw [Retired.rotationTime_of_pos hrow]
  exact Db.Known.reissue (Db.sound_claim hsound hrow) (Db.unused_claim hnew) Db.recovers_holds
    hknown.claim

theorem Db.sound_recover (hnow : 0 < now) :
    (db.recover h row x pair (claimMarker row.rotationTime k) now).1.Sound := by
  rw [Retired.rotationTime_of_pos hrow]
  exact Db.sound_reissue (Db.sound_claim hsound hrow) (Db.unused_claim hnew) Db.recovers_holds
    hnow.ne'

end Recover

end Tables

section Requests

variable {Text Cipher : Type} {K : Primitives Text Cipher} {s s' : World Text Cipher} {e : Event}

/-- An answer without tokens. -/
def Answer.Plain : Answer Text → Prop
  | .refreshed .. | .exchanged .. => False
  | .refused _ | .authorizationPending _ | .decided .. | .empty => True

/-- What one event does to the sessions and the history, and what it answers. -/
inductive Outcome (K : Primitives Text Cipher) (s : World Text Cipher) (e : Event) :
    World Text Cipher → Prop
  | quiet {s' : World Text Cipher} (hs : s'.db.sessions = s.db.sessions)
      (hh : s'.db.history = s.db.history) (hd : s.drawn ⊆ s'.drawn)
      (ha : s'.answers = s.answers ∨
        ∃ r a, e.actor = some r ∧ a.Plain ∧ s'.answers = s.answers ++ [(r, a)]) :
      Outcome K s e s'
  | revoked {s' : World Text Cipher} (p : Session → Bool) (now : Int) (r : ℕ) (a : Answer Text)
      (hs : s'.db.sessions = s.db.sessions.update p (Session.revoke now) fun _ => rfl)
      (hh : s'.db.history = s.db.history) (hd : s'.drawn = s.drawn) (he : e.actor = some r)
      (hplain : a.Plain) (ha : s'.answers = s.answers ++ [(r, a)])
      (hends : ∀ err, a = .refused err → err.Ends ∨ s'.db.sessions = s.db.sessions) :
      Outcome K s e s'
  | replayed {s' : World Text Cipher} (r : ℕ) (pairing dev verifier : String) (t : Int)
      (row : Recovery Cipher) (x : Session) (text : Text)
      (hstage : s.stages r = .recoverPairing pairing dev verifier t true)
      (hrow : s.db.recoveryRow pairing = some (row, x))
      (htext : recoveredText K row x dev t = some text) (hdb : s'.db = s.db)
      (hd : s'.drawn = s.drawn) (he : e.actor = some r)
      (ha : s'.answers = s.answers ++ [(r, .exchanged pairing verifier true text)]) :
      Outcome K s e s'
  | created {s' : World Text Cipher} (r : ℕ) (p q : Pairing) (dev verifier : String) (t : Int)
      (mint : Mint) (hstage : s.stages r = .issue p dev verifier t) (hfresh : s.Fresh K mint)
      (hs : s'.db.sessions = s.db.sessions.insert (q.session mint.sessionId (mint.hashes K) t))
      (hh : s'.db.history = s.db.history)
      (hd : s'.drawn = (mint.hashes K).access :: (mint.hashes K).refresh :: s.drawn)
      (he : e.actor = some r)
      (ha : s'.answers = s.answers ++
        [(r, .exchanged p.id verifier false (K.stringify mint.exchangeResponse))]) :
      Outcome K s e s'
  | recovered (r : ℕ) (token : String) (row : Retired) (x : Session) (t now : Int) (mint : Mint)
      (he : e = .act r now mint) (hstage : s.stages r = .recover token row x t)
      (hfresh : s.Fresh K mint) : Outcome K s e (s.recover K r token row x t mint)
  | rotated (r : ℕ) (token : String) (x : Session) (t now : Int) (mint : Mint)
      (he : e = .act r now mint) (hstage : s.stages r = .rotate token x t)
      (hfresh : s.Fresh K mint) : Outcome K s e (s.rotate K r token x t mint)

/-- A refusal or an empty answer. -/
def Answer.Blank : Answer Text → Prop
  | .refused _ | .empty => True
  | .refreshed .. | .exchanged .. | .authorizationPending _ | .decided .. => False

theorem Answer.Blank.plain {a : Answer Text} (h : a.Blank) : a.Plain := by
  cases a <;> trivial

/-- The verdict on a read goes on, or answers nothing but a refusal. -/
def Verdict.Blank : Verdict Text → Prop
  | .goto _ => True
  | .answer a => a.Blank

theorem replayVerdict_blank (token secret : String) (row : Retired) (now : Int)
    (x : Option Session) : (replayVerdict K token secret row now x).Blank := by
  cases x with
  | none => trivial
  | some x =>
    simp only [replayVerdict]
    split_ifs <;> trivial

theorem currentVerdict_blank (token secret : String) (now : Int) (x : Option Session) :
    (currentVerdict K token secret now x).Blank := by
  cases x with
  | none => trivial
  | some x =>
    simp only [currentVerdict]
    split_ifs <;> trivial

theorem exchangeVerdict_blank (dev verifier : String) (now : Int) (p : Pairing) :
    (exchangeVerdict K dev verifier now p).Blank := by
  unfold exchangeVerdict
  split_ifs <;> trivial

theorem firstRead_blank (db : Db Cipher) (now : Int) (query : Query) :
    (firstRead K db now query).Blank := by
  cases query with
  | refresh token secret =>
    simp only [firstRead]
    split_ifs
    · trivial
    · split <;> trivial
  | revokeCurrent token secret =>
    simp only [firstRead]
    split_ifs
    · trivial
    · split
      · split_ifs <;> trivial
      · trivial
  | exchange deviceCode verifier =>
    simp only [firstRead]
    split_ifs
    · trivial
    · split
      · trivial
      · exact exchangeVerdict_blank _ _ _ _
  | decide userCode account approve =>
    simp only [firstRead]
    split
    · trivial
    · split_ifs <;> trivial

theorem Outcome.proceed {r : ℕ} {v : Verdict Text} (he : e.actor = some r) (hv : v.Blank) :
    Outcome K s e (s.proceed r v) := by
  cases v with
  | goto stage => exact .quiet rfl rfl (List.Subset.refl _) (Or.inl rfl)
  | answer a => exact .quiet rfl rfl (List.Subset.refl _) (Or.inr ⟨r, a, he, hv.plain, rfl⟩)

/-- A statement that leaves sessions and history alone, with its answer. -/
theorem Outcome.finish {r : ℕ} {db : Db Cipher} {a : Answer Text} (he : e.actor = some r)
    (hs : db.sessions = s.db.sessions) (hh : db.history = s.db.history) (hplain : a.Plain) :
    Outcome K s e ((s.write db).finish r a) :=
  .quiet hs hh (List.Subset.refl _) (Or.inr ⟨r, a, he, hplain, rfl⟩)

theorem Outcome.issue {r : ℕ} {p : Pairing} {dev verifier : String} {t now : Int} {mint : Mint}
    (he : e.actor = some r) (hstage : s.stages r = .issue p dev verifier t)
    (hfresh : s.Fresh K mint) : Outcome K s e (s.issue K r p dev verifier t now mint) := by
  unfold World.issue
  split
  · rename_i db heq
    unfold Db.exchange at heq
    split at heq
    · simp at heq
    · rename_i q hq
      split_ifs at heq
      obtain ⟨rfl, -⟩ := Prod.mk.inj (Option.some.inj heq)
      exact .created r p q dev verifier t mint hstage hfresh rfl rfl rfl he rfl
  · refine .quiet rfl rfl (fun h hh => ?_) (Or.inl rfl)
    exact List.mem_cons_of_mem _ (List.mem_cons_of_mem _ hh)

theorem Outcome.act {r : ℕ} {now : Int} {mint : Mint} (hfresh : s.Fresh K mint) :
    Outcome K s (.act r now mint) (s.act K r now mint) := by
  have he : Event.actor (.act r now mint) = some r := rfl
  unfold World.act
  cases hstage : s.stages r with
  | idle | done => exact .quiet rfl rfl (List.Subset.refl _) (Or.inl rfl)
  | replay token secret row t => exact .proceed he (replayVerdict_blank _ _ _ _ _)
  | current token secret => exact .proceed he (currentVerdict_blank _ _ _ _)
  | expire sid t =>
    refine .revoked _ t r (.refused .refreshExpired) rfl rfl rfl he trivial rfl fun err herr => ?_
    exact Or.inl (Or.inl (Answer.refused.inj herr).symm)
  | replayed sid t =>
    refine .revoked _ t r (.refused .replayDetected) rfl rfl rfl he trivial rfl fun err herr => ?_
    exact Or.inl (Or.inr (Answer.refused.inj herr).symm)
  | recover token row x t => exact .recovered r token row x t now mint rfl hstage hfresh
  | rotate token x t => exact .rotated r token x t now mint rfl hstage hfresh
  | surrender sid => exact .revoked _ now r .empty rfl rfl rfl he trivial rfl nofun
  | slowDown p t | failProof p t | poll p t | dropRecovery pairing =>
    exact .finish he rfl rfl trivial
  | issue p dev verifier t => exact .issue he hstage hfresh
  | recoverPairing pairing dev verifier t proofValid =>
    simp only
    unfold recoverVerdict
    split
    · exact .proceed he trivial
    · rename_i row x hrow
      split
      · exact .proceed he trivial
      · rename_i text htext
        cases proofValid with
        | true => exact .replayed r pairing dev verifier t row x text hstage hrow htext rfl rfl he rfl
        | false => exact .proceed he trivial
  | decide pairing account approve =>
    refine .finish he rfl rfl ?_
    split_ifs <;> trivial

theorem next_outcome (hready : s.Ready K e) : Outcome K s e (s.next K e) := by
  cases e with
  | start id dev user challenge secret now =>
    change Outcome K s _ (s.start id dev user challenge secret now)
    unfold World.start
    split_ifs <;> exact .quiet rfl rfl (List.Subset.refl _) (Or.inl rfl)
  | sweep now => exact .quiet rfl rfl (List.Subset.refl _) (Or.inl rfl)
  | arrive r query now => exact .proceed rfl (firstRead_blank _ _ _)
  | act r now mint => exact .act hready.2
  | revokeByOwner r sid account now =>
    refine .revoked _ now r _ rfl rfl rfl rfl ?_ rfl fun err herr => Or.inr ?_
    · split_ifs <;> trivial
    · split_ifs at herr with hany
      have hsame : s.db.sessions.update (fun x => x.id = sid && x.account = account)
          (Session.revoke now) (fun _ => rfl) = s.db.sessions :=
        Table.update_eq_self fun x hx => Bool.eq_false_iff.2 fun hown =>
          hany (List.any_eq_true.2 ⟨x, hx, hown⟩)
      exact hsame

/-- What a waiting request has read. -/
def Stage.Sane (K : Primitives Text Cipher) (db : Db Cipher) : Stage → Prop
  | .replay token _ row t => row.refreshHash = K.refreshHash token ∧ row.rotatedAt ≠ 0 ∧ 0 < t ∧
    ∃ row' ∈ db.history, row.Continues row'
  | .recover token row x t => row.refreshHash = K.refreshHash token ∧ 0 < row.rotatedAt ∧ 0 < t ∧
    row.sessionId = x.id ∧ ∃ row' ∈ db.history, row.Continues row'
  | .rotate _ _ t => 0 < t
  | _ => True

theorem Stage.Sane.evolve {db db' : Db Cipher} {stage : Stage} (h : stage.Sane K db)
    (he : db.Evolves db') : stage.Sane K db' := by
  have hmove {row : Retired} (hrow : ∃ row' ∈ db.history, row.Continues row') :
      ∃ row' ∈ db'.history, row.Continues row' := by
    obtain ⟨row', hmem, hcont⟩ := hrow
    obtain ⟨row'', hmem', hcont'⟩ := he.history row' hmem
    exact ⟨row'', hmem', hcont.trans hcont'⟩
  cases stage with
  | replay token secret row t => exact ⟨h.1, h.2.1, h.2.2.1, hmove h.2.2.2⟩
  | recover token row x t => exact ⟨h.1, h.2.1, h.2.2.1, h.2.2.2.1, hmove h.2.2.2.2⟩
  | _ => exact h

/-- The tables are sound, their hashes were drawn, and the waiting requests have read them. -/
structure World.Books (K : Primitives Text Cipher) (s : World Text Cipher) : Prop where
  sound : s.db.Sound
  known : s.db.Known s.drawn
  sane : ∀ r, (s.stages r).Sane K s.db

theorem books_initial : (World.initial : World Text Cipher).Books K where
  sound := ⟨by simp [World.initial, Db.empty], by simp [World.initial, Db.empty],
    by simp [World.initial, Db.empty]⟩
  known := ⟨by simp [World.initial, Db.empty], by simp [World.initial, Db.empty]⟩
  sane _ := trivial

section Sane

/-- The stage that the verdict leads to, if any, meets `φ`. -/
def Verdict.Meets (φ : Stage → Prop) : Verdict Text → Prop
  | .goto stage => φ stage
  | .answer _ => True

theorem Verdict.Meets.ite {φ : Stage → Prop} {c : Prop} [Decidable c] {v w : Verdict Text}
    (hv : v.Meets φ) (hw : w.Meets φ) : (if c then v else w).Meets φ := by
  by_cases hc : c
  · rwa [if_pos hc]
  · rwa [if_neg hc]

section Stages

variable {φ : Stage → Prop} {r : ℕ} (h : ∀ r, φ (s.stages r)) (hdone : φ .done)
include h hdone

theorem stages_proceed {v : Verdict Text} (hv : v.Meets φ) (r' : ℕ) :
    φ ((s.proceed r v).stages r') := by
  by_cases hr : r' = r
  · subst hr
    cases v with
    | goto stage => simpa [World.proceed, World.goto, Verdict.Meets] using hv
    | answer a => simpa [World.proceed, World.finish] using hdone
  · cases v <;> simpa [World.proceed, World.goto, World.finish, Function.update_of_ne hr] using h r'

theorem stages_finish (db' : Db Cipher) (a : Answer Text) (r' : ℕ) :
    φ (((s.write db').finish r a).stages r') := by
  by_cases hr : r' = r
  · subst hr
    simpa [World.finish] using hdone
  · simpa [World.finish, World.write, Function.update_of_ne hr] using h r'

/-- Only an arrival, a read and a failed batch of an exchange lead to a stage that may not meet
`φ`. -/
theorem stages_next (hready : s.Ready K e)
    (harrive : ∀ query now, 0 < now → (firstRead K s.db now query).Meets φ)
    (hreplay : ∀ r token secret row t, s.stages r = .replay token secret row t →
      (replayVerdict K token secret row t (s.db.sessions.get? row.sessionId)).Meets φ)
    (hcurrent : ∀ r token secret now, s.stages r = .current token secret → 0 < now →
      (currentVerdict K token secret now (s.db.sessionByRefresh (K.refreshHash token))).Meets φ)
    (hrotate : ∀ r token x t, s.stages r = .rotate token x t → φ (.replayed x.id t))
    (hissue : ∀ r p dev verifier t now, s.stages r = .issue p dev verifier t →
      φ (.recoverPairing p.id dev verifier now true))
    (hrecover : ∀ r pairing dev verifier t proofValid,
      s.stages r = .recoverPairing pairing dev verifier t proofValid →
        (recoverVerdict K s.db pairing dev verifier t proofValid).Meets φ) (r' : ℕ) :
    φ ((s.next K e).stages r') := by
  cases e with
  | start id dev user challenge secret now =>
    change φ ((s.start id dev user challenge secret now).stages r')
    unfold World.start
    split_ifs <;> exact h r'
  | sweep now => exact h r'
  | arrive r query now => exact stages_proceed h hdone (harrive query now hready.2) r'
  | revokeByOwner r sid account now => exact stages_finish h hdone _ _ r'
  | act r now mint =>
    change φ ((s.act K r now mint).stages r')
    unfold World.act
    cases hr : s.stages r with
    | idle | done => exact h r'
    | replay token secret row t => exact stages_proceed h hdone (hreplay r _ _ _ _ hr) r'
    | current token secret => exact stages_proceed h hdone (hcurrent r _ _ now hr hready.1) r'
    | expire sid t | replayed sid t | surrender sid | slowDown p t | failProof p t | poll p t
    | dropRecovery pairing | decide pairing account approve => exact stages_finish h hdone _ _ r'
    | recover token row x t => exact stages_finish (s := s.draw _) h hdone _ _ r'
    | rotate token x t =>
      refine stages_proceed (s := (s.draw _).write _) h hdone ?_ r'
      split_ifs
      · trivial
      · exact hrotate r token x t hr
      · trivial
    | issue p dev verifier t =>
      simp only
      unfold World.issue
      split
      · exact stages_finish (s := s.draw _) h hdone _ _ r'
      · exact stages_proceed (s := s.draw _)
          (v := .goto (.recoverPairing p.id dev verifier now true)) h hdone
          (hissue r p dev verifier t now hr) r'
    | recoverPairing pairing dev verifier t proofValid =>
      exact stages_proceed h hdone (hrecover r _ _ _ _ _ hr) r'

end Stages

variable {r : ℕ} {now : Int} {db : Db Cipher}

theorem exchangeVerdict_sane (dev verifier : String) (p : Pairing) :
    (exchangeVerdict K dev verifier now p).Meets (Stage.Sane K db) := by
  iterate 7 refine .ite trivial ?_
  trivial

theorem firstRead_sane (h : s.Books K) (hnow : 0 < now) (query : Query) :
    (firstRead K s.db now query).Meets (Stage.Sane K s.db) := by
  cases query with
  | refresh token secret =>
    simp only [firstRead]
    split_ifs
    · trivial
    · split
      · rename_i row hrow
        obtain ⟨hmem, hkey⟩ := Table.get?_eq_some.1 hrow
        exact ⟨hkey, h.sound.times row hmem, hnow, row, hmem, .refl row⟩
      · trivial
  | revokeCurrent token secret =>
    simp only [firstRead]
    split_ifs
    · trivial
    · split
      · split_ifs <;> trivial
      · trivial
  | exchange deviceCode verifier =>
    refine .ite trivial ?_
    split
    · trivial
    · exact exchangeVerdict_sane _ _ _
  | decide userCode account approve =>
    simp only [firstRead]
    split
    · trivial
    · split_ifs <;> trivial

theorem replayVerdict_sane {token secret : String} {row : Retired} {t : Int}
    (hsane : (Stage.replay token secret row t).Sane K db) :
    (replayVerdict K token secret row t (db.sessions.get? row.sessionId)).Meets
      (Stage.Sane K db) := by
  obtain ⟨hkey, htime, ht, hrow⟩ := hsane
  cases hx : db.sessions.get? row.sessionId with
  | none => trivial
  | some x =>
    simp only [replayVerdict]
    split_ifs
    iterate 6 trivial
    exact ⟨hkey, by omega, ht, (Table.get?_eq_some.1 hx).2.symm, hrow⟩

theorem currentVerdict_sane {token secret : String} (hnow : 0 < now) (x : Option Session) :
    (currentVerdict K token secret now x).Meets (Stage.Sane K db) := by
  cases x with
  | none => trivial
  | some x =>
    simp only [currentVerdict]
    split_ifs
    iterate 3 trivial
    exact hnow

theorem recoverVerdict_sane (pairing dev verifier : String) (t : Int) (proofValid : Bool) :
    (recoverVerdict K db pairing dev verifier t proofValid).Meets (Stage.Sane K db) := by
  unfold recoverVerdict
  split
  · trivial
  · split
    · trivial
    · split_ifs <;> trivial

theorem sane_next (h : s.Books K) (hready : s.Ready K e) (r' : ℕ) :
    ((s.next K e).stages r').Sane K s.db := by
  refine stages_next h.sane trivial hready
    (fun query now hnow => firstRead_sane h hnow query) (fun r token secret row t hr => ?_)
    (fun r token secret now hr hnow => currentVerdict_sane hnow _) (fun _ _ _ _ _ => trivial)
    (fun _ _ _ _ _ _ _ => trivial) (fun r pairing dev verifier t proofValid hr => ?_) r'
  · exact replayVerdict_sane (hr ▸ h.sane r)
  · exact recoverVerdict_sane _ _ _ _ _

end Sane

theorem World.Books.unused (h : s.Books K) {mint : Mint} (hfresh : s.Fresh K mint) :
    s.db.Unused (mint.hashes K).refresh := h.known.unused hfresh.2.1

section Batches

variable {r : ℕ} {token : String} {row : Retired} {x : Session} {t : Int} {mint : Mint}

theorem proceed_db (v : Verdict Text) : (s.proceed r v).db = s.db := by
  cases v <;> rfl

theorem proceed_drawn (v : Verdict Text) : (s.proceed r v).drawn = s.drawn := by
  cases v <;> rfl

theorem recover_db : (s.recover K r token row x t mint).db =
    (s.db.recover (K.refreshHash token) row x (mint.hashes K)
      (claimMarker row.rotationTime mint.claimRandom) t).1 := rfl

theorem rotate_db : (s.rotate K r token x t mint).db =
    (s.db.rotate (K.refreshHash token) x (mint.hashes K) t).1 := by
  unfold World.rotate
  rw [proceed_db]
  rfl

theorem rotate_drawn : (s.rotate K r token x t mint).drawn =
    (mint.hashes K).access :: (mint.hashes K).refresh :: s.drawn := by
  unfold World.rotate
  rw [proceed_drawn]
  rfl

end Batches

theorem evolves_next (h : s.Books K) (ho : Outcome K s e s') : s.db.Evolves s'.db := by
  cases ho with
  | quiet hs hh => exact Db.evolves_same hs hh
  | revoked p now r a hs hh => exact Db.evolves_revoke hs hh
  | replayed r pairing dev verifier t row x text hstage hrow htext hdb =>
    exact Db.evolves_same (by rw [hdb]) (by rw [hdb])
  | created r p q dev verifier t mint hstage hfresh hs hh =>
    refine Db.evolves_of (fun x hx => ⟨x, ?_, rfl, rfl, rfl, id, rfl⟩)
      fun row hrow => ⟨row, hh ▸ hrow, .refl row⟩
    rw [hs]
    exact Table.mem_insert.2 (Or.inl hx)
  | recovered r token row x t now mint he hstage hfresh =>
    obtain ⟨-, hpos, -⟩ : (Stage.recover token row x t).Sane K s.db := hstage ▸ h.sane r
    exact Db.evolves_recover h.sound (h.unused hfresh) hpos
  | rotated r token x t now mint he hstage hfresh =>
    rw [rotate_db]
    exact Db.evolves_reissue h.sound (h.unused hfresh) fun z hz => hz

theorem World.Books.after (h : s.Books K) (ho : Outcome K s e s')
    (hstages : ∀ r, (s'.stages r).Sane K s.db) : s'.Books K := by
  have hsane : ∀ r, (s'.stages r).Sane K s'.db := fun r => (hstages r).evolve (evolves_next h ho)
  cases ho with
  | quiet hs hh hd => exact ⟨Db.sound_same h.sound hs hh, (h.known.same hs hh).mono hd, hsane⟩
  | revoked p now r a hs hh hd =>
    refine ⟨Db.sound_revoke hs hh h.sound, ⟨fun y hy => ?_, fun row hrow => ?_⟩, hsane⟩
    · obtain ⟨x, hx, -, hhash, -⟩ := Db.mem_revoke hs hy
      rw [hd, hhash]
      exact h.known.sessions x hx
    · rw [hd]
      exact h.known.history row (hh ▸ hrow)
  | replayed r pairing dev verifier t row x text hstage hrow htext hdb hd =>
    exact ⟨hdb ▸ h.sound, by rw [hdb, hd]; exact h.known, hsane⟩
  | created r p q dev verifier t mint hstage hfresh hs hh hd =>
    have hnew := h.unused hfresh
    have hmem {x : Session} (hx : x ∈ s'.db.sessions) :
        x ∈ s.db.sessions ∨ x = q.session mint.sessionId (mint.hashes K) t :=
      (Table.mem_insert.1 (hs ▸ hx)).imp id And.left
    refine ⟨⟨fun x hx y hy heq => ?_, fun row hrow x hx => ?_, hh ▸ h.sound.times⟩,
      ⟨fun x hx => ?_, fun row hrow => ?_⟩, hsane⟩
    · rcases hmem hx with hx | rfl <;> rcases hmem hy with hy | rfl
      · exact h.sound.apart x hx y hy heq
      · exact absurd heq (hnew.1 x hx)
      · exact absurd heq.symm (hnew.1 y hy)
      · rfl
    · rcases hmem hx with hx | rfl
      · exact h.sound.current row (hh ▸ hrow) x hx
      · exact (hnew.2 row (hh ▸ hrow)).symm
    · rw [hd]
      rcases hmem hx with hx | rfl
      · exact subset_drawn _ _ (h.known.sessions x hx)
      · exact List.mem_cons_of_mem _ List.mem_cons_self
    · rw [hd]
      exact subset_drawn _ _ (h.known.history row (hh ▸ hrow))
  | recovered r token row x t now mint he hstage hfresh =>
    obtain ⟨-, hpos, ht, -⟩ : (Stage.recover token row x t).Sane K s.db := hstage ▸ h.sane r
    exact ⟨Db.sound_recover h.sound (h.unused hfresh) hpos ht,
      Db.Known.recover h.sound (h.unused hfresh) hpos h.known, hsane⟩
  | rotated r token x t now mint he hstage hfresh =>
    have ht : (Stage.rotate token x t).Sane K s.db := hstage ▸ h.sane r
    refine ⟨?_, ?_, hsane⟩
    · rw [rotate_db]
      exact Db.sound_reissue h.sound (h.unused hfresh) (fun z hz => hz) ht.ne'
    · rw [rotate_db, rotate_drawn, Db.rotate]
      refine Db.Known.reissue h.sound (h.unused hfresh) ?_ h.known
      exact fun z hz => hz

theorem World.Books.next (h : s.Books K) (hready : s.Ready K e) : (s.next K e).Books K :=
  h.after (next_outcome hready) (sane_next h hready)

section Batches

variable {r : ℕ} {token : String} {row : Retired} {x : Session} {t now : Int} {mint : Mint}

variable (r token x t) in
/-- A rotation either finds the session moved on and changes nothing, or commits. -/
theorem rotate_cases (h : s.Books K) (hfresh : s.Fresh K mint) :
    ((s.rotate K r token x t mint).db = s.db ∧
      (s.rotate K r token x t mint).answers =
        s.answers ++ [(r, .refused .concurrentRotation)]) ∨
    ∃ y ∈ s.db.sessions, y.holds x.id (K.refreshHash token) = true ∧
      s.db.history.get? (K.refreshHash token) = none ∧
      (s.rotate K r token x t mint).db.history =
        s.db.history.insert ⟨K.refreshHash token, x.id, t⟩ ∧
      (s.rotate K r token x t mint).stages r = .done ∧
      (s.rotate K r token x t mint).answers =
        s.answers ++ [(r, .refreshed .rotation token (mint.refreshResponse x t))] := by
  by_cases hany : ∃ y ∈ s.db.sessions, y.holds x.id (K.refreshHash token) = true
  · obtain ⟨y, hy, hholds⟩ := hany
    obtain ⟨hcounts, hh, -, hfree⟩ := Db.reissue_some (p := Session.holds x.id (K.refreshHash token))
      ⟨K.refreshHash token, x.id, t⟩ (mint.hashes K) t h.sound hy hholds fun z hz => hz
    refine Or.inr ⟨y, hy, hholds, hfree, by rw [rotate_db]; exact hh, ?_⟩
    have hcounts' : (s.db.rotate (K.refreshHash token) x (mint.hashes K) t).2 = (1, 1) := hcounts
    simp [World.rotate, hcounts', World.proceed, World.finish, World.write, World.draw]
  · have hnone : s.db.rotate (K.refreshHash token) x (mint.hashes K) t = (s.db, 0, 0) :=
      Db.reissue_none _ _ (fun y hy => Bool.eq_false_iff.2 fun hp => hany ⟨y, hy, hp⟩)
        (h.unused hfresh)
    refine Or.inl ⟨by rw [rotate_db, hnone], ?_⟩
    simp [World.rotate, hnone, World.proceed, World.finish, World.write, World.draw]

/-- The four ways a recovery's batch can go: it commits, it marks the history row and stops, it
finds the row marked and moves the session, or it changes nothing. -/
inductive Recovers (K : Primitives Text Cipher) (s : World Text Cipher) (r : ℕ) (token : String)
    (row : Retired) (x : Session) (t : Int) (mint : Mint) : Prop
  | committed (y : Session) (hy : y ∈ s.db.sessions)
      (hclaim : s.db.Claimable (K.refreshHash token) row.rotatedAt) (hmoved : s.db.Unmoved x t)
      (hholds : y.holds x.id x.refreshHash = true)
      (hmark : ∃ row' ∈ (s.recover K r token row x t mint).db.history,
        row'.refreshHash = K.refreshHash token ∧ row'.rotatedAt < 0)
      (ha : (s.recover K r token row x t mint).answers =
        s.answers ++ [(r, .refreshed .recovery token (mint.refreshResponse x t))])
  | spent (hclaim : s.db.Claimable (K.refreshHash token) row.rotatedAt)
      (hmoved : ¬ s.db.Unmoved x t)
      (hdb : (s.recover K r token row x t mint).db = s.db.claim (K.refreshHash token)
        row.rotatedAt (claimMarker row.rotationTime mint.claimRandom))
      (ha : (s.recover K r token row x t mint).answers =
        s.answers ++ [(r, .refused .concurrentRecovery)])
  | collided (y : Session) (hy : y ∈ s.db.sessions) (hholds : y.holds x.id x.refreshHash = true)
      (hclaim : ¬ s.db.Claimable (K.refreshHash token) row.rotatedAt)
      (hmoved : s.db.Unmoved x t)
      (hmarked : s.db.Marked (K.refreshHash token) x
        (claimMarker row.rotationTime mint.claimRandom))
      (hissued : y.issue (mint.hashes K) t ∈ (s.recover K r token row x t mint).db.sessions)
      (ha : (s.recover K r token row x t mint).answers =
        s.answers ++ [(r, .refused .concurrentRecovery)])
  | lost (hclaim : ¬ s.db.Claimable (K.refreshHash token) row.rotatedAt)
      (hmarked : ¬ (s.db.Marked (K.refreshHash token) x
        (claimMarker row.rotationTime mint.claimRandom) ∧ s.db.Unmoved x t))
      (hdb : (s.recover K r token row x t mint).db = s.db)
      (ha : (s.recover K r token row x t mint).answers =
        s.answers ++ [(r, .refused .concurrentRecovery)])

theorem recover_answers : (s.recover K r token row x t mint).answers = s.answers ++ [(r,
    if (s.db.recover (K.refreshHash token) row x (mint.hashes K)
      (claimMarker row.rotationTime mint.claimRandom) t).2 = (1, 1, 1) then
      .refreshed .recovery token (mint.refreshResponse x t)
    else .refused .concurrentRecovery)] := rfl

/-- The claim finds the row that was read, and so the one of the session. -/
theorem marked_claim (hsane : (Stage.recover token row x t).Sane K s.db)
    (hclaim : s.db.Claimable (K.refreshHash token) row.rotatedAt) (marker : Int) :
    (s.db.claim (K.refreshHash token) row.rotatedAt marker).Marked (K.refreshHash token) x marker := by
  obtain ⟨hkey, -, -, hsid, row', hrow', hcont⟩ := hsane
  obtain ⟨old, hold, hclaimable⟩ := hclaim
  obtain ⟨hhash, -, -⟩ := Retired.claimable_iff.1 hclaimable
  have hsame : old = row' :=
    Table.eq_of_key hold hrow' (hhash.trans (hkey.symm.trans hcont.refreshHash.symm))
  refine ⟨old.mark marker, ?_, Retired.claimedBy_iff.2 ⟨hhash, ?_, rfl⟩⟩
  · rw [Db.claim_history]
    exact (Table.mem_update _).2 ⟨old, hold, by rw [hclaimable]; rfl⟩
  · exact (congrArg Retired.sessionId hsame).trans (hcont.sessionId.trans hsid)

theorem recover_cases (h : s.Books K) (hfresh : s.Fresh K mint)
    (hstage : s.stages r = .recover token row x t) : Recovers K s r token row x t mint := by
  have hsane : (Stage.recover token row x t).Sane K s.db := hstage ▸ h.sane r
  obtain ⟨-, hpos, -⟩ := hsane
  set marker := claimMarker row.rotationTime mint.claimRandom with hmarker
  have hneg : marker < 0 := by
    rw [hmarker, Retired.rotationTime_of_pos hpos]
    exact claimMarker_neg hpos _
  have hsound₁ : (s.db.claim (K.refreshHash token) row.rotatedAt marker).Sound := by
    rw [hmarker, Retired.rotationTime_of_pos hpos]
    exact Db.sound_claim h.sound hpos
  by_cases hclaim : s.db.Claimable (K.refreshHash token) row.rotatedAt
  · have hcount : s.db.history.rows.countP (Retired.claimable (K.refreshHash token) row.rotatedAt) = 1 := by
      obtain ⟨old, hold, hclaimable⟩ := hclaim
      refine Table.countP_eq_one hold hclaimable fun other _ hother => ?_
      exact (Retired.claimable_iff.1 hother).1.trans (Retired.claimable_iff.1 hclaimable).1.symm
    have hmarked := marked_claim (hstage ▸ h.sane r) hclaim marker
    by_cases hmoved : s.db.Unmoved x t
    · obtain ⟨y, hy, hholds, hexp⟩ := id hmoved
      obtain ⟨hcounts, hh, -, -⟩ := Db.reissue_some ⟨x.refreshHash, x.id, t⟩ (mint.hashes K) t
        hsound₁ hy (Db.recovers_iff.2 ⟨hholds, hexp, hmarked⟩) Db.recovers_holds
      have hall : (s.db.recover (K.refreshHash token) row x (mint.hashes K) marker t).2 =
          (1, 1, 1) := Prod.ext hcount hcounts
      obtain ⟨old, hold, hby⟩ := hmarked
      obtain ⟨hhash, -, hmark⟩ := Retired.claimedBy_iff.1 hby
      refine .committed y hy hclaim hmoved hholds ⟨old, ?_, hhash, hmark ▸ hneg⟩ ?_
      · rw [recover_db]
        change old ∈ ((s.db.claim _ _ _).reissue _ _ _ _).1.history
        rw [hh]
        exact Table.mem_insert.2 (Or.inl hold)
      · rw [recover_answers, if_pos hall]
    · have hnone : s.db.recover (K.refreshHash token) row x (mint.hashes K) marker t =
          (s.db.claim (K.refreshHash token) row.rotatedAt marker, 1, 0, 0) := by
        rw [Db.recover_eq, hcount, Db.reissue_none _ _ (fun y hy => Bool.eq_false_iff.2 fun hrec => ?_)
          (Db.unused_claim (h.unused hfresh))]
        obtain ⟨hholds, hexp, -⟩ := Db.recovers_iff.1 hrec
        exact hmoved ⟨y, hy, hholds, hexp⟩
      refine .spent hclaim hmoved ?_ ?_
      · rw [recover_db, ← hmarker, hnone]
      · rw [recover_answers, ← hmarker, hnone, if_neg (by simp)]
  · have hsame : s.db.claim (K.refreshHash token) row.rotatedAt marker = s.db :=
      Db.claim_eq_self hclaim
    have hcount : s.db.history.rows.countP
        (Retired.claimable (K.refreshHash token) row.rotatedAt) = 0 :=
      List.countP_eq_zero.2 fun old hold hold' => hclaim ⟨old, hold, hold'⟩
    have hrefused (n m : ℕ) : ((0, n, m) : ℕ × ℕ × ℕ) ≠ (1, 1, 1) := by simp
    have hresult : s.db.recover (K.refreshHash token) row x (mint.hashes K) marker t =
        ((s.db.reissue (s.db.recovers (K.refreshHash token) x marker t)
          ⟨x.refreshHash, x.id, t⟩ (mint.hashes K) t).1, 0,
          (s.db.reissue (s.db.recovers (K.refreshHash token) x marker t)
          ⟨x.refreshHash, x.id, t⟩ (mint.hashes K) t).2) := by
      rw [Db.recover_eq, hcount, hsame]
    by_cases hboth : s.db.Marked (K.refreshHash token) x marker ∧ s.db.Unmoved x t
    · obtain ⟨y, hy, hholds, hexp⟩ := id hboth.2
      have hrec := Db.recovers_iff.2 ⟨hholds, hexp, hboth.1⟩
      obtain ⟨-, -, hs, -⟩ := Db.reissue_some ⟨x.refreshHash, x.id, t⟩ (mint.hashes K) t
        h.sound hy hrec Db.recovers_holds
      refine .collided y hy hholds hclaim hboth.2 hboth.1 ?_ ?_
      · rw [recover_db, ← hmarker, hresult, hs]
        exact (Table.mem_update _).2 ⟨y, hy, by rw [hrec]; rfl⟩
      · rw [recover_answers, ← hmarker, hresult, if_neg (hrefused _ _)]
    · have hnone := Db.reissue_none (p := s.db.recovers (K.refreshHash token) x marker t)
        ⟨x.refreshHash, x.id, t⟩ t (fun y hy => Bool.eq_false_iff.2 fun hrec => by
          obtain ⟨hholds, hexp, hmarked⟩ := Db.recovers_iff.1 hrec
          exact hboth ⟨hmarked, y, hy, hholds, hexp⟩) (h.unused hfresh)
      refine .lost hclaim hboth ?_ ?_
      · rw [recover_db, ← hmarker, hresult, hnone]
      · rw [recover_answers, ← hmarker, hresult, if_neg (hrefused _ _)]

end Batches

/-- A successful exchange of the token by the given way. -/
def Answer.exchanges (way : Way) (token : String) : Answer Text → Bool
  | .refreshed w t _ => w = way && t = token
  | _ => false

/-- An exchanged token is retired, and claimed if a recovery exchanged it; and it was exchanged
once in each way. -/
structure World.Exchanged (K : Primitives Text Cipher) (s : World Text Cipher) : Prop where
  rotated : ∀ r token response, (r, .refreshed .rotation token response) ∈ s.answers →
    ∃ row ∈ s.db.history, row.refreshHash = K.refreshHash token
  recovered : ∀ r token response, (r, .refreshed .recovery token response) ∈ s.answers →
    ∃ row ∈ s.db.history, row.refreshHash = K.refreshHash token ∧ row.rotatedAt < 0
  once : ∀ way token, s.answers.countP (fun a => a.2.exchanges way token) ≤ 1

theorem exchanges_iff {way : Way} {token : String} {a : Answer Text} :
    a.exchanges way token = true ↔ ∃ response, a = .refreshed way token response := by
  cases a with
  | refreshed w t response => simp [Answer.exchanges]
  | _ => simp [Answer.exchanges]

/-- One more answer, whose exchange is the first of its kind. -/
theorem World.Exchanged.append (h : s.Exchanged K) {r : ℕ} {a : Answer Text}
    (hans : s'.answers = s.answers ++ [(r, a)]) (hev : s.db.Evolves s'.db)
    (hfirst : ∀ way token response, a = .refreshed way token response →
      (∀ b ∈ s.answers, b.2.exchanges way token = false) ∧
        ∃ row ∈ s'.db.history, row.refreshHash = K.refreshHash token ∧
          (way = .recovery → row.rotatedAt < 0)) : s'.Exchanged K where
  rotated r' token response hmem := by
    rw [hans] at hmem
    rcases List.mem_append.1 hmem with hold | hnew
    · obtain ⟨row, hrow, hhash⟩ := h.rotated r' token response hold
      obtain ⟨row', hrow', hcont⟩ := hev.history row hrow
      exact ⟨row', hrow', hcont.refreshHash.trans hhash⟩
    · obtain ⟨-, row, hrow, hhash, -⟩ :=
        hfirst _ _ _ (Prod.mk.inj (List.mem_singleton.1 hnew)).2.symm
      exact ⟨row, hrow, hhash⟩
  recovered r' token response hmem := by
    rw [hans] at hmem
    rcases List.mem_append.1 hmem with hold | hnew
    · obtain ⟨row, hrow, hhash, hneg⟩ := h.recovered r' token response hold
      obtain ⟨row', hrow', hcont⟩ := hev.history row hrow
      exact ⟨row', hrow', hcont.refreshHash.trans hhash, by rw [hcont.claimed hneg]; exact hneg⟩
    · obtain ⟨-, row, hrow, hhash, hneg⟩ :=
        hfirst _ _ _ (Prod.mk.inj (List.mem_singleton.1 hnew)).2.symm
      exact ⟨row, hrow, hhash, hneg rfl⟩
  once way token := by
    rw [hans, List.countP_append, List.countP_singleton]
    cases hex : a.exchanges way token with
    | false => simpa [hex] using h.once way token
    | true =>
      obtain ⟨response, rfl⟩ := exchanges_iff.1 hex
      have hzero : s.answers.countP (fun b => b.2.exchanges way token) = 0 :=
        List.countP_eq_zero.2 fun b hb => by simp [(hfirst _ _ _ rfl).1 b hb]
      simp [hzero]

theorem World.Exchanged.same (h : s.Exchanged K) (hans : s'.answers = s.answers)
    (hev : s.db.Evolves s'.db) : s'.Exchanged K where
  rotated r token response hmem := by
    obtain ⟨row, hrow, hhash⟩ := h.rotated r token response (hans ▸ hmem)
    obtain ⟨row', hrow', hcont⟩ := hev.history row hrow
    exact ⟨row', hrow', hcont.refreshHash.trans hhash⟩
  recovered r token response hmem := by
    obtain ⟨row, hrow, hhash, hneg⟩ := h.recovered r token response (hans ▸ hmem)
    obtain ⟨row', hrow', hcont⟩ := hev.history row hrow
    exact ⟨row', hrow', hcont.refreshHash.trans hhash, by rw [hcont.claimed hneg]; exact hneg⟩
  once way token := by
    rw [hans]
    exact h.once way token

theorem Answer.Plain.not_refreshed {a : Answer Text} (h : a.Plain) {way : Way} {token : String}
    {response : TokenResponse} : a ≠ .refreshed way token response := by
  rintro rfl
  exact h

theorem World.Exchanged.next (h : s.Exchanged K) (hb : s.Books K) (ho : Outcome K s e s') :
    s'.Exchanged K := by
  have hev := evolves_next hb ho
  cases ho with
  | quiet hs hh hd ha =>
    rcases ha with ha | ⟨r, a, he, hplain, ha⟩
    · exact h.same ha hev
    · exact h.append ha hev fun way token response heq => absurd heq hplain.not_refreshed
  | revoked p now r a hs hh hd he hplain ha hends =>
    exact h.append ha hev fun way token response heq => absurd heq hplain.not_refreshed
  | replayed r pairing dev verifier t row x text hstage hrow htext hdb hd he ha =>
    exact h.append ha hev fun way token response heq => nomatch heq
  | created r p q dev verifier t mint hstage hfresh hs hh hd he ha =>
    exact h.append ha hev fun way token response heq => nomatch heq
  | rotated r token x t now mint he hstage hfresh =>
    rcases rotate_cases _ _ _ _ hb hfresh with ⟨-, ha⟩ | ⟨y, hy, hholds, hfree, hh, -, ha⟩
    · exact h.append ha hev fun way token response heq => nomatch heq
    · refine h.append ha hev fun way token' response heq => ?_
      obtain ⟨rfl, rfl, -⟩ := Answer.refreshed.inj heq
      refine ⟨fun b hb' => Bool.eq_false_iff.2 fun hex => ?_, ⟨_, x.id, t⟩, ?_, rfl, nofun⟩
      · obtain ⟨response', hb''⟩ := exchanges_iff.1 hex
        obtain ⟨row, hrow, hhash⟩ := h.rotated b.1 token response' (by rw [← hb'']; exact hb')
        exact Table.get?_eq_none.1 hfree row hrow hhash
      · rw [hh]
        exact Table.mem_insert.2 (Or.inr ⟨rfl, Table.get?_eq_none.1 hfree⟩)
  | recovered r token row x t now mint he hstage hfresh =>
    cases recover_cases hb hfresh hstage with
    | spent hclaim hmoved hdb ha => exact h.append ha hev fun way token response heq => nomatch heq
    | collided y hy hholds hclaim hmoved hmarked hissued ha =>
      exact h.append ha hev fun way token response heq => nomatch heq
    | lost hclaim hmarked hdb ha => exact h.append ha hev fun way token response heq => nomatch heq
    | committed y hy hclaim hmoved hholds hmark ha =>
      refine h.append ha hev fun way token' response heq => ?_
      obtain ⟨rfl, rfl, -⟩ := Answer.refreshed.inj heq
      obtain ⟨row', hrow', hhash', hneg'⟩ := hmark
      refine ⟨fun b hb' => Bool.eq_false_iff.2 fun hex => ?_, row', hrow', hhash', fun _ => hneg'⟩
      obtain ⟨response', hb''⟩ := exchanges_iff.1 hex
      obtain ⟨old, hold, hhash, hneg⟩ := h.recovered b.1 token response' (by rw [← hb'']; exact hb')
      obtain ⟨found, hfound, hclaimable⟩ := hclaim
      obtain ⟨hhash'', -, hpos⟩ := Retired.claimable_iff.1 hclaimable
      have hsame := Table.eq_of_key hold hfound (hhash.trans hhash''.symm)
      rw [hsame] at hneg
      omega

/-- The answer gives the client the tokens of `response`. -/
def Answer.Returns (K : Primitives Text Cipher) (response : TokenResponse) : Answer Text → Prop
  | .refreshed _ _ r => r = response
  | .exchanged _ _ _ body => body = K.stringify response
  | _ => False

/-- Some answer gave a client the tokens of the session. -/
def World.Backs (K : Primitives Text Cipher) (s : World Text Cipher) (x : Session) : Prop :=
  ∃ a ∈ s.answers, ∃ response, a.2.Returns K response ∧ response.sessionId = x.id ∧
    K.refreshHash response.refreshToken = x.refreshHash ∧
    K.hmacHex .access response.accessToken = x.accessHash

/-- The history row already has the marker that the batch of the recovery computes, and the
session is as the recovery has read it. -/
def Stage.Collides (K : Primitives Text Cipher) (db : Db Cipher) (mint : Mint) : Stage → Prop
  | .recover token row x t => db.Marked (K.refreshHash token) x
      (claimMarker row.rotationTime mint.claimRandom) ∧ db.Unmoved x t
  | _ => False

instance (db : Db Cipher) (mint : Mint) : (stage : Stage) → Decidable (stage.Collides K db mint)
  | .recover .. => inferInstanceAs (Decidable (_ ∧ _))
  | .idle | .replay .. | .current .. | .expire .. | .replayed .. | .rotate .. | .surrender ..
  | .slowDown .. | .failProof .. | .poll .. | .issue .. | .recoverPairing .. | .dropRecovery ..
  | .decide .. | .done => inferInstanceAs (Decidable False)

/-- The batch of a recovery does not find its own marker. -/
def World.MarkerFree (K : Primitives Text Cipher) (s : World Text Cipher) : Event → Prop
  | .act r _ mint => ¬ (s.stages r).Collides K s.db mint
  | _ => True

instance : DecidablePred (s.MarkerFree K)
  | .act .. => inferInstanceAs (Decidable (¬ _))
  | .start .. | .sweep .. | .arrive .. | .revokeByOwner .. => inferInstanceAs (Decidable True)

theorem World.Backs.mono {x y : Session} (h : s.Backs K x) (hans : s.answers ⊆ s'.answers)
    (hid : y.id = x.id) (hrefresh : y.refreshHash = x.refreshHash)
    (haccess : y.accessHash = x.accessHash) : s'.Backs K y := by
  obtain ⟨a, ha, response, hret, hsid, hr, hacc⟩ := h
  exact ⟨a, hans ha, response, hret, hsid.trans hid.symm, hr.trans hrefresh.symm,
    hacc.trans haccess.symm⟩

/-- An answer with the tokens of the new pair backs what the batch has issued. -/
theorem backs_issue {r : ℕ} {a : Answer Text} {mint : Mint} {x : Session}
    (response : TokenResponse) (hans : s'.answers = s.answers ++ [(r, a)]) (hret : a.Returns K response)
    (haccess : response.accessToken = mint.accessToken)
    (hrefresh : response.refreshToken = mint.refreshToken) (hid : response.sessionId = x.id)
    (hxr : x.refreshHash = (mint.hashes K).refresh) (hxa : x.accessHash = (mint.hashes K).access) :
    s'.Backs K x := by
  refine ⟨(r, a), hans ▸ List.mem_append_right _ (List.mem_singleton_self _), response, hret, hid,
    ?_, ?_⟩
  · rw [hxr, hrefresh]
    rfl
  · rw [hxa, haccess]
    rfl

theorem answers_subset {r : ℕ} {a : Answer Text} (hans : s'.answers = s.answers ++ [(r, a)]) :
    s.answers ⊆ s'.answers := hans ▸ List.subset_append_left _ _

theorem backed_next (hb : s.Books K) (ho : Outcome K s e s') (hfree : s.MarkerFree K e)
    (h : ∀ x ∈ s.db.sessions, s.Backs K x) : ∀ y ∈ s'.db.sessions, s'.Backs K y := by
  intro y hy
  cases ho with
  | quiet hs hh hd ha =>
    refine (h y (hs ▸ hy)).mono ?_ rfl rfl rfl
    rcases ha with ha | ⟨r, a, he, hplain, ha⟩
    · exact ha ▸ List.Subset.refl _
    · exact answers_subset ha
  | revoked p now r a hs hh hd he hplain ha hends =>
    obtain ⟨x, hx, hid, hrefresh, haccess, -⟩ := Db.mem_revoke hs hy
    exact (h x hx).mono (answers_subset ha) hid hrefresh haccess
  | replayed r pairing dev verifier t row x text hstage hrow htext hdb hd he ha =>
    exact (h y (hdb ▸ hy)).mono (answers_subset ha) rfl rfl rfl
  | created r p q dev verifier t mint hstage hfresh hs hh hd he ha =>
    rcases Table.mem_insert.1 (hs ▸ hy) with hold | ⟨rfl, -⟩
    · exact (h y hold).mono (answers_subset ha) rfl rfl rfl
    · exact backs_issue mint.exchangeResponse ha rfl rfl rfl rfl rfl rfl
  | rotated r token x t now mint he hstage hfresh =>
    have hmem := hy
    rw [rotate_db] at hmem
    rcases rotate_cases _ _ _ _ hb hfresh with ⟨hdb, ha⟩ | ⟨z, hz, hholds, -, -, -, ha⟩
    · exact (h y (hdb ▸ hy)).mono (answers_subset ha) rfl rfl rfl
    · rcases Db.mem_rotate hb.sound (hb.unused hfresh) hmem with hold | ⟨w, -, hw, rfl⟩
      · exact (h y hold).mono (answers_subset ha) rfl rfl rfl
      · exact backs_issue (mint.refreshResponse x t) ha rfl rfl rfl
          (Session.holds_iff.1 hw).1.symm rfl rfl
  | recovered r token row x t now mint he hstage hfresh =>
    obtain ⟨-, hpos, -⟩ : (Stage.recover token row x t).Sane K s.db := hstage ▸ hb.sane r
    cases recover_cases hb hfresh hstage with
    | spent hclaim hmoved hdb ha =>
      have hold := hy
      rw [hdb] at hold
      exact (h y hold).mono (answers_subset ha) rfl rfl rfl
    | lost hclaim hmarked hdb ha => exact (h y (hdb ▸ hy)).mono (answers_subset ha) rfl rfl rfl
    | collided z hz hholds hclaim hmoved hmarked hissued ha =>
      subst he
      simp only [World.MarkerFree, hstage, Stage.Collides] at hfree
      exact absurd ⟨hmarked, hmoved⟩ hfree
    | committed z hz hclaim hmoved hholds hmark ha =>
      have hmem := hy
      rw [recover_db] at hmem
      rcases Db.mem_recover hb.sound (hb.unused hfresh) hpos hmem with hold | ⟨w, -, hw, rfl⟩
      · exact (h y hold).mono (answers_subset ha) rfl rfl rfl
      · exact backs_issue (mint.refreshResponse x t) ha rfl rfl rfl
          (Session.holds_iff.1 hw).1.symm rfl rfl

/-- What a recovery of a pairing gives back are the tokens of a live session. -/
theorem recoveredText_spec {db : Db Cipher} {pairing dev : String} {t : Int} {row : Recovery Cipher}
    {x : Session} {text : Text} (hrow : db.recoveryRow pairing = some (row, x))
    (htext : recoveredText K row x dev t = some text) :
    row ∈ db.recoveries ∧ row.pairingId = pairing ∧ x ∈ db.sessions ∧ x.id = row.sessionId ∧
      x.pairingId = pairing ∧ t < row.expiresAt ∧ x.revokedAt = none ∧
      K.decrypt row.nonce ⟨row.pairingId, row.sessionId, row.deviceCodeHash, x.deviceSecretChallenge⟩
        row.ciphertext = some text ∧
      ∃ value, K.parse text = some value ∧ value.sessionId = row.sessionId ∧
        K.refreshHash value.refreshToken = x.refreshHash := by
  unfold Db.recoveryRow at hrow
  obtain ⟨row', hrow', hjoin⟩ := Option.bind_eq_some_iff.1 hrow
  obtain ⟨x', hx', heq⟩ := Option.map_eq_some_iff.1 hjoin
  obtain ⟨rfl, rfl⟩ := Prod.mk.inj heq
  obtain ⟨hx', hpairing⟩ := Option.filter_eq_some_iff.1 hx'
  obtain ⟨hmem, hid⟩ := Table.get?_eq_some.1 hx'
  obtain ⟨hrmem, hkey⟩ := Table.get?_eq_some.1 hrow'
  unfold recoveredText at htext
  split_ifs at htext with hstale
  simp only [not_or, not_le] at hstale
  obtain ⟨hexp, hrev, -⟩ := hstale
  obtain ⟨hdecrypt, hvalid⟩ := Option.filter_eq_some_iff.1 htext
  obtain ⟨value, hparsed, hhashes⟩ := (Option.any_eq_true _ _).1 hvalid
  obtain ⟨hparse, hfields⟩ := Option.filter_eq_some_iff.1 hparsed
  simp only [Bool.and_eq_true, decide_eq_true_eq] at hfields hhashes hpairing
  refine ⟨hrmem, hkey, hmem, hid, hpairing.trans hkey, hexp, ?_, hdecrypt, value, hparse,
    hfields.1.1.2, hhashes.2⟩
  exact Option.not_isSome_iff_eq_none.1 hrev

theorem stringify_inj {response response' : TokenResponse}
    (h : K.stringify response = K.stringify response') : response = response' :=
  Option.some.inj ((K.parse_stringify response).symm.trans ((congrArg K.parse h).trans
    (K.parse_stringify response')))

/-- No answer gives out the tokens of a session that is revoked. -/
theorem revoked_next (hb : s.Books K) (ho : Outcome K s e s') {x : Session}
    (hx : x ∈ s.db.sessions) (hrev : x.revokedAt.isSome = true) :
    ∃ later, s'.answers = s.answers ++ later ∧
      ∀ a ∈ later, ∀ response, a.2.Returns K response → response.sessionId ≠ x.id := by
  have hlive {y : Session} (hy : y ∈ s.db.sessions) (hnone : y.revokedAt = none) : y.id ≠ x.id := by
    intro heq
    rw [Table.eq_of_key hy hx heq] at hnone
    simp [hnone] at hrev
  have hone {r : ℕ} {a : Answer Text} (ha : s'.answers = s.answers ++ [(r, a)])
      (hret : ∀ response, a.Returns K response → response.sessionId ≠ x.id) :
      ∃ later, s'.answers = s.answers ++ later ∧
        ∀ a ∈ later, ∀ response, a.2.Returns K response → response.sessionId ≠ x.id :=
    ⟨_, ha, fun b hb response => by rw [List.mem_singleton.1 hb]; exact hret response⟩
  have hplain {a : Answer Text} (h : a.Plain) (response : TokenResponse) :
      a.Returns K response → response.sessionId ≠ x.id := by
    cases a with
    | refreshed | exchanged => exact h.elim
    | _ => exact False.elim
  cases ho with
  | quiet hs hh hd ha =>
    rcases ha with ha | ⟨r, a, he, hp, ha⟩
    · exact ⟨[], by simpa using ha, by simp⟩
    · exact hone ha (hplain hp)
  | revoked p now r a hs hh hd he hp ha hends => exact hone ha (hplain hp)
  | replayed r pairing dev verifier t row y text hstage hrow htext hdb hd he ha =>
    refine hone ha fun response hret => ?_
    obtain ⟨-, -, hy, hid, -, -, hnone, -, value, hparse, hsid, -⟩ := recoveredText_spec hrow htext
    rw [show text = K.stringify response from hret, K.parse_stringify] at hparse
    rw [Option.some.inj hparse, hsid, ← hid]
    exact hlive hy hnone
  | created r p q dev verifier t mint hstage hfresh hs hh hd he ha =>
    refine hone ha fun response hret heq => ?_
    rw [← stringify_inj hret] at heq
    exact Table.get?_eq_none.1 hfresh.2.2 x hx heq.symm
  | rotated r token z t now mint he hstage hfresh =>
    rcases rotate_cases _ _ _ _ hb hfresh with ⟨-, ha⟩ | ⟨y, hy, hholds, -, -, -, ha⟩
    · exact hone ha (hplain trivial)
    · refine hone ha fun response hret => ?_
      obtain ⟨hid, -, hnone⟩ := Session.holds_iff.1 hholds
      have hsid : response.sessionId = z.id := by rw [← show _ = response from hret]; rfl
      rw [hsid, ← hid]
      exact hlive hy hnone
  | recovered r token row z t now mint he hstage hfresh =>
    cases recover_cases hb hfresh hstage with
    | spent hclaim hmoved hdb ha => exact hone ha (hplain trivial)
    | lost hclaim hmarked hdb ha => exact hone ha (hplain trivial)
    | collided y hy hholds hclaim hmoved hmarked hissued ha => exact hone ha (hplain trivial)
    | committed y hy hclaim hmoved hholds hmark ha =>
      refine hone ha fun response hret => ?_
      obtain ⟨hid, -, hnone⟩ := Session.holds_iff.1 hholds
      have hsid : response.sessionId = z.id := by rw [← show _ = response from hret]; rfl
      rw [hsid, ← hid]
      exact hlive hy hnone

end Requests

section Runs

variable {Text Cipher : Type} {K : Primitives Text Cipher} {s t : World Text Cipher}
  {evs evs' : List Event}

open World (Step initial)

theorem run_books (h : Run (Step K) s evs t) (hs : s.Books K ∧ s.Exchanged K) :
    t.Books K ∧ t.Exchanged K := by
  refine h.invariant (I := fun u => u.Books K ∧ u.Exchanged K) (fun u e u' hu hstep => ?_) hs
  obtain ⟨hready, rfl⟩ := hstep
  exact ⟨hu.1.next hready, hu.2.next hu.1 (next_outcome hready)⟩

theorem books_of_run (h : Run (Step K) initial evs s) : s.Books K ∧ s.Exchanged K :=
  run_books h ⟨books_initial, by simp [initial], by simp [initial], by simp [initial]⟩

/-- Along a run sessions and retired hashes evolve. -/
theorem run_evolves (h : Run (Step K) s evs t) (hs : s.Books K) :
    t.Books K ∧ s.db.Evolves t.db := by
  induction h with
  | nil => exact ⟨hs, Db.evolves_same rfl rfl⟩
  | snoc hbefore hstep ih =>
    obtain ⟨hbooks, hev⟩ := ih
    obtain ⟨hready, rfl⟩ := hstep
    exact ⟨hbooks.next hready, hev.trans (evolves_next hbooks (next_outcome hready))⟩

/-- A session that is revoked stays so, and no later answer gives out its tokens. -/
theorem run_revoked (h : Run (Step K) s evs t) (hs : s.Books K) {x : Session}
    (hx : x ∈ s.db.sessions) (hrev : x.revokedAt.isSome = true) :
    (∃ y ∈ t.db.sessions, y.id = x.id ∧ y.revokedAt.isSome = true) ∧
      ∃ later, t.answers = s.answers ++ later ∧
        ∀ a ∈ later, ∀ response, a.2.Returns K response → response.sessionId ≠ x.id := by
  induction h with
  | nil => exact ⟨⟨x, hx, rfl, hrev⟩, [], by simp, by simp⟩
  | snoc hbefore hstep ih =>
    obtain ⟨⟨y, hy, hid, hyrev⟩, later, hlater, hnone⟩ := ih
    obtain ⟨hready, rfl⟩ := hstep
    have hbooks := (run_evolves hbefore hs).1
    have ho := next_outcome hready
    obtain ⟨z, hz, hcont⟩ := (evolves_next hbooks ho).session y hy
    obtain ⟨more, hmore, hnone'⟩ := revoked_next hbooks ho hy hyrev
    refine ⟨⟨z, hz, hcont.id.trans hid, (hcont.revoked hyrev).1⟩, later ++ more, ?_, ?_⟩
    · rw [hmore, hlater, List.append_assoc]
    · intro a ha
      rcases List.mem_append.1 ha with hold | hnew
      · exact hnone a hold
      · exact hid ▸ hnone' a hnew

theorem run_backed (h : Run (Guarded (Step K) (World.MarkerFree K)) initial evs s) :
    ∀ x ∈ s.db.sessions, s.Backs K x := by
  induction h with
  | nil => simp [initial, Db.empty]
  | snoc hbefore hstep ih =>
    obtain ⟨⟨hready, rfl⟩, hfree⟩ := hstep
    exact backed_next (books_of_run hbefore.of_guarded).1 (next_outcome hready) hfree ih

/-- Refresh rotation, where no recovery's batch finds its own marker: a hash that was current is
current or retired, a token is exchanged once in each way, the current hash is that of a pair
that was given out, and a revoked session gives out nothing. -/
theorem refresh_rotation (h : Run (Guarded (Step K) (World.MarkerFree K)) initial evs s)
    (h' : Run (Guarded (Step K) (World.MarkerFree K)) s evs' t) :
    (∀ x ∈ s.db.sessions, ∃ y ∈ t.db.sessions, y.id = x.id ∧
      Xor (y.refreshHash = x.refreshHash)
        (∃ row ∈ t.db.history, row.refreshHash = x.refreshHash ∧ row.sessionId = x.id) ∧
      (x.revokedAt.isSome = true → ∃ later, t.answers = s.answers ++ later ∧
        ∀ a ∈ later, ∀ response, a.2.Returns K response → response.sessionId ≠ x.id)) ∧
    (∀ row ∈ t.db.history, ∀ y ∈ t.db.sessions, y.refreshHash ≠ row.refreshHash) ∧
    (∀ way token, t.answers.countP (fun a => a.2.exchanges way token) ≤ 1) ∧
    ∀ y ∈ t.db.sessions, t.Backs K y := by
  obtain ⟨hbooks, -⟩ := books_of_run h.of_guarded
  obtain ⟨hbooks', hev⟩ := run_evolves h'.of_guarded hbooks
  obtain ⟨-, hexchanged⟩ := books_of_run (h.append h').of_guarded
  refine ⟨fun x hx => ?_, hbooks'.sound.current, hexchanged.once, run_backed (h.append h')⟩
  obtain ⟨y, hy, hcont⟩ := hev.session x hx
  refine ⟨y, hy, hcont.id, ?_, fun hrev => (run_revoked h'.of_guarded hbooks hx hrev).2⟩
  rcases hcont.hash with hsame | ⟨row, hrow, hhash, hsid⟩
  · refine Or.inl ⟨hsame, ?_⟩
    rintro ⟨row, hrow, hhash, -⟩
    exact hbooks'.sound.current row hrow y hy (hsame.trans hhash.symm)
  · refine Or.inr ⟨⟨row, hrow, hhash, hsid⟩, fun hsame => ?_⟩
    exact hbooks'.sound.current row hrow y hy (hsame.trans hhash.symm)

end Runs

section Refusals

variable {Text Cipher : Type} {K : Primitives Text Cipher} {s t : World Text Cipher} {e : Event}
  {r : ℕ} {evs : List Event}

open World (Step initial)

/-- The event leaves sessions and history as they are. -/
def World.Leaves (K : Primitives Text Cipher) (s : World Text Cipher) (e : Event) : Prop :=
  (s.next K e).db.sessions = s.db.sessions ∧ (s.next K e).db.history = s.db.history

/-- The event answers the request `r` with an error. -/
def World.Refuses (K : Primitives Text Cipher) (s : World Text Cipher) (e : Event) (r : ℕ)
    (err : Refusal) : Prop :=
  (s.next K e).answers = s.answers ++ [(r, .refused err)]

/-- The batch of the recovery marks the history row of its token and does not reach the session. -/
def Stage.Spends (K : Primitives Text Cipher) (db : Db Cipher) : Stage → Prop
  | .recover token row x t =>
    db.Claimable (K.refreshHash token) row.rotatedAt ∧ ¬ db.Unmoved x t
  | _ => False

instance (db : Db Cipher) : (stage : Stage) → Decidable (stage.Spends K db)
  | .recover .. => inferInstanceAs (Decidable (_ ∧ _))
  | .idle | .replay .. | .current .. | .expire .. | .replayed .. | .rotate .. | .surrender ..
  | .slowDown .. | .failProof .. | .poll .. | .issue .. | .recoverPairing .. | .dropRecovery ..
  | .decide .. | .done => inferInstanceAs (Decidable False)

/-- The batch of a recovery reaches both its history row and its session, or neither. -/
def World.Whole (K : Primitives Text Cipher) (s : World Text Cipher) : Event → Prop
  | .act r _ mint => ¬ (s.stages r).Spends K s.db ∧ ¬ (s.stages r).Collides K s.db mint
  | _ => True

instance : DecidablePred (s.Whole K)
  | .act .. => inferInstanceAs (Decidable (_ ∧ _))
  | .start .. | .sweep .. | .arrive .. | .revokeByOwner .. => inferInstanceAs (Decidable True)

theorem stages_next_of_ne (hne : e.actor ≠ some r) : (s.next K e).stages r = s.stages r := by
  have hproceed {r' : ℕ} (hr : r ≠ r') (w : World Text Cipher) (v : Verdict Text) :
      (w.proceed r' v).stages r = w.stages r := by
    cases v <;> exact Function.update_of_ne hr _ _
  cases e with
  | start id dev user challenge secret now =>
    change (s.start id dev user challenge secret now).stages r = _
    unfold World.start
    split_ifs <;> rfl
  | sweep now => rfl
  | arrive r' query now => exact hproceed (fun h => hne (congrArg some h.symm)) s _
  | revokeByOwner r' sid account now =>
    exact Function.update_of_ne (fun h => hne (congrArg some h.symm)) _ _
  | act r' now mint =>
    have hr : r ≠ r' := fun h => hne (congrArg some h.symm)
    change (s.act K r' now mint).stages r = _
    unfold World.act
    cases s.stages r' with
    | idle | done => rfl
    | replay | current | recoverPairing => exact hproceed hr s _
    | rotate => exact hproceed hr ((s.draw _).write _) _
    | issue p dev verifier t =>
      simp only
      unfold World.issue
      split <;> exact Function.update_of_ne hr _ _
    | _ => exact Function.update_of_ne hr _ _

/-- A request that is done takes no further step. -/
theorem next_of_done (hready : s.Ready K e) (he : e.actor = some r) (hdone : s.stages r = .done) :
    s.next K e = s := by
  have hidle : ¬ s.stages r = .idle := by simp [hdone]
  cases e with
  | start | sweep => simp [Event.actor] at he
  | arrive r' query now =>
    obtain rfl := Option.some.inj he
    exact absurd hready.1 hidle
  | revokeByOwner r' sid account now =>
    obtain rfl := Option.some.inj he
    exact absurd hready hidle
  | act r' now mint =>
    obtain rfl := Option.some.inj he
    change s.act K r' now mint = s
    unfold World.act
    rw [hdone]

theorem done_next (hready : s.Ready K e) (hdone : s.stages r = .done) :
    (s.next K e).stages r = .done := by
  by_cases he : e.actor = some r
  · rw [next_of_done hready he hdone, hdone]
  · rw [stages_next_of_ne he, hdone]

/-- A statement that writes sessions or history is the last one of its request. -/
theorem leaves_or_done (hb : s.Books K) (hready : s.Ready K e) (he : e.actor = some r) :
    s.Leaves K e ∨ (s.next K e).stages r = .done := by
  have hfinish (w : World Text Cipher) (a : Answer Text) : (w.finish r a).stages r = .done :=
    Function.update_self _ _ _
  have hproceed (v : Verdict Text) :
      (s.proceed r v).db.sessions = s.db.sessions ∧ (s.proceed r v).db.history = s.db.history := by
    rw [proceed_db]
    exact ⟨rfl, rfl⟩
  cases e with
  | start | sweep => simp [Event.actor] at he
  | arrive r' query now =>
    obtain rfl := Option.some.inj he
    exact Or.inl (hproceed _)
  | revokeByOwner r' sid account now =>
    obtain rfl := Option.some.inj he
    exact Or.inr (hfinish _ _)
  | act r' now mint =>
    obtain rfl := Option.some.inj he
    have hnext : s.next K (.act r' now mint) = s.act K r' now mint := rfl
    unfold World.Leaves
    rw [hnext]
    unfold World.act
    cases hstage : s.stages r' with
    | idle | done => exact Or.inl ⟨rfl, rfl⟩
    | replay | current | recoverPairing => exact Or.inl (hproceed _)
    | rotate token x t =>
      rcases rotate_cases r' token x t hb hready.2 with ⟨hdb, -⟩ | ⟨-, -, -, -, -, hdone, -⟩
      · exact Or.inl (by simp only [hdb, and_self])
      · exact Or.inr hdone
    | issue p dev verifier t =>
      simp only
      unfold World.issue
      split
      · exact Or.inr (hfinish _ _)
      · exact Or.inl ⟨rfl, rfl⟩
    | _ => exact Or.inr (hfinish _ _)

/-- Where the batches are whole, a step that refuses a request leaves sessions and history alone,
unless it says that the session has ended. -/
theorem leaves_of_refuses (hb : s.Books K) (hready : s.Ready K e) (hwhole : s.Whole K e)
    {err : Refusal} (href : s.Refuses K e r err) (hnot : ¬ err.Ends) : s.Leaves K e := by
  have hans {r' : ℕ} {a : Answer Text} (ha : (s.next K e).answers = s.answers ++ [(r', a)]) :
      a = .refused err := by
    have heq := List.append_cancel_left (ha.symm.trans href)
    exact (Prod.mk.inj (List.singleton_inj.1 heq)).2
  have ho := next_outcome hready
  unfold World.Leaves
  generalize hs' : s.next K e = s' at ho hans ⊢
  cases ho with
  | quiet hs hh => exact ⟨hs, hh⟩
  | revoked p now r' a hs hh hd he hp ha hends =>
    exact ⟨(hends err (hans ha)).resolve_left hnot, hh⟩
  | replayed r' pairing dev verifier t row x text hstage hrow htext hdb => exact ⟨by rw [hdb], by rw [hdb]⟩
  | created r' p q dev verifier t mint hstage hfresh hs hh hd he ha => exact nomatch hans ha
  | rotated r' token x t now mint he hstage hfresh =>
    rcases rotate_cases _ _ _ _ hb hfresh with ⟨hdb, -⟩ | ⟨y, -, -, -, -, -, ha⟩
    · exact ⟨by rw [hdb], by rw [hdb]⟩
    · exact nomatch hans ha
  | recovered r' token row x t now mint he hstage hfresh =>
    subst he
    simp only [World.Whole, hstage, Stage.Spends, Stage.Collides] at hwhole
    cases recover_cases hb hfresh hstage with
    | committed y hy hclaim hmoved hholds hmark ha => exact nomatch hans ha
    | spent hclaim hmoved hdb ha => exact absurd ⟨hclaim, hmoved⟩ hwhole.1
    | collided y hy hholds hclaim hmoved hmarked hissued ha =>
      exact absurd ⟨hmarked, hmoved⟩ hwhole.2
    | lost hclaim hmarked hdb ha => exact ⟨by rw [hdb], by rw [hdb]⟩

/-- A row that can be claimed has no marker. -/
theorem not_marked_of_claimable {db : Db Cipher} {h : String} {read marker : Int} {x : Session}
    (hclaim : db.Claimable h read) (hneg : marker < 0) : ¬ db.Marked h x marker := by
  rintro ⟨row, hrow, hby⟩
  obtain ⟨old, hold, hclaimable⟩ := hclaim
  obtain ⟨hhash, -, hpos⟩ := Retired.claimable_iff.1 hclaimable
  obtain ⟨hhash', -, hmark⟩ := Retired.claimedBy_iff.1 hby
  rw [Table.eq_of_key hold hrow (hhash.trans hhash'.symm)] at hpos
  omega

/-- A batch that is not whole refuses its request and writes. -/
theorem refuses_of_not_whole (hb : s.Books K) (hready : s.Ready K e) (hnot : ¬ s.Whole K e) :
    ∃ r, e.actor = some r ∧ s.Refuses K e r .concurrentRecovery ∧ ¬ s.Leaves K e := by
  cases e with
  | start | sweep | arrive | revokeByOwner => exact absurd trivial hnot
  | act r now mint =>
    have hnext : s.next K (.act r now mint) = s.act K r now mint := rfl
    have hor : (s.stages r).Spends K s.db ∨ (s.stages r).Collides K s.db mint := by
      by_contra hno
      exact hnot ⟨fun h => hno (Or.inl h), fun h => hno (Or.inr h)⟩
    cases hstage : s.stages r with
    | recover token row x t =>
      rw [hstage] at hor
      obtain ⟨-, hpos, -⟩ : (Stage.recover token row x t).Sane K s.db := hstage ▸ hb.sane r
      have hact : s.next K (.act r now mint) = s.recover K r token row x t mint := by
        rw [hnext, World.act, hstage]
      have hneg : claimMarker row.rotationTime mint.claimRandom < 0 := by
        rw [Retired.rotationTime_of_pos hpos]
        exact claimMarker_neg hpos _
      unfold World.Refuses World.Leaves
      rw [hact]
      refine ⟨r, rfl, ?_⟩
      cases recover_cases hb hready.2 hstage with
      | committed y hy hclaim hmoved hholds hmark ha =>
        rcases hor with ⟨-, hgone⟩ | ⟨hmarked, -⟩
        · exact absurd hmoved hgone
        · exact absurd hmarked (not_marked_of_claimable hclaim hneg)
      | lost hclaim hmarked hdb ha =>
        rcases hor with ⟨hclaim', -⟩ | hboth
        · exact absurd hclaim' hclaim
        · exact absurd hboth hmarked
      | spent hclaim hmoved hdb ha =>
        refine ⟨ha, fun hleaves => ?_⟩
        obtain ⟨old, hold, hby⟩ := marked_claim (hstage ▸ hb.sane r) hclaim
          (claimMarker row.rotationTime mint.claimRandom)
        rw [← hdb, hleaves.2] at hold
        exact not_marked_of_claimable hclaim hneg ⟨old, hold, hby⟩
      | collided y hy hholds hclaim hmoved hmarked hissued ha =>
        refine ⟨ha, fun hleaves => ?_⟩
        rw [hleaves.1] at hissued
        have hsame := Table.eq_of_key hissued hy rfl
        exact (hb.unused hready.2).1 y hy (congrArg Session.refreshHash hsame).symm
    | _ => simp [hstage, Stage.Spends, Stage.Collides] at hor

/-- A step answers only its own request. -/
theorem actor_of_answer {a : Answer Text} {s' : World Text Cipher} (hb : s.Books K)
    (ho : Outcome K s e s') (ha : s'.answers = s.answers ++ [(r, a)]) : e.actor = some r := by
  have hone {r' : ℕ} {a' : Answer Text} (he : e.actor = some r')
      (ha' : s'.answers = s.answers ++ [(r', a')]) : e.actor = some r := by
    have hpair := List.singleton_inj.1 (List.append_cancel_left (ha'.symm.trans ha))
    rw [he, (Prod.mk.inj hpair).1]
  cases ho with
  | quiet hs hh hd ha' =>
    rcases ha' with ha' | ⟨r', a', he, -, ha'⟩
    · simp [ha'] at ha
    · exact hone he ha'
  | revoked p now r' a' hs hh hd he hp ha' hends => exact hone he ha'
  | replayed r' pairing dev verifier t row x text hstage hrow htext hdb hd he ha' => exact hone he ha'
  | created r' p q dev verifier t mint hstage hfresh hs hh hd he ha' => exact hone he ha'
  | recovered r' token row x t now mint he hstage hfresh => exact hone (he ▸ rfl) recover_answers
  | rotated r' token x t now mint he hstage hfresh =>
    rcases rotate_cases _ _ _ _ hb hfresh with ⟨-, ha'⟩ | ⟨y, -, -, -, -, -, ha'⟩ <;>
      exact hone (he ▸ rfl) ha'

/-- A request that is done stays so. -/
theorem run_done {evs' : List Event} (h : Run (Step K) s evs' t) (hdone : s.stages r = .done) :
    t.stages r = .done := by
  refine h.invariant (I := fun u => u.stages r = .done) (fun u e u' hu hstep => ?_) hdone
  obtain ⟨hready, rfl⟩ := hstep
  exact done_next hready hu

theorem step_eq_next (s : World Text Cipher) (e : Event) (s' : World Text Cipher)
    (h : Step K s e s') : s' = s.next K e := h.2

/-- A request that is refused without a word on the session's end has left sessions and history
as they were, with each of its steps. -/
def RefusalsHarmless (K : Primitives Text Cipher) (evs : List Event) : Prop :=
  ∀ pre e r err, pre ++ [e] <+: evs → (pre.foldl (World.next K) initial).Refuses K e r err →
    ¬ err.Ends → ∀ pre' e', pre' ++ [e'] <+: pre ++ [e] → e'.actor = some r →
      (pre'.foldl (World.next K) initial).Leaves K e'

/-- Refusals are harmless in exactly the runs where the batch of each recovery reaches both its
history row and its session, or neither. -/
theorem refused_changes_nothing (h : Run (Step K) initial evs s) :
    Throughout (World.next K) (World.Whole K) initial evs ↔ RefusalsHarmless K evs := by
  have hat {pre : List Event} {e : Event} (hpre : pre ++ [e] <+: evs) :
      (pre.foldl (World.next K) initial).Books K ∧ (pre.foldl (World.next K) initial).Ready K e := by
    obtain ⟨u, hu, hready, -⟩ := (h.upTo step_eq_next hpre).last
    rw [← hu.eq_foldl step_eq_next]
    exact ⟨(books_of_run hu).1, hready⟩
  constructor
  · intro hwhole pre e r err hpre href hnot pre' e' hpre' he'
    obtain ⟨hb, hready⟩ := hat hpre
    obtain ⟨hb', hready'⟩ := hat (hpre'.trans hpre)
    have hlast := leaves_of_refuses hb hready (hwhole pre e hpre) href hnot
    rcases List.prefix_concat_iff.1 hpre' with heq | hbefore
    · obtain ⟨rfl, hsame⟩ := List.append_inj' heq rfl
      obtain rfl : e' = e := by simpa using hsame
      exact hlast
    · -- an earlier step that wrote would have ended the request
      refine (leaves_or_done hb' hready' he').resolve_right fun hdone => ?_
      obtain ⟨rest, rfl⟩ := hbefore
      have hrun := h.upTo step_eq_next ((List.prefix_append _ [e]).trans hpre)
      obtain ⟨u, hu, hrest⟩ := hrun.split
      rw [hu.eq_foldl step_eq_next, List.foldl_append] at hrest
      have hstill := run_done hrest hdone
      have hactor : e.actor = some r := actor_of_answer hb (next_outcome hready) href
      have hquiet := next_of_done hready hactor hstill
      unfold World.Refuses at href
      rw [hquiet] at href
      simp at href
  · intro hclaim pre e hpre
    obtain ⟨hb, hready⟩ := hat hpre
    by_contra hnot
    obtain ⟨r, he, href, hwrites⟩ := refuses_of_not_whole hb hready hnot
    exact hwrites (hclaim pre e r _ hpre href (by simp [Refusal.Ends, Refusal.concurrentRecovery,
      Refusal.refreshExpired, Refusal.replayDetected]) pre e (List.prefix_refl _) he)

end Refusals

section Replays

variable {Text Cipher : Type} {K : Primitives Text Cipher} {s t u v : World Text Cipher}
  {evs : List Event} {row : Retired} {x : Session} {r : ℕ} {token secret : String} {now now' : Int}
  {mint : Mint}

open World (Step initial)

/-- The token of `row` was rotated out at `row.rotatedAt` by the time of `s`. In `t` the request
`r` presents it, more than the window later; in `u`, with whatever the others did in between, it
is about to read the session, which is live, with the secret of its device. -/
structure AgedReplay (K : Primitives Text Cipher) (s t u : World Text Cipher) (row : Retired)
    (x : Session) (r : ℕ) (token secret : String) (now : Int) : Prop where
  reached : ∃ evs, Run (Step K) initial evs s
  rotated : row ∈ s.db.history ∧ 0 ≤ row.rotatedAt
  later : ∃ evs, Run (Step K) s evs t
  ready : t.Ready K (.arrive r (.refresh token secret) now)
  valid : refreshRequestValid token secret = true
  presented : K.refreshHash token = row.refreshHash
  others : ∃ evs, Run (Step K) (t.next K (.arrive r (.refresh token secret) now)) evs u ∧
    ∀ e ∈ evs, e.actor ≠ some r
  session : x ∈ u.db.sessions ∧ x.id = row.sessionId
  live : x.revokedAt = none ∧ now < x.refreshExpiresAt
  secret : K.s256 secret = x.deviceSecretChallenge
  aged : REFRESH_RECOVERY_WINDOW_MS < now - row.rotatedAt

/-- The session is revoked once the request has taken its remaining statement, if it has one. -/
def World.Revokes (K : Primitives Text Cipher) (v : World Text Cipher) (r : ℕ) (sid : String) :
    Prop :=
  ∀ now mint, ∃ y ∈ (v.next K (.act r now mint)).db.sessions, y.id = sid ∧ y.revokedAt.isSome = true

theorem stages_of_others (h : Run (Step K) s evs t) (hothers : ∀ e ∈ evs, e.actor ≠ some r) :
    t.stages r = s.stages r := by
  induction h with
  | nil => rfl
  | snoc hbefore hstep ih =>
    obtain ⟨-, rfl⟩ := hstep
    rw [stages_next_of_ne (hothers _ (by simp)), ih fun e he => hothers e (by simp [he])]

theorem act_replayed {sid : String} (hstage : s.stages r = .replayed sid now) :
    s.next K (.act r now' mint) =
      (s.write (s.db.revoke sid now)).finish r (.refused .replayDetected) := by
  change s.act K r now' mint = _
  rw [World.act, hstage]

theorem mem_revoke_self {sid : String} (hx : x ∈ s.db.sessions) (hid : x.id = sid) :
    ∃ y ∈ (s.db.revoke sid now).sessions, y.id = sid ∧ y.revokedAt.isSome = true := by
  have hsessions : (s.db.revoke sid now).sessions = s.db.sessions.update (fun y => y.id = sid)
      (Session.revoke now) (fun _ => rfl) := rfl
  refine ⟨x.revoke now, ?_, hid, Session.revoke_revokedAt⟩
  rw [hsessions]
  exact (Table.mem_update _).2 ⟨x, hx, by simp [hid]⟩

/-- A request on its way to revoke the session does so, whatever the others do. -/
theorem revokes_of_replayed (hb : s.Books K) (hstage : s.stages r = .replayed x.id now)
    (hx : x ∈ s.db.sessions) (h : Run (Step K) s evs t) : t.Revokes K r x.id := by
  have hkeeps : (t.Books K ∧ ∃ y ∈ t.db.sessions, y.id = x.id) ∧
      (t.stages r = .replayed x.id now ∨ (t.stages r = .done ∧
        ∃ y ∈ t.db.sessions, y.id = x.id ∧ y.revokedAt.isSome = true)) := by
    refine h.invariant (I := fun w => (w.Books K ∧ ∃ y ∈ w.db.sessions, y.id = x.id) ∧
      (w.stages r = .replayed x.id now ∨ (w.stages r = .done ∧
        ∃ y ∈ w.db.sessions, y.id = x.id ∧ y.revokedAt.isSome = true)))
      (fun w e w' hw hstep => ?_) ⟨⟨hb, x, hx, rfl⟩, Or.inl hstage⟩
    obtain ⟨⟨hbw, y, hy, hid⟩, hor⟩ := hw
    obtain ⟨hready, rfl⟩ := hstep
    have hev := evolves_next hbw (next_outcome hready)
    obtain ⟨z, hz, hcont⟩ := hev.session y hy
    refine ⟨⟨hbw.next hready, z, hz, hcont.id.trans hid⟩, ?_⟩
    by_cases he : e.actor = some r
    · rcases hor with hreplayed | ⟨hdone, hrev⟩
      · cases e with
        | start | sweep => simp [Event.actor] at he
        | arrive r' query now₀ =>
          obtain rfl := Option.some.inj he
          exact absurd (hreplayed.symm.trans hready.1) (by simp)
        | revokeByOwner r' sid account now₀ =>
          obtain rfl := Option.some.inj he
          exact absurd (hreplayed.symm.trans hready) (by simp)
        | act r' now₀ mint₀ =>
          obtain rfl := Option.some.inj he
          rw [act_replayed hreplayed]
          exact Or.inr ⟨Function.update_self _ _ _, mem_revoke_self hy hid⟩
      · rw [next_of_done hready he hdone]
        exact Or.inr ⟨hdone, hrev⟩
    · rw [stages_next_of_ne he]
      refine hor.imp_right fun ⟨hdone, y', hy', hid', hrev'⟩ => ⟨hdone, ?_⟩
      obtain ⟨z', hz', hcont'⟩ := hev.session y' hy'
      exact ⟨z', hz', hcont'.id.trans hid', (hcont'.revoked hrev').1⟩
  intro now' mint
  obtain ⟨⟨-, y, hy, hid⟩, hreplayed | ⟨hdone, hrev⟩⟩ := hkeeps
  · rw [act_replayed hreplayed]
    exact mem_revoke_self hy hid
  · change ∃ y ∈ (t.act K r now' mint).db.sessions, _
    rw [World.act, hdone]
    exact hrev

variable (now' mint) in
/-- What the request reads: the row of its token, and then what the age test makes of it. -/
theorem AgedReplay.act (h : AgedReplay K s t u row x r token secret now) :
    ∃ row' ∈ t.db.history, row'.refreshHash = row.refreshHash ∧ u.Books K ∧
      (0 ≤ row'.rotatedAt → u.next K (.act r now' mint) = u.goto r (.replayed x.id now)) ∧
      (row'.rotatedAt < 0 →
        u.next K (.act r now' mint) = u.finish r (.refused .recoveryUsed)) := by
  obtain ⟨evs, hs⟩ := h.reached
  obtain ⟨evs₁, ht⟩ := h.later
  obtain ⟨evs₂, hu, hothers⟩ := h.others
  obtain ⟨hbt, hev⟩ := run_evolves ht (books_of_run hs).1
  obtain ⟨row', hrow', hcont⟩ := hev.history row h.rotated.1
  have hread : t.db.history.get? (K.refreshHash token) = some row' :=
    Table.get?_eq_some.2 ⟨hrow', hcont.refreshHash.trans h.presented.symm⟩
  have harrive : t.next K (.arrive r (.refresh token secret) now) =
      t.goto r (.replay token secret row' now) := by
    change t.proceed r (firstRead K t.db now (.refresh token secret)) = _
    simp [firstRead, h.valid, hread, World.proceed]
  have hstage : u.stages r = .replay token secret row' now := by
    rw [stages_of_others hu hothers, harrive]
    exact Function.update_self _ _ _
  have hx : u.db.sessions.get? row'.sessionId = some x :=
    Table.get?_eq_some.2 ⟨h.session.1, h.session.2.trans hcont.sessionId.symm⟩
  have hbu : u.Books K := (run_evolves hu (hbt.next h.ready)).1
  have hnext : u.next K (.act r now' mint) =
      u.proceed r (replayVerdict K token secret row' now (some x)) := by
    change u.act K r now' mint = _
    rw [World.act, hstage]
    simp only
    rw [hx]
  have hrotated := h.rotated.2
  have hexp := h.live.2
  refine ⟨row', hrow', hcont.refreshHash, hbu, fun hpos => ?_, fun hneg => ?_⟩
  · have htime : row'.rotationTime = row.rotatedAt := by
      rw [hcont.rotationTime, Retired.rotationTime, if_neg (by omega)]
    rw [hnext, replayVerdict, h.live.1, htime, if_neg (by simp), if_neg (by omega),
      if_neg (by simp [h.secret]), if_neg (by omega), if_pos (Or.inr h.aged), h.session.2,
      ← hcont.sessionId]
    rfl
  · rw [hnext, replayVerdict, h.live.1, if_neg (by simp), if_neg (by omega),
      if_neg (by simp [h.secret]), if_pos hneg]
    rfl

/-- An aged replay of a token that was rotated out revokes the session in exactly the cases where
no recovery has claimed the token by the time it is presented. -/
theorem aged_replay_revokes (h : AgedReplay K s t u row x r token secret now) :
    (∀ evs v, Run (Step K) (u.next K (.act r now' mint)) evs v → v.Revokes K r x.id) ↔
      ∃ row' ∈ t.db.history, row'.refreshHash = row.refreshHash ∧ 0 ≤ row'.rotatedAt := by
  obtain ⟨row', hrow', hhash, hbu, hplain, hclaimed⟩ := h.act now' mint
  constructor
  · intro hrev
    refine ⟨row', hrow', hhash, ?_⟩
    by_contra hneg
    have hnext := hclaimed (by omega)
    obtain ⟨y, hy, hid, hsome⟩ := hrev [] _ Run.nil now' mint
    rw [hnext] at hy
    have hquiet : (u.finish r (.refused .recoveryUsed)).act K r now' mint =
        u.finish r (.refused .recoveryUsed) := by
      rw [World.act, show (u.finish r (.refused .recoveryUsed)).stages r = .done from
        Function.update_self _ _ _]
    have hmem : y ∈ u.db.sessions := by
      change y ∈ ((u.finish r (.refused .recoveryUsed)).act K r now' mint).db.sessions at hy
      rw [hquiet] at hy
      exact hy
    rw [Table.eq_of_key hmem h.session.1 hid, h.live.1] at hsome
    simp at hsome
  · rintro ⟨row'', hrow'', hhash', hpos⟩ evs v hrun
    obtain rfl := Table.eq_of_key hrow'' hrow' (hhash'.trans hhash.symm)
    rw [hplain hpos] at hrun
    have hgoto : (u.goto r (.replayed x.id now)).Books K := by
      refine ⟨hbu.sound, hbu.known, fun r' => ?_⟩
      by_cases hr : r' = r
      · subst hr
        rw [show (u.goto r' (.replayed x.id now)).stages r' = .replayed x.id now from
          Function.update_self _ _ _]
        trivial
      · rw [show (u.goto r (.replayed x.id now)).stages r' = u.stages r' from
          Function.update_of_ne hr _ _]
        exact hbu.sane r'
    exact revokes_of_replayed hgoto (Function.update_self _ _ _) h.session.1 hrun

end Replays

/-- Hashes and a cipher that show what they are of. -/
def glass : Primitives TokenResponse (String × RecoveryAad × TokenResponse) where
  hmacHex _ value := value
  s256 value := value
  encrypt nonce aad text := (nonce, aad, text)
  decrypt nonce aad cipher := if cipher.1 = nonce ∧ cipher.2.1 = aad then some cipher.2.2 else none
  stringify response := response
  parse text := some text
  decrypt_encrypt nonce aad text := by simp
  parse_stringify _ := rfl

section Samples

open World (Step initial)

instance claimScale_neZero : NeZero REFRESH_RECOVERY_CLAIM_SCALE := ⟨by decide⟩

def word (c : Char) : String := String.ofList (List.replicate 43 c)

def sampleMint (id : String) (c : Char) (k : Fin REFRESH_RECOVERY_CLAIM_SCALE) : Mint :=
  ⟨id, "apd_" ++ word c, "apr_" ++ word c, "nonce", k⟩

/-- A request to refresh the token `c`, and its steps. -/
def refreshing (r : ℕ) (c : Char) (now : Int) : Event :=
  .arrive r (.refresh ("apr_" ++ word c) (word 's')) now

/-- A pairing is approved and exchanged for the token `a`, which is rotated out for `b`. -/
def paired : List Event :=
  [.start "pairing" (word 'D') "code" (word 'v') (word 's') 1,
    .arrive 0 (.decide "code" "account" true) 2, .act 0 2 (sampleMint "x" '0' 0),
    .arrive 1 (.exchange (word 'D') (word 'v')) 3, .act 1 3 (sampleMint "session" 'a' 0),
    refreshing 2 'a' 4, .act 2 4 (sampleMint "x" '1' 0), .act 2 4 (sampleMint "x" 'b' 0)]

/-- Two recoveries of the token `a`, with the given random bits: the second one has read the
history before the first one's batch and reads the session after it. -/
def overlapping (k k' : Fin REFRESH_RECOVERY_CLAIM_SCALE) : List Event :=
  [refreshing 3 'a' 2000, refreshing 4 'a' 2000, .act 3 2000 (sampleMint "x" '3' 0),
    .act 3 2000 (sampleMint "x" 'c' k), .act 4 2000 (sampleMint "x" '4' 0),
    .act 4 2000 (sampleMint "x" 'd' k')]

def afterPaired : World TokenResponse (String × RecoveryAad × TokenResponse) :=
  paired.foldl (World.next glass) initial

def afterRecovery : World TokenResponse (String × RecoveryAad × TokenResponse) :=
  (overlapping 1 2).foldl (World.next glass) afterPaired

/-- A session that the device with the secret `s` can refresh at the time `now`. -/
def Refreshable (x : Session) (now : Int) : Prop :=
  x.id = "session" ∧ x.revokedAt = none ∧ now < x.refreshExpiresAt ∧
    glass.s256 (word 's') = x.deviceSecretChallenge

instance (x : Session) (now : Int) : Decidable (Refreshable x now) :=
  inferInstanceAs (Decidable (_ ∧ _))

/-- The pairing and the token `a` presented late after it. -/
theorem paired_evaluated :
    AllReady (fun s e => World.Ready glass s e ∧ s.MarkerFree glass e) (World.next glass)
        initial paired ∧
      (∃ row ∈ afterPaired.db.history, row.refreshHash = "apr_" ++ word 'a' ∧ 0 ≤ row.rotatedAt ∧
        REFRESH_RECOVERY_WINDOW_MS < 400000 - row.rotatedAt ∧ row.sessionId = "session") ∧
      refreshRequestValid ("apr_" ++ word 'a') (word 's') = true ∧
      afterPaired.Ready glass (refreshing 5 'a' 400000) ∧
      ∃ x ∈ (afterPaired.next glass (refreshing 5 'a' 400000)).db.sessions,
        Refreshable x 400000 := by
  decide

/-- The two recoveries that overlap, and the token `a` presented late after them. -/
theorem recovery_evaluated :
    AllReady (fun s e => World.Ready glass s e ∧ s.MarkerFree glass e) (World.next glass)
        afterPaired (overlapping 1 2) ∧
      AllReady (World.Whole glass) (World.next glass) initial (paired ++ overlapping 1 2) ∧
      afterRecovery.Ready glass (refreshing 5 'a' 400000) ∧
      (∃ x ∈ (afterRecovery.next glass (refreshing 5 'a' 400000)).db.sessions,
        Refreshable x 400000) ∧
      ∀ y ∈ (((afterRecovery.next glass (refreshing 5 'a' 400000)).next glass
        (.act 5 400000 (sampleMint "x" '5' 0))).next glass
          (.act 5 400000 (sampleMint "x" '5' 0))).db.sessions, y.revokedAt.isSome = false := by
  decide

theorem guarded_run_paired :
    Run (Guarded (Step glass) (World.MarkerFree glass)) initial paired afterPaired :=
  run_of_ready (fun _ _ h => ⟨⟨h.1, rfl⟩, h.2⟩) paired_evaluated.1

theorem guarded_run_recovery : Run (Guarded (Step glass) (World.MarkerFree glass)) afterPaired
    (overlapping 1 2) afterRecovery :=
  run_of_ready (fun _ _ h => ⟨⟨h.1, rfl⟩, h.2⟩) recovery_evaluated.1

theorem run_paired : Run (Step glass) initial paired afterPaired := guarded_run_paired.of_guarded

theorem run_recovery : Run (Step glass) afterPaired (overlapping 1 2) afterRecovery :=
  guarded_run_recovery.of_guarded

theorem refresh_rotation_overlapping :
    ∃ s, ∃ t, Run (Step glass) initial paired s ∧ Run (Step glass) s (overlapping 1 2) t ∧
      (∀ y ∈ t.db.sessions, t.Backs glass y) ∧
      ∀ way token, t.answers.countP (fun a => a.2.exchanges way token) ≤ 1 := by
  obtain ⟨-, -, honce, hbacks⟩ := refresh_rotation guarded_run_paired guarded_run_recovery
  exact ⟨_, _, run_paired, run_recovery, hbacks, honce⟩

/-- The refresh token an answer gives out. -/
def Answer.token : Answer TokenResponse → Option String
  | .refreshed _ _ response | .exchanged _ _ _ response => some response.refreshToken
  | _ => none

/-- With equal random bits the second recovery finds its marker, gives the session a pair and
answers a conflict: the pair is nobody's. -/
theorem current_hash_not_returned :
    ¬ ∀ evs s, Run (Step glass) initial evs s → ∀ y ∈ s.db.sessions, s.Backs glass y := by
  intro hclaim
  have heval : AllReady (World.Ready glass) (World.next glass) initial
        (paired ++ overlapping 1 1) ∧
      (∃ y ∈ ((paired ++ overlapping 1 1).foldl (World.next glass) initial).db.sessions,
        y.refreshHash = "apr_" ++ word 'd') ∧
      ∀ a ∈ ((paired ++ overlapping 1 1).foldl (World.next glass) initial).answers,
        a.2.token ≠ some ("apr_" ++ word 'd') := by
    decide
  obtain ⟨hready, ⟨y, hy, hhash⟩, hnone⟩ := heval
  have hrun : Run (Step glass) initial (paired ++ overlapping 1 1) _ :=
    run_of_ready (fun _ _ h => ⟨h, rfl⟩) hready
  obtain ⟨a, ha, response, hret, -, hrefresh, -⟩ := hclaim _ _ hrun y hy
  refine hnone a ha ?_
  rw [← hhash, ← hrefresh]
  cases hans : a.2 with
  | refreshed way token r => rw [hans] at hret; exact congrArg (some ·.refreshToken) hret
  | exchanged p v b body => rw [hans] at hret; exact congrArg (some ·.refreshToken) hret
  | _ => rw [hans] at hret; exact hret.elim

theorem refused_changes_nothing_overlapping :
    RefusalsHarmless glass (paired ++ overlapping 1 2) :=
  (refused_changes_nothing (run_paired.append run_recovery)).1
    (throughout_iff_allReady.2 recovery_evaluated.2.1)

/-- A recovery of `a` reads the session before a rotation of `b` and stores after it. -/
def outrun : List Event :=
  [refreshing 3 'a' 2000, .act 3 2000 (sampleMint "x" '3' 0), refreshing 4 'b' 2000,
    .act 4 2000 (sampleMint "x" '4' 0), .act 4 2000 (sampleMint "x" 'c' 0)]

/-- The recovery is refused as concurrent, and its one use is gone. -/
theorem lost_recovery_spends_token :
    ¬ ∀ evs s, Run (Step glass) initial evs s → RefusalsHarmless glass evs := by
  intro hclaim
  have heval : AllReady (World.Ready glass) (World.next glass) initial
        (paired ++ outrun ++ [Event.act 3 2000 (sampleMint "x" 'd' 0)]) ∧
      ¬ World.Whole glass ((paired ++ outrun).foldl (World.next glass) initial)
        (.act 3 2000 (sampleMint "x" 'd' 0)) := by
    decide
  obtain ⟨hready, hnot⟩ := heval
  have hrun : Run (Step glass) initial
      (paired ++ outrun ++ [Event.act 3 2000 (sampleMint "x" 'd' 0)]) _ :=
    run_of_ready (fun _ _ h => ⟨h, rfl⟩) hready
  obtain ⟨u, hu, hlast, -⟩ := hrun.last
  rw [hu.eq_foldl step_eq_next] at hlast
  have hbooks := (books_of_run hu).1
  rw [hu.eq_foldl step_eq_next] at hbooks
  obtain ⟨r, he, href, hwrites⟩ := refuses_of_not_whole hbooks hlast hnot
  refine hwrites (hclaim _ _ hrun _ _ r _ (List.prefix_refl _) href (by decide) _ _
    (List.prefix_refl _) he)

/-- The token `a` is presented late, in a state that `afterPaired` leads to. -/
theorem agedReplay_of {t : World TokenResponse (String × RecoveryAad × TokenResponse)}
    {evs : List Event} (hlater : Run (Step glass) afterPaired evs t)
    (hready : t.Ready glass (refreshing 5 'a' 400000))
    (hsession : ∃ x ∈ (t.next glass (refreshing 5 'a' 400000)).db.sessions,
      Refreshable x 400000) :
    ∃ row x, AgedReplay glass afterPaired t (t.next glass (refreshing 5 'a' 400000)) row x 5
      ("apr_" ++ word 'a') (word 's') 400000 ∧ row.refreshHash = "apr_" ++ word 'a' := by
  obtain ⟨-, ⟨row, hrow, hhash, hpos, haged, hsid⟩, hvalid, -, -⟩ := paired_evaluated
  obtain ⟨x, hx, hid, hlive, hexp, hsecret⟩ := hsession
  refine ⟨row, x, ⟨⟨_, run_paired⟩, ⟨hrow, hpos⟩, ⟨_, hlater⟩, hready, hvalid, hhash.symm,
    ⟨[], Run.nil, ?_⟩, ⟨hx, hid.trans hsid.symm⟩, ⟨hlive, hexp⟩, hsecret, haged⟩, hhash⟩
  intro e he
  simp at he

theorem aged_replay_revokes_unclaimed :
    ∃ t u row x, AgedReplay glass afterPaired t u row x 5 ("apr_" ++ word 'a') (word 's') 400000 ∧
      ∀ evs v, Run (Step glass) (u.next glass (.act 5 400000 (sampleMint "x" '5' 0))) evs v →
        v.Revokes glass 5 x.id := by
  obtain ⟨-, ⟨row', hrow', hhash', hpos', -⟩, -, hready, hsession⟩ := paired_evaluated
  obtain ⟨row, x, hreplay, hhash⟩ := agedReplay_of Run.nil hready hsession
  exact ⟨_, _, row, x, hreplay,
    (aged_replay_revokes hreplay).2 ⟨row', hrow', hhash'.trans hhash.symm, hpos'⟩⟩

/-- The token `a` was claimed by a recovery: its late replay is only refused. -/
theorem aged_replay_of_claimed_token :
    ¬ ∀ s t u row x r token secret now now' mint,
      AgedReplay glass s t u row x r token secret now →
      ∀ evs v, Run (Step glass) (u.next glass (.act r now' mint)) evs v →
        v.Revokes glass r x.id := by
  intro hclaim
  obtain ⟨-, -, hready, hsession, hnone⟩ := recovery_evaluated
  obtain ⟨row, x, hreplay, -⟩ := agedReplay_of run_recovery hready hsession
  obtain ⟨y, hy, -, hrev⟩ := hclaim _ _ _ _ _ _ _ _ _ 400000 (sampleMint "x" '5' 0) hreplay [] _
    Run.nil 400000 (sampleMint "x" '5' 0)
  rw [hnone y hy] at hrev
  exact absurd hrev (by simp)

end Samples

end Desktop
end AgentParty
