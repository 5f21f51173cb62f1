import AgentParty.Lib.Table

/-! The device flow of the desktop app: the D1 tables behind pairings and sessions, and the
statements that write them. A statement, or a batch of them, is atomic. What it compares with
was read by an earlier statement of its request, so it takes those rows as they were read. -/

namespace AgentParty
namespace Desktop

def PAIRING_TTL_MS : Int := 300000
def ACCESS_TTL_MS : Int := 300000
def REFRESH_TTL_MS : Int := 30 * 24 * 60 * 60 * 1000
def RECOVERY_TTL_MS : Int := 60000
def REFRESH_RECOVERY_MIN_AGE_MS : Int := 1000
def REFRESH_RECOVERY_WINDOW_MS : Int := 5 * 60000
abbrev REFRESH_RECOVERY_CLAIM_SCALE : ℕ := 4096

inductive Status
  | pending
  | approved
  | denied
  | consumed
  deriving DecidableEq

/-- A row of `desktop_pairings`. -/
structure Pairing where
  id : String
  deviceCodeHash : String
  userCodeHash : String
  codeChallenge : String
  deviceSecretChallenge : String
  status : Status
  account : Option String
  proofFailures : ℕ
  pollIntervalSec : Int
  nextPollAt : Int
  expiresAt : Int
  deriving DecidableEq

/-- A row of `desktop_sessions`. -/
structure Session where
  id : String
  pairingId : String
  account : String
  deviceSecretChallenge : String
  accessHash : String
  accessExpiresAt : Int
  refreshHash : String
  refreshExpiresAt : Int
  createdAt : Int
  updatedAt : Int
  revokedAt : Option Int
  deriving DecidableEq

/-- A row of `desktop_refresh_history`. A negative `rotatedAt` is a claim by a recovery. -/
structure Retired where
  refreshHash : String
  sessionId : String
  rotatedAt : Int
  deriving DecidableEq

/-- A row of `desktop_token_recoveries`. -/
structure Recovery (Cipher : Type) where
  pairingId : String
  sessionId : String
  deviceCodeHash : String
  nonce : String
  ciphertext : Cipher
  createdAt : Int
  expiresAt : Int

/-- The time a retired hash was rotated out; a claim keeps it in its magnitude. -/
def Retired.rotationTime (row : Retired) : Int :=
  if row.rotatedAt < 0 then -row.rotatedAt / REFRESH_RECOVERY_CLAIM_SCALE else row.rotatedAt

/-- The value that claims a retired hash for one recovery. -/
def claimMarker (rotatedAt : Int) (claimRandom : Fin REFRESH_RECOVERY_CLAIM_SCALE) : Int :=
  -(rotatedAt * REFRESH_RECOVERY_CLAIM_SCALE + claimRandom)

theorem claimMarker_neg {t : Int} (ht : 0 < t) (k : Fin REFRESH_RECOVERY_CLAIM_SCALE) :
    claimMarker t k < 0 := by
  unfold claimMarker
  simp only [REFRESH_RECOVERY_CLAIM_SCALE]
  omega

/-- The claim's magnitude gives the rotation time back. -/
theorem rotationTime_claimMarker {t : Int} (ht : 0 < t) (k : Fin REFRESH_RECOVERY_CLAIM_SCALE)
    (h sid : String) : Retired.rotationTime ⟨h, sid, claimMarker t k⟩ = t := by
  have hk : (k : ℕ) < 4096 := k.isLt
  have hneg := claimMarker_neg ht k
  unfold Retired.rotationTime
  rw [if_pos hneg]
  unfold claimMarker
  simp only [REFRESH_RECOVERY_CLAIM_SCALE]
  omega

/-- The hashes of a pair of tokens, as a session stores them. -/
structure Hashes where
  access : String
  refresh : String

structure Db (Cipher : Type) where
  pairings : Table Pairing Pairing.id
  sessions : Table Session Session.id
  history : Table Retired Retired.refreshHash
  recoveries : Table (Recovery Cipher) Recovery.pairingId

variable {Cipher : Type}

def Db.empty : Db Cipher := ⟨Table.empty, Table.empty, Table.empty, Table.empty⟩

/-- `WHERE refresh_hash = ?`. -/
def Db.sessionByRefresh (db : Db Cipher) (h : String) : Option Session :=
  db.sessions.rows.find? fun x => x.refreshHash = h

def Db.pairingByDevice (db : Db Cipher) (h : String) : Option Pairing :=
  db.pairings.rows.find? fun p => p.deviceCodeHash = h

def Db.pairingByUser (db : Db Cipher) (h : String) : Option Pairing :=
  db.pairings.rows.find? fun p => p.userCodeHash = h

section Sessions

/-- The tokens of `pair` take the place of the session's. -/
def Session.issue (pair : Hashes) (now : Int) (x : Session) : Session :=
  { x with accessHash := pair.access, accessExpiresAt := now + ACCESS_TTL_MS,
           refreshHash := pair.refresh, updatedAt := now }

/-- `SET revoked_at = COALESCE(revoked_at, now)`. -/
def Session.revoke (now : Int) (x : Session) : Session :=
  { x with revokedAt := x.revokedAt <|> some now, updatedAt := now }

/-- `revoked_at = COALESCE(revoked_at, now), updated_at = now` for the session `sid`. -/
def Db.revoke (db : Db Cipher) (sid : String) (now : Int) : Db Cipher :=
  { db with sessions := db.sessions.update (fun x => x.id = sid) (Session.revoke now) fun _ => rfl }

/-- The same, where the session is not yet revoked. -/
def Db.revokeLive (db : Db Cipher) (sid : String) (now : Int) : Db Cipher :=
  { db with sessions := db.sessions.update (fun x => x.id = sid && x.revokedAt.isNone)
              (Session.revoke now) fun _ => rfl }

/-- The same, where the session belongs to `account`. -/
def Db.revokeOwned (db : Db Cipher) (sid account : String) (now : Int) : Db Cipher :=
  { db with sessions := db.sessions.update (fun x => x.id = sid && x.account = account)
              (Session.revoke now) fun _ => rfl }

/-- `WHERE id = ? AND refresh_hash = ? AND revoked_at IS NULL`. -/
def Session.holds (sid h : String) (x : Session) : Bool :=
  x.id = sid && x.refreshHash = h && x.revokedAt.isNone

/-- `INSERT OR IGNORE` of a retired hash, where the session has moved on to `next`. -/
def Db.retire (db : Db Cipher) (row : Retired) (next : String) : Db Cipher :=
  if db.sessions.rows.any (Session.holds row.sessionId next) then
    { db with history := db.history.insert row }
  else db

/-- The number of rows that `retire` inserts. -/
def Db.retireChanges (db : Db Cipher) (row : Retired) (next : String) : ℕ :=
  if db.sessions.rows.any (Session.holds row.sessionId next) &&
      (db.history.get? row.refreshHash).isNone then 1 else 0

/-- The last two statements of a batch: where `p` holds, the tokens of `pair` take the place of
the session's, and the hash they replace is retired. The tables and the changes of the two. -/
def Db.reissue (db : Db Cipher) (p : Session → Bool) (row : Retired) (pair : Hashes)
    (now : Int) : Db Cipher × ℕ × ℕ :=
  let db₁ := { db with sessions := db.sessions.update p (Session.issue pair now) fun _ => rfl }
  (db₁.retire row pair.refresh, db.sessions.rows.countP p, db₁.retireChanges row pair.refresh)

/-- The batch of a rotation. -/
def Db.rotate (db : Db Cipher) (h : String) (x : Session) (pair : Hashes) (now : Int) :
    Db Cipher × ℕ × ℕ :=
  db.reissue (Session.holds x.id h) ⟨h, x.id, now⟩ pair now

/-- `WHERE refresh_hash = ? AND rotated_at = ? AND rotated_at >= 0`. -/
def Retired.claimable (h : String) (read : Int) (row : Retired) : Bool :=
  row.refreshHash = h && row.rotatedAt = read && 0 ≤ row.rotatedAt

/-- `WHERE refresh_hash = ? AND session_id = ? AND rotated_at = ?`. -/
def Retired.claimedBy (h sid : String) (marker : Int) (row : Retired) : Bool :=
  row.refreshHash = h && row.sessionId = sid && row.rotatedAt = marker

def Retired.mark (marker : Int) (row : Retired) : Retired := { row with rotatedAt := marker }

theorem Retired.mark_refreshHash (marker : Int) (row : Retired) :
    (row.mark marker).refreshHash = row.refreshHash := rfl

/-- Statement 1 of the batch of a recovery: the claim. -/
def Db.claim (db : Db Cipher) (h : String) (read marker : Int) : Db Cipher :=
  { db with history := db.history.update (Retired.claimable h read) (Retired.mark marker)
              (Retired.mark_refreshHash marker) }

/-- The rows that statement 2 of the batch of a recovery changes. -/
def Db.recovers (db : Db Cipher) (h : String) (x : Session) (marker now : Int) (y : Session) :
    Bool :=
  Session.holds x.id x.refreshHash y && now < y.refreshExpiresAt &&
    db.history.rows.any (Retired.claimedBy h x.id marker)

/-- The batch of a recovery: the tables and the changes of its three statements. -/
def Db.recover (db : Db Cipher) (h : String) (read : Retired) (x : Session) (pair : Hashes)
    (marker now : Int) : Db Cipher × ℕ × ℕ × ℕ :=
  let db₁ := db.claim h read.rotatedAt marker
  let result := db₁.reissue (db₁.recovers h x marker now) ⟨x.refreshHash, x.id, now⟩ pair now
  (result.1, db.history.rows.countP (Retired.claimable h read.rotatedAt), result.2)

end Sessions

section Pairings

/-- `startDesktopPairing`: at most a hundred recoveries that have run out, oldest first. -/
def Db.sweep (db : Db Cipher) (now : Int) : Db Cipher :=
  let expired := ((db.recoveries.rows.filter fun row => row.expiresAt ≤ now).mergeSort
    fun a b => a.expiresAt ≤ b.expiresAt).take 100
  { db with recoveries := db.recoveries.delete fun row =>
              expired.any fun old => old.pairingId = row.pairingId }

def Db.dropRecovery (db : Db Cipher) (pairing : String) : Db Cipher :=
  { db with recoveries := db.recoveries.delete fun row => row.pairingId = pairing }

/-- `decideDesktopPairing`: `WHERE id = ? AND status = 'pending' AND expires_at > ?`. -/
def Pairing.decidable (id : String) (now : Int) (p : Pairing) : Bool :=
  p.id = id && p.status = .pending && now < p.expiresAt

def Pairing.decide (approve : Bool) (account : String) (p : Pairing) : Pairing :=
  if approve then { p with status := .approved, account := some account }
  else { p with status := .denied, account := none }

def Db.decide (db : Db Cipher) (id account : String) (approve : Bool) (now : Int) :
    Db Cipher × ℕ :=
  ({ db with pairings := db.pairings.update (Pairing.decidable id now)
              (Pairing.decide approve account) fun p => by cases approve <;> rfl },
    db.pairings.rows.countP (Pairing.decidable id now))

/-- A poll that came too early. -/
def Db.slowDown (db : Db Cipher) (id : String) (now : Int) : Db Cipher :=
  { db with pairings := db.pairings.update (fun p => p.id = id)
              (fun p => { p with pollIntervalSec := 10, nextPollAt := now + 10000 })
              fun _ => rfl }

/-- A poll while the pairing is undecided. -/
def Db.poll (db : Db Cipher) (id : String) (next : Int) : Db Cipher :=
  { db with pairings := db.pairings.update (fun p => p.id = id && p.status = .pending)
              (fun p => { p with nextPollAt := next }) fun _ => rfl }

/-- `WHERE id = ? AND status IN ('pending', 'approved')`. -/
def Pairing.open (id : String) (p : Pairing) : Bool :=
  p.id = id && (p.status = .pending || p.status = .approved)

/-- A wrong verifier; the fifth denies the pairing. -/
def Pairing.failProof (next : Int) (p : Pairing) : Pairing :=
  { p with proofFailures := p.proofFailures + 1, nextPollAt := next,
           status := if 5 ≤ p.proofFailures + 1 then .denied else p.status }

def Db.failProof (db : Db Cipher) (id : String) (next : Int) : Db Cipher × ℕ :=
  ({ db with pairings := db.pairings.update (Pairing.open id) (Pairing.failProof next)
              fun _ => rfl },
    db.pairings.rows.countP (Pairing.open id))

/-- `WHERE id = ? AND status = 'approved' AND account IS NOT NULL AND expires_at > ?`. -/
def Pairing.issuable (id : String) (now : Int) (p : Pairing) : Bool :=
  p.id = id && p.status = .approved && p.account.isSome && now < p.expiresAt

/-- The session that the batch of an exchange selects from its pairing. -/
def Pairing.session (sid : String) (pair : Hashes) (now : Int) (p : Pairing) : Session where
  id := sid
  pairingId := p.id
  account := p.account.getD ""
  deviceSecretChallenge := p.deviceSecretChallenge
  accessHash := pair.access
  accessExpiresAt := now + ACCESS_TTL_MS
  refreshHash := pair.refresh
  refreshExpiresAt := now + REFRESH_TTL_MS
  createdAt := now
  updatedAt := now
  revokedAt := none

/-- The batch of an exchange; `none` is a `UNIQUE` violation, which rolls it back. Otherwise the
tables and whether each of the three statements changed one row. -/
def Db.exchange (db : Db Cipher) (id : String) (sid : String) (pair : Hashes)
    (recovery : Recovery Cipher) (now : Int) : Option (Db Cipher × Bool) :=
  match db.pairings.rows.find? (Pairing.issuable id now) with
  | none => some (db, false)
  | some p =>
    if db.sessions.rows.any (fun x => x.id = sid || x.pairingId = id ||
          x.accessHash = pair.access || x.refreshHash = pair.refresh) ||
        db.recoveries.rows.any (fun row => row.pairingId = id || row.sessionId = sid) then none
    else
      some ({ db with
        sessions := db.sessions.insert (p.session sid pair now)
        recoveries := db.recoveries.insert recovery
        pairings := db.pairings.update (fun q => q.id = id && q.status = .approved)
          (fun q => { q with status := .consumed }) fun _ => rfl }, true)

end Pairings

end Desktop
end AgentParty
