import AgentParty.Desktop.Tables
import AgentParty.Delivery.Data
import AgentParty.Lib.Run
import Mathlib.Logic.Function.Basic

/-! The requests of the device flow: refresh, revocation, exchange and decision. Between two of
its statements a request is a stage, with what it has read; an event lets one request take its
next statement and decide on the result. The rate limits, which only refuse requests, and the
audit rows, which nothing reads, are left out. -/

namespace AgentParty
namespace Desktop

/-- The keys of `hmacHex`. -/
inductive Purpose
  | access
  | refresh
  | deviceCode
  | userCode
  deriving DecidableEq

structure TokenResponse where
  accessToken : String
  tokenType : String
  expiresIn : Int
  refreshToken : String
  refreshExpiresIn : Int
  sessionId : String
  deriving DecidableEq

/-- What the ciphertext of a recovery is bound to. -/
structure RecoveryAad where
  pairingId : String
  sessionId : String
  deviceCodeHash : String
  deviceSecretChallenge : String
  deriving DecidableEq

/-- Web Crypto under the worker's secret, and JSON: what is encrypted decrypts under the same
nonce and additional data, and what is written parses. -/
structure Primitives (Text Cipher : Type) where
  hmacHex : Purpose → String → String
  s256 : String → String
  encrypt : String → RecoveryAad → Text → Cipher
  decrypt : String → RecoveryAad → Cipher → Option Text
  stringify : TokenResponse → Text
  parse : Text → Option TokenResponse
  decrypt_encrypt : ∀ nonce aad text, decrypt nonce aad (encrypt nonce aad text) = some text
  parse_stringify : ∀ response, parse (stringify response) = some response

structure Refusal where
  status : ℕ
  code : String
  message : String
  deriving DecidableEq

namespace Refusal

def badRefresh : Refusal :=
  ⟨400, "bad_request", "valid refresh_token and device_secret required"⟩
def invalidRefreshToken : Refusal := ⟨401, "unauthorized", "invalid refresh token"⟩
def refreshExpired : Refusal := ⟨410, "expired", "refresh token expired"⟩
def invalidDeviceProof : Refusal := ⟨401, "unauthorized", "invalid device proof"⟩
def recoveryUsed : Refusal := ⟨409, "refresh_conflict", "refresh recovery already used"⟩
def replayDetected : Refusal :=
  ⟨403, "replay_detected", "refresh token replay revoked the session"⟩
def recoveryTooEarly : Refusal :=
  ⟨409, "refresh_conflict",
    "refresh recovery cannot start while the original rotation is in flight"⟩
def concurrentRecovery : Refusal := ⟨409, "refresh_conflict", "concurrent refresh recovery"⟩
def concurrentRotation : Refusal := ⟨409, "refresh_conflict", "concurrent refresh rotation"⟩
def badExchange : Refusal :=
  ⟨400, "bad_request", "valid device_code and code_verifier required"⟩
def unknownDevice : Refusal := ⟨400, "bad_request", "invalid device grant"⟩
def invalidDeviceGrant : Refusal := ⟨400, "invalid_grant", "invalid device grant"⟩
def pairingExpired : Refusal := ⟨410, "expired", "pairing expired"⟩
def pairingDenied : Refusal := ⟨403, "access_denied", "pairing denied"⟩
def slowDown : Refusal := ⟨429, "slow_down", "polling too quickly"⟩
def invalidProof : Refusal := ⟨401, "invalid_proof", "invalid code verifier"⟩
def noAccount : Refusal := ⟨409, "conflict", "approved pairing has no account"⟩
def pairingNotFound : Refusal := ⟨404, "not_found", "pairing not found"⟩
def alreadyDecided : Refusal := ⟨409, "conflict", "pairing already decided"⟩
def sessionNotFound : Refusal := ⟨404, "not_found", "desktop session not found"⟩

/-- The refusals that say that the session is revoked or has expired. -/
def Ends (e : Refusal) : Prop := e = refreshExpired ∨ e = replayDetected

instance : DecidablePred Ends := fun _ => inferInstanceAs (Decidable (_ ∨ _))

end Refusal

/-- The two ways of `refreshDesktopSession` to a new pair of tokens. -/
inductive Way
  | rotation
  | recovery
  deriving DecidableEq

inductive Answer (Text : Type)
  | refused (e : Refusal)
  | refreshed (way : Way) (token : String) (response : TokenResponse)
  /-- The body of an exchange, written anew or replayed from the recovery. -/
  | exchanged (pairing verifier : String) (replayed : Bool) (body : Text)
  | authorizationPending (interval : Int)
  | decided (pairing : String) (approve : Bool) (now : Int)
  | empty
  deriving DecidableEq

/-- What a request does next. -/
inductive Stage
  | idle
  /-- The hash of the token is retired: the session is read by its id. -/
  | replay (token secret : String) (row : Retired) (now : Int)
  /-- The hash of the token is not retired: the session is read by it. -/
  | current (token secret : String)
  | expire (sid : String) (now : Int)
  | replayed (sid : String) (now : Int)
  | recover (token : String) (row : Retired) (x : Session) (now : Int)
  | rotate (token : String) (x : Session) (now : Int)
  /-- `revokeCurrentDesktopSession`, past the proof of the device. -/
  | surrender (sid : String)
  | slowDown (p : Pairing) (now : Int)
  | failProof (p : Pairing) (now : Int)
  | poll (p : Pairing) (now : Int)
  | issue (p : Pairing) (deviceCodeHash verifier : String) (now : Int)
  | recoverPairing (pairing deviceCodeHash verifier : String) (now : Int) (proofValid : Bool)
  | dropRecovery (pairing : String)
  | decide (pairing account : String) (approve : Bool)
  | done
  deriving DecidableEq

/-- What a request decides on what a statement has read. -/
inductive Verdict (Text : Type)
  | goto (stage : Stage)
  | answer (a : Answer Text)

inductive Query
  | refresh (token secret : String)
  | revokeCurrent (token secret : String)
  | exchange (deviceCode verifier : String)
  | decide (userCode account : String) (approve : Bool)

/-- The random values of a request, drawn before the statement that stores them. -/
structure Mint where
  sessionId : String
  accessToken : String
  refreshToken : String
  nonce : String
  claimRandom : Fin REFRESH_RECOVERY_CLAIM_SCALE

def isBase64url (text : List Char) : Bool := text.all fun c => c.isAlphanum || c = '_' || c = '-'

/-- `/^apd_[A-Za-z0-9_-]{43}$/`, and the same for `apr`. -/
def isCredential (kind token : String) : Bool :=
  token.toList.take 4 = (kind ++ "_").toList && (token.toList.drop 4).length = 43 &&
    isBase64url (token.toList.drop 4)

section Verdicts

variable {Text Cipher : Type} (K : Primitives Text Cipher)

def Primitives.refreshHash (token : String) : String := K.hmacHex .refresh token

def Mint.hashes (mint : Mint) : Hashes :=
  ⟨K.hmacHex .access mint.accessToken, K.refreshHash mint.refreshToken⟩

def refreshRequestValid (token secret : String) : Bool :=
  isCredential "apr" token && 32 ≤ jsLength secret && jsLength secret ≤ 256

/-- `refreshDesktopSession`, after the session of a retired hash is read. -/
def replayVerdict (token secret : String) (row : Retired) (now : Int) :
    Option Session → Verdict Text
  | none => .answer (.refused .invalidRefreshToken)
  | some x =>
    if x.revokedAt.isSome then .answer (.refused .invalidRefreshToken)
    else if x.refreshExpiresAt ≤ now then .goto (.expire x.id now)
    else if K.s256 secret ≠ x.deviceSecretChallenge then .answer (.refused .invalidDeviceProof)
    else if row.rotatedAt < 0 then .answer (.refused .recoveryUsed)
    else if now < row.rotationTime ∨ REFRESH_RECOVERY_WINDOW_MS < now - row.rotationTime then
      .goto (.replayed row.sessionId now)
    else if now - row.rotationTime < REFRESH_RECOVERY_MIN_AGE_MS then
      .answer (.refused .recoveryTooEarly)
    else .goto (.recover token row x now)

/-- `refreshDesktopSession`, after the session is read by its current hash. -/
def currentVerdict (token secret : String) (now : Int) : Option Session → Verdict Text
  | none => .answer (.refused .invalidRefreshToken)
  | some x =>
    if x.revokedAt.isSome then .answer (.refused .invalidRefreshToken)
    else if x.refreshExpiresAt ≤ now then .goto (.expire x.id now)
    else if K.s256 secret ≠ x.deviceSecretChallenge then .answer (.refused .invalidDeviceProof)
    else .goto (.rotate token x now)

/-- `exchangeDesktopPairing`, after the pairing is read. -/
def exchangeVerdict (deviceCodeHash verifier : String) (now : Int) (p : Pairing) :
    Verdict Text :=
  if p.status = .consumed then
    .goto (.recoverPairing p.id deviceCodeHash verifier now (K.s256 verifier = p.codeChallenge))
  else if p.expiresAt ≤ now then .answer (.refused .pairingExpired)
  else if p.status = .denied then .answer (.refused .pairingDenied)
  else if now < p.nextPollAt then .goto (.slowDown p now)
  else if K.s256 verifier ≠ p.codeChallenge then .goto (.failProof p now)
  else if p.status = .pending then .goto (.poll p now)
  else if p.account.getD "" = "" then .answer (.refused .noAccount)
  else .goto (.issue p deviceCodeHash verifier now)

/-- The first statement of a request, which only reads. -/
def firstRead (db : Db Cipher) (now : Int) : Query → Verdict Text
  | .refresh token secret =>
    if refreshRequestValid token secret = false then .answer (.refused .badRefresh)
    else
      match db.history.get? (K.refreshHash token) with
      | some row => .goto (.replay token secret row now)
      | none => .goto (.current token secret)
  | .revokeCurrent token secret =>
    if refreshRequestValid token secret = false then .answer .empty
    else
      match (db.sessionByRefresh (K.refreshHash token)).filter (·.revokedAt.isNone) with
      | some x =>
        if K.s256 secret = x.deviceSecretChallenge then .goto (.surrender x.id)
        else .answer .empty
      | none => .answer .empty
  | .exchange deviceCode verifier =>
    if ¬ (deviceCode.toList.length = 43 ∧ isBase64url deviceCode.toList = true) ∨
        jsLength verifier < 43 ∨ 128 < jsLength verifier then
      .answer (.refused .badExchange)
    else
      match db.pairingByDevice (K.hmacHex .deviceCode deviceCode) with
      | none => .answer (.refused .unknownDevice)
      | some p => exchangeVerdict K (K.hmacHex .deviceCode deviceCode) verifier now p
  | .decide userCode account approve =>
    match db.pairingByUser (K.hmacHex .userCode userCode) with
    | none => .answer (.refused .pairingNotFound)
    | some p =>
      if p.expiresAt ≤ now then .answer (.refused .pairingExpired)
      else if p.status ≠ .pending then .answer (.refused .alreadyDecided)
      else .goto (.decide p.id account approve)

/-- `parseRecoveredTokenResponse`. -/
def parseRecoveredTokenResponse (raw : Text) (sessionId : String) : Option TokenResponse :=
  (K.parse raw).filter fun value =>
    isCredential "apd" value.accessToken && isCredential "apr" value.refreshToken &&
      value.tokenType = "Bearer" && value.sessionId = sessionId && 0 < value.expiresIn &&
      0 < value.refreshExpiresIn

/-- The join of a recovery with its session. -/
def Db.recoveryRow (db : Db Cipher) (pairing : String) : Option (Recovery Cipher × Session) :=
  (db.recoveries.get? pairing).bind fun row =>
    ((db.sessions.get? row.sessionId).filter (·.pairingId = row.pairingId)).map (row, ·)

/-- The plaintext that `recoverConsumedPairing` returns, if the recovery is valid. -/
def recoveredText (row : Recovery Cipher) (x : Session) (deviceCodeHash : String) (now : Int) :
    Option Text :=
  if row.expiresAt ≤ now ∨ x.revokedAt.isSome ∨ x.accessExpiresAt ≤ now ∨
      x.refreshExpiresAt ≤ now ∨ x.updatedAt ≠ x.createdAt ∨
      row.deviceCodeHash ≠ deviceCodeHash then none
  else
    (K.decrypt row.nonce
      ⟨row.pairingId, row.sessionId, row.deviceCodeHash, x.deviceSecretChallenge⟩
      row.ciphertext).filter fun text =>
        (parseRecoveredTokenResponse K text row.sessionId).any fun value =>
          K.hmacHex .access value.accessToken = x.accessHash &&
            K.refreshHash value.refreshToken = x.refreshHash

/-- `recoverConsumedPairing`, after the recovery is read. -/
def recoverVerdict (db : Db Cipher) (pairing deviceCodeHash verifier : String) (now : Int)
    (proofValid : Bool) : Verdict Text :=
  match db.recoveryRow pairing with
  | none => .answer (.refused .invalidDeviceGrant)
  | some (row, x) =>
    match recoveredText K row x deviceCodeHash now with
    | none => .goto (.dropRecovery pairing)
    | some text =>
      if proofValid then .answer (.exchanged pairing verifier true text)
      else .answer (.refused .invalidDeviceGrant)

def Mint.exchangeResponse (mint : Mint) : TokenResponse :=
  ⟨mint.accessToken, "Bearer", ACCESS_TTL_MS / 1000, mint.refreshToken, REFRESH_TTL_MS / 1000,
    mint.sessionId⟩

def Mint.refreshResponse (mint : Mint) (x : Session) (now : Int) : TokenResponse :=
  ⟨mint.accessToken, "Bearer", ACCESS_TTL_MS / 1000, mint.refreshToken,
    max 0 ((x.refreshExpiresAt - now) / 1000), x.id⟩

def Mint.recovery (mint : Mint) (p : Pairing) (deviceCodeHash : String) (now : Int) :
    Recovery Cipher :=
  ⟨p.id, mint.sessionId, deviceCodeHash, mint.nonce,
    K.encrypt mint.nonce ⟨p.id, mint.sessionId, deviceCodeHash, p.deviceSecretChallenge⟩
      (K.stringify mint.exchangeResponse),
    now, now + RECOVERY_TTL_MS⟩

end Verdicts

structure World (Text Cipher : Type) where
  db : Db Cipher
  stages : ℕ → Stage
  /-- What the requests were answered, oldest first. The statement that decides an answer enters
  it; the audit insert that may stand behind it is no step. -/
  answers : List (ℕ × Answer Text)
  /-- The hashes of the tokens that were drawn. -/
  drawn : List String

inductive Event
  | start (id deviceCodeHash userCodeHash codeChallenge deviceSecretChallenge : String)
      (now : Int)
  /-- The deletion of old recoveries by `startDesktopPairing`. -/
  | sweep (now : Int)
  | arrive (r : ℕ) (query : Query) (now : Int)
  /-- The next statement of a request. -/
  | act (r : ℕ) (now : Int) (mint : Mint)
  | revokeByOwner (r : ℕ) (sid account : String) (now : Int)

/-- The request of an event. -/
def Event.actor : Event → Option ℕ
  | .start .. | .sweep _ => none
  | .arrive r .. | .act r .. | .revokeByOwner r .. => some r

namespace World

variable {Text Cipher : Type} (K : Primitives Text Cipher)

def initial : World Text Cipher := ⟨Db.empty, fun _ => .idle, [], []⟩

variable (s : World Text Cipher)

def goto (r : ℕ) (stage : Stage) : World Text Cipher :=
  { s with stages := Function.update s.stages r stage }

def finish (r : ℕ) (a : Answer Text) : World Text Cipher :=
  { s with stages := Function.update s.stages r .done, answers := s.answers ++ [(r, a)] }

def proceed (r : ℕ) : Verdict Text → World Text Cipher
  | .goto stage => s.goto r stage
  | .answer a => s.finish r a

def write (db : Db Cipher) : World Text Cipher := { s with db := db }

def draw (pair : Hashes) : World Text Cipher :=
  { s with drawn := pair.access :: pair.refresh :: s.drawn }

/-- `startDesktopPairing`; a code or an id that is taken raises. -/
def start (id deviceCodeHash userCodeHash codeChallenge deviceSecretChallenge : String)
    (now : Int) : World Text Cipher :=
  if s.db.pairings.rows.any (fun p => p.id = id || p.deviceCodeHash = deviceCodeHash ||
      p.userCodeHash = userCodeHash) then s
  else
    let row : Pairing := ⟨id, deviceCodeHash, userCodeHash, codeChallenge,
      deviceSecretChallenge, .pending, none, 0, 3, 0, now + PAIRING_TTL_MS⟩
    s.write { s.db with pairings := s.db.pairings.insert row }

/-- The batch of a recovery and its answer. -/
def recover (r : ℕ) (token : String) (row : Retired) (x : Session) (t : Int) (mint : Mint) :
    World Text Cipher :=
  let result := s.db.recover (K.refreshHash token) row x (mint.hashes K)
    (claimMarker row.rotationTime mint.claimRandom) t
  ((s.draw (mint.hashes K)).write result.1).finish r
    (if result.2 = (1, 1, 1) then .refreshed .recovery token (mint.refreshResponse x t)
      else .refused .concurrentRecovery)

/-- The batch of a rotation and its answer. -/
def rotate (r : ℕ) (token : String) (x : Session) (t : Int) (mint : Mint) : World Text Cipher :=
  let result := s.db.rotate (K.refreshHash token) x (mint.hashes K) t
  ((s.draw (mint.hashes K)).write result.1).proceed r
    (if result.2.1 ≠ 1 then .answer (.refused .concurrentRotation)
      else if result.2.2 ≠ 1 then .goto (.replayed x.id t)
      else .answer (.refreshed .rotation token (mint.refreshResponse x t)))

/-- The batch of an exchange and its answer. -/
def issue (r : ℕ) (p : Pairing) (deviceCodeHash verifier : String) (t now : Int) (mint : Mint) :
    World Text Cipher :=
  match s.db.exchange p.id mint.sessionId (mint.hashes K) (mint.recovery K p deviceCodeHash t) t
    with
  | some (db, true) =>
    ((s.draw (mint.hashes K)).write db).finish r
      (.exchanged p.id verifier false (K.stringify mint.exchangeResponse))
  | _ =>
    (s.draw (mint.hashes K)).goto r (.recoverPairing p.id deviceCodeHash verifier now true)

/-- The next statement of the request `r`; a request that is done has none. -/
def act (r : ℕ) (now : Int) (mint : Mint) : World Text Cipher :=
  match s.stages r with
  | .idle | .done => s
  | .replay token secret row t =>
    s.proceed r (replayVerdict K token secret row t (s.db.sessions.get? row.sessionId))
  | .current token secret =>
    s.proceed r
      (currentVerdict K token secret now (s.db.sessionByRefresh (K.refreshHash token)))
  | .expire sid t => (s.write (s.db.revokeLive sid t)).finish r (.refused .refreshExpired)
  | .replayed sid t => (s.write (s.db.revoke sid t)).finish r (.refused .replayDetected)
  | .recover token row x t => s.recover K r token row x t mint
  | .rotate token x t => s.rotate K r token x t mint
  | .surrender sid => (s.write (s.db.revokeLive sid now)).finish r .empty
  | .slowDown p t => (s.write (s.db.slowDown p.id t)).finish r (.refused .slowDown)
  | .failProof p t =>
    let result := s.db.failProof p.id (t + p.pollIntervalSec * 1000)
    (s.write result.1).finish r
      (.refused (if 5 ≤ p.proofFailures + (if result.2 = 1 then 1 else 0) then .pairingDenied
        else .invalidProof))
  | .poll p t =>
    (s.write (s.db.poll p.id (t + p.pollIntervalSec * 1000))).finish r
      (.authorizationPending p.pollIntervalSec)
  | .issue p deviceCodeHash verifier t => s.issue K r p deviceCodeHash verifier t now mint
  | .recoverPairing pairing deviceCodeHash verifier t proofValid =>
    s.proceed r (recoverVerdict K s.db pairing deviceCodeHash verifier t proofValid)
  | .dropRecovery pairing =>
    (s.write (s.db.dropRecovery pairing)).finish r (.refused .invalidDeviceGrant)
  | .decide pairing account approve =>
    let result := s.db.decide pairing account approve now
    (s.write result.1).finish r
      (if result.2 = 1 then .decided pairing approve now else .refused .alreadyDecided)

def next : Event → World Text Cipher
  | .start id deviceCodeHash userCodeHash codeChallenge deviceSecretChallenge now =>
    s.start id deviceCodeHash userCodeHash codeChallenge deviceSecretChallenge now
  | .sweep now => s.write (s.db.sweep now)
  | .arrive r query now => s.proceed r (firstRead K s.db now query)
  | .act r now mint => s.act K r now mint
  | .revokeByOwner r sid account now =>
    (s.write (s.db.revokeOwned sid account now)).finish r
      (if s.db.sessions.rows.any (fun x => x.id = sid && x.account = account) then .empty
        else .refused .sessionNotFound)

/-- The tokens were not drawn before, and the id is not a session's. -/
def Fresh (mint : Mint) : Prop :=
  (mint.hashes K).access ∉ s.drawn ∧ (mint.hashes K).refresh ∉ s.drawn ∧
    s.db.sessions.get? mint.sessionId = none

instance (mint : Mint) : Decidable (s.Fresh K mint) :=
  inferInstanceAs (Decidable (_ ∧ _))

/-- A request arrives once, the clock is past the epoch and the random values are new. -/
def Ready : Event → Prop
  | .start .. | .sweep _ => True
  | .arrive r _ now => s.stages r = .idle ∧ 0 < now
  | .act _ now mint => 0 < now ∧ s.Fresh K mint
  | .revokeByOwner r .. => s.stages r = .idle

instance : DecidablePred (s.Ready K)
  | .start .. | .sweep _ => inferInstanceAs (Decidable True)
  | .arrive .. | .act .. => inferInstanceAs (Decidable (_ ∧ _))
  | .revokeByOwner r .. => inferInstanceAs (Decidable (s.stages r = .idle))

/-- One event. -/
def Step (s : World Text Cipher) (e : Event) (s' : World Text Cipher) : Prop :=
  s.Ready K e ∧ s' = s.next K e

end World

end Desktop
end AgentParty
