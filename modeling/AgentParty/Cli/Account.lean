import AgentParty.Lib.Run
import Mathlib.Data.Nat.Notation
import Mathlib.Logic.Function.Basic

/-! The account session of the CLI, `account.ts` and `resolveAuthDetailed`: the file account.json,
which any number of processes read, truncate, write and remove, and the token endpoint. A process
here is one call of `resolveAuthDetailed` or of `clearAccount`. -/

namespace AgentParty
namespace Account

/-- Seconds. -/
def EXPIRY_SKEW_SEC : Int := 60

structure AccountSession where
  server : String
  refreshToken : String
  accessToken : Option String
  expiresAt : Option Int
  email : Option String
  sub : Option String
  deriving DecidableEq

structure TokenResponse where
  accessToken : String
  refreshToken : Option String
  expiresIn : Option Int

/-- What is not under this model: JSON over the bytes of a file, and `healServerUrl`. -/
structure Externals (Byte : Type) where
  stringify : AccountSession → List Byte
  parse : List Byte → Option AccountSession
  healServerUrl : String → Option String
  parse_stringify : ∀ sess, parse (stringify sess) = some sess
  parse_nil : parse [] = none

section Disk

variable {Byte : Type}

/-- The name account.json and the files it has named; a file that is open outlives its name. -/
structure Disk (Byte : Type) where
  file : Option ℕ
  texts : ℕ → List Byte
  nodes : ℕ

/-- `open(O_WRONLY | O_CREAT | O_TRUNC)` and the file that it opens. -/
def Disk.truncate (disk : Disk Byte) : Disk Byte × ℕ :=
  match disk.file with
  | some i => ({ disk with texts := Function.update disk.texts i [] }, i)
  | none => (⟨some disk.nodes, Function.update disk.texts disk.nodes [], disk.nodes + 1⟩, disk.nodes)

/-- A write at the start of an open file: what was there beyond its end stays. -/
def Disk.write (disk : Disk Byte) (i : ℕ) (text : List Byte) : Disk Byte :=
  { disk with texts := Function.update disk.texts i (text ++ (disk.texts i).drop text.length) }

def Disk.remove (disk : Disk Byte) : Disk Byte := { disk with file := none }

def readAccount (X : Externals Byte) (disk : Disk Byte) : Option AccountSession :=
  disk.file.bind fun i => X.parse (disk.texts i)

end Disk

/-- The part of `ensureFreshAccess` before its first await. -/
def AccountSession.fresh (sess : AccountSession) (now : Int) : Bool :=
  sess.accessToken.any (· ≠ "") &&
    sess.expiresAt.any fun expiresAt => expiresAt ≠ 0 && now < expiresAt - EXPIRY_SKEW_SEC

def AccountSession.updated (sess : AccountSession) (tokens : TokenResponse) (now : Int) :
    AccountSession :=
  { sess with accessToken := some tokens.accessToken
              refreshToken := tokens.refreshToken.getD sess.refreshToken
              expiresAt := some (now + tokens.expiresIn.getD 3600) }

structure Config where
  server : String
  token : String
  deriving DecidableEq

/-- What a call reads beside the account: the config, and the agent config of the workspace, which
may be missing and may have been found again. -/
structure Setting where
  config : Option Config
  orphaned : Bool
  recovered : Option Config

inductive AuthSource
  | runtimeConfig
  | accountSession
  | none
  deriving DecidableEq

structure AccountInfo where
  present : Bool
  server : Option String := none
  email : Option String := none
  sub : Option String := none
  expiresAt : Option Int := none
  deriving DecidableEq

def accountInfo : Option AccountSession → AccountInfo
  | none => ⟨false, none, none, none, none⟩
  | some sess => ⟨true, some sess.server, sess.email, sess.sub, sess.expiresAt⟩

/-- The source of the config is left out. -/
structure ResolvedAuthDetailed where
  server : Option String
  token : Option String
  authSource : AuthSource
  account : AccountInfo
  deriving DecidableEq

inductive Stage
  /-- `fetchPublicConfig`. -/
  | configuring (sess : AccountSession) (server : String)
  | requesting (sess : AccountSession) (server : String)
  /-- The endpoint has answered; `writeAccount` is next. -/
  | answered (updated sess : AccountSession) (server : String)
  | opened (updated sess : AccountSession) (server : String) (i : ℕ)
  /-- The last `readAccount`, for the answer. -/
  | rereading (sess : AccountSession) (server token : String)
  /-- `clearAccount`, past its `readAccount`. -/
  | clearing (existed : Bool)
  | returned (auth : ResolvedAuthDetailed)
  | thrown
  | cleared (existed : Bool)
  | dead
  deriving DecidableEq

namespace Stage

def Over : Stage → Prop
  | returned _ | thrown | cleared _ | dead => True
  | configuring .. | requesting .. | answered .. | opened .. | rereading .. | clearing _ => False

instance : DecidablePred Over
  | returned _ | thrown | cleared _ | dead => inferInstanceAs (Decidable True)
  | configuring .. | requesting .. | answered .. | opened .. | rereading .. | clearing _ =>
    inferInstanceAs (Decidable False)

def Answered : Stage → Prop
  | answered .. => True
  | _ => False

instance : DecidablePred Answered
  | answered .. => inferInstanceAs (Decidable True)
  | configuring .. | requesting .. | opened .. | rereading .. | clearing _ | returned _ | thrown
  | cleared _ | dead => inferInstanceAs (Decidable False)

/-- The process waits for a server. -/
def Asks : Stage → Prop
  | configuring .. | requesting .. => True
  | _ => False

instance : DecidablePred Asks
  | configuring .. | requesting .. => inferInstanceAs (Decidable True)
  | answered .. | opened .. | rereading .. | clearing _ | returned _ | thrown | cleared _ | dead =>
    inferInstanceAs (Decidable False)

/-- The process has a file open. -/
def opens : Stage → Option ℕ
  | opened _ _ _ i => some i
  | _ => none

/-- The process holds an answer of the endpoint that it has not written. -/
def Holding (stage : Stage) : Prop := stage.Answered ∨ stage.opens.isSome = true

instance : DecidablePred Holding := fun _ => inferInstanceAs (Decidable (_ ∨ _))

end Stage

section Resolve

variable {Byte : Type} (X : Externals Byte)

/-- `resolveAuthDetailed`, after its first `readAccount`, up to its first await. -/
def resolveAuthDetailed (setting : Setting) (sess : Option AccountSession) (now : Int) : Stage :=
  let runtime := setting.config.filter (·.token ≠ "")
  let account := if runtime.isSome then none else sess.filter (·.refreshToken ≠ "")
  let rawServer :=
    match runtime, account with
    | some config, _ => some config.server
    | none, some account => some account.server
    | none, none => setting.config.map Config.server <|> sess.map AccountSession.server
  match (rawServer.filter (· ≠ "")).bind X.healServerUrl with
  | none => .returned ⟨none, none, .none, accountInfo sess⟩
  | some server =>
    match runtime, account with
    | some config, _ =>
      .returned ⟨some server, some config.token, .runtimeConfig, accountInfo sess⟩
    | none, none => .returned ⟨some server, none, .none, accountInfo sess⟩
    | none, some account =>
      if setting.orphaned then
        match setting.recovered with
        | some agent =>
          .returned ⟨some agent.server, some agent.token, .runtimeConfig, accountInfo sess⟩
        | none => .returned ⟨some server, none, .none, accountInfo sess⟩
      else if account.fresh now then .rereading account server (account.accessToken.getD "")
      else .configuring account server

end Resolve

structure World (Byte : Type) where
  disk : Disk Byte
  stages : List Stage
  /-- The refresh tokens of the endpoint, newest first: the newest one alone is valid. -/
  issued : List String
  presented : List String

inductive Event
  | resolveAuthDetailed (setting : Setting) (now : Int)
  | clearAccount
  /-- The next step of a process; `tokens` is what the endpoint answers if it is asked. -/
  | act (p : ℕ) (tokens : TokenResponse) (now : Int)
  /-- A request of a process does not get through. -/
  | fail (p : ℕ)
  | crash (p : ℕ)

namespace World

variable {Byte : Type} (X : Externals Byte)

/-- No process, and an account.json with the session, or none. -/
def initial : Option AccountSession → World Byte
  | none => ⟨⟨none, fun _ => [], 0⟩, [], [], []⟩
  | some sess => ⟨⟨some 0, fun _ => X.stringify sess, 1⟩, [], [sess.refreshToken], []⟩

variable (s : World Byte)

def arrive (stage : Stage) : World Byte := { s with stages := s.stages ++ [stage] }

def goto (p : ℕ) (stage : Stage) : World Byte := { s with stages := s.stages.set p stage }

/-- The token endpoint: a token is good once, for the next one. -/
def request (p : ℕ) (sess : AccountSession) (server : String) (tokens : TokenResponse)
    (now : Int) : World Byte :=
  let s := { s with presented := sess.refreshToken :: s.presented }
  if s.issued.head? = some sess.refreshToken then
    { s with issued := tokens.refreshToken.toList ++ s.issued }.goto p
      (.answered (sess.updated tokens now) sess server)
  else s.goto p .thrown

def act (p : ℕ) (tokens : TokenResponse) (now : Int) : World Byte :=
  match s.stages[p]? with
  | some (.configuring sess server) => s.goto p (.requesting sess server)
  | some (.requesting sess server) => s.request p sess server tokens now
  | some (.answered updated sess server) =>
    { s with disk := s.disk.truncate.1 }.goto p (.opened updated sess server s.disk.truncate.2)
  | some (.opened updated sess server i) =>
    { s with disk := s.disk.write i (X.stringify updated) }.goto p
      (.rereading sess server (updated.accessToken.getD ""))
  | some (.rereading sess server token) =>
    s.goto p (.returned ⟨some server, some token, .accountSession,
      accountInfo (readAccount X s.disk <|> some sess)⟩)
  | some (.clearing existed) => { s with disk := s.disk.remove }.goto p (.cleared existed)
  | _ => s

def next : Event → World Byte
  | .resolveAuthDetailed setting now =>
    s.arrive (Account.resolveAuthDetailed X setting (readAccount X s.disk) now)
  | .clearAccount => s.arrive (.clearing (readAccount X s.disk).isSome)
  | .act p tokens now => s.act X p tokens now
  | .fail p => s.goto p .thrown
  | .crash p => s.goto p .dead

/-- The endpoint rotates: an answer brings a token that it has not issued before. -/
def Rotates (tokens : TokenResponse) : Prop :=
  tokens.refreshToken.any (· ∉ s.issued) = true

instance (tokens : TokenResponse) : Decidable (s.Rotates tokens) :=
  inferInstanceAs (Decidable (_ = true))

/-- A request that fails is one to `fetchPublicConfig`, or one that does not reach the endpoint.
No process dies between the answer of the endpoint and the write that follows it. -/
def Ready : Event → Prop
  | .resolveAuthDetailed .. | .clearAccount => True
  | .act p tokens _ => (∃ stage ∈ s.stages[p]?, ¬ stage.Over) ∧ s.Rotates tokens
  | .fail p => ∃ stage ∈ s.stages[p]?, stage.Asks
  | .crash p => ∃ stage ∈ s.stages[p]?, ¬ stage.Over ∧ ¬ stage.Answered

instance : DecidablePred s.Ready
  | .resolveAuthDetailed .. | .clearAccount => inferInstanceAs (Decidable True)
  | .act p tokens _ =>
    inferInstanceAs (Decidable ((∃ stage ∈ s.stages[p]?, ¬ stage.Over) ∧ s.Rotates tokens))
  | .fail p => inferInstanceAs (Decidable (∃ stage ∈ s.stages[p]?, stage.Asks))
  | .crash p =>
    inferInstanceAs (Decidable (∃ stage ∈ s.stages[p]?, ¬ stage.Over ∧ ¬ stage.Answered))

/-- One event. -/
def Step (s : World Byte) (e : Event) (s' : World Byte) : Prop :=
  s.Ready e ∧ s' = s.next X e

end World

end Account
end AgentParty
