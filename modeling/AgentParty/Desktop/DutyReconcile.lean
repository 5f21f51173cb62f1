import AgentParty.Lib.Calls
import Mathlib.Data.List.Sort
import Mathlib.Data.Prod.Lex
import Mathlib.Data.String.Basic
import Mathlib.Logic.Function.Basic

/-! One run of `reconcile_duties_with` (`duty/reconcile.rs`) over the duty plists of a home
directory. launchd, the archive and the marker files are the outside world. -/

namespace AgentParty
namespace DutyReconcile

inductive DutyGeneration
  | managed (generation : String)
  | legacy
  | unreadable (reason : String)
  deriving DecidableEq

namespace DutyGeneration

def asDeref : DutyGeneration → Option String
  | managed generation => some generation
  | legacy | unreadable _ => none

def recoveryBlock : DutyGeneration → Option String
  | managed _ => none
  | legacy => some "legacy-duty-needs-repair"
  | unreadable reason => some reason

def isManaged : DutyGeneration → Bool
  | managed _ => true
  | legacy | unreadable _ => false

def rank : DutyGeneration → ℕ
  | managed _ => 2
  | legacy => 1
  | unreadable _ => 0

end DutyGeneration

inductive DutyIdentity
  | known (identity : String)
  | unreadable (reason : String)
  deriving DecidableEq

structure DutyCandidate where
  label : String
  plistPath : String
  modifiedAt : ℕ
  generation : DutyGeneration
  identity : DutyIdentity
  deriving DecidableEq

/-- What `duty_candidates` reads from one directory: the labels are file names, so they differ. -/
structure DutyCandidates where
  list : List DutyCandidate
  nodup : (list.map DutyCandidate.label).Nodup

/-- The string fields of a marker's JSON. -/
structure Marker where
  schema : Option String
  label : Option String
  generation : Option String
  reason : Option String
  deriving DecidableEq

/-- What reading a marker file gives; a body that is no JSON has no fields. -/
inductive MarkerFile
  | oversized
  | missing
  | unreadable
  | body (marker : Option Marker)
  deriving DecidableEq

def dutyBlockedMarkerSchema : String := "agentparty.duty-blocked.v1"

def dutyBlockedReasonForGeneration (file : MarkerFile) (label : String)
    (plistGeneration : DutyGeneration) : Option String :=
  match file with
  | .oversized => some "terminal-stop-marker-oversized"
  | .missing => none
  | .unreadable => some "terminal-stop-marker-unreadable"
  | .body none => some "terminal-stop-marker-invalid"
  | .body (some marker) =>
    if marker.schema = some dutyBlockedMarkerSchema ∧ marker.label = some label then
      match plistGeneration with
      | .unreadable _ => some "terminal-stop-plist-unreadable"
      | .managed _ | .legacy =>
        if marker.generation ≠ plistGeneration.asDeref then none
        else
          match marker.reason.filter (fun reason => reason ≠ "") with
          | some reason => some (String.ofList (reason.toList.take 128))
          | none => some "terminal-stop"
    else some "terminal-stop-marker-invalid"

/-- The injected operations and the marker files. Each answer may depend on all that happened. -/
structure Launchd (W : Type) where
  loaded : String → W → Except String Bool × W
  disabled : String → W → Except String Bool × W
  bootout : String → W → Except String Unit × W
  bootstrap : String → String → W → Except String Unit × W
  archive : String → String → String → W → Except String String × W
  sleep : ℕ → W → Unit × W
  marker : String → W → MarkerFile × W

inductive Call
  | loaded (label : String) (answer : Except String Bool)
  | disabled (label : String) (answer : Except String Bool)
  | bootout (label : String) (answer : Except String Unit)
  | bootstrap (label plistPath : String) (answer : Except String Unit)
  | archive (label plistPath winner : String) (answer : Except String String)
  | sleep (milliseconds : ℕ)
  | marker (label : String) (file : MarkerFile)
  deriving DecidableEq

abbrev Reconcile (W : Type) := Calls.Prog W Call

namespace Launchd

variable {W : Type} (env : Launchd W)

def askLoaded (label : String) : Reconcile W (Except String Bool) :=
  Calls.call (env.loaded label) (.loaded label)

def askDisabled (label : String) : Reconcile W (Except String Bool) :=
  Calls.call (env.disabled label) (.disabled label)

def runBootout (label : String) : Reconcile W (Except String Unit) :=
  Calls.call (env.bootout label) (.bootout label)

def runBootstrap (label plistPath : String) : Reconcile W (Except String Unit) :=
  Calls.call (env.bootstrap label plistPath) (.bootstrap label plistPath)

def runArchive (label plistPath winner : String) : Reconcile W (Except String String) :=
  Calls.call (env.archive label plistPath winner) (.archive label plistPath winner)

def runSleep (milliseconds : ℕ) : Reconcile W Unit :=
  Calls.call (env.sleep milliseconds) (fun _ => .sleep milliseconds)

def readMarker (label : String) : Reconcile W MarkerFile :=
  Calls.call (env.marker label) (.marker label)

end Launchd

inductive Disposition
  | healthy
  | reloaded
  | terminalBlocked
  | superseded
  | failed
  deriving DecidableEq

structure Record where
  label : String
  disposition : Disposition
  detail : String
  deriving DecidableEq

/-- `loaded_states` and `disabled_states`. -/
abbrev States := String → Option Bool

def States.insert (states : States) (label : String) (value : Bool) : States :=
  Function.update states label (some value)

section Group

variable {W : Type} (env : Launchd W)

structure Probes where
  loadedStates : States := fun _ => none
  disabledStates : States := fun _ => none
  probeFailed : Bool := false
  records : List Record := []

def Probes.fail (p : Probes) (label detail : String) : Probes :=
  { p with probeFailed := true, records := p.records ++ [⟨label, .failed, detail⟩] }

def probeLoaded (p : Probes) (c : DutyCandidate) : Reconcile W Probes := do
  match ← env.askLoaded c.label with
  | .ok value => pure { p with loadedStates := p.loadedStates.insert c.label value }
  | .error error => pure (p.fail c.label ("cannot inspect launchd loaded state: " ++ error))

def probeDisabled (p : Probes) (c : DutyCandidate) : Reconcile W Probes := do
  match ← env.askDisabled c.label with
  | .ok value => pure { p with disabledStates := p.disabledStates.insert c.label value }
  | .error error => pure (p.fail c.label ("cannot inspect launchd disabled state: " ++ error))

def probe (p : Probes) (c : DutyCandidate) : Reconcile W Probes := do
  let p ← probeLoaded env p c
  probeDisabled env p c

abbrev TerminalReasons := String → Option String

def terminalReason (disabledStates : States) (reasons : TerminalReasons) (c : DutyCandidate) :
    Reconcile W TerminalReasons := do
  match dutyBlockedReasonForGeneration (← env.readMarker c.label) c.label c.generation with
  | some reason => pure (Function.update reasons c.label (some reason))
  | none =>
    if disabledStates c.label = some true then
      pure (Function.update reasons c.label (some "launchd-disabled"))
    else pure reasons

structure Progress where
  loadedStates : States
  terminalStillLoaded : Bool := false
  records : List Record := []

def Progress.record (g : Progress) (label : String) (disposition : Disposition)
    (detail : String) : Progress :=
  { g with records := g.records ++ [⟨label, disposition, detail⟩] }

def Progress.stillLoaded (g : Progress) : Progress := { g with terminalStillLoaded := true }

def Progress.saw (g : Progress) (label : String) (value : Bool) : Progress :=
  { g with loadedStates := g.loadedStates.insert label value }

def stopTerminal (reasons : TerminalReasons) (g : Progress) (c : DutyCandidate) :
    Reconcile W Progress := do
  match reasons c.label with
  | none => pure g
  | some reason =>
    if g.loadedStates c.label = some true then
      match ← env.runBootout c.label with
      | .ok () =>
        match ← env.askLoaded c.label with
        | .ok false =>
          pure ((g.saw c.label false).record c.label .terminalBlocked
            ("honored terminal stop state: " ++ reason))
        | .ok true =>
          pure (g.stillLoaded.record c.label .failed ("terminal stop state exists (" ++ reason ++
            ") but job is still loaded after bootout"))
        | .error error =>
          pure (g.stillLoaded.record c.label .failed ("terminal stop state exists (" ++ reason ++
            ") but bootout verification failed: " ++ error))
      | .error error =>
        pure (g.stillLoaded.record c.label .failed ("terminal stop state exists (" ++ reason ++
          ") but job could not be unloaded: " ++ error))
    else
      pure (g.record c.label .terminalBlocked ("terminal stop state: " ++ reason))

/-- A plist without a generation is left running, but never brought back. -/
def noteRecoveryBlock (reasons : TerminalReasons) (g : Progress) (c : DutyCandidate) : Progress :=
  if (reasons c.label).isSome ∨ g.loadedStates c.label = some true then g
  else
    match c.generation.recoveryBlock with
    | some reason => g.record c.label .terminalBlocked ("automatic recovery blocked: " ++ reason)
    | none => g

def eligible (reasons : TerminalReasons) (states : States) (c : DutyCandidate) : Bool :=
  (reasons c.label).isNone ∧
    (states c.label = some true ∨ c.generation.isManaged = true)

/-- The order of the candidates for the winner: the last one wins. -/
def winnerKey (states : States) (c : DutyCandidate) : Bool ×ₗ ℕ ×ₗ ℕ ×ₗ String :=
  toLex (decide (states c.label = some true),
    toLex (c.generation.rank, toLex (c.modifiedAt, c.label)))

def chooseWinner (reasons : TerminalReasons) (states : States) (group : List DutyCandidate) :
    Option DutyCandidate :=
  ((group.filter (eligible reasons states)).insertionSort
    fun left right => winnerKey states left ≤ winnerKey states right).getLast?

/-- The probes after a bootstrap: `ok true` is visible. -/
def verifyBootstrap (label : String) : ℕ → Reconcile W (Except String Bool)
  | 0 => pure (.ok false)
  | remaining + 1 => do
    match ← env.askLoaded label with
    | .ok true => pure (.ok true)
    | .ok false =>
      if 0 < remaining then env.runSleep 200
      verifyBootstrap label remaining
    | .error error => pure (.error error)

/-- Brings an unloaded winner back; the flag says whether it is now the confirmed winner. -/
def recover (winner : DutyCandidate) (g : Progress) : Reconcile W (Bool × Progress) := do
  if g.terminalStillLoaded then
    pure (false, g.record winner.label .failed
      "refusing to bootstrap while a terminal-blocked duplicate may still be loaded")
  else
    match ← env.runBootstrap winner.label winner.plistPath with
    | .error error =>
      pure (false, g.record winner.label .failed ("launchctl bootstrap failed: " ++ error))
    | .ok () =>
      match ← verifyBootstrap env winner.label 10 with
      | .error error =>
        pure (false, g.record winner.label .failed
          ("cannot verify launchd job after bootstrap: " ++ error))
      | .ok false =>
        pure (false, g.record winner.label .failed
          "bootstrap succeeded but launchd job is still not loaded")
      | .ok true =>
        let file ← env.readMarker winner.label
        match dutyBlockedReasonForGeneration file winner.label winner.generation with
        | some reason =>
          let _ ← env.runBootout winner.label
          pure (false, g.record winner.label .terminalBlocked
            ("duty entered terminal stop during recovery: " ++ reason))
        | none => pure (true, g.saw winner.label true)

def archiveLoser (winner c : DutyCandidate) (g : Progress) : Reconcile W Progress := do
  match ← env.runArchive c.label c.plistPath winner.label with
  | .ok destination =>
    pure (g.record c.label .superseded ("archived duplicate channel duty " ++ c.plistPath ++
      " -> " ++ destination ++ "; winner is " ++ winner.label))
  | .error error =>
    pure (g.record c.label .failed
      ("duplicate duty is unloaded but its plist could not be archived: " ++ error))

def clearLoser (winner : DutyCandidate) (g : Progress) (c : DutyCandidate) :
    Reconcile W Progress := do
  if g.loadedStates c.label = some true then
    match ← env.runBootout c.label with
    | .error error =>
      pure (g.record c.label .failed
        ("cannot unload duplicate channel duty before archiving: " ++ error))
    | .ok () =>
      match ← env.askLoaded c.label with
      | .ok false => archiveLoser env winner c (g.saw c.label false)
      | .ok true =>
        pure (g.record c.label .failed
          "duplicate duty is still loaded after bootout; plist was preserved")
      | .error error =>
        pure (g.record c.label .failed
          ("cannot verify duplicate duty after bootout; plist was preserved: " ++ error))
  else archiveLoser env winner c g

def settleWinner (group : List DutyCandidate) (winner : DutyCandidate) (wasLoaded : Bool)
    (g : Progress) : Reconcile W Progress := do
  let g :=
    if wasLoaded then
      g.record winner.label .healthy "kept the already-loaded channel duty as winner"
    else g.record winner.label .reloaded "reloaded missing launchd job from persisted plist"
  (group.filter fun c => c.label ≠ winner.label).foldlM (clearLoser env winner) g

def elect (group : List DutyCandidate) (reasons : TerminalReasons) (g : Progress) :
    Reconcile W Progress := do
  match chooseWinner reasons g.loadedStates group with
  | none => pure g
  | some winner =>
    if g.loadedStates winner.label = some true then settleWinner env group winner true g
    else
      let (confirmed, g) ← recover env winner g
      if confirmed then settleWinner env group winner false g else pure g

def reconcileGroup (group : List DutyCandidate) : Reconcile W (List Record) := do
  let p ← group.foldlM (probe env) {}
  if p.probeFailed then pure p.records
  else
    let reasons ← group.foldlM (terminalReason env p.disabledStates) fun _ => none
    let g ← group.foldlM (stopTerminal env reasons)
      { loadedStates := p.loadedStates, records := p.records }
    let g := group.foldl (noteRecoveryBlock reasons) g
    let g ← elect env group reasons g
    pure g.records

end Group

def unreadableRecord (c : DutyCandidate) : Option Record :=
  match c.identity with
  | .known _ => none
  | .unreadable reason => some ⟨c.label, .failed,
      "cannot determine duty instance identity; preserving it unchanged: " ++ reason⟩

def knownIdentity (c : DutyCandidate) : Option String :=
  match c.identity with
  | .known identity => some identity
  | .unreadable _ => none

/-- The keys of `by_instance`, in order. -/
def instances (candidates : List DutyCandidate) : List String :=
  ((candidates.filterMap knownIdentity).eraseDups).insertionSort (· ≤ ·)

/-- The group of an instance, oldest plist first. -/
def instanceGroup (candidates : List DutyCandidate) (identity : String) : List DutyCandidate :=
  (candidates.filter fun c => c.identity = .known identity).insertionSort fun left right =>
    toLex (left.modifiedAt, left.label) ≤ toLex (right.modifiedAt, right.label)

def reconcileInstance {W : Type} (env : Launchd W) (candidates : List DutyCandidate)
    (records : List Record) (identity : String) : Reconcile W (List Record) := do
  let more ← reconcileGroup env (instanceGroup candidates identity)
  pure (records ++ more)

def reconcileDutiesWith {W : Type} (env : Launchd W)
    (dutyCandidates : Except String DutyCandidates) :
    Reconcile W (Except String (List Record)) :=
  match dutyCandidates with
  | .error error => pure (.error error)
  | .ok candidates => do
    let records ← (instances candidates.list).foldlM (reconcileInstance env candidates.list)
      (candidates.list.filterMap unreadableRecord)
    pure (.ok records)

end DutyReconcile
end AgentParty
