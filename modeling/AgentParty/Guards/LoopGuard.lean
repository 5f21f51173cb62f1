import AgentParty.Guards.Data

/-! The loop guard: how many messages agents have sent since a human spoke, all of them and
each of them, and what `handleSend` refuses for it. -/

namespace AgentParty
namespace Guards

/-- What `GET /internal/guard` tells one agent about itself. -/
structure SelfShare where
  name : String
  limit : ℕ
  used : ℕ
  remaining : ℕ
  deriving DecidableEq

/-- The answer of `loopGuardState`; `resets_on` is always `human`. -/
structure LoopGuardState where
  enabled : Bool
  limit : ℕ
  streak : ℕ
  remaining : ℕ
  self : Option SelfShare
  deriving DecidableEq

namespace Room

def effectiveLoopGuardLimit (s : Room) : ℕ :=
  match s.settings.loopGuardLimit with
  | some (configured + 1) => min (configured + 1) 10000
  | _ => if s.settings.party then LOOP_GUARD_PARTY_N else LOOP_GUARD_N

def effectiveAgentFairShareLimit (s : Room) : ℕ :=
  if s.settings.party then LOOP_GUARD_AGENT_PARTY_N else LOOP_GUARD_AGENT_N

def selfShare (s : Room) (name : String) : SelfShare where
  name := name
  limit := s.effectiveAgentFairShareLimit
  used := s.agentCount name
  remaining := min (s.effectiveAgentFairShareLimit - s.agentCount name)
    (s.effectiveLoopGuardLimit - s.agentStreak)

def loopGuardState (s : Room) (selfName : Option String) : LoopGuardState where
  enabled := s.settings.loopGuardEnabled
  limit := s.effectiveLoopGuardLimit
  streak := s.agentStreak
  remaining := s.effectiveLoopGuardLimit - s.agentStreak
  self :=
    match selfName with
    | none => none
    | some name => if name = "" then none else some (s.selfShare name)

def globalLoopGuardMessage (s : Room) : Option String :=
  if !s.settings.loopGuardEnabled then none
  else if s.effectiveLoopGuardLimit ≤ s.agentStreak then
    some (toString s.effectiveLoopGuardLimit ++ " consecutive agent messages, waiting for a human")
  else none

def fairShareMessage (s : Room) (agentName : String) : String :=
  agentName ++ " reached its " ++ toString s.effectiveAgentFairShareLimit ++
    "-message fair-share budget since the last human message; another agent can continue, " ++
    "or a human/reset can clear it"

def loopGuardMessage (s : Room) (agentName : String) : Option String :=
  if !s.settings.loopGuardEnabled then none
  else
    match s.globalLoopGuardMessage with
    | some message => some message
    | none =>
      if s.effectiveAgentFairShareLimit ≤ s.agentCount agentName then
        some (s.fairShareMessage agentName)
      else none

def clearLoopGuardState (s : Room) : Room :=
  { s with agentStreak := 0, agentCount := fun _ => 0, loopGuardAlerted := false }

def LOOP_GUARD_TRIPPED : String := "loop guard tripped: "

def alertLoopGuard (s : Room) (message : String) (now : Int) : Room :=
  if s.loopGuardAlerted then s
  else
    { s with loopGuardAlerted := true }.insertSystemStatus (LOOP_GUARD_TRIPPED ++ message) now
      .blocked [] none

/-- A stored agent message that is no probe takes one of the channel's messages and one of
its sender's. -/
def countAgentMessage (s : Room) (name : String) : Room :=
  { s with
    agentStreak := s.agentStreak + 1
    agentCount := Function.update s.agentCount name (s.agentCount name + 1) }

end Room

end Guards
end AgentParty
