import AgentParty.Proofs.SessionView

/-! A session that has ended is not changed by its late frames, as long as it stays the last
session of its agent. -/

namespace AgentParty
namespace Web
namespace SessionOutputRing

open EventSystem (Run Guarded)

inductive Call
  | apply (name connectionId : String) (frame : SessionOutputClientFrame) (now : Int)
  | disconnect (connectionId : String) (now : Int)
  deriving DecidableEq

def next (r : SessionOutputRing) : Call → SessionOutputRing
  | .apply name connectionId frame now => (r.apply name connectionId frame now).1
  | .disconnect connectionId now => (r.disconnect connectionId now).1

def Step (r : SessionOutputRing) (call : Call) (r' : SessionOutputRing) : Prop := r' = r.next call

/-- The screen of an agent. -/
def shown (r : SessionOutputRing) (name : String) :
    Option (List SessionOutputLine × SessionOutputState) :=
  (r.sessions.get? name).map fun e => (e.lines, e.state)

/-- The rate limit of the connection drops the frame. -/
def Limited (r : SessionOutputRing) (connectionId : String) (frame : SessionOutputClientFrame)
    (now : Int) : Prop :=
  frame.state = .running ∧ (r.take connectionId now).2 = false

/-- A frame of the session finds it in its place: no other session of the agent and no eviction
came in between. -/
def InPlace (name sessionId : String) (r : SessionOutputRing) : Call → Prop
  | .apply name' connectionId frame now => name' = name → frame.sessionId = sessionId →
      (∃ e ∈ r.sessions.get? name, e.sessionId = sessionId) ∨ r.Limited connectionId frame now
  | .disconnect _ _ => True

/-- What the agent shows of the session is final. -/
def Final (name sessionId : String) (r : SessionOutputRing) : Prop :=
  ∀ e ∈ r.sessions.get? name, e.sessionId = sessionId → e.state ≠ .running

variable {r s : SessionOutputRing} {name sessionId connectionId : String}
  {frame : SessionOutputClientFrame} {now : Int}

theorem apply_limited (h : r.Limited connectionId frame now) :
    (r.apply name connectionId frame now).2 = none ∧
      (r.apply name connectionId frame now).1.sessions = r.sessions := by
  obtain ⟨hstate, htake⟩ := h
  have happly : r.apply name connectionId frame now = ((r.take connectionId now).1, none) := by
    simp [apply, hstate, htake]
  rw [happly]
  exact ⟨rfl, sessions_take r connectionId now⟩

/-- A session that has ended takes no more lines. -/
theorem apply_ended {e : SessionEntry} (hget : r.sessions.get? name = some e)
    (hsession : e.sessionId = frame.sessionId) (hstate : e.state ≠ .running) :
    (r.apply name connectionId frame now).2 = none ∧
      (r.apply name connectionId frame now).1.sessions = r.sessions := by
  have hfound : (r.sessions.get? name).filter (fun e => e.sessionId = frame.sessionId) = some e :=
    Option.filter_eq_some_iff.2 ⟨hget, decide_eq_true hsession⟩
  by_cases hterminal : frame.state = .running
  · by_cases htake : (r.take connectionId now).2 = true
    · have happly : r.apply name connectionId frame now = ((r.take connectionId now).1, none) := by
        simp [apply, hterminal, htake, sessions_take, hfound, hstate]
      rw [happly]
      exact ⟨rfl, sessions_take r connectionId now⟩
    · exact apply_limited ⟨hterminal, by simpa using htake⟩
  · have happly : r.apply name connectionId frame now = (r, none) := by
      simp [apply, hterminal, hfound, hstate]
    rw [happly]
    exact ⟨rfl, rfl⟩

theorem apply_final (h : r.Final name sessionId) (hframe : frame.sessionId = sessionId)
    (hplace : r.InPlace name sessionId (.apply name connectionId frame now)) :
    (r.apply name connectionId frame now).2 = none ∧
      (r.apply name connectionId frame now).1.sessions = r.sessions := by
  rcases hplace rfl hframe with ⟨e, he, hsession⟩ | hlimited
  · exact apply_ended he (hsession.trans hframe.symm) (h e he hsession)
  · exact apply_limited hlimited

theorem Final.step {call : Call} {r' : SessionOutputRing} (h : r.Final name sessionId)
    (hs : Guarded Step (InPlace name sessionId) r call r') : r'.Final name sessionId := by
  obtain ⟨rfl, hplace⟩ := hs
  intro e he hsession
  cases call with
  | apply name' connectionId frame now =>
    by_cases hlate : name' = name ∧ frame.sessionId = sessionId
    · obtain ⟨rfl, hframe⟩ := hlate
      rw [next, (apply_final h hframe hplace).2] at he
      exact h e he hsession
    obtain ⟨hmem, rfl⟩ := Table.get?_eq_some.1 he
    rcases r.apply_cases name' connectionId frame now with ⟨-, hsame⟩ |
      ⟨entry, hname, hid, -, -, hsessions⟩
    · exact h e (Table.get?_key (hsame ▸ hmem)) hsession
    · rcases hsessions e hmem with rfl | ⟨hold, -⟩
      · exact absurd ⟨hname.symm, hid.symm.trans hsession⟩ hlate
      · exact h e (Table.get?_key hold) hsession
  | disconnect connectionId now =>
    obtain ⟨hmem, hname⟩ := Table.get?_eq_some.1 he
    obtain ⟨e₀, he₀, rfl⟩ := List.mem_map.1 hmem
    split_ifs at hname hsession ⊢
    · exact fun hrunning => nomatch hrunning
    · exact h e₀ (Table.get?_eq_some.2 ⟨he₀, hname⟩) hsession

/-- Once a session has ended, its frames announce nothing and leave the screen of the agent as
it is, as long as each of them finds the session in its place. -/
theorem ended_session_frozen {calls : List Call} {entry : SessionEntry}
    (hentry : r.sessions.get? name = some entry) (hstate : entry.state ≠ .running)
    (hrun : Run (Guarded Step (InPlace name entry.sessionId)) r calls s)
    (hframe : frame.sessionId = entry.sessionId)
    (hplace : s.InPlace name entry.sessionId (.apply name connectionId frame now)) :
    (s.apply name connectionId frame now).2 = none ∧
      (s.apply name connectionId frame now).1.shown name = s.shown name := by
  have hbegin : r.Final name entry.sessionId := by
    intro e he _
    rw [hentry, Option.mem_some_iff] at he
    exact he ▸ hstate
  have hfinal : s.Final name entry.sessionId :=
    hrun.invariant (fun _ _ _ h hs => h.step hs) hbegin
  obtain ⟨hnone, hsame⟩ := apply_final hfinal hframe hplace
  exact ⟨hnone, by rw [shown, hsame, shown]⟩

def report (sessionId : String) (state : SessionOutputState) (text : String) :
    SessionOutputClientFrame :=
  ⟨sessionId, none, state, [⟨.stdout, text, 0⟩]⟩

instance (name sessionId : String) (r : SessionOutputRing) :
    (call : Call) → Decidable (InPlace name sessionId r call)
  | .apply _ _ _ _ => inferInstanceAs
      (Decidable (_ → _ → (∃ e ∈ r.sessions.get? name, _ = _) ∨ _ = _ ∧ _ = _))
  | .disconnect _ _ => inferInstanceAs (Decidable True)

/-- A ring with a session of `bot` that is over. -/
def overRing : SessionOutputRing :=
  (load Table.empty).next (.apply "bot" "c1" (report "run-1" .done "the end") 1)

def overEntry : SessionEntry :=
  ⟨"bot", "run-1", none, .done, [⟨.stdout, "the end", 0⟩], "c1", 1⟩

def lateCalls : List Call :=
  [.apply "bot" "c1" (report "run-1" .running "late") 2, .disconnect "c1" 3]

theorem ended_session_frozen_late : ∃ s, Run Step overRing lateCalls s ∧
    (s.apply "bot" "c1" (report "run-1" .done "later") 4).1.shown "bot" = s.shown "bot" := by
  have hready : EventSystem.AllReady (InPlace "bot" "run-1") next overRing lateCalls := by
    decide
  have hrun : Run (Guarded Step (InPlace "bot" "run-1")) overRing lateCalls
      (lateCalls.foldl next overRing) :=
    EventSystem.run_of_ready (fun _ _ h => ⟨rfl, h⟩) hready
  have hentry : overRing.sessions.get? "bot" = some overEntry := by decide
  exact ⟨_, hrun.of_guarded,
    (ended_session_frozen hentry (by decide) hrun rfl (by decide +kernel)).2⟩

/-- A session that has begun since is replaced by the late frame of the one that is over. -/
theorem ended_session_returns : ¬ ∀ stored calls r, Run Step (load stored) calls r →
    ∀ name entry, r.sessions.get? name = some entry → entry.state ≠ .running →
      ∀ calls' s, Run Step r calls' s → ∀ connectionId frame now,
        frame.sessionId = entry.sessionId →
          (s.apply name connectionId frame now).1.shown name = s.shown name := by
  intro h
  let begun : List Call := [.apply "bot" "c2" (report "run-2" .running "new") 2]
  have hover : Run Step (load Table.empty)
      [.apply "bot" "c1" (report "run-1" .done "the end") 1] overRing := Run.single rfl
  have hbegun : Run Step overRing begun (begun.foldl next overRing) :=
    Run.single rfl
  have hshown := h _ _ _ hover "bot" overEntry (by decide) (by decide) begun _ hbegun
    "c1" (report "run-1" .running "late") 3 rfl
  exact absurd hshown (by decide +kernel)

end SessionOutputRing
end Web
end AgentParty
