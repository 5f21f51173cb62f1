import AgentParty.Web.State

/-! A removed member is shown nowhere on the page, and only a roster that names it or a
restoration lifts the removal. -/

namespace AgentParty
namespace Web
namespace ChannelState

def Removed (state : ChannelState) (name : String) : Prop :=
  ∃ removed ∈ state.removedParticipants, removed.name = name

structure Absent (state : ChannelState) (name : String) : Prop where
  participants : name ∉ state.participants
  presence : name ∉ state.presence
  liveSessions : ∀ session ∈ state.liveSessions, session.name ≠ name
  ocsRosters : ∀ roster ∈ state.ocsRosters, roster.name ≠ name

/-- Every removed member is shown nowhere. -/
def Cleared (state : ChannelState) : Prop := ∀ name, state.Removed name → state.Absent name

/-- The actions that lift the removal of a name. -/
def Restores (name : String) : ChannelAction → Prop
  | .frame (.welcome participants _) => name ∈ participants
  | .frame (.participants participants) => name ∈ participants
  | .participantRestored name' => name' = name
  | _ => False

variable {state : ChannelState} {name : String}

theorem isSome_removed :
    (state.removedParticipants.get? name).isSome = true ↔ state.Removed name := by
  rw [Option.isSome_iff_exists]
  simp only [Table.get?_eq_some, Removed]

/-- The members of `removedParticipants` after some of them are restored. -/
theorem removed_delete {p : RemovedParticipant → Bool} :
    (∃ removed ∈ state.removedParticipants.delete p, removed.name = name) →
      state.Removed name := by
  rintro ⟨removed, hmem, rfl⟩
  exact ⟨removed, (Table.mem_delete.1 hmem).1, rfl⟩

section Frames

theorem cleared_welcomed (participants presence : List String) :
    (welcomed state participants presence).Cleared := by
  intro name hremoved
  have hsome : ((welcomed state participants presence).removedParticipants.get? name).isSome :=
    isSome_removed.2 hremoved
  have hkept : ∀ {names : List String}, name ∉ names.filter fun name' =>
      !((welcomed state participants presence).removedParticipants.get? name').isSome := by
    intro names hmem
    rw [List.mem_filter, hsome] at hmem
    exact nomatch hmem.2
  refine ⟨hkept, hkept, fun session hmem heq => ?_, fun roster hmem => ?_⟩
  · have hleft := (Table.mem_delete.1 hmem).2
    rw [heq] at hleft
    exact nomatch hsome.symm.trans (Bool.or_eq_false_iff.1 hleft).2
  · exact absurd hmem (Table.not_mem_empty roster)

theorem Cleared.participants (h : state.Cleared) (participants : List String) :
    (applyFrame state (.participants participants)).Cleared := by
  rintro name hremoved
  have hbefore : state.Absent name := h name (removed_delete hremoved)
  obtain ⟨removed, hmem, rfl⟩ := hremoved
  have hunnamed : removed.name ∉ participants := by
    simpa using (Table.mem_delete.1 hmem).2
  exact ⟨hunnamed, hbefore.presence, hbefore.liveSessions, hbefore.ocsRosters⟩

/-- Nothing is left to do only if the name has been removed already. -/
theorem Cleared.participantRemoved (h : state.Cleared) (name : String) (removedAt : Int) :
    (participantRemoved state name removedAt).Cleared := by
  intro name' hremoved
  rw [Web.participantRemoved] at hremoved ⊢
  split_ifs at hremoved ⊢ with hnothing
  · exact h name' hremoved
  have hbefore : name' ≠ name → state.Absent name' := by
    intro hne
    obtain ⟨removed, hmem, rfl⟩ := hremoved
    rcases Table.mem_put.1 hmem with rfl | ⟨hold, -⟩
    · exact absurd rfl hne
    · exact h _ ⟨removed, hold, rfl⟩
  refine ⟨fun hmem => ?_, fun hmem => ?_, fun session hmem heq => ?_, fun roster hmem heq => ?_⟩
  · obtain ⟨hold, hne⟩ := List.mem_filter.1 hmem
    exact (hbefore (by simpa using hne)).participants hold
  · obtain ⟨hold, hne⟩ := List.mem_filter.1 hmem
    exact (hbefore (by simpa using hne)).presence hold
  · obtain ⟨hold, hne⟩ := Table.mem_delete.1 hmem
    exact (hbefore (by simpa [heq] using hne)).liveSessions session hold heq
  · obtain ⟨hold, hne⟩ := Table.mem_delete.1 hmem
    exact (hbefore (by simpa [heq] using hne)).ocsRosters roster hold heq

theorem Cleared.presence (h : state.Cleared) (name : String) :
    (applyFrame state (.presence name)).Cleared := by
  rw [applyFrame]
  split_ifs with hremoved
  · exact h
  rw [isSome_removed] at hremoved
  intro name' hremoved'
  have hbefore := h name' hremoved'
  refine { hbefore with presence := fun hmem => ?_ }
  rcases List.mem_cons.1 hmem with rfl | hold
  · exact hremoved hremoved'
  · exact hbefore.presence (List.mem_filter.1 hold).1

theorem Cleared.ocsRoster (h : state.Cleared) (frame : OcsRosterFrame) :
    (applyOcsRoster state frame).Cleared := by
  rw [applyOcsRoster]
  split_ifs with hframe hclears hnone
  · exact h
  · exact h
  · intro name hremoved
    have hbefore := h name hremoved
    exact { hbefore with
      ocsRosters := fun roster hmem => hbefore.ocsRosters roster (Table.mem_delete.1 hmem).1 }
  · rw [Bool.or_eq_true, isSome_removed, not_or] at hclears
    intro name hremoved
    have hbefore := h name hremoved
    refine { hbefore with ocsRosters := fun roster hmem heq => ?_ }
    rcases Table.mem_put.1 hmem with rfl | ⟨hold, -⟩
    · exact hclears.2 (heq ▸ hremoved)
    · exact hbefore.ocsRosters roster hold heq

theorem Cleared.sessionOutput (h : state.Cleared) (frame : SessionOutputFrame) :
    (applySessionOutput state frame).Cleared := by
  rw [applySessionOutput]
  split_ifs with hremoved
  · exact h
  rw [isSome_removed] at hremoved
  split
  · exact h
  · intro name hremoved'
    have hbefore := h name hremoved'
    refine { hbefore with liveSessions := fun session hmem heq => ?_ }
    rcases Table.mem_put.1 hmem with rfl | ⟨hold, -⟩
    · exact hremoved ((show frame.name = name from heq) ▸ hremoved')
    · exact hbefore.liveSessions session hold heq

/-- A frame that leaves the roster, the sessions and the removals alone. -/
theorem Cleared.congr (h : state.Cleared) {messages : List MsgFrame}
    {directedDeliveries : DirectedDeliveries} :
    Cleared { state with messages := messages, directedDeliveries := directedDeliveries } :=
  fun name hremoved =>
    let hbefore := h name hremoved
    ⟨hbefore.participants, hbefore.presence, hbefore.liveSessions, hbefore.ocsRosters⟩

end Frames

theorem Cleared.step (h : state.Cleared) (action : ChannelAction) :
    (channelReducer state action).Cleared := by
  cases action with
  | participantRestored name =>
    intro name' hremoved
    have hbefore := h name' (removed_delete hremoved)
    exact ⟨hbefore.participants, hbefore.presence, hbefore.liveSessions, hbefore.ocsRosters⟩
  | trim keep => exact h.congr
  | status | fatal | guardReset | sendFailed => exact h
  | frame frame =>
    cases frame with
    | welcome participants presence => exact cleared_welcomed participants presence
    | participants participants => exact h.participants participants
    | participantRemoved name removedAt => exact h.participantRemoved name removedAt
    | presence name => exact h.presence name
    | ocsRoster frame => exact h.ocsRoster frame
    | sessionOutput frame => exact h.sessionOutput frame
    | msg frame => exact h.congr
    | messageUpdate message => exact h.congr
    | delivery delivery message => exact h.congr
    | deliveryState delivery => exact h.congr
    | readCursor | sent | error | pong => exact h

/-- Only the actions that restore the name lift its removal. -/
theorem Removed.step (h : state.Removed name) {action : ChannelAction}
    (haction : ¬ Restores name action) : (channelReducer state action).Removed name := by
  obtain ⟨removed, hmem, rfl⟩ := h
  cases action with
  | participantRestored name =>
    exact ⟨removed, Table.mem_delete.2 ⟨hmem, decide_eq_false (Ne.symm haction)⟩, rfl⟩
  | trim keep => exact ⟨removed, hmem, rfl⟩
  | status | fatal | guardReset | sendFailed => exact ⟨removed, hmem, rfl⟩
  | frame frame =>
    cases frame with
    | welcome participants presence =>
      have hunnamed : removed.name ∉ participants := haction
      exact ⟨removed, Table.mem_delete.2 ⟨hmem, by simpa using hunnamed⟩, rfl⟩
    | participants participants =>
      have hunnamed : removed.name ∉ participants := haction
      exact ⟨removed, Table.mem_delete.2 ⟨hmem, by simpa using hunnamed⟩, rfl⟩
    | participantRemoved name removedAt =>
      dsimp only [channelReducer, applyFrame, Web.participantRemoved]
      split_ifs
      · exact ⟨removed, hmem, rfl⟩
      by_cases hname : removed.name = name
      · exact ⟨_, Table.mem_put.2 (Or.inl rfl), hname.symm⟩
      · exact ⟨removed, Table.mem_put.2 (Or.inr ⟨hmem, hname⟩), rfl⟩
    | presence name =>
      dsimp only [channelReducer, applyFrame]
      split_ifs <;> exact ⟨removed, hmem, rfl⟩
    | ocsRoster frame =>
      dsimp only [channelReducer, applyFrame, applyOcsRoster]
      split_ifs <;> exact ⟨removed, hmem, rfl⟩
    | sessionOutput frame =>
      dsimp only [channelReducer, applyFrame, applySessionOutput]
      split_ifs
      · exact ⟨removed, hmem, rfl⟩
      · split <;> exact ⟨removed, hmem, rfl⟩
    | msg frame | messageUpdate message | deliveryState delivery => exact ⟨removed, hmem, rfl⟩
    | delivery delivery message => exact ⟨removed, hmem, rfl⟩
    | readCursor | sent | error | pong => exact ⟨removed, hmem, rfl⟩

/-- On every page a removed member is shown nowhere, and it stays so until a roster names it or
it is restored. -/
theorem removed_members_stay_removed (actions : List ChannelAction) :
    (∀ name, (actions.foldl channelReducer initialChannelState).Removed name →
      (actions.foldl channelReducer initialChannelState).Absent name) ∧
    ∀ late name, (actions.foldl channelReducer initialChannelState).Removed name →
      (∀ action ∈ late, ¬ Restores name action) →
        ((actions ++ late).foldl channelReducer initialChannelState).Removed name ∧
        ((actions ++ late).foldl channelReducer initialChannelState).Absent name := by
  have hcleared : ∀ actions : List ChannelAction,
      (actions.foldl channelReducer initialChannelState).Cleared := by
    intro actions
    refine List.foldlRecOn (motive := Cleared) actions channelReducer ?_
      fun state h action _ => h.step action
    rintro name ⟨removed, hmem, -⟩
    exact absurd hmem (Table.not_mem_empty removed)
  refine ⟨hcleared actions, fun late name hremoved hlate => ?_⟩
  have hstays : ((actions ++ late).foldl channelReducer initialChannelState).Removed name := by
    rw [List.foldl_append]
    exact List.foldlRecOn (motive := fun state => state.Removed name) late channelReducer hremoved
      fun state h action haction => h.step (hlate action haction)
  exact ⟨hstays, hcleared _ name hstays⟩

example : ([.frame (.participants ["bot"]), .frame (.participantRemoved "bot" 1),
    .frame (.presence "bot")].foldl channelReducer initialChannelState).presence = [] := by
  decide

end ChannelState
end Web
end AgentParty
