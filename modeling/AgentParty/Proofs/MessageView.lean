import AgentParty.Lib.Run
import AgentParty.Web.State
import Mathlib.Data.List.Infix

/-! The messages of a page. `Viewer` keeps beside the state every frame received for a message
that is still loaded; `Timely` is when a frame leaves the page with the newest of them. -/

namespace AgentParty
namespace Web

open EventSystem

/-- The place of the frame in the revisions of its message; without `rev_seq` it is the
original. -/
def revision (m : MsgFrame) : ℕ :=
  match m.revSeq with
  | none => 0
  | some r => r + 1

def Ascending (messages : List MsgFrame) : Prop := messages.Pairwise fun a b => a.seq < b.seq

instance (messages : List MsgFrame) : Decidable (Ascending messages) :=
  inferInstanceAs (Decidable (List.Pairwise _ _))

theorem ascending_nil : Ascending [] := List.Pairwise.nil

section Insert

variable {messages : List MsgFrame} {msg : MsgFrame}

theorem insertIdx_between (below above : List MsgFrame) (msg : MsgFrame) :
    (below ++ above).insertIdx below.length msg = below ++ msg :: above := by
  induction below with
  | nil => rfl
  | cons m below ih => simpa using ih

/-- What `insertMessage` gives: the frame stands in a gap, or decides with the one shown. -/
inductive Inserted (messages : List MsgFrame) (msg : MsgFrame) : List MsgFrame → Prop
  | gap (below above : List MsgFrame) (h : messages = below ++ above)
      (hbelow : ∀ m ∈ below, m.seq < msg.seq) (habove : ∀ m ∈ above, msg.seq < m.seq) :
      Inserted messages msg (below ++ msg :: above)
  | shown (below above : List MsgFrame) (prev : MsgFrame) (h : messages = below ++ prev :: above)
      (hseq : prev.seq = msg.seq) : Inserted messages msg
        (below ++ (if isRevisionSnapshot msg || isRevisionSnapshot prev then msg else prev) :: above)

theorem insertBelow_spec (msg : MsgFrame) (below above : List MsgFrame)
    (h : Ascending (below ++ above)) (habove : ∀ m ∈ above, msg.seq < m.seq) :
    Inserted (below ++ above) msg (insertBelow (below ++ above) msg below.length) := by
  induction below using List.reverseRecOn generalizing above with
  | nil => exact Inserted.gap [] above rfl nofun habove
  | append_singleton below prev ih =>
    have hget : (below ++ [prev] ++ above)[below.length]? = some prev := by simp
    rw [List.length_append, List.length_singleton, insertBelow, hget]
    dsimp only
    have hlist : below ++ [prev] ++ above = below ++ prev :: above := by simp
    split_ifs with hseq hrev hlt
    · have hset : (below ++ [prev] ++ above).set below.length msg = below ++ msg :: above := by
        simp
      have := Inserted.shown below above prev hlist hseq
      rwa [if_pos hrev, ← hset] at this
    · have := Inserted.shown below above prev hlist hseq
      rwa [if_neg hrev, ← hlist] at this
    · have hinsert := insertIdx_between (below ++ [prev]) above msg
      rw [List.length_append, List.length_singleton] at hinsert
      rw [hinsert]
      refine Inserted.gap (below ++ [prev]) above rfl ?_ habove
      intro m hm
      rw [Ascending, List.pairwise_append] at h
      rcases List.mem_append.1 hm with hm | hm
      · exact ((List.pairwise_append.1 h.1).2.2 m hm prev List.mem_cons_self).trans hlt
      · obtain rfl := List.mem_singleton.1 hm
        exact hlt
    · rw [hlist] at h ⊢
      refine ih (prev :: above) h ?_
      intro m hm
      rcases List.mem_cons.1 hm with rfl | hm
      · omega
      · exact habove m hm

theorem insertMessage_spec (h : Ascending messages) :
    Inserted messages msg (insertMessage messages msg) := by
  have := insertBelow_spec msg messages [] (by simpa using h) nofun
  simpa [insertMessage] using this

theorem ascending_iff : Ascending messages ↔ (messages.map (·.seq)).Pairwise (· < ·) :=
  List.pairwise_map.symm

theorem Inserted.ascending {messages' : List MsgFrame} (h : Inserted messages msg messages')
    (hasc : Ascending messages) : Ascending messages' := by
  cases h with
  | gap below above h hbelow habove =>
    subst h
    rw [Ascending, List.pairwise_append] at hasc ⊢
    refine ⟨hasc.1, List.pairwise_cons.2 ⟨habove, hasc.2.1⟩, fun a ha b hb => ?_⟩
    rcases List.mem_cons.1 hb with rfl | hb
    · exact hbelow a ha
    · exact hasc.2.2 a ha b hb
  | shown below above prev h hseq =>
    subst h
    rw [ascending_iff] at hasc ⊢
    split_ifs
    · simpa only [List.map_append, List.map_cons, hseq] using hasc
    · exact hasc

/-- What `replaceMessage` gives when the message is shown. -/
theorem replaceMessage_shown {below above : List MsgFrame} {prev : MsgFrame}
    (hasc : Ascending (below ++ prev :: above)) (hseq : prev.seq = msg.seq) :
    replaceMessage (below ++ prev :: above) msg = below ++ msg :: above := by
  have hother : ∀ l : List MsgFrame, (∀ m ∈ l, m.seq ≠ msg.seq) →
      (l.map fun m => if m.seq = msg.seq then msg else m) = l := by
    intro l hl
    exact (List.map_congr_left fun m hm => if_neg (hl m hm)).trans (List.map_id l)
  rw [Ascending, List.pairwise_append, List.pairwise_cons] at hasc
  have hbelow : ∀ m ∈ below, m.seq ≠ msg.seq := fun m hm =>
    hseq ▸ (hasc.2.2 m hm prev List.mem_cons_self).ne
  have habove : ∀ m ∈ above, m.seq ≠ msg.seq := fun m hm => hseq ▸ (hasc.2.1.1 m hm).ne'
  rw [replaceMessage, if_pos (by simp [hseq]), List.map_append, List.map_cons, if_pos hseq,
    hother below hbelow, hother above habove]

theorem replaceMessage_missing (h : ∀ m ∈ messages, m.seq ≠ msg.seq) :
    replaceMessage messages msg = insertMessage messages msg :=
  if_neg (by simpa using h)

end Insert

/-- Each message shown is the newest frame received for it, and none is missing. -/
structure Shows (messages received : List MsgFrame) : Prop where
  newest : ∀ m ∈ messages, m ∈ received ∧
    ∀ m' ∈ received, m'.seq = m.seq → revision m' ≤ revision m
  shown : ∀ m ∈ received, ∃ m' ∈ messages, m'.seq = m.seq

section Frames

variable {messages received below above : List MsgFrame} {msg prev : MsgFrame}

theorem Ascending.eq_of_seq (h : Ascending messages) {a b : MsgFrame} (ha : a ∈ messages)
    (hb : b ∈ messages) (hseq : a.seq = b.seq) : a = b := by
  have hnodup : (messages.map (·.seq)).Nodup := List.pairwise_map.2 (h.imp fun hlt => hlt.ne)
  exact List.inj_on_of_nodup_map hnodup ha hb hseq

theorem mem_middle {m : MsgFrame} : m ∈ below ++ msg :: above ↔ m = msg ∨ m ∈ below ++ above := by
  simp only [List.mem_append, List.mem_cons]
  exact or_left_comm

theorem Shows.gap (h : Shows (below ++ above) received)
    (hbelow : ∀ m ∈ below, m.seq < msg.seq) (habove : ∀ m ∈ above, msg.seq < m.seq) :
    Shows (below ++ msg :: above) (msg :: received) := by
  have hnone : ∀ m ∈ below ++ above, m.seq ≠ msg.seq := by
    intro m hm
    rcases List.mem_append.1 hm with hm | hm
    · exact (hbelow m hm).ne
    · exact (habove m hm).ne'
  constructor
  · intro m hm
    rcases mem_middle.1 hm with rfl | hold
    · refine ⟨List.mem_cons_self, fun m' hm' hseq => ?_⟩
      rcases List.mem_cons.1 hm' with rfl | hm'
      · exact le_rfl
      · obtain ⟨p, hp, hps⟩ := h.shown m' hm'
        exact absurd (hps.trans hseq) (hnone p hp)
    · obtain ⟨hr, hnew⟩ := h.newest m hold
      refine ⟨List.mem_cons_of_mem _ hr, fun m' hm' hseq => ?_⟩
      rcases List.mem_cons.1 hm' with rfl | hm'
      · exact absurd hseq.symm (hnone m hold)
      · exact hnew m' hm' hseq
  · intro m hm
    rcases List.mem_cons.1 hm with rfl | hm
    · exact ⟨m, mem_middle.2 (Or.inl rfl), rfl⟩
    · obtain ⟨p, hp, hps⟩ := h.shown m hm
      exact ⟨p, mem_middle.2 (Or.inr hp), hps⟩

/-- A frame that is ignored was not newer than the one shown. -/
theorem Shows.ignored (hasc : Ascending messages) (h : Shows messages received)
    (hprev : prev ∈ messages) (hseq : prev.seq = msg.seq) :
    Shows messages (msg :: received) ↔ revision msg ≤ revision prev := by
  constructor
  · intro h'
    exact (h'.newest prev hprev).2 msg List.mem_cons_self hseq.symm
  · intro hle
    refine ⟨fun m hm => ⟨List.mem_cons_of_mem _ (h.newest m hm).1, fun m' hm' hs => ?_⟩,
      fun m hm => ?_⟩
    · rcases List.mem_cons.1 hm' with rfl | hm'
      · rwa [hasc.eq_of_seq hm hprev (hs.symm.trans hseq.symm)]
      · exact (h.newest m hm).2 m' hm' hs
    · rcases List.mem_cons.1 hm with rfl | hm
      · exact ⟨prev, hprev, hseq⟩
      · exact h.shown m hm

/-- A frame that takes the place of the one shown was not older. -/
theorem Shows.replaced (hasc : Ascending (below ++ prev :: above))
    (h : Shows (below ++ prev :: above) received) (hseq : prev.seq = msg.seq) :
    Shows (below ++ msg :: above) (msg :: received) ↔ revision prev ≤ revision msg := by
  have hprev : prev ∈ below ++ prev :: above := by simp
  have hmsg : msg ∈ below ++ msg :: above := by simp
  constructor
  · intro h'
    exact (h'.newest msg hmsg).2 prev (List.mem_cons_of_mem _ (h.newest prev hprev).1) hseq
  · intro hle
    have hother : ∀ m ∈ below ++ above, m ∈ below ++ prev :: above ∧ m.seq ≠ msg.seq := by
      intro m hm
      have hold : m ∈ below ++ prev :: above := by
        rw [List.mem_append] at hm ⊢
        exact hm.imp_right (List.mem_cons_of_mem _)
      refine ⟨hold, fun hs => ?_⟩
      obtain rfl := hasc.eq_of_seq hold hprev (hs.trans hseq.symm)
      rw [Ascending, List.pairwise_append] at hasc
      rcases List.mem_append.1 hm with hm | hm
      · exact (hasc.2.2 m hm m List.mem_cons_self).ne rfl
      · exact ((List.pairwise_cons.1 hasc.2.1).1 m hm).ne rfl
    constructor
    · intro m hm
      rcases mem_middle.1 hm with rfl | hmid
      · refine ⟨List.mem_cons_self, fun m' hm' hs => ?_⟩
        rcases List.mem_cons.1 hm' with rfl | hm'
        · exact le_rfl
        · exact ((h.newest prev hprev).2 m' hm' (hs.trans hseq.symm)).trans hle
      · obtain ⟨hold, hne⟩ := hother m hmid
        refine ⟨List.mem_cons_of_mem _ (h.newest m hold).1, fun m' hm' hs => ?_⟩
        rcases List.mem_cons.1 hm' with rfl | hm'
        · exact absurd hs.symm hne
        · exact (h.newest m hold).2 m' hm' hs
    · intro m hm
      rcases List.mem_cons.1 hm with rfl | hm
      · exact ⟨m, hmsg, rfl⟩
      · obtain ⟨p, hp, hps⟩ := h.shown m hm
        rcases mem_middle.1 hp with rfl | hp
        · exact ⟨msg, hmsg, hseq.symm.trans hps⟩
        · exact ⟨p, mem_middle.2 (Or.inr hp), hps⟩

theorem Shows.dropped (hnone : ∀ m ∈ messages, m.seq ≠ msg.seq) :
    ¬ Shows messages (msg :: received) := by
  intro h
  obtain ⟨m, hm, hseq⟩ := h.shown msg List.mem_cons_self
  exact hnone m hm hseq

theorem Inserted.shows {messages' : List MsgFrame} (hins : Inserted messages msg messages')
    (hasc : Ascending messages) (h : Shows messages received) :
    Shows messages' (msg :: received) ↔ ∀ prev ∈ messages, prev.seq = msg.seq →
      if isRevisionSnapshot msg || isRevisionSnapshot prev then revision prev ≤ revision msg
      else revision msg ≤ revision prev := by
  cases hins with
  | gap below above hm hbelow habove =>
    subst hm
    refine iff_of_true (h.gap hbelow habove) fun prev hprev hseq => ?_
    rcases List.mem_append.1 hprev with hprev | hprev
    · exact absurd hseq (hbelow prev hprev).ne
    · exact absurd hseq (habove prev hprev).ne'
  | shown below above prev hm hseq =>
    subst hm
    have hprev : prev ∈ below ++ prev :: above := by simp
    have hall : (∀ m ∈ below ++ prev :: above, m.seq = msg.seq →
        if isRevisionSnapshot msg || isRevisionSnapshot m then revision m ≤ revision msg
        else revision msg ≤ revision m) ↔
        if isRevisionSnapshot msg || isRevisionSnapshot prev then revision prev ≤ revision msg
        else revision msg ≤ revision prev := by
      refine ⟨fun hm => hm prev hprev hseq, fun hle m hm hs => ?_⟩
      rwa [hasc.eq_of_seq hm hprev (hs.trans hseq.symm)]
    rw [hall]
    split_ifs
    · exact h.replaced hasc hseq
    · exact h.ignored hasc hprev hseq

theorem shows_replaceMessage (hasc : Ascending messages) (h : Shows messages received) :
    Shows (replaceMessage messages msg) (msg :: received) ↔
      ∀ prev ∈ messages, prev.seq = msg.seq → revision prev ≤ revision msg := by
  by_cases hany : ∃ prev ∈ messages, prev.seq = msg.seq
  · obtain ⟨prev, hprev, hseq⟩ := hany
    obtain ⟨below, above, rfl⟩ := List.append_of_mem hprev
    rw [replaceMessage_shown hasc hseq, h.replaced hasc hseq]
    refine ⟨fun hle m hm hs => ?_, fun hm => hm prev hprev hseq⟩
    rwa [hasc.eq_of_seq hm hprev (hs.trans hseq.symm)]
  · push Not at hany
    rw [replaceMessage_missing hany, (insertMessage_spec hasc).shows hasc h]
    exact iff_of_true (fun m hm hs => absurd hs (hany m hm)) fun m hm hs => absurd hs (hany m hm)

/-- Below the window nothing is looked up. -/
theorem not_loaded_of_below_floor (hasc : Ascending messages)
    (hfloor : (messages.head?.any fun floor => msg.seq < floor.seq) = true) :
    ∀ m ∈ messages, m.seq ≠ msg.seq := by
  cases messages with
  | nil => simp at hfloor
  | cons floor above =>
    have hlt : msg.seq < floor.seq := by simpa using hfloor
    intro m hm
    rcases List.mem_cons.1 hm with rfl | hm
    · exact hlt.ne'
    · exact (hlt.trans ((List.pairwise_cons.1 hasc).1 m hm)).ne'

theorem shows_withDeliveryMessage (hasc : Ascending messages) (h : Shows messages received) :
    Shows (withDeliveryMessage messages msg) (msg :: received) ↔
      (∀ floor ∈ messages.head?, floor.seq ≤ msg.seq) ∧
        ∀ prev ∈ messages, prev.seq = msg.seq → revision msg ≤ revision prev := by
  have hfloor : (∀ floor ∈ messages.head?, floor.seq ≤ msg.seq) ↔
      ¬ (messages.head?.any fun floor => msg.seq < floor.seq) = true := by
    cases messages.head? <;> simp
  rw [withDeliveryMessage, hfloor]
  split_ifs with hany hbelow
  · obtain ⟨prev, hprev, hseq⟩ : ∃ prev ∈ messages, prev.seq = msg.seq := by simpa using hany
    rw [h.ignored hasc hprev hseq]
    constructor
    · intro hle
      refine ⟨fun hbelow => not_loaded_of_below_floor hasc hbelow prev hprev hseq, ?_⟩
      intro m hm hs
      rwa [hasc.eq_of_seq hm hprev (hs.trans hseq.symm)]
    · exact fun hm => hm.2 prev hprev hseq
  · refine iff_of_false (Shows.dropped (not_loaded_of_below_floor hasc hbelow)) ?_
    exact fun hm => hm.1 hbelow
  · have hnone : ∀ m ∈ messages, m.seq ≠ msg.seq := by simpa using hany
    rw [(insertMessage_spec hasc).shows hasc h]
    exact iff_of_true (fun m hm hs => absurd hs (hnone m hm))
      ⟨hbelow, fun m hm hs => absurd hs (hnone m hm)⟩

theorem withDeliveryMessage_ascending (hasc : Ascending messages) :
    Ascending (withDeliveryMessage messages msg) := by
  rw [withDeliveryMessage]
  split_ifs
  · exact hasc
  · exact hasc
  · exact insertMessage_spec hasc |>.ascending hasc

theorem replaceMessage_ascending (hasc : Ascending messages) :
    Ascending (replaceMessage messages msg) := by
  rw [replaceMessage]
  split_ifs with hany
  · rw [ascending_iff, List.map_map] at *
    convert hasc using 1
    refine List.map_congr_left fun m _ => ?_
    dsimp only [Function.comp]
    split_ifs with hm
    · exact hm.symm
    · rfl
  · exact insertMessage_spec hasc |>.ascending hasc

end Frames

section Reducer

/-- The frame of a message that the action carries. -/
def messageOf : ChannelAction → Option MsgFrame
  | .frame (.msg msg) => some msg
  | .frame (.messageUpdate msg) => some msg
  | .frame (.delivery _ msg) => some msg
  | _ => none

structure Viewer where
  state : ChannelState
  received : List MsgFrame

namespace Viewer

def fresh : Viewer := ⟨initialChannelState, []⟩

/-- The frames received for a message that leaves the window with a trim are forgotten. -/
def next (v : Viewer) (action : ChannelAction) : Viewer :=
  let state := channelReducer v.state action
  match action with
  | .trim _ =>
    let loaded (messages : List MsgFrame) (m : MsgFrame) : Bool :=
      messages.any fun m' => m'.seq = m.seq
    ⟨state, v.received.filter fun m => !(loaded v.state.messages m && !loaded state.messages m)⟩
  | .participantRestored _ | .status | .fatal | .guardReset | .sendFailed => ⟨state, v.received⟩
  | .frame _ => ⟨state, (messageOf action).toList ++ v.received⟩

@[simp] theorem next_state (v : Viewer) (action : ChannelAction) :
    (v.next action).state = channelReducer v.state action := by
  cases action <;> rfl

def Current (v : Viewer) : Prop := Shows v.state.messages v.received

/-- When the frame leaves the newest one in its place: the frame that `insertMessage` puts in
the place of another, or leaves out, is chosen by what is set in the two, not by `rev_seq`. -/
def Timely (v : Viewer) : ChannelAction → Prop
  | .frame (.msg msg) => ∀ prev ∈ v.state.messages, prev.seq = msg.seq →
    if isRevisionSnapshot msg || isRevisionSnapshot prev then revision prev ≤ revision msg
    else revision msg ≤ revision prev
  | .frame (.messageUpdate msg) => ∀ prev ∈ v.state.messages, prev.seq = msg.seq →
    revision prev ≤ revision msg
  | .frame (.delivery _ msg) =>
    (∀ floor ∈ v.state.messages.head?, floor.seq ≤ msg.seq) ∧
      ∀ prev ∈ v.state.messages, prev.seq = msg.seq → revision msg ≤ revision prev
  | _ => True

theorem lastMessages_ascending {messages : List MsgFrame} (h : Ascending messages) (keep : ℕ) :
    Ascending (lastMessages messages keep) := by
  rw [lastMessages]
  split_ifs
  · exact h
  · exact h.sublist (List.drop_sublist _ _)

theorem channelReducer_ascending {state : ChannelState} (h : Ascending state.messages)
    (action : ChannelAction) : Ascending (channelReducer state action).messages := by
  cases action with
  | trim keep =>
    dsimp only [channelReducer]
    split_ifs
    · exact h
    · exact lastMessages_ascending h keep
  | participantRestored name => exact h
  | status | fatal | guardReset | sendFailed => exact h
  | frame frame =>
    cases frame with
    | msg frame => exact (insertMessage_spec h).ascending h
    | messageUpdate message => exact replaceMessage_ascending h
    | delivery delivery message => exact withDeliveryMessage_ascending h
    | presence name =>
      dsimp only [channelReducer, applyFrame]
      split_ifs <;> exact h
    | participantRemoved name removedAt =>
      dsimp only [channelReducer, applyFrame, participantRemoved]
      split_ifs <;> exact h
    | ocsRoster frame =>
      dsimp only [channelReducer, applyFrame, applyOcsRoster]
      split_ifs <;> exact h
    | sessionOutput frame =>
      dsimp only [channelReducer, applyFrame, applySessionOutput]
      split_ifs
      · exact h
      · split <;> exact h
    | readCursor | sent | error | pong => exact h
    | welcome participants presence => exact h
    | participants participants => exact h
    | deliveryState delivery => exact h

theorem lastMessages_sublist (messages : List MsgFrame) (keep : ℕ) :
    (lastMessages messages keep).Sublist messages := by
  rw [lastMessages]
  split_ifs
  · exact List.Sublist.refl _
  · exact List.drop_sublist _ _

theorem Current.trim {v : Viewer} (h : v.Current) (keep : ℕ) : (v.next (.trim keep)).Current := by
  have hsub : ∀ m ∈ (channelReducer v.state (.trim keep)).messages, m ∈ v.state.messages := by
    intro m hm
    dsimp only [channelReducer] at hm
    split_ifs at hm
    · exact hm
    · exact (lastMessages_sublist _ _).subset hm
  constructor
  · intro m hm
    obtain ⟨hr, hnew⟩ := h.newest m (hsub m hm)
    refine ⟨List.mem_filter.2 ⟨hr, ?_⟩, fun m' hm' hs => hnew m' (List.mem_filter.1 hm').1 hs⟩
    have hloaded : (channelReducer v.state (.trim keep)).messages.any (fun m' => m'.seq = m.seq) :=
      List.any_eq_true.2 ⟨m, hm, by simp⟩
    simp [hloaded]
  · intro m hm
    obtain ⟨hr, hloaded⟩ := List.mem_filter.1 hm
    obtain ⟨p, hp, hs⟩ := h.shown m hr
    have hbefore : v.state.messages.any (fun m' => m'.seq = m.seq) :=
      List.any_eq_true.2 ⟨p, hp, by simpa using hs⟩
    dsimp only at hloaded
    rw [hbefore, Bool.true_and, Bool.not_not, List.any_eq_true] at hloaded
    obtain ⟨m', hm', hs'⟩ := hloaded
    exact ⟨m', hm', by simpa using hs'⟩

theorem current_next {v : Viewer} (hasc : Ascending v.state.messages) (h : v.Current)
    (action : ChannelAction) : (v.next action).Current ↔ v.Timely action := by
  have hsame : ∀ frame, messageOf (.frame frame) = none →
      (applyFrame v.state frame).messages = v.state.messages →
      (v.next (.frame frame)).Current := by
    intro frame hnone hsame
    rw [Current, next_state, channelReducer, hsame, next, hnone]
    exact h
  cases action with
  | trim keep => exact iff_of_true (h.trim keep) trivial
  | participantRestored name => exact iff_of_true h trivial
  | status | fatal | guardReset | sendFailed => exact iff_of_true h trivial
  | frame frame =>
    cases frame with
    | msg frame => exact (insertMessage_spec hasc).shows hasc h
    | messageUpdate message => exact shows_replaceMessage hasc h
    | delivery delivery message => exact shows_withDeliveryMessage hasc h
    | presence name =>
      refine iff_of_true (hsame _ rfl ?_) trivial
      rw [applyFrame]
      split_ifs <;> rfl
    | participantRemoved name removedAt =>
      refine iff_of_true (hsame _ rfl ?_) trivial
      rw [applyFrame, participantRemoved]
      split_ifs <;> rfl
    | ocsRoster frame =>
      refine iff_of_true (hsame _ rfl ?_) trivial
      rw [applyFrame, applyOcsRoster]
      split_ifs <;> rfl
    | readCursor | sent | error | pong => exact iff_of_true (hsame _ rfl rfl) trivial
    | sessionOutput frame =>
      refine iff_of_true (hsame _ rfl ?_) trivial
      rw [applyFrame, applySessionOutput]
      split_ifs
      · rfl
      · split <;> rfl
    | welcome participants presence => exact iff_of_true (hsame _ rfl rfl) trivial
    | participants participants => exact iff_of_true (hsame _ rfl rfl) trivial
    | deliveryState delivery => exact iff_of_true (hsame _ rfl rfl) trivial

/-- The messages of the page ascend; they are the newest frames as long as every frame comes
in time. -/
theorem shows_newest_iff (actions : List ChannelAction) :
    Ascending (actions.foldl channelReducer initialChannelState).messages ∧
      ((∀ pre, pre <+: actions → (pre.foldl next fresh).Current) ↔
        AllReady Timely next fresh actions) := by
  constructor
  · refine List.foldlRecOn (motive := fun state => Ascending state.messages)
      (b := initialChannelState) actions channelReducer ascending_nil ?_
    exact fun state h action _ => channelReducer_ascending h action
  · have hasc : ∀ v action, Ascending v.state.messages →
        Ascending (next v action).state.messages := by
      intro v action h
      rw [next_state]
      exact channelReducer_ascending h action
    have hfresh : fresh.Current := by constructor <;> simp [fresh, initialChannelState]
    exact (allReady_iff hasc (fun v action hasc h => current_next hasc h action) ascending_nil
      hfresh).symm

/-- A live broadcast that comes after the retraction of its message is shown again. -/
theorem late_original_shown :
    ∃ actions : List ChannelAction, ¬ (actions.foldl next fresh).Current := by
  let original : MsgFrame := ⟨1, "text", false, false, none, none, none, none, none, none⟩
  let retracted : MsgFrame := ⟨1, "", false, true, none, some 5, none, none, none, some 1⟩
  refine ⟨[.frame (.messageUpdate retracted), .frame (.msg original)], fun h => ?_⟩
  have hle := (h.newest original (by decide)).2 retracted (by decide) rfl
  exact absurd hle (by decide)

end Viewer
end Reducer
end Web
end AgentParty
