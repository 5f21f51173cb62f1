import AgentParty.Proofs.MentionIndex

/-! Routed targets are immutable. A message row only gains targets while it is live, a delivery
row that goes leaves its target on the message, and so no edit makes a delivery a second time. -/

namespace AgentParty
namespace Routing

open EventSystem

variable {nfc : String → String}

namespace Room

variable {s s' u : Room} {e : Event nfc} {seq : ℕ} {new : List AgentName}

def HasRow (s : Room) (seq : ℕ) (target : AgentName) : Prop :=
  ∃ r ∈ s.deliveries, r.key = (seq, target)

theorem deliveryFor_isSome {target : AgentName} :
    (s.deliveryFor seq target).isSome ↔ s.HasRow seq target := by
  rw [Option.isSome_iff_exists]
  exact exists_congr fun r => Table.get?_eq_some

/-- Rows are created for the targets `new` of the message, and nothing else is. -/
structure Creates (s s' : Room) (seq : ℕ) (new : List AgentName) : Prop where
  created : s'.created = s.created ++ new.map (Prod.mk seq)
  nodup : new.Nodup
  fresh : ∀ t ∈ new, ¬ s.HasRow seq t
  hasRow : ∀ q t, s'.HasRow q t ↔ s.HasRow q t ∨ (q = seq ∧ t ∈ new)
  others : ∀ r, r.messageSeq ≠ seq → (r ∈ s'.deliveries ↔ r ∈ s.deliveries)

theorem Creates.refl (s : Room) (seq : ℕ) : Creates s s seq [] where
  created := by simp
  nodup := List.nodup_nil
  fresh := by simp
  hasRow := by simp
  others r _ := Iff.rfl

theorem Creates.cons {t : AgentName} (hone : Creates s u seq [t]) (h : Creates u s' seq new) :
    Creates s s' seq (t :: new) where
  created := by rw [h.created, hone.created]; simp
  nodup := by
    have hrow : u.HasRow seq t := (hone.hasRow seq t).2 (Or.inr ⟨rfl, List.mem_singleton_self t⟩)
    exact List.nodup_cons.2 ⟨fun hmem => h.fresh t hmem hrow, h.nodup⟩
  fresh := by
    intro t' ht' hrow
    rcases List.mem_cons.1 ht' with rfl | hmem
    · exact hone.fresh t' (List.mem_singleton_self t') hrow
    · exact h.fresh t' hmem ((hone.hasRow seq t').2 (Or.inl hrow))
  hasRow q t' := by
    rw [h.hasRow, hone.hasRow, List.mem_singleton, List.mem_cons]
    tauto
  others r hr := (h.others r hr).trans (hone.others r hr)

theorem creates_ensureOne (s : Room) (seq : ℕ) (now : Int) (t : AgentName)
    (hnone : ¬ s.HasRow seq t) : Creates s (ensureOne seq now s t) seq [t] := by
  have hget : (s.deliveryFor seq t).isSome = false :=
    Bool.eq_false_iff.2 fun h => hnone (deliveryFor_isSome.1 h)
  have hmem (r : DeliveryRow) : r ∈ (ensureOne seq now s t).deliveries ↔
      r ∈ s.deliveries ∨ r = ⟨seq, t, true, now⟩ := by
    rw [ensureOne, hget]
    refine Table.mem_insert.trans (or_congr_right (and_iff_left ?_))
    exact fun r' hr' hkey => hnone ⟨r', hr', hkey⟩
  constructor
  · rw [ensureOne, hget]
    rfl
  · exact List.nodup_singleton t
  · intro t' ht'
    rwa [List.mem_singleton.1 ht']
  · intro q t'
    rw [List.mem_singleton]
    constructor
    · rintro ⟨r, hr, hkey⟩
      rcases (hmem r).1 hr with hold | rfl
      · exact Or.inl ⟨r, hold, hkey⟩
      · obtain ⟨rfl, rfl⟩ := Prod.mk.inj hkey
        exact Or.inr ⟨rfl, rfl⟩
    · rintro (⟨r, hr, hkey⟩ | ⟨rfl, rfl⟩)
      · exact ⟨r, (hmem r).2 (Or.inl hr), hkey⟩
      · exact ⟨_, (hmem _).2 (Or.inr rfl), rfl⟩
  · intro r hr
    refine (hmem r).trans (or_iff_left ?_)
    rintro rfl
    exact hr rfl

theorem creates_foldl (seq : ℕ) (now : Int) (targets : List AgentName) (s : Room) :
    ∃ new, Creates s (targets.foldl (ensureOne seq now) s) seq new ∧ (∀ t ∈ new, t ∈ targets) ∧
      ∀ t ∈ targets, (targets.foldl (ensureOne seq now) s).HasRow seq t := by
  induction targets generalizing s with
  | nil => exact ⟨[], Creates.refl s seq, by simp, by simp⟩
  | cons t targets ih =>
    rw [List.foldl_cons]
    by_cases hrow : s.HasRow seq t
    · have hsame : ensureOne seq now s t = s := if_pos (deliveryFor_isSome.2 hrow)
      rw [hsame]
      obtain ⟨new, hnew, hsub, hall⟩ := ih s
      refine ⟨new, hnew, fun t' ht' => List.mem_cons_of_mem t (hsub t' ht'), fun t' ht' => ?_⟩
      rcases List.mem_cons.1 ht' with rfl | hmem
      · exact (hnew.hasRow seq t').2 (Or.inl hrow)
      · exact hall t' hmem
    · obtain ⟨new, hnew, hsub, hall⟩ := ih (ensureOne seq now s t)
      have hcons := (creates_ensureOne s seq now t hrow).cons hnew
      refine ⟨t :: new, hcons, fun t' ht' => ?_, fun t' ht' => ?_⟩
      · rcases List.mem_cons.1 ht' with rfl | hmem
        · exact List.mem_cons_self
        · exact List.mem_cons_of_mem t (hsub t' hmem)
      · rcases List.mem_cons.1 ht' with rfl | hmem
        · exact (hcons.hasRow seq t').2 (Or.inr ⟨rfl, List.mem_cons_self⟩)
        · exact hall t' hmem

variable (nfc) in
theorem creates_ensureDirectedDeliveries (s : Room) (m : Message) (targets : List AgentName)
    (now : Int) : ∃ new, Creates s (s.ensureDirectedDeliveries nfc m targets now) m.seq new ∧
      (∀ t ∈ new, t ∈ targets) ∧ (m.kind = .message → ∀ t ∈ targets, m.mentionsSelf nfc t = false →
        (s.ensureDirectedDeliveries nfc m targets now).HasRow m.seq t) := by
  unfold ensureDirectedDeliveries
  split_ifs with hkind
  · exact ⟨[], Creates.refl s m.seq, by simp, fun h => absurd h hkind⟩
  · obtain ⟨new, hnew, hsub, hall⟩ :=
      creates_foldl m.seq now (targets.filter fun t => !m.mentionsSelf nfc t) s
    refine ⟨new, hnew, fun t ht => (List.mem_filter.1 (hsub t ht)).1, fun _ t ht hself => ?_⟩
    exact hall t (List.mem_filter.2 ⟨ht, by rw [hself]; rfl⟩)

/-- While the message is live, its targets only grow. -/
def Grown (nfc : String → String) (m m' : Message) : Prop :=
  live m' = true → live m = true ∧
    targetKeys nfc m.deliveryTargets ⊆ targetKeys nfc m'.deliveryTargets

theorem Grown.refl (m : Message) : Grown nfc m m := fun h => ⟨h, subset_rfl⟩

theorem Grown.trans {m m' m'' : Message} (h : Grown nfc m m') (h' : Grown nfc m' m'') :
    Grown nfc m m'' := by
  intro hlive
  obtain ⟨hlive', hsub'⟩ := h' hlive
  obtain ⟨hlive'', hsub⟩ := h hlive'
  exact ⟨hlive'', hsub.trans hsub'⟩

/-- Every message is new, or an old one that has grown. -/
structure Evolves (nfc : String → String) (s s' : Room) : Prop where
  lastSeq : s.lastSeq ≤ s'.lastSeq
  messages : ∀ m' ∈ s'.messages, (s.lastSeq < m'.seq ∧ m'.seq ≤ s'.lastSeq) ∨
    ∃ m ∈ s.messages, m.seq = m'.seq ∧ Grown nfc m m'

theorem Evolves.of_messages (hmessages : s'.messages = s.messages)
    (hlast : s.lastSeq ≤ s'.lastSeq) : Evolves nfc s s' :=
  ⟨hlast, fun m hm => Or.inr ⟨m, hmessages ▸ hm, rfl, Grown.refl m⟩⟩

theorem Evolves.refl (s : Room) : Evolves nfc s s := Evolves.of_messages rfl le_rfl

theorem Evolves.trans (h : Evolves nfc s u) (h' : Evolves nfc u s') : Evolves nfc s s' := by
  refine ⟨h.lastSeq.trans h'.lastSeq, fun m'' hm'' => ?_⟩
  rcases h'.messages m'' hm'' with ⟨hnew, hle⟩ | ⟨m', hm', hseq', hgrown'⟩
  · exact Or.inl ⟨h.lastSeq.trans_lt hnew, hle⟩
  · rcases h.messages m' hm' with ⟨hnew, hle⟩ | ⟨m, hm, hseq, hgrown⟩
    · rw [hseq'] at hnew hle
      exact Or.inl ⟨hnew, hle.trans h'.lastSeq⟩
    · exact Or.inr ⟨m, hm, hseq.trans hseq', hgrown.trans hgrown'⟩

theorem Evolves.update {p : Message → Bool} {f : Message → Message} (hf : ∀ m, (f m).seq = m.seq)
    (hgrown : ∀ m ∈ s.messages, p m = true → Grown nfc m (f m))
    (hmessages : s'.messages = s.messages.update p f hf) (hlast : s'.lastSeq = s.lastSeq) :
    Evolves nfc s s' := by
  refine ⟨hlast.ge, fun m' hm' => Or.inr ?_⟩
  rw [hmessages] at hm'
  obtain ⟨m, hm, rfl⟩ := (Table.mem_update hf).1 hm'
  refine ⟨m, hm, ?_⟩
  split_ifs with hp
  · exact ⟨(hf m).symm, hgrown m hm hp⟩
  · exact ⟨rfl, Grown.refl m⟩

theorem Evolves.delete {p : Message → Bool} (hmessages : s'.messages = s.messages.delete p)
    (hlast : s'.lastSeq = s.lastSeq) : Evolves nfc s s' := by
  refine ⟨hlast.ge, fun m hm => Or.inr ?_⟩
  rw [hmessages] at hm
  exact ⟨m, (Table.mem_delete.1 hm).1, rfl, Grown.refl m⟩

theorem evolves_store {m : Message} (hseq : m.seq = s.lastSeq + 1) :
    Evolves nfc s (s.store nfc m) := by
  refine ⟨by change s.lastSeq ≤ m.seq; omega, fun m' hm' => ?_⟩
  rcases Table.mem_insert.1 hm' with hold | ⟨rfl, -⟩
  · exact Or.inr ⟨m', hold, rfl, Grown.refl m'⟩
  · exact Or.inl ⟨by omega, le_rfl⟩

variable (nfc) in
theorem messages_ensureDirectedDeliveries (s : Room) (m : Message) (targets : List AgentName)
    (now : Int) : (s.ensureDirectedDeliveries nfc m targets now).messages = s.messages ∧
      (s.ensureDirectedDeliveries nfc m targets now).lastSeq = s.lastSeq := by
  obtain ⟨deliveries, created, heq⟩ := ensureDirectedDeliveries_eq s m targets now
  rw [heq]
  exact ⟨rfl, rfl⟩

theorem evolves_ensureDirectedDeliveries (s : Room) (m : Message) (targets : List AgentName)
    (now : Int) : Evolves nfc s (s.ensureDirectedDeliveries nfc m targets now) :=
  let ⟨hmessages, hlast⟩ := messages_ensureDirectedDeliveries nfc s m targets now
  Evolves.of_messages hmessages hlast.ge

theorem evolves_answered (s : Room) (seq : ℕ) :
    Evolves nfc s (s.updateMessage seq answered answered_seq) :=
  Evolves.update answered_seq (fun m _ _ => Grown.refl m) rfl rfl

theorem evolves_sent (s : Room) (frame : Send nfc) : Evolves nfc s (s.sent nfc frame) :=
  (evolves_store rfl).trans (evolves_ensureDirectedDeliveries _ _ _ _)

theorem evolves_storeReply (s : Room) (author : Sender) (body : String) (mentions : List String)
    (targets : List AgentName) (now : Int) :
    Evolves nfc s (s.storeReply nfc author body mentions targets now) :=
  (evolves_store rfl).trans (evolves_ensureDirectedDeliveries _ _ _ _)

theorem evolves_review (s : Room) (seq : ℕ) (approve : Bool) (reviewer : Sender) (body : String)
    (now : Int) : Evolves nfc s (s.review nfc seq approve reviewer body now) := by
  unfold review
  split
  · exact Evolves.refl s
  · split_ifs
    · exact Evolves.refl s
    · exact (evolves_answered s seq).trans (evolves_storeReply ..)
    · exact (evolves_answered s seq).trans (evolves_storeReply ..)

theorem evolves_respond (s : Room) (seq : ℕ) (responder : Sender) (body : String) (now : Int) :
    Evolves nfc s (s.respond nfc seq responder body now) := by
  unfold respond
  split
  · exact Evolves.refl s
  · split_ifs
    · exact Evolves.refl s
    · exact (evolves_answered s seq).trans (evolves_storeReply ..)

section Edit

variable {m : Message} {editor : Sender} {body : String} {moderator : Bool}
  {routing : RoutedMentionFrame nfc editor .message body}

theorem targets_historical (s : Room) (m : Message) :
    targetKeys nfc (s.historicalTargets nfc m) =
      targetKeys nfc m.deliveryTargets ∪
        targetKeys nfc ((s.deliveriesOf m.seq).map (·.targetName)) := by
  rw [historicalTargets, targetKeys_parse, targetKeys_append, targetKeys_parse]

theorem targets_edited (s : Room) (m old : Message) :
    targetKeys nfc (s.historicalTargets nfc m) ⊆
      targetKeys nfc (s.edited nfc m routing old).deliveryTargets := by
  intro key hkey
  simp only [edited, targetKeys_append, Finset.mem_union]
  exact Or.inl (Or.inl hkey)

/-- What an accepted edit has found out about the message. -/
theorem acceptsEdit_iff : s.acceptsEdit nfc m routing moderator = true ↔
    mayRevise m editor moderator = true ∧ editable m = true ∧
      ∀ t ∈ s.historicalTargets nfc m,
        (mentionMatchKey nfc t.val ∈ keysOf nfc m.mentions ↔
          mentionMatchKey nfc t.val ∈ targetKeys nfc routing.deliveryTargets) := by
  rw [acceptsEdit, Bool.and_eq_true, Bool.and_eq_true, and_assoc, Bool.not_eq_true',
    List.any_eq_false]
  refine and_congr_right fun _ => and_congr_right fun _ => forall₂_congr fun t _ => ?_
  simp only [changesRouted, Bool.or_eq_true, Bool.and_eq_true, decide_eq_true_eq]
  tauto

theorem grown_edited (hlive : live m = true) : Grown nfc m (s.edited nfc m routing m) := by
  refine fun _ => ⟨hlive, fun key hkey => targets_edited s m m ?_⟩
  rw [targets_historical]
  exact Finset.mem_union_left _ hkey

/-- The room with the edited message, before its new deliveries. -/
def rewritten (s : Room) (m : Message) (routing : RoutedMentionFrame nfc editor .message body) :
    Room :=
  { s with
    messages := s.messages.update (·.seq = m.seq) (s.edited nfc m routing) (edited_seq nfc s m routing)
    messageMentions := SecondaryIndex.add (SecondaryIndex.drop s.messageMentions m.seq) m.seq
      ((s.edited nfc m routing m).keys nfc) }

theorem edit_eq (hm : s.messages.get? seq = some m)
    (haccepts : s.acceptsEdit nfc m routing moderator = true) (now : Int) :
    s.edit nfc routing seq moderator now =
      (s.rewritten m routing).ensureDirectedDeliveries nfc (s.edited nfc m routing m)
        (s.newDeliveryTargets nfc m routing) now := by
  obtain ⟨-, rfl⟩ := Table.get?_eq_some.1 hm
  rw [edit, hm]
  simp only [haccepts, Bool.not_true, Bool.false_eq_true, if_false]
  rfl

theorem edit_rejected (hrejects : ∀ m, s.messages.get? seq = some m →
    s.acceptsEdit nfc m routing moderator = false) (now : Int) :
    s.edit nfc routing seq moderator now = s := by
  unfold edit
  split
  · rfl
  · rename_i m hm
    simp [hrejects m hm]

theorem evolves_rewritten (hm : m ∈ s.messages) (hlive : live m = true) :
    Evolves nfc s (s.rewritten m routing) := by
  refine Evolves.update (edited_seq nfc s m routing) (fun old hold hseq => ?_) rfl rfl
  rw [Table.eq_of_key hold hm (of_decide_eq_true hseq)]
  exact grown_edited hlive

theorem evolves_edit (s : Room) (routing : RoutedMentionFrame nfc editor .message body) (seq : ℕ)
    (moderator : Bool) (now : Int) : Evolves nfc s (s.edit nfc routing seq moderator now) := by
  by_cases haccepts : ∃ m, s.messages.get? seq = some m ∧
      s.acceptsEdit nfc m routing moderator = true
  · obtain ⟨m, hm, haccepts⟩ := haccepts
    obtain ⟨-, heditable, -⟩ := acceptsEdit_iff.1 haccepts
    rw [edit_eq hm haccepts]
    exact (evolves_rewritten (Table.get?_eq_some.1 hm).1 (Bool.and_eq_true_iff.1 heditable).2).trans
      (evolves_ensureDirectedDeliveries ..)
  · rw [edit_rejected fun m hm => Bool.eq_false_iff.2 fun h => haccepts ⟨m, hm, h⟩]
    exact Evolves.refl s

end Edit

theorem evolves_next (s : Room) (e : Event nfc) : Evolves nfc s (s.next nfc e) := by
  cases e with
  | nextSeq => exact Evolves.of_messages rfl (Nat.le_succ _)
  | send frame =>
    have hsent := evolves_sent s frame
    simp only [next, handleSend]
    split_ifs
    · exact hsent.trans (Evolves.delete rfl rfl)
    · exact hsent
  | insertSystemStatus note mentions now => exact evolves_store rfl
  | review seq approve reviewer body now => exact evolves_review s seq approve reviewer body now
  | respond seq responder body now => exact evolves_respond s seq responder body now
  | edit seq editor moderator body routing now => exact evolves_edit s routing seq moderator now
  | retract seq now =>
    simp only [next, retract]
    split_ifs
    · exact Evolves.update retracted_seq (fun m _ _ hlive => by simp [live, retracted] at hlive)
        rfl rfl
    · exact Evolves.refl s
  | eraseIdentityData name =>
    exact Evolves.update (scrubbed_seq ERASED)
      (fun m _ _ hlive => by simp [live, scrubbed] at hlive) rfl rfl
  | settle messageSeq targetName active now => exact Evolves.of_messages rfl le_rfl
  | invalidateDecision seq => exact evolves_answered s seq
  | pruneDirectedDeliveryRetention kept now => exact Evolves.of_messages rfl le_rfl
  | pruneRetainedContent cutoff => exact Evolves.delete rfl rfl
  | onStart =>
    refine Evolves.update s.backfilled_seq (fun m _ hbackfills hlive => ⟨hlive, ?_⟩) rfl rfl
    simp only [backfills, Bool.and_eq_true, List.isEmpty_iff] at hbackfills
    rw [hbackfills.1.1]
    exact Finset.empty_subset _

/-- A delivery row was made once, and its live message knows the target or the row is there. -/
structure Tracked (nfc : String → String) (s : Room) : Prop where
  numbered : ∀ m ∈ s.messages, m.seq ≤ s.lastSeq
  counted : ∀ q t, (q, t) ∈ s.created → q ≤ s.lastSeq
  once : s.created.Nodup
  known : ∀ q t, (q, t) ∈ s.created → ∀ m ∈ s.messages, m.seq = q → live m = true →
    mentionMatchKey nfc t.val ∈ targetKeys nfc m.deliveryTargets ∨ s.HasRow q t

theorem Tracked.initial : Tracked nfc Room.initial where
  numbered m hm := absurd hm (Table.not_mem_empty m)
  counted _ _ h := absurd h List.not_mem_nil
  once := List.nodup_nil
  known _ _ h := absurd h List.not_mem_nil

/-- The row's target is on its message, while that is live. -/
def Entombed (nfc : String → String) (s : Room) (r : DeliveryRow) : Prop :=
  ∀ m ∈ s.messages, m.seq = r.messageSeq → live m = true →
    mentionMatchKey nfc r.targetName.val ∈ targetKeys nfc m.deliveryTargets

/-- Messages evolve and rows may go, where their message knows the target or goes too. -/
theorem Tracked.evolves (h : s.Tracked nfc) (hevolves : Evolves nfc s s')
    (hcreated : s'.created = s.created)
    (hrows : ∀ r ∈ s.deliveries, (∃ m ∈ s'.messages, m.seq = r.messageSeq ∧ live m = true) →
      s'.HasRow r.messageSeq r.targetName ∨ s.Entombed nfc r) : s'.Tracked nfc := by
  refine ⟨fun m' hm' => ?_, fun q t hqt => ?_, hcreated ▸ h.once, ?_⟩
  · rcases hevolves.messages m' hm' with ⟨-, hle⟩ | ⟨m, hm, hseq, -⟩
    · exact hle
    · exact hseq ▸ (h.numbered m hm).trans hevolves.lastSeq
  · exact (h.counted q t (hcreated ▸ hqt)).trans hevolves.lastSeq
  · rintro q t hqt m' hm' rfl hlive'
    rw [hcreated] at hqt
    rcases hevolves.messages m' hm' with ⟨hnew, -⟩ | ⟨m, hm, hseq, hgrown⟩
    · exact absurd (h.counted _ t hqt) hnew.not_ge
    · obtain ⟨hlive, hsub⟩ := hgrown hlive'
      rcases h.known _ t hqt m hm hseq hlive with hkey | ⟨r, hr, hrkey⟩
      · exact Or.inl (hsub hkey)
      · obtain ⟨hrseq, rfl⟩ := Prod.mk.inj hrkey
        rcases hrows r hr ⟨m', hm', hrseq.symm, hlive'⟩ with hrow | hentombed
        · exact Or.inr (hrseq ▸ hrow)
        · exact Or.inl (hsub (hentombed m hm (hseq.trans hrseq.symm) hlive))

theorem hasRow_self {r : DeliveryRow} (hr : r ∈ s.deliveries) :
    s.HasRow r.messageSeq r.targetName := ⟨r, hr, rfl⟩

theorem hasRow_update {p : DeliveryRow → Bool} {f : DeliveryRow → DeliveryRow}
    (hf : ∀ r, (f r).key = r.key) (hdeliveries : s'.deliveries = s.deliveries.update p f hf)
    {r : DeliveryRow} (hr : r ∈ s.deliveries) : s'.HasRow r.messageSeq r.targetName := by
  refine ⟨_, hdeliveries ▸ (Table.mem_update hf).2 ⟨r, hr, rfl⟩, ?_⟩
  split_ifs
  · exact hf r
  · rfl

/-- The rows are kept. -/
theorem Tracked.evolves_rows (h : s.Tracked nfc) (hevolves : Evolves nfc s s')
    (hcreated : s'.created = s.created)
    (hrows : ∀ r ∈ s.deliveries, s'.HasRow r.messageSeq r.targetName) : s'.Tracked nfc :=
  h.evolves hevolves hcreated fun r hr _ => Or.inl (hrows r hr)

theorem Tracked.creates (h : s.Tracked nfc) (hcreates : Creates s s' seq new)
    (hmessages : s'.messages = s.messages) (hlast : s'.lastSeq = s.lastSeq)
    (hseq : seq ≤ s.lastSeq) (hfresh : ∀ t ∈ new, (seq, t) ∉ s.created) : s'.Tracked nfc := by
  have hmem (q : ℕ) (t : AgentName) :
      (q, t) ∈ s'.created ↔ (q, t) ∈ s.created ∨ (q = seq ∧ t ∈ new) := by
    rw [hcreates.created, List.mem_append, List.mem_map]
    refine or_congr_right ⟨?_, ?_⟩
    · rintro ⟨t', ht', heq⟩
      obtain ⟨rfl, rfl⟩ := Prod.mk.inj heq
      exact ⟨rfl, ht'⟩
    · rintro ⟨rfl, ht⟩
      exact ⟨t, ht, rfl⟩
  refine ⟨fun m hm => ?_, fun q t hqt => ?_, ?_, fun q t hqt m hm hq hlive => ?_⟩
  · rw [hmessages] at hm
    exact hlast ▸ h.numbered m hm
  · rw [hlast]
    rcases (hmem q t).1 hqt with hold | ⟨rfl, -⟩
    · exact h.counted q t hold
    · exact hseq
  · rw [hcreates.created]
    refine List.Nodup.append h.once (hcreates.nodup.map fun t t' heq => (Prod.mk.inj heq).2) ?_
    intro p hp hp'
    obtain ⟨t, ht, rfl⟩ := List.mem_map.1 hp'
    exact hfresh t ht hp
  · rw [hmessages] at hm
    rw [hcreates.hasRow]
    rcases (hmem q t).1 hqt with hold | hnew
    · rcases h.known q t hold m hm hq hlive with hkey | hrow
      · exact Or.inl hkey
      · exact Or.inr (Or.inl hrow)
    · exact Or.inr (Or.inr hnew)

theorem Tracked.store (h : s.Tracked nfc) {m : Message} (hseq : m.seq = s.lastSeq + 1) :
    (s.store nfc m).Tracked nfc :=
  h.evolves_rows (evolves_store hseq) rfl fun _ hr => hasRow_self hr

/-- A message is stored, and its deliveries with it. -/
theorem Tracked.storeWithDeliveries (h : s.Tracked nfc) {m : Message}
    (hseq : m.seq = s.lastSeq + 1) (targets : List AgentName) (now : Int) :
    ((s.store nfc m).ensureDirectedDeliveries nfc m targets now).Tracked nfc := by
  obtain ⟨new, hcreates, -⟩ := creates_ensureDirectedDeliveries nfc (s.store nfc m) m
    targets now
  obtain ⟨hmessages, hlast⟩ := messages_ensureDirectedDeliveries nfc (s.store nfc m) m
    targets now
  refine (h.store hseq).creates hcreates hmessages hlast le_rfl fun t _ hmem => ?_
  have hle := h.counted m.seq t hmem
  omega

theorem Tracked.answered (h : s.Tracked nfc) (seq : ℕ) :
    (s.updateMessage seq answered answered_seq).Tracked nfc :=
  h.evolves_rows (evolves_answered s seq) rfl fun _ hr => hasRow_self hr

theorem Tracked.review (h : s.Tracked nfc) (seq : ℕ) (approve : Bool) (reviewer : Sender)
    (body : String) (now : Int) : (s.review nfc seq approve reviewer body now).Tracked nfc := by
  unfold Room.review
  split
  · exact h
  · split_ifs
    · exact h
    · exact (h.answered seq).storeWithDeliveries rfl _ now
    · exact (h.answered seq).storeWithDeliveries rfl _ now

theorem Tracked.respond (h : s.Tracked nfc) (seq : ℕ) (responder : Sender) (body : String)
    (now : Int) : (s.respond nfc seq responder body now).Tracked nfc := by
  unfold Room.respond
  split
  · exact h
  · split_ifs
    · exact h
    · exact (h.answered seq).storeWithDeliveries rfl _ now

section Edit

variable {m : Message} {editor : Sender} {body : String} {moderator : Bool}
  {routing : RoutedMentionFrame nfc editor .message body} {t : AgentName}

/-- A target that had a delivery is among the historical targets of the live message. -/
theorem Tracked.historical (h : s.Tracked nfc) (hm : m ∈ s.messages) (hlive : live m = true)
    (hcreated : (m.seq, t) ∈ s.created) :
    mentionMatchKey nfc t.val ∈ targetKeys nfc (s.historicalTargets nfc m) := by
  rw [targets_historical, Finset.mem_union]
  rcases h.known m.seq t hcreated m hm rfl hlive with hkey | ⟨r, hr, hrkey⟩
  · exact Or.inl hkey
  · obtain ⟨hseq, rfl⟩ := Prod.mk.inj hrkey
    refine Or.inr (mem_targetKeys.2 ⟨r.targetName, List.mem_map.2 ⟨r, ?_, rfl⟩, rfl⟩)
    exact List.mem_filter.2 ⟨hr, decide_eq_true hseq⟩

theorem Tracked.new_fresh (h : s.Tracked nfc) (hm : m ∈ s.messages) (hlive : live m = true)
    (ht : t ∈ s.newDeliveryTargets nfc m routing) : (m.seq, t) ∉ s.created := by
  intro hcreated
  obtain ⟨-, hnew⟩ := List.mem_filter.1 ht
  simp only [unrouted, Bool.and_eq_true, decide_eq_true_eq] at hnew
  exact hnew.2 (h.historical hm hlive hcreated)

theorem Tracked.edit (h : s.Tracked nfc) (routing : RoutedMentionFrame nfc editor .message body)
    (seq : ℕ) (moderator : Bool) (now : Int) :
    (s.edit nfc routing seq moderator now).Tracked nfc := by
  by_cases haccepts : ∃ m, s.messages.get? seq = some m ∧
      s.acceptsEdit nfc m routing moderator = true
  · obtain ⟨m, hm, haccepts⟩ := haccepts
    obtain ⟨-, heditable, -⟩ := acceptsEdit_iff.1 haccepts
    have hlive := (Bool.and_eq_true_iff.1 heditable).2
    have hmem := (Table.get?_eq_some.1 hm).1
    rw [edit_eq hm haccepts]
    have hrewritten : (s.rewritten m routing).Tracked nfc :=
      h.evolves_rows (evolves_rewritten hmem hlive) rfl fun _ hr => hasRow_self hr
    obtain ⟨new, hcreates, hsub, -⟩ := creates_ensureDirectedDeliveries nfc
      (s.rewritten m routing) (s.edited nfc m routing m) (s.newDeliveryTargets nfc m routing) now
    obtain ⟨hmessages, hlast⟩ := messages_ensureDirectedDeliveries nfc
      (s.rewritten m routing) (s.edited nfc m routing m) (s.newDeliveryTargets nfc m routing) now
    have hfresh : ∀ t ∈ new, (m.seq, t) ∉ s.created :=
      fun t ht => h.new_fresh hmem hlive (hsub t ht)
    exact hrewritten.creates hcreates hmessages hlast (h.numbered m hmem) hfresh
  · rw [edit_rejected fun m hm => Bool.eq_false_iff.2 fun h => haccepts ⟨m, hm, h⟩]
    exact h

end Edit

section Pruning

theorem countTakes_iff {now : Int} {r : DeliveryRow} : s.countTakes seq now r = true ↔
    r.updatedAt ≤ now - DIRECTED_DELIVERY_TERMINAL_RETENTION_MS ∧
      (∃ m ∈ s.messages, m.seq = r.messageSeq ∧ prunable seq m = true) ∧
      ∀ r' ∈ s.deliveries, r'.messageSeq = r.messageSeq → r'.active = false := by
  simp only [countTakes, deliveriesOf, Bool.and_eq_true, decide_eq_true_eq, List.any_eq_true,
    Bool.not_eq_true', List.any_eq_false, List.mem_filter, Bool.not_eq_true, and_imp, and_assoc]
  exact Iff.rfl

theorem prunable_lt {m : Message} (h : prunable seq m = true) : m.seq < seq := by
  have hle : m.seq + RETAIN_N ≤ seq := of_decide_eq_true (Bool.and_eq_true_iff.1 h).1
  have hpos : 0 < RETAIN_N := by decide
  omega

theorem messages_sent (s : Room) (frame : Send nfc) :
    (s.sent nfc frame).messages = s.messages.insert (s.sentMessage nfc frame) :=
  (messages_ensureDirectedDeliveries nfc ..).1

/-- A send makes rows of its own message only. -/
theorem mem_deliveries_sent (frame : Send nfc) {r : DeliveryRow}
    (hne : r.messageSeq ≠ s.lastSeq + 1) :
    r ∈ (s.sent nfc frame).deliveries ↔ r ∈ s.deliveries := by
  obtain ⟨new, hcreates, -⟩ := creates_ensureDirectedDeliveries nfc
    (s.store nfc (s.sentMessage nfc frame)) (s.sentMessage nfc frame)
    frame.routing.deliveryTargets frame.now
  exact hcreates.others r hne

theorem seq_lt_of_countTakes {now : Int} {r : DeliveryRow} (h : s.countTakes seq now r = true) :
    r.messageSeq < seq := by
  obtain ⟨-, ⟨m, -, hseq, hprunable⟩, -⟩ := countTakes_iff.1 h
  exact hseq ▸ prunable_lt hprunable

variable {frame : Send nfc} {r : DeliveryRow}

/-- What the pruning takes was there before the send, and could be taken then. -/
theorem countTakes_sent (hr : r ∈ (s.sent nfc frame).deliveries)
    (htakes : (s.sent nfc frame).countTakes (s.lastSeq + 1) frame.now r = true) :
    r ∈ s.deliveries ∧ s.countTakes (s.lastSeq + 1) frame.now r = true := by
  have hlt := seq_lt_of_countTakes htakes
  obtain ⟨hold, ⟨m, hm, hseq, hprunable⟩, hidle⟩ := countTakes_iff.1 htakes
  refine ⟨(mem_deliveries_sent frame hlt.ne).1 hr,
    countTakes_iff.2 ⟨hold, ⟨m, ?_, hseq, hprunable⟩, fun r' hr' hseq' => ?_⟩⟩
  · rw [messages_sent] at hm
    refine (Table.mem_insert.1 hm).resolve_right ?_
    rintro ⟨rfl, -⟩
    exact hlt.ne hseq.symm
  · exact hidle r' ((mem_deliveries_sent frame (hseq' ▸ hlt.ne)).2 hr') hseq'

theorem Entombed.sent (h : s.Entombed nfc r) (hlt : r.messageSeq < s.lastSeq + 1) :
    (s.sent nfc frame).Entombed nfc r := by
  intro m hm hseq
  rw [messages_sent] at hm
  refine h m ((Table.mem_insert.1 hm).resolve_right ?_) hseq
  rintro ⟨rfl, -⟩
  exact hlt.ne hseq.symm

/-- A message that loses all its rows goes. -/
theorem not_mem_pruned (hall : ∀ r' ∈ s.deliveries, r'.messageSeq = r.messageSeq →
      s.countTakes (s.lastSeq + 1) frame.now r' = true)
    (htakes : (s.sent nfc frame).countTakes (s.lastSeq + 1) frame.now r = true) {m : Message}
    (hseq : m.seq = r.messageSeq) :
    m ∉ ((s.sent nfc frame).pruneCount (s.lastSeq + 1) frame.now).messages := by
  intro hm
  obtain ⟨hmem, hkept⟩ := Table.mem_delete.1 hm
  have hlt := seq_lt_of_countTakes htakes
  obtain ⟨-, ⟨m', hm', hseq', hprunable⟩, hidle⟩ := countTakes_iff.1 htakes
  obtain rfl := Table.eq_of_key hmem hm' (hseq.trans hseq'.symm)
  rw [hprunable, Bool.true_and, Bool.not_eq_false', List.any_eq_true] at hkept
  obtain ⟨r', hr', hrseq⟩ := hkept
  obtain ⟨hold, hstays⟩ := Table.mem_delete.1 hr'
  have hsame : r'.messageSeq = r.messageSeq := (of_decide_eq_true hrseq).trans hseq
  have hbefore := (mem_deliveries_sent frame (hsame ▸ hlt.ne)).1 hold
  obtain ⟨hage, -⟩ := countTakes_iff.1 (hall r' hbefore hsame)
  have htaken : (s.sent nfc frame).countTakes (s.lastSeq + 1) frame.now r' = true :=
    countTakes_iff.2 ⟨hage, ⟨m, hm', hsame ▸ hseq, hprunable⟩, fun r'' hr'' h => hidle r'' hr''
      (h.trans hsame)⟩
  rw [htaken] at hstays
  cases hstays

end Pruning

/-- A delivery row is taken only where its live message knows the target or goes with all its
rows, and an accepted edit adds no target that is the sender of the message. -/
def KeepsTargets (nfc : String → String) (s : Room) : Event nfc → Prop
  | .send frame => (s.lastSeq + 1) % 100 = 0 → ∀ r ∈ s.deliveries,
      s.countTakes (s.lastSeq + 1) frame.now r = true →
        s.Entombed nfc r ∨ ∀ r' ∈ s.deliveries, r'.messageSeq = r.messageSeq →
          s.countTakes (s.lastSeq + 1) frame.now r' = true
  | .edit seq _ moderator body routing _ => ∀ m ∈ s.messages, m.seq = seq →
      s.acceptsEdit nfc m routing moderator = true → ∀ t ∈ routing.deliveryTargets,
        mentionMatchKey nfc t.val ∉ keysOf nfc m.mentions →
          isSelfMention nfc m.sender m.kind body routing.mentions t = false
  | .eraseIdentityData name => ∀ r ∈ s.deliveries, r.targetName.val = name → s.Entombed nfc r
  | .pruneDirectedDeliveryRetention kept now => ∀ r ∈ s.deliveries,
      retentionTakes kept now r = true → s.Entombed nfc r
  | _ => True

/-- The routing leaves out the editor, and so an edit by the sender keeps the targets. -/
theorem keepsTargets_own_edit {m : Message} (hm : s.messages.get? seq = some m)
    (hkind : m.kind = .message) {body : String} (moderator : Bool)
    (routing : RoutedMentionFrame nfc m.sender .message body) (now : Int) :
    s.KeepsTargets nfc (.edit seq m.sender moderator body routing now) := by
  obtain ⟨hmem, rfl⟩ := Table.get?_eq_some.1 hm
  intro m' hm' hseq _ t ht _
  rw [Table.eq_of_key hm' hmem hseq, hkind]
  exact routing.others t ht

theorem Tracked.handleSend (h : s.Tracked nfc) {frame : Send nfc}
    (hkeeps : s.KeepsTargets nfc (.send frame)) : (s.handleSend nfc frame).Tracked nfc := by
  have hsent : (s.sent nfc frame).Tracked nfc := h.storeWithDeliveries rfl _ _
  unfold Room.handleSend
  simp only
  split_ifs with hcount
  · refine hsent.evolves (Evolves.delete rfl rfl) rfl fun r hr hmessage => ?_
    cases htakes : (s.sent nfc frame).countTakes (s.lastSeq + 1) frame.now r with
    | false => exact Or.inl ⟨r, Table.mem_delete.2 ⟨hr, htakes⟩, rfl⟩
    | true =>
      obtain ⟨hold, htaken⟩ := countTakes_sent hr htakes
      rcases hkeeps hcount r hold htaken with hentombed | hall
      · exact Or.inr (hentombed.sent (seq_lt_of_countTakes htaken))
      · obtain ⟨m, hm, hseq, -⟩ := hmessage
        exact absurd hm (not_mem_pruned hall htakes hseq)
  · exact hsent

theorem Tracked.next (h : s.Tracked nfc) (hkeeps : s.KeepsTargets nfc e) :
    (s.next nfc e).Tracked nfc := by
  have hevolves := evolves_next s e
  cases e with
  | nextSeq => exact h.evolves_rows hevolves rfl fun _ hr => hasRow_self hr
  | send frame => exact h.handleSend hkeeps
  | insertSystemStatus note mentions now => exact h.store rfl
  | review seq approve reviewer body now => exact h.review seq approve reviewer body now
  | respond seq responder body now => exact h.respond seq responder body now
  | edit seq editor moderator body routing now => exact h.edit routing seq moderator now
  | retract seq now =>
    refine h.evolves_rows hevolves ?_ fun r hr => ?_
    · simp only [Room.next, Room.retract]
      split_ifs <;> rfl
    · simp only [Room.next, Room.retract]
      split_ifs
      · exact hasRow_update (settled_key false now) rfl hr
      · exact hasRow_self hr
  | eraseIdentityData name =>
    refine h.evolves hevolves rfl fun r hr _ => ?_
    by_cases hname : r.targetName.val = name
    · exact Or.inr (hkeeps r hr hname)
    · exact Or.inl ⟨r, Table.mem_delete.2 ⟨hr, decide_eq_false hname⟩, rfl⟩
  | settle messageSeq targetName active now =>
    exact h.evolves_rows hevolves rfl fun r hr => hasRow_update (settled_key active now) rfl hr
  | invalidateDecision seq => exact h.answered seq
  | pruneDirectedDeliveryRetention kept now =>
    refine h.evolves hevolves rfl fun r hr _ => ?_
    cases htakes : retentionTakes kept now r with
    | true => exact Or.inr (hkeeps r hr htakes)
    | false => exact Or.inl ⟨r, Table.mem_delete.2 ⟨hr, htakes⟩, rfl⟩
  | pruneRetainedContent cutoff =>
    refine h.evolves hevolves rfl fun r hr hmessage => Or.inl ?_
    obtain ⟨m, hm, hseq, -⟩ := hmessage
    obtain ⟨hmem, hyoung⟩ := Table.mem_delete.1 hm
    refine ⟨r, Table.mem_delete.2 ⟨hr, ?_⟩, rfl⟩
    rw [← hseq, Table.get?_key hmem]
    exact hyoung
  | onStart => exact h.evolves_rows hevolves rfl fun _ hr => hasRow_self hr

theorem run_tracked {evs : List (Event nfc)} {t : Room}
    (h : Run (Guarded (Step nfc) (KeepsTargets nfc)) initial evs t) : t.Tracked nfc := by
  refine h.invariant (fun u e u' hu hstep => ?_) Tracked.initial
  obtain ⟨rfl, hkeeps⟩ := hstep
  exact hu.next hkeeps

theorem run_evolves {evs : List (Event nfc)} {t : Room} (h : Run (Step nfc) s evs t) :
    Evolves nfc s t := by
  refine h.rel Evolves.refl fun s u e u' hu hstep => ?_
  rw [hstep]
  exact hu.trans (evolves_next u e)

/-- A delivery was made for the target on this message, or its row lists the target. -/
def EverRouted (s : Room) (m : Message) (target : AgentName) : Prop :=
  (m.seq, target) ∈ s.created ∨ target ∈ m.deliveryTargets

/-- An edit of `m` neither removes a routed target nor adds one again, and each target that it
newly mentions has its first delivery. -/
structure EditKeeps (nfc : String → String) (s : Room) (m : Message) (mentions : List String)
    (targets : List AgentName) (s' : Room) : Prop where
  message : ∃ m' ∈ s'.messages, m'.seq = m.seq ∧ m'.mentions = mentions ∧
    ∀ t, s.EverRouted m t → mentionMatchKey nfc t.val ∈ targetKeys nfc m'.deliveryTargets
  kept : ∀ t, s.EverRouted m t → mentionMatchKey nfc t.val ∈ keysOf nfc m.mentions →
    mentionMatchKey nfc t.val ∈ keysOf nfc mentions
  notAgain : ∀ t, s.EverRouted m t → mentionMatchKey nfc t.val ∉ keysOf nfc m.mentions →
    mentionMatchKey nfc t.val ∉ targetKeys nfc targets
  delivered : ∀ t ∈ targets, mentionMatchKey nfc t.val ∉ keysOf nfc m.mentions →
    (m.seq, t) ∉ s.created ∧ (s'.deliveryFor m.seq t).isSome

section Edit

variable {m : Message} {editor : Sender} {body : String} {moderator : Bool} {now : Int}
  {routing : RoutedMentionFrame nfc editor .message body}

theorem Tracked.historical_of_everRouted (h : s.Tracked nfc) (hm : m ∈ s.messages)
    (hlive : live m = true) {t : AgentName} (hrouted : s.EverRouted m t) :
    mentionMatchKey nfc t.val ∈ targetKeys nfc (s.historicalTargets nfc m) := by
  rcases hrouted with hcreated | htarget
  · exact h.historical hm hlive hcreated
  · rw [targets_historical]
    exact Finset.mem_union_left _ (mem_targetKeys.2 ⟨t, htarget, rfl⟩)

/-- For a historical target, the edit mentions it exactly where the message did. -/
theorem key_iff_of_accepts (haccepts : s.acceptsEdit nfc m routing moderator = true) {key : String}
    (hkey : key ∈ targetKeys nfc (s.historicalTargets nfc m)) :
    key ∈ keysOf nfc m.mentions ↔ key ∈ targetKeys nfc routing.deliveryTargets := by
  obtain ⟨t, ht, rfl⟩ := mem_targetKeys.1 hkey
  exact (acceptsEdit_iff.1 haccepts).2.2 t ht

theorem Tracked.editKeeps (h : s.Tracked nfc)
    (hkeeps : s.KeepsTargets nfc (.edit seq editor moderator body routing now))
    (hm : s.messages.get? seq = some m)
    (haccepts : s.acceptsEdit nfc m routing moderator = true) :
    EditKeeps nfc s m routing.mentions routing.deliveryTargets
      (s.edit nfc routing seq moderator now) := by
  obtain ⟨hmem, rfl⟩ := Table.get?_eq_some.1 hm
  obtain ⟨-, heditable, -⟩ := acceptsEdit_iff.1 haccepts
  obtain ⟨hkind, hlive⟩ := Bool.and_eq_true_iff.1 heditable
  have hmessages := (messages_ensureDirectedDeliveries nfc (s.rewritten m routing)
    (s.edited nfc m routing m) (s.newDeliveryTargets nfc m routing) now).1
  obtain ⟨new, hcreates, -, hall⟩ := creates_ensureDirectedDeliveries nfc
    (s.rewritten m routing) (s.edited nfc m routing m) (s.newDeliveryTargets nfc m routing) now
  rw [edit_eq hm haccepts]
  constructor
  · refine ⟨s.edited nfc m routing m, ?_, rfl, rfl, fun t hrouted =>
      targets_edited s m m (h.historical_of_everRouted hmem hlive hrouted)⟩
    rw [hmessages]
    exact (Table.mem_update (edited_seq nfc s m routing)).2 ⟨m, hmem, by simp⟩
  · intro t hrouted hmentioned
    have hkey := h.historical_of_everRouted hmem hlive hrouted
    exact routing.covered ((key_iff_of_accepts haccepts hkey).1 hmentioned)
  · intro t hrouted hgone htarget
    have hkey := h.historical_of_everRouted hmem hlive hrouted
    exact hgone ((key_iff_of_accepts haccepts hkey).2 htarget)
  · intro t ht hgone
    have hunrouted : mentionMatchKey nfc t.val ∉ targetKeys nfc (s.historicalTargets nfc m) :=
      fun hkey => hgone ((key_iff_of_accepts haccepts hkey).2 (mem_targetKeys.2 ⟨t, ht, rfl⟩))
    have hnew : t ∈ s.newDeliveryTargets nfc m routing :=
      List.mem_filter.2 ⟨ht, by simp [hgone, unrouted, hunrouted]⟩
    have hself := hkeeps m hmem rfl haccepts t ht hgone
    exact ⟨h.new_fresh hmem hlive hnew,
      deliveryFor_isSome.2 (hall (of_decide_eq_true hkind) t hnew hself)⟩

end Edit

/-- In every run that keeps the targets, a delivery is made at most once, the targets of a live
message only grow, and each edit keeps what was routed or changes nothing. -/
theorem routed_targets_immutable {evs evs' : List (Event nfc)} {s t : Room}
    (h : Run (Guarded (Step nfc) (KeepsTargets nfc)) initial evs s)
    (h' : Run (Guarded (Step nfc) (KeepsTargets nfc)) s evs' t) :
    t.created.Nodup ∧
      (∀ m ∈ s.messages, ∀ m' ∈ t.messages, m'.seq = m.seq → live m' = true →
        targetKeys nfc m.deliveryTargets ⊆ targetKeys nfc m'.deliveryTargets) ∧
      ∀ seq editor moderator body (routing : RoutedMentionFrame nfc editor .message body) now,
        t.KeepsTargets nfc (.edit seq editor moderator body routing now) →
          (∀ m, t.messages.get? seq = some m → t.acceptsEdit nfc m routing moderator = true →
            EditKeeps nfc t m routing.mentions routing.deliveryTargets
              (t.edit nfc routing seq moderator now)) ∧
          ((∀ m, t.messages.get? seq = some m → t.acceptsEdit nfc m routing moderator = false) →
            t.edit nfc routing seq moderator now = t) := by
  have hs := run_tracked h
  have ht := run_tracked (h.append h')
  refine ⟨ht.once, fun m hm m' hm' hseq hlive => ?_, fun seq editor moderator body routing now hk =>
    ⟨fun m hm haccepts => ht.editKeeps hk hm haccepts, fun hrejects => edit_rejected hrejects now⟩⟩
  rcases (run_evolves h'.of_guarded).messages m' hm' with ⟨hnew, -⟩ | ⟨m₀, hm₀, hseq₀, hgrown⟩
  · exact absurd (hs.numbered m hm) (hseq ▸ hnew).not_ge
  · rw [Table.eq_of_key hm hm₀ (hseq.symm.trans hseq₀.symm)]
    exact (hgrown hlive).2

instance (s : Room) (r : DeliveryRow) : Decidable (s.Entombed nfc r) := by
  unfold Entombed
  infer_instance

instance (s : Room) : (e : Event nfc) → Decidable (s.KeepsTargets nfc e)
  | .send .. | .edit .. | .eraseIdentityData .. | .pruneDirectedDeliveryRetention .. => by
    unfold KeepsTargets
    infer_instance
  | .nextSeq | .insertSystemStatus .. | .review .. | .respond .. | .retract .. | .settle ..
  | .invalidateDecision .. | .pruneRetainedContent .. | .onStart => inferInstanceAs (Decidable True)

def aide : AgentName := ⟨"aide", by decide⟩

def asked : List (Event id) :=
  [.send ⟨.human "lead", .message, "@bot go", ⟨["bot"], [author], by decide, by decide⟩, false, 0⟩]

/-- The edit keeps `bot` and adds `aide`. -/
def widened : List (Event id) :=
  [.edit 1 (.human "lead") false "@bot @aide go"
    ⟨["bot", "aide"], [author, aide], by decide, by decide⟩ 1]

theorem routed_targets_immutable_widened : ∃ s t, Run (Step id) initial asked s ∧
    Run (Step id) s widened t ∧ t.created = [(1, author), (1, aide)] ∧ t.created.Nodup := by
  have hready : AllReady (KeepsTargets id) (next id) initial asked := by decide
  have hready' : AllReady (KeepsTargets id) (next id) (asked.foldl (next id) initial) widened := by
    decide
  have hrun : Run (Guarded (Step id) (KeepsTargets id)) initial asked _ :=
    run_of_ready (fun _ _ h => ⟨rfl, h⟩) hready
  have hrun' : Run (Guarded (Step id) (KeepsTargets id)) _ widened _ :=
    run_of_ready (fun _ _ h => ⟨rfl, h⟩) hready'
  exact ⟨_, _, hrun.of_guarded, hrun'.of_guarded, by decide,
    (routed_targets_immutable hrun hrun').1⟩

/-- The reply to the author has no targets on its row. Once its delivery is pruned, an edit that
mentions the author makes the delivery again. -/
def mentionedAfterPruning : List (Event id) :=
  [.send completion, .review 1 true (.human "lead") "review approved #1" 1, .settle 2 author false 2,
    .pruneDirectedDeliveryRetention [] (2 + DIRECTED_DELIVERY_TERMINAL_RETENTION_MS),
    .edit 2 (.human "lead") false "thanks @bot" ⟨["bot"], [author], by decide, by decide⟩ 3]

/-- A moderator mentions the sender in the sender's own message. -/
def senderMentioned : RoutedMentionFrame id (.human "boss") .message "well done @bot" :=
  ⟨["bot"], [author], by decide, by decide⟩

theorem delivery_made_twice :
    (∃ s, Run (Step id) initial mentionedAfterPruning s ∧ s.created = [(2, author), (2, author)]) ∧
      ∃ s, Run (Step id) initial [.send completion] s ∧
        (∃ m ∈ s.messages, m.seq = 1 ∧ s.acceptsEdit id m senderMentioned true = true ∧
          "bot" ∉ keysOf id m.mentions) ∧
        (s.edit id senderMentioned 1 true 1).deliveryFor 1 author = none := by
  have hstep (s : Room) (e : Event id) : Step id s e (s.next id e) := rfl
  exact ⟨⟨_, run_foldl hstep initial mentionedAfterPruning, by decide⟩,
    _, run_foldl hstep initial [.send completion], by decide, by decide⟩

end Room
end Routing
end AgentParty
