import AgentParty.Delivery.Routing

/-! The mention index. Each writer of `messages` leaves the pairs of the index exact; the
start-up does where the tombstones it fills in add no name. -/

namespace AgentParty
namespace Routing

open EventSystem SecondaryIndex

variable {nfc : String → String}

section Keys

theorem keysOf_append (l l' : List String) : keysOf nfc (l ++ l') = keysOf nfc l ∪ keysOf nfc l' := by
  simp [keysOf]

theorem mem_keysOf {key : String} {l : List String} :
    key ∈ keysOf nfc l ↔ ∃ n ∈ l, mentionMatchKey nfc n = key := by
  simp [keysOf]

theorem mem_targetKeys {key : String} {l : List AgentName} :
    key ∈ targetKeys nfc l ↔ ∃ t ∈ l, mentionMatchKey nfc t.val = key := by
  simp [targetKeys, mem_keysOf]

theorem targetKeys_append (l l' : List AgentName) :
    targetKeys nfc (l ++ l') = targetKeys nfc l ∪ targetKeys nfc l' := by
  rw [targetKeys, List.map_append, keysOf_append, targetKeys, targetKeys]

/-- The parser drops names, and no key. -/
theorem targetKeys_parse (l : List AgentName) :
    targetKeys nfc (parseStoredTargetNames nfc l) = targetKeys nfc l := by
  induction l with
  | nil => rfl
  | cons t l ih =>
    ext key
    have hl : key ∈ targetKeys nfc (parseStoredTargetNames nfc l) ↔ key ∈ targetKeys nfc l := by
      rw [ih]
    rw [mem_targetKeys] at hl
    simp only [mem_targetKeys, parseStoredTargetNames, List.mem_cons, List.mem_filter,
      decide_eq_true_eq, exists_eq_or_imp]
    rw [mem_targetKeys] at hl
    rw [← hl]
    constructor
    · rintro (ht | ⟨t', ⟨ht', -⟩, hkey⟩)
      · exact Or.inl ht
      · exact Or.inr ⟨t', ht', hkey⟩
    · rintro (ht | ⟨t', ht', hkey⟩)
      · exact Or.inl ht
      · by_cases hsame : mentionMatchKey nfc t.val = key
        · exact Or.inl hsame
        · exact Or.inr ⟨t', ⟨ht', fun h => hsame (h.symm.trans hkey)⟩, hkey⟩

theorem Message.keys_eq (m : Message) :
    m.keys nfc = keysOf nfc m.mentions ∪ targetKeys nfc m.deliveryTargets := by
  rw [Message.keys, Message.names, keysOf_append, ← targetKeys_parse m.deliveryTargets]
  rfl

end Keys

namespace Room

variable {s : Room} {e : Event nfc}

/-- Creating deliveries touches no other table. -/
theorem ensureDirectedDeliveries_eq (s : Room) (m : Message) (targets : List AgentName)
    (now : Int) : ∃ deliveries created, s.ensureDirectedDeliveries nfc m targets now =
      { s with deliveries, created } := by
  have hone (seq : ℕ) (t : Room) (target : AgentName) : ∃ deliveries created,
      ensureOne seq now t target = { t with deliveries, created } := by
    unfold ensureOne
    split
    · exact ⟨_, _, rfl⟩
    · exact ⟨_, _, rfl⟩
  have hfold (seq : ℕ) (targets : List AgentName) (t : Room) : ∃ deliveries created,
      targets.foldl (ensureOne seq now) t = { t with deliveries, created } := by
    induction targets generalizing t with
    | nil => exact ⟨_, _, rfl⟩
    | cons target targets ih =>
      obtain ⟨deliveries, created, hdone⟩ := hone seq t target
      obtain ⟨deliveries', created', hrest⟩ := ih (ensureOne seq now t target)
      exact ⟨deliveries', created', by rw [List.foldl_cons, hrest, hdone]⟩
  unfold ensureDirectedDeliveries
  split
  · exact ⟨_, _, rfl⟩
  · exact hfold m.seq _ s

/-- The index is exact, and a new message has a new number. -/
structure Indexed (nfc : String → String) (s : Room) : Prop where
  exact : Exact (Message.keys nfc) s.messages s.messageMentions
  numbered : ∀ m ∈ s.messages, m.seq ≤ s.lastSeq

theorem Indexed.initial : Indexed nfc Room.initial where
  exact := exact_empty
  numbered m hm := absurd hm (Table.not_mem_empty m)

theorem Indexed.ensureDirectedDeliveries (h : s.Indexed nfc) (m : Message)
    (targets : List AgentName) (now : Int) :
    (s.ensureDirectedDeliveries nfc m targets now).Indexed nfc := by
  obtain ⟨deliveries, created, heq⟩ := ensureDirectedDeliveries_eq s m targets now
  rw [heq]
  exact ⟨h.exact, h.numbered⟩

theorem Indexed.store (h : s.Indexed nfc) {m : Message} (hseq : m.seq = s.lastSeq + 1) :
    (s.store nfc m).Indexed nfc := by
  have hnew : s.messages.get? m.seq = none := by
    refine Table.get?_eq_none.2 fun old hold => ?_
    have hle := h.numbered old hold
    omega
  refine ⟨h.exact.insert hnew, fun m' hm' => ?_⟩
  rcases Table.mem_insert.1 hm' with hm' | ⟨rfl, -⟩
  · have hle := h.numbered m' hm'
    change m'.seq ≤ m.seq
    omega
  · exact le_rfl

theorem numbered_update (h : ∀ m ∈ s.messages, m.seq ≤ s.lastSeq) {p : Message → Bool}
    {f : Message → Message} (hf : ∀ m, (f m).seq = m.seq) :
    ∀ m ∈ s.messages.update p f hf, m.seq ≤ s.lastSeq := by
  intro m hm
  obtain ⟨old, hold, rfl⟩ := (Table.mem_update hf).1 hm
  split_ifs
  · rw [hf]
    exact h old hold
  · exact h old hold

/-- A column that holds no name is written. -/
theorem Indexed.updateMessage (h : s.Indexed nfc) {seq : ℕ} {f : Message → Message}
    (hf : ∀ m, (f m).seq = m.seq) (hkeys : ∀ m, (f m).keys nfc = m.keys nfc) :
    (s.updateMessage seq f hf).Indexed nfc :=
  ⟨h.exact.update hf fun m _ _ => hkeys m, numbered_update h.numbered hf⟩

theorem Indexed.pruneMessages (h : s.Indexed nfc) (p : Message → Bool)
    (deliveries : Table DeliveryRow DeliveryRow.key) :
    Indexed nfc { s with
      messages := s.messages.delete p
      deliveries := deliveries
      messageMentions := dropOrphans (s.messages.delete p) s.messageMentions } :=
  ⟨h.exact.delete p, fun m hm => h.numbered m (Table.mem_delete.1 hm).1⟩

theorem Indexed.handleSend (h : s.Indexed nfc) (frame : Send nfc) :
    (s.handleSend nfc frame).Indexed nfc := by
  have hsent : (s.sent nfc frame).Indexed nfc := (h.store rfl).ensureDirectedDeliveries _ _ _
  unfold Room.handleSend
  simp only
  split_ifs
  · exact hsent.pruneMessages _ _
  · exact hsent

theorem Indexed.storeReply (h : s.Indexed nfc) (author : Sender) (body : String)
    (mentions : List String) (targets : List AgentName) (now : Int) :
    (s.storeReply nfc author body mentions targets now).Indexed nfc :=
  (h.store rfl).ensureDirectedDeliveries _ _ _

theorem Indexed.review (h : s.Indexed nfc) (seq : ℕ) (approve : Bool) (reviewer : Sender)
    (body : String) (now : Int) : (s.review nfc seq approve reviewer body now).Indexed nfc := by
  unfold Room.review
  split
  · exact h
  · split_ifs
    · exact h
    · exact (h.updateMessage answered_seq fun _ => rfl).storeReply ..
    · exact (h.updateMessage answered_seq fun _ => rfl).storeReply ..

theorem Indexed.respond (h : s.Indexed nfc) (seq : ℕ) (responder : Sender) (body : String)
    (now : Int) : (s.respond nfc seq responder body now).Indexed nfc := by
  unfold Room.respond
  split
  · exact h
  · split_ifs
    · exact h
    · exact (h.updateMessage answered_seq fun _ => rfl).storeReply ..

theorem Indexed.edit (h : s.Indexed nfc) {editor : Sender} {body : String}
    (routing : RoutedMentionFrame nfc editor .message body) (seq : ℕ) (moderator : Bool)
    (now : Int) : (s.edit nfc routing seq moderator now).Indexed nfc := by
  unfold Room.edit
  split
  · exact h
  · rename_i m hm
    split_ifs
    · exact h
    · obtain ⟨hmem, hseq⟩ := Table.get?_eq_some.1 hm
      refine Indexed.ensureDirectedDeliveries ⟨?_, numbered_update h.numbered
        (edited_seq nfc s m routing)⟩ _ _ _
      refine h.exact.rebuild (edited_seq nfc s m routing) (fun old hold hold_seq => ?_)
        ⟨m, hmem, hseq⟩
      rw [Table.eq_of_key hold hmem (hold_seq.trans hseq.symm)]

theorem keys_scrubbed (body : String) (m : Message) : (scrubbed body m).keys nfc = ∅ := rfl

theorem Indexed.retract (h : s.Indexed nfc) (seq : ℕ) (now : Int) :
    (s.retract seq now).Indexed nfc := by
  unfold Room.retract
  split_ifs
  · refine ⟨h.exact.clear retracted_seq (fun m => keys_scrubbed "[retracted]" m) fun i k => ?_,
      numbered_update h.numbered retracted_seq⟩
    rw [mem_drop]
    refine and_congr_right fun hmem => ?_
    obtain ⟨m, hm, hseq, -⟩ := (h.exact i k).1 hmem
    constructor
    · rintro hne m' - rfl
      exact decide_eq_false hne
    · intro hkept hk
      exact absurd (hseq.trans hk) (of_decide_eq_false (hkept m hm hseq))
  · exact h

theorem mem_foldl_drop (seqs : List ℕ) (index : Finset (String × ℕ)) {key : String} {seq : ℕ} :
    (key, seq) ∈ seqs.foldl drop index ↔ (key, seq) ∈ index ∧ seq ∉ seqs := by
  induction seqs generalizing index with
  | nil => simp
  | cons q seqs ih => rw [List.foldl_cons, ih, mem_drop, List.mem_cons, not_or, and_assoc]

theorem Indexed.eraseIdentityData (h : s.Indexed nfc) (name : String) :
    (s.eraseIdentityData name).Indexed nfc := by
  refine ⟨h.exact.clear (scrubbed_seq ERASED) (keys_scrubbed ERASED) fun i k => ?_,
    numbered_update h.numbered (scrubbed_seq ERASED)⟩
  unfold Room.eraseIdentityData
  rw [mem_foldl_drop]
  refine and_congr_right fun _ => ?_
  simp only [List.mem_map, List.mem_filter, not_exists, not_and, and_imp]
  constructor
  · intro hnone m hm hseq
    exact Bool.eq_false_iff.2 fun herases => hnone m hm herases hseq
  · intro hkept m hm herases hseq
    rw [hkept m hm hseq] at herases
    cases herases

/-- Where the start-up fills in a tombstone, its names are mentioned already. -/
def Backfills (nfc : String → String) (s : Room) : Event nfc → Prop
  | .onStart => ∀ m ∈ s.messages, s.backfills m = true →
      ∀ r ∈ s.deliveriesOf m.seq, mentionMatchKey nfc r.targetName.val ∈ keysOf nfc m.mentions
  | _ => True

theorem Indexed.onStart (h : s.Indexed nfc) (hfills : s.Backfills nfc .onStart) :
    s.onStart.Indexed nfc := by
  refine ⟨h.exact.update s.backfilled_seq fun m hm hbackfills => ?_,
    numbered_update h.numbered s.backfilled_seq⟩
  have hempty : m.deliveryTargets = [] := by
    have hcond := hbackfills
    simp only [backfills, Bool.and_eq_true, List.isEmpty_iff] at hcond
    exact hcond.1.1
  have hrows : targetKeys nfc ((s.deliveriesOf m.seq).map (·.targetName)) ⊆ keysOf nfc m.mentions := by
    intro key hkey
    obtain ⟨t, ht, rfl⟩ := mem_targetKeys.1 hkey
    obtain ⟨r, hr, rfl⟩ := List.mem_map.1 ht
    exact hfills m hm hbackfills r hr
  have hnone : targetKeys nfc m.deliveryTargets = ∅ := by
    rw [hempty]
    rfl
  rw [Message.keys_eq, Message.keys_eq, hnone, Finset.union_empty]
  exact Finset.union_eq_left.2 hrows

theorem Indexed.next (h : s.Indexed nfc) (hfills : s.Backfills nfc e) :
    (s.next nfc e).Indexed nfc := by
  cases e with
  | nextSeq => exact ⟨h.exact, fun m hm => (h.numbered m hm).trans (Nat.le_succ _)⟩
  | send frame => exact h.handleSend frame
  | insertSystemStatus note mentions now => exact h.store rfl
  | review seq approve reviewer body now => exact h.review seq approve reviewer body now
  | respond seq responder body now => exact h.respond seq responder body now
  | edit seq editor moderator body routing now => exact h.edit routing seq moderator now
  | retract seq now => exact h.retract seq now
  | eraseIdentityData name => exact h.eraseIdentityData name
  | settle messageSeq targetName active now => exact ⟨h.exact, h.numbered⟩
  | invalidateDecision seq => exact h.updateMessage answered_seq fun _ => rfl
  | pruneDirectedDeliveryRetention kept now => exact ⟨h.exact, h.numbered⟩
  | pruneRetainedContent cutoff => exact h.pruneMessages _ _
  | onStart => exact h.onStart hfills

theorem run_indexed {evs : List (Event nfc)} {t : Room}
    (h : Run (Guarded (Step nfc) (Backfills nfc)) initial evs t) : t.Indexed nfc := by
  refine h.invariant (fun u e u' hu hstep => ?_) Indexed.initial
  obtain ⟨rfl, hfills⟩ := hstep
  exact hu.next hfills

/-- The messages of other senders above `since` that mention the name, in order. -/
def mentioning (nfc : String → String) (s : Room) (name : String) (since : ℕ) : List ℕ :=
  ((s.messages.rows.filter fun m => mentionMatchKey nfc name ∈ m.keys nfc && since < m.seq &&
    m.sender.name ≠ name).map (·.seq)).toFinset.sort (· ≤ ·)

theorem nextMention_eq (h : s.Indexed nfc) (name : String) (since : ℕ) :
    s.nextMention nfc name since = (s.mentioning nfc name since).take NEXT_MENTION_SCAN_LIMIT := by
  have hselect := h.exact.select (mentionMatchKey nfc name) (since < ·)
    fun m => decide (m.sender.name ≠ name)
  have hall : ∀ m ∈ s.nextMentionRows nfc name since,
      ((m.names nfc).any (mentionMatchKey nfc · = mentionMatchKey nfc name)) = true := by
    intro m hm
    obtain ⟨hfetched, -⟩ := List.mem_filter.1 (List.mem_of_mem_take hm)
    obtain ⟨k, hk, hget⟩ := List.mem_filterMap.1 hfetched
    obtain ⟨hlookup, -⟩ := Finset.mem_filter.1 ((Finset.mem_sort _).1 hk)
    obtain ⟨hmem, hseq⟩ := Table.get?_eq_some.1 hget
    obtain ⟨m', hm', hseq', hkey⟩ := h.exact.mem_lookup.1 hlookup
    rw [Table.eq_of_key hm' hmem (hseq'.trans hseq.symm)] at hkey
    obtain ⟨n, hn, hsame⟩ := mem_keysOf.1 hkey
    exact List.any_eq_true.2 ⟨n, hn, decide_eq_true hsame⟩
  rw [nextMention, List.filter_eq_self.2 hall, nextMentionRows, List.map_take, hselect, mentioning]

/-- The index is exact after every run, and the mentions it finds are the first ones. -/
theorem mention_index_exact {evs : List (Event nfc)} {t : Room}
    (h : Run (Guarded (Step nfc) (Backfills nfc)) initial evs t) :
    (∀ key seq, (key, seq) ∈ t.messageMentions ↔
      ∃ m ∈ t.messages, m.seq = seq ∧
        ∃ n ∈ m.mentions ++ m.deliveryTargets.map (·.val), mentionMatchKey nfc n = key) ∧
      ∀ name since, t.nextMention nfc name since =
        (t.mentioning nfc name since).take NEXT_MENTION_SCAN_LIMIT := by
  have hindexed := run_indexed h
  refine ⟨fun key seq => ?_, nextMention_eq hindexed⟩
  rw [hindexed.exact key seq]
  simp only [Message.keys_eq, targetKeys, ← keysOf_append, mem_keysOf]

instance (s : Room) (e : Event nfc) : Decidable (s.Backfills nfc e) := by
  cases e <;> unfold Backfills <;> infer_instance

/-- The agent whose completion is reviewed. -/
def author : AgentName := ⟨"bot", by decide⟩

def completion : Send id :=
  ⟨.agent author, .message, "done", ⟨["lead"], [], by decide, by decide⟩, true, 0⟩

/-- The author mentions somebody in a completion, and a start follows. -/
def restarted : List (Event id) :=
  [.send completion, .review 1 false (.human "lead") "@bot review rejected #1: tests" 1, .onStart]

theorem mention_index_exact_restarted : ∃ s, Run (Step id) initial restarted s ∧
    ("bot", 2) ∈ s.messageMentions ∧ s.nextMention id "bot" 0 = (s.mentioning id "bot" 0).take 200 ∧
    2 ∈ s.mentioning id "bot" 0 := by
  have hready : AllReady (Backfills id) (next id) initial restarted := by decide
  have hrun : Run (Guarded (Step id) (Backfills id)) initial restarted
      (restarted.foldl (next id) initial) := run_of_ready (fun _ _ h => ⟨rfl, h⟩) hready
  obtain ⟨hexact, hnext⟩ := mention_index_exact hrun
  have hbot : ("bot", 2) ∈ (restarted.foldl (next id) initial).messageMentions := by decide
  exact ⟨_, hrun.of_guarded, hbot, hnext "bot" 0, by decide +kernel⟩

/-- The approval mentions nobody, and its delivery becomes a target at the start. -/
def approvedAndRestarted : List (Event id) :=
  [.send completion, .review 1 true (.human "lead") "review approved #1" 1, .onStart]

theorem start_leaves_index_behind : ∃ s, Run (Step id) initial approvedAndRestarted s ∧
    (∃ m ∈ s.messages, m.seq = 2 ∧ m.deliveryTargets = [author]) ∧
    ("bot", 2) ∉ s.messageMentions ∧ s.mentioning id "bot" 0 = [2] ∧
    s.nextMention id "bot" 0 = [] := by
  have hstep (s : Room) (e : Event id) : Step id s e (s.next id e) := rfl
  have hrun := run_foldl hstep initial approvedAndRestarted
  exact ⟨_, hrun, by decide, by decide, by decide +kernel, by decide +kernel⟩

end Room

end Routing
end AgentParty
