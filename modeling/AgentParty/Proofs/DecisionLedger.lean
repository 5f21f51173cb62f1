import AgentParty.Decisions.Ledger
import AgentParty.Lib.Chain

/-! What the batch of a call does to the ledger, and the two invariants of its runs: the rows
of a topic form one chain whose end the head names, and a decision has one row as long as no
other call records it between a call's duplicate check and its read of the head. -/

namespace AgentParty
namespace Decisions

open EventSystem

namespace Ledger

variable {db db' : Ledger} {d : ChannelDecision}

theorem validateInsert_none (h : db.validateInsert d = .ok ()) (hd : d.supersedesId = none) :
    db.heads.get? d.subject = none ∧
      (db.heads.rows.filter (·.channelSlug = d.channelSlug)).length < CHANNEL_DECISION_ACTIVE_MAX := by
  unfold validateInsert at h
  split_ifs at h with h1 h2 h3 h4
  simp only [hd, true_and] at h2 h3
  exact ⟨by simpa using h2, by omega⟩

theorem validateInsert_some (h : db.validateInsert d = .ok ()) {old : String}
    (hd : d.supersedesId = some old) : ∃ head, db.heads.get? d.subject = some head ∧
      head.decisionId = old := by
  unfold validateInsert at h
  split_ifs at h with h1 h2 h3 h4
  simp only [hd, Option.isSome_some, true_and, not_not, Option.any_eq_true] at h4
  obtain ⟨head, hhead, hold⟩ := h4
  simp only [decide_eq_true_eq, Option.some.injEq] at hold
  exact ⟨head, hhead, hold.1.symm⟩

theorem checkInsert_fresh (h : db.checkInsert d = .ok ()) : db.decisions.get? d.id = none := by
  unfold checkInsert at h
  split_ifs at h
  simpa using ‹¬ (db.decisions.get? d.id).isSome›

theorem insertDecision_ok (h : db.insertDecision d = .ok db') :
    db.validateInsert d = .ok () ∧ db.checkInsert d = .ok () ∧
      db' = { db with decisions := db.decisions.insert d } := by
  unfold insertDecision at h
  cases hvalid : db.validateInsert d with
  | error e => simp [hvalid, bind, Except.bind] at h
  | ok u =>
    cases hcheck : db.checkInsert d with
    | error e => simp [hvalid, hcheck, bind, Except.bind] at h
    | ok v =>
      simp only [hvalid, hcheck, bind, Except.bind, pure, Except.pure, Except.ok.injEq] at h
      exact ⟨rfl, rfl, h.symm⟩

theorem insertHead_ok {head : DecisionHead} (h : db.insertHead head = .ok db') :
    db' = { db with heads := db.heads.put head } := by
  unfold insertHead at h
  split_ifs at h with hmatch htaken
  have hnone : (db.heads.get? head.subject).isSome = false := by simpa using htaken
  cases h
  simp [Table.put, hnone]

theorem updateHead_ok {head old : DecisionHead} (h : db.updateHead head old.decisionId = .ok db')
    (hold : db.heads.get? head.subject = some old) :
    db' = { db with heads := db.heads.put head } := by
  simp only [updateHead, hold, Option.filter_some, decide_true, if_true] at h
  split_ifs at h
  cases h
  rfl

/-- What a committed batch has found and done. -/
structure Files (db : Ledger) (d : ChannelDecision) (db' : Ledger) : Prop where
  fresh : db.decisions.get? d.id = none
  supersedes : d.supersedesId = (db.heads.get? d.subject).map (·.decisionId)
  limit : db.heads.get? d.subject = none →
    (db.heads.rows.filter (·.channelSlug = d.channelSlug)).length < CHANNEL_DECISION_ACTIVE_MAX
  eq : db' = { db with
    decisions := db.decisions.insert d
    heads := db.heads.put ⟨d.channelSlug, d.topic, d.id⟩ }

theorem batch_ok (h : db.batch d = .ok db') : Files db d db' := by
  unfold batch at h
  cases hinsert : db.insertDecision d with
  | error e => simp [hinsert, bind, Except.bind] at h
  | ok mid =>
    obtain ⟨hvalid, hcheck, rfl⟩ := insertDecision_ok hinsert
    have hfresh := checkInsert_fresh hcheck
    simp only [hinsert, bind, Except.bind] at h
    cases hsup : d.supersedesId with
    | none =>
      obtain ⟨hnone, hlimit⟩ := validateInsert_none hvalid hsup
      simp only [hsup] at h
      exact ⟨hfresh, by simp [hsup, hnone], fun _ => hlimit, insertHead_ok h⟩
    | some old =>
      obtain ⟨head, hhead, rfl⟩ := validateInsert_some hvalid hsup
      simp only [hsup] at h
      exact ⟨hfresh, by simp [hsup, hhead], by simp [hhead], updateHead_ok h hhead⟩

/-- The rows of a channel and topic. -/
def rowsOf (db : Ledger) (k : String × List Char) : List ChannelDecision :=
  Chain.ofClass ChannelDecision.subject db.decisions.rows k

/-- The head of a topic names the last row of its chain. -/
structure Chained (db : Ledger) : Prop where
  linked : ∀ k, Chain.Linked ChannelDecision.id ChannelDecision.supersedesId (db.rowsOf k)
  head : ∀ k, (db.heads.get? k).map (·.decisionId) = (db.rowsOf k).getLast?.map (·.id)
  limit : ∀ slug, (db.heads.rows.filter (·.channelSlug = slug)).length ≤ CHANNEL_DECISION_ACTIVE_MAX

theorem Chained.empty : Chained Ledger.empty where
  linked _ := Chain.linked_nil _ _
  head _ := rfl
  limit _ := by simp [Ledger.empty, Table.empty]

theorem Files.decisions_rows (h : Files db d db') :
    db'.decisions.rows = db.decisions.rows ++ [d] := by
  rw [h.eq]
  exact Table.insert_rows h.fresh

theorem Files.mem_decisions (h : Files db d db') {a : ChannelDecision} :
    a ∈ db'.decisions ↔ a ∈ db.decisions ∨ a = d := by
  rw [Table.mem_def, h.decisions_rows, List.mem_append, List.mem_singleton, Table.mem_def]

theorem Files.get?_heads (h : Files db d db') (k : String × List Char) :
    db'.heads.get? k = if k = d.subject then some ⟨d.channelSlug, d.topic, d.id⟩
      else db.heads.get? k := by
  rw [h.eq]
  exact Table.get?_put _ _

theorem filter_channel_length (heads : Table DecisionHead DecisionHead.subject) (slug : String) :
    (heads.rows.filter (·.channelSlug = slug)).length =
      (heads.rows.map DecisionHead.subject).countP (·.1 = slug) := by
  rw [List.countP_map, List.countP_eq_length_filter]
  rfl

theorem Files.limit_kept (h : Files db d db') (hdb : Chained db) (slug : String) :
    (db'.heads.rows.filter (·.channelSlug = slug)).length ≤ CHANNEL_DECISION_ACTIVE_MAX := by
  have hold := hdb.limit slug
  rw [h.eq]
  cases hhead : db.heads.get? d.subject with
  | some old =>
    have hkeys := Table.map_key_put (t := db.heads) (a := ⟨d.channelSlug, d.topic, d.id⟩)
      (by rw [show DecisionHead.subject ⟨d.channelSlug, d.topic, d.id⟩ = d.subject from rfl, hhead]; rfl)
    rw [filter_channel_length] at hold ⊢
    rw [hkeys]
    exact hold
  | none =>
    have hrows := Table.put_rows (t := db.heads) (a := ⟨d.channelSlug, d.topic, d.id⟩) hhead
    have hroom := h.limit hhead
    rw [hrows, List.filter_append, List.length_append]
    by_cases hslug : d.channelSlug = slug
    · subst hslug
      simp
      omega
    · simpa [hslug] using hold

theorem Files.chained (h : Files db d db') (hdb : Chained db) : Chained db' where
  linked k := by
    rw [rowsOf, h.decisions_rows]
    refine Chain.linked_ofClass_concat hdb.linked ?_ k
    rw [h.supersedes, hdb.head]
    rfl
  head k := by
    rw [h.get?_heads, rowsOf, h.decisions_rows]
    split_ifs with hk
    · subst hk
      rw [Chain.ofClass_concat_self]
      simp
    · rw [Chain.ofClass_concat_other hk]
      exact hdb.head k
  limit := h.limit_kept hdb

/-- Topics stay in their namespace and within their bound. -/
def TopicsAsked (db : Ledger) : Prop :=
  ∀ d ∈ db.decisions, bound DECISION_ASK_TOPIC_PREFIX <+: d.topic ∧
    utf8Length d.topic ≤ CHANNEL_DECISION_TOPIC_LIMIT

theorem Files.topicsAsked {r : ResolvedDecision} {id : String} {supersedesId : Option String}
    (h : Files db (r.input.row id supersedesId) db') (hdb : db.TopicsAsked) : db'.TopicsAsked := by
  intro d hd
  rcases h.mem_decisions.1 hd with hd | rfl
  · exact hdb d hd
  · refine ⟨?_, byteLength_decisionAskLedgerTopic r.prompt⟩
    exact (decisionAskLedgerTopic_prefix_of r.prompt).map CodePoint.encoded

end Ledger

namespace World

variable {w w' : World} {e : Event}

/-- The tables of the ledger. -/
def tables (w : World) :
    Table ChannelDecision ChannelDecision.id × Table DecisionHead DecisionHead.subject :=
  (w.db.decisions, w.db.heads)

@[simp] theorem move_db (call : WriteCall) (progress : Progress) : (w.move call progress).db = w.db :=
  rfl

@[simp] theorem skip_db (call : WriteCall) (id : Option String) (reason : DecisionLedgerSkipReason) :
    (w.skip call id reason).db = w.db :=
  rfl

theorem runExisting_db (call : WriteCall) : (w.runExisting call).db = w.db := by
  unfold runExisting
  split <;> rfl

theorem runFails_db (call : WriteCall) (message : String) : (w.runFails call message).db = w.db := by
  unfold runFails
  split <;> rfl

/-- The batch of a call has committed. -/
structure Commits (w : World) (e : Event) (call : WriteCall) (supersedesId : Option String)
    (id : String) (db : Ledger) : Prop where
  event : e = .batch call.id id
  waiting : call ∈ w.calls ∧ call.progress = .batch supersedesId
  files : Ledger.Files w.db (call.input.row id supersedesId) db
  next : w.next e = { w with db }.move call (.answered ⟨true, some id, call.input.topic, none⟩)

theorem take_cases (call : WriteCall) :
    (w.take call e).db = w.db ∨
      ∃ c id supersedesId db, e = .batch c id ∧ call.progress = .batch supersedesId ∧
        w.db.batch (call.input.row id supersedesId) = .ok db ∧
        w.take call e = { w with db }.move call (.answered ⟨true, some id, call.input.topic, none⟩) := by
  unfold take
  split
  · exact Or.inl (runExisting_db _)
  · exact Or.inl rfl
  · rename_i c input supersedesId c' id
    cases hbatch : w.db.batch (input.row id supersedesId) with
    | error error => exact Or.inl (by simp [runBatch, hbatch])
    | ok db => exact Or.inr ⟨c', id, supersedesId, db, rfl, rfl, hbatch, by simp [runBatch, hbatch]⟩
  · exact Or.inl rfl
  · exact Or.inl rfl
  · exact Or.inl (runFails_db _ _)
  · exact Or.inl rfl

/-- A step leaves the ledger's tables alone, unless the batch of its call commits. -/
theorem next_cases (w : World) (e : Event) :
    (w.next e).tables = w.tables ∨
      ∃ call supersedesId id db, Commits w e call supersedesId id db := by
  have hcall (c : ℕ) (call : WriteCall) (hget : w.calls.get? c = some call)
      (hnext : w.next e = w.take call e) (hcaller : ∀ c' id, e = .batch c' id → c' = c) :
      (w.next e).tables = w.tables ∨
        ∃ call supersedesId id db, Commits w e call supersedesId id db := by
    obtain ⟨hmem, rfl⟩ := Table.get?_eq_some.1 hget
    rcases take_cases (w := w) (e := e) call with hdb | ⟨c, id, sup, db, he, hprog, hbatch, htake⟩
    · exact Or.inl (by rw [hnext, tables, hdb, tables])
    · obtain rfl := hcaller c id he
      exact Or.inr ⟨call, sup, id, db, he, ⟨hmem, hprog⟩, Ledger.batch_ok hbatch, hnext.trans htake⟩
  cases e with
  | createChannel slug => exact Or.inl rfl
  | setArchived slug archivedAt => exact Or.inl rfl
  | call c decision => exact Or.inl rfl
  | selectExisting c | selectHead c | fails c message =>
    cases hget : w.calls.get? c with
    | none => exact Or.inl (by simp [next, hget])
    | some call => exact hcall c call hget (by simp [next, hget]) (by simp)
  | batch c id =>
    cases hget : w.calls.get? c with
    | none => exact Or.inl (by simp [next, hget])
    | some call => exact hcall c call hget (by simp [next, hget]) (by simp)

theorem Commits.db_eq {call : WriteCall} {supersedesId : Option String} {id : String} {db : Ledger}
    (h : Commits w e call supersedesId id db) : (w.next e).db = db := by
  rw [h.next]
  rfl

/-- What the tables alone decide holds on if a committed batch keeps it. -/
theorem tables_induct {P : Ledger → Prop}
    (hP : ∀ db db' : Ledger, db'.decisions = db.decisions → db'.heads = db.heads → P db → P db')
    (hfiles : ∀ call supersedesId id db, Commits w e call supersedesId id db → P w.db → P db)
    (h : P w.db) : P (w.next e).db := by
  rcases next_cases w e with htables | ⟨call, sup, id, db, hcommit⟩
  · exact hP _ _ (congrArg Prod.fst htables) (congrArg Prod.snd htables) h
  · rw [hcommit.db_eq]
    exact hfiles _ _ _ _ hcommit h

theorem mem_calls_move {call old : WriteCall} {progress : Progress}
    (h : call ∈ (w.move old progress).calls) :
    call = { old with progress } ∨ call ∈ w.calls :=
  (Table.mem_put.1 h).imp (fun h => h) And.left

/-- A call that has just read the head waits to write over it. -/
def ReadsHead (w : World) (e : Event) (old call : WriteCall) : Prop :=
  e = .selectHead old.id ∧ old.progress = .head ∧
    call.progress = .batch ((w.db.heads.get? old.input.subject).map (·.decisionId))

/-- Where the step of a call takes it. -/
def Continues (w : World) (e : Event) (old call : WriteCall) : Prop :=
  call.id = old.id ∧ call.input = old.input ∧
    ((∀ supersedesId, call.progress ≠ .batch supersedesId) ∨ ReadsHead w e old call)

theorem mem_calls_take {call old : WriteCall} (he : e.caller = some old.id)
    (h : call ∈ (w.take old e).calls) : call ∈ w.calls ∨ Continues w e old call := by
  have hmove (u : World) (hu : u.calls = w.calls) (progress : Progress)
      (hprog : (∀ supersedesId, progress ≠ .batch supersedesId) ∨
        ReadsHead w e old { old with progress })
      (h : call ∈ (u.move old progress).calls) : call ∈ w.calls ∨ Continues w e old call := by
    rcases mem_calls_move h with rfl | h
    · exact Or.inr ⟨rfl, rfl, hprog⟩
    · exact Or.inl (hu ▸ h)
  unfold take at h
  split at h
  · unfold runExisting at h
    split at h
    · exact hmove w rfl _ (Or.inl (by simp)) h
    · exact hmove w rfl _ (Or.inl (by simp)) h
  · refine hmove w rfl _ (Or.inr ⟨?_, rfl, rfl⟩) h
    simpa [Event.caller] using he
  · unfold runBatch at h
    split at h
    · exact hmove _ rfl _ (Or.inl (by simp)) h
    · exact hmove w rfl _ (Or.inl (by simp)) h
  · exact Or.inl h
  · exact Or.inl h
  · unfold runFails at h
    split at h
    · exact hmove w rfl _ (Or.inl (by simp)) h
    · exact hmove w rfl _ (Or.inl (by simp)) h
  · exact Or.inl h

/-- A call keeps its input, and only its own steps move it. -/
theorem mem_calls_next {call : WriteCall} (h : call ∈ (w.next e).calls) :
    call ∈ w.calls ∨ (∃ c decision, e = .call c decision ∧ call = ⟨c, decision.input, .existing⟩) ∨
      ∃ old ∈ w.calls, Continues w e old call := by
  have hown (c : ℕ) (hcaller : e.caller = some c)
      (hnext : w.next e = (w.calls.get? c).elim w fun call => w.take call e) :
      call ∈ w.calls ∨ ∃ old ∈ w.calls, Continues w e old call := by
    rw [hnext] at h
    cases hget : w.calls.get? c with
    | none => exact Or.inl (by rwa [hget] at h)
    | some old =>
      rw [hget] at h
      obtain ⟨hmem, rfl⟩ := Table.get?_eq_some.1 hget
      exact (mem_calls_take hcaller h).imp (fun h => h) fun h => ⟨old, hmem, h⟩
  cases e with
  | createChannel slug => exact Or.inl h
  | setArchived slug archivedAt => exact Or.inl h
  | call c decision =>
    rcases Table.mem_insert.1 h with h | ⟨rfl, -⟩
    · exact Or.inl h
    · exact Or.inr (Or.inl ⟨c, decision, rfl, rfl⟩)
  | selectExisting c | selectHead c | batch c id | fails c message =>
    refine (hown c rfl ?_).imp (fun h => h) Or.inr
    cases hget : w.calls.get? c <;> simp [next, hget]

/-- The inputs are those of answered requests. -/
def Asked (w : World) : Prop := ∀ call ∈ w.calls, ∃ r : ResolvedDecision, call.input = r.input

theorem Asked.next (h : w.Asked) (e : Event) : (w.next e).Asked := by
  intro call hcall
  rcases mem_calls_next hcall with hcall | ⟨c, decision, -, rfl⟩ | ⟨old, hold, -, hinput, -⟩
  · exact h call hcall
  · exact ⟨decision, rfl⟩
  · exact hinput ▸ h old hold

/-- What holds of every database a run reaches. -/
structure Sound (w : World) : Prop where
  asked : w.Asked
  chained : w.db.Chained
  topics : w.db.TopicsAsked

theorem Sound.initial : Sound World.initial where
  asked := fun _ h => absurd h (Table.not_mem_empty _)
  chained := Ledger.Chained.empty
  topics := fun _ h => absurd h (Table.not_mem_empty _)

theorem chained_of_tables {db db' : Ledger} (hd : db'.decisions = db.decisions)
    (hh : db'.heads = db.heads) (h : db.Chained) : db'.Chained where
  linked k := by
    rw [Ledger.rowsOf, hd]
    exact h.linked k
  head k := by
    rw [Ledger.rowsOf, hd, hh]
    exact h.head k
  limit slug := by
    rw [hh]
    exact h.limit slug

theorem Sound.next (h : w.Sound) (e : Event) : (w.next e).Sound where
  asked := h.asked.next e
  chained := tables_induct (P := Ledger.Chained) (fun _ _ => chained_of_tables)
    (fun _ _ _ _ hcommit hdb => hcommit.files.chained hdb) h.chained
  topics := by
    refine tables_induct (P := Ledger.TopicsAsked) (fun db db' hd _ hdb d hmem => ?_) ?_ h.topics
    · exact hdb d (hd ▸ hmem)
    · intro call sup id db hcommit hdb
      obtain ⟨r, hr⟩ := h.asked call hcommit.waiting.1
      exact (hr ▸ hcommit.files).topicsAsked hdb

theorem Sound.of_run {evs : List Event} (h : Run Step World.initial evs w) : w.Sound :=
  h.invariant (fun _ e _ hs hstep => hstep ▸ hs.next e) Sound.initial

/-- No row is changed or removed. -/
theorem decisions_prefix_next (w : World) (e : Event) :
    w.db.decisions.rows <+: (w.next e).db.decisions.rows := by
  rcases next_cases w e with htables | ⟨call, sup, id, db, hcommit⟩
  · rw [show (w.next e).db.decisions = w.db.decisions from congrArg Prod.fst htables]
  · rw [hcommit.db_eq, hcommit.files.decisions_rows]
    exact List.prefix_append _ _

theorem decisions_prefix {evs : List Event} (h : Run Step w evs w') :
    w.db.decisions.rows <+: w'.db.decisions.rows :=
  h.rel (R := fun w w' => w.db.decisions.rows <+: w'.db.decisions.rows)
    (fun _ => List.prefix_refl _)
    fun _ t e _ hr hstep => hstep ▸ hr.trans (decisions_prefix_next t e)

theorem mem_calls_take_other {call old : WriteCall} (h : call ∈ w.calls) (hne : call.id ≠ old.id) :
    call ∈ (w.take old e).calls := by
  have hmove (u : World) (hu : u.calls = w.calls) (progress : Progress) :
      call ∈ (u.move old progress).calls :=
    Table.mem_put.2 (Or.inr ⟨hu ▸ h, hne⟩)
  unfold take
  split
  · unfold runExisting
    split <;> exact hmove w rfl _
  · exact hmove w rfl _
  · unfold runBatch
    split
    · exact hmove _ rfl _
    · exact hmove w rfl _
  · exact h
  · exact h
  · unfold runFails
    split <;> exact hmove w rfl _
  · exact h

/-- The calls for one decision carry one topic, and no row of a decision is committed between
a call's duplicate check and its read of the head. -/
def Orderly (w : World) : Event → Prop
  | .call _ decision => ∀ call ∈ w.calls, call.input.slug = decision.channelSlug →
      call.input.seq = decision.seq → call.input.subject = decision.input.subject
  | .selectHead c => ∀ call ∈ w.calls, call.id = c →
      ∀ d ∈ w.db.decisions, ¬ call.input.RecordedBy d
  | _ => True

instance (w : World) : DecidablePred w.Orderly := fun e => by
  cases e <;> unfold Orderly <;> infer_instance

/-- The batch that waits finds no row of its decision, or another head than the one it read. -/
def Safe (w : World) (call : WriteCall) (supersedesId : Option String) : Prop :=
  (∀ id, supersedesId = some id → (w.db.decisions.get? id).isSome) ∧
    ((∀ d ∈ w.db.decisions, ¬ call.input.RecordedBy d) ∨
      supersedesId ≠ (w.db.heads.get? call.input.subject).map (·.decisionId))

structure Once (w : World) : Prop where
  topics : ∀ a ∈ w.calls, ∀ b ∈ w.calls, a.input.slug = b.input.slug → a.input.seq = b.input.seq →
    a.input.subject = b.input.subject
  waiting : ∀ call ∈ w.calls, ∀ supersedesId, call.progress = .batch supersedesId →
    w.Safe call supersedesId
  once : ∀ d ∈ w.db.decisions, ∀ d' ∈ w.db.decisions, d.channelSlug = d'.channelSlug →
    d.sourceSeq = d'.sourceSeq → d = d'

theorem Once.initial : Once World.initial where
  topics := fun _ h => absurd h (Table.not_mem_empty _)
  waiting := fun _ h => absurd h (Table.not_mem_empty _)
  once := fun _ h => absurd h (Table.not_mem_empty _)

theorem Once.topics_next (h : w.Once) (hord : w.Orderly e) :
    ∀ a ∈ (w.next e).calls, ∀ b ∈ (w.next e).calls, a.input.slug = b.input.slug →
      a.input.seq = b.input.seq → a.input.subject = b.input.subject := by
  -- every call is one of the old inputs, or the one that has just come
  have hcases : ∀ a ∈ (w.next e).calls, (∃ old ∈ w.calls, a.input = old.input) ∨
      ∃ c decision, e = .call c decision ∧ a.input = decision.input := by
    intro a ha
    rcases mem_calls_next ha with ha | ⟨c, decision, he, rfl⟩ | ⟨old, hold, -, hinput, -⟩
    · exact Or.inl ⟨a, ha, rfl⟩
    · exact Or.inr ⟨c, decision, he, rfl⟩
    · exact Or.inl ⟨old, hold, hinput⟩
  intro a ha b hb hslug hseq
  rcases hcases a ha with ⟨old, hold, heq⟩ | ⟨c, decision, he, heq⟩ <;>
    rcases hcases b hb with ⟨old', hold', heq'⟩ | ⟨c', decision', he', heq'⟩ <;>
    rw [heq, heq'] at hslug hseq ⊢
  · exact h.topics old hold old' hold' hslug hseq
  · subst he'
    exact hord old hold hslug hseq
  · subst he
    exact (hord old' hold' hslug.symm hseq.symm).symm
  · rw [he, Event.call.injEq] at he'
    rw [he'.2]

theorem head_in_decisions (h : w.db.Chained) {k : String × List Char} {head : DecisionHead}
    (hhead : w.db.heads.get? k = some head) : (w.db.decisions.get? head.decisionId).isSome := by
  have hlast := h.head k
  rw [hhead, Option.map_some, eq_comm, Option.map_eq_some_iff] at hlast
  obtain ⟨d, hd, hid⟩ := hlast
  have hmem : d ∈ w.db.decisions := (Chain.mem_ofClass.1 (List.mem_of_getLast? hd)).1
  rw [← hid, Table.get?_key hmem]
  rfl

/-- A step without a commit leaves every waiting batch safe. -/
theorem Once.waiting_kept (h : w.Once) (hsound : w.Sound) (hord : w.Orderly e)
    (htables : (w.next e).tables = w.tables) :
    ∀ call ∈ (w.next e).calls, ∀ supersedesId, call.progress = .batch supersedesId →
      (w.next e).Safe call supersedesId := by
  have hd : (w.next e).db.decisions = w.db.decisions := congrArg Prod.fst htables
  have hh : (w.next e).db.heads = w.db.heads := congrArg Prod.snd htables
  intro call hcall sup hprog
  unfold Safe
  rw [hd, hh]
  rcases mem_calls_next hcall with hcall | ⟨c, decision, -, rfl⟩ | ⟨old, hold, -, hinput, hcont⟩
  · exact h.waiting call hcall sup hprog
  · simp at hprog
  · rcases hcont with hother | ⟨rfl, -, hread⟩
    · exact absurd hprog (hother sup)
    · rw [hread, Progress.batch.injEq] at hprog
      subst hprog
      refine ⟨fun id hid => ?_, Or.inl ?_⟩
      · rw [Option.map_eq_some_iff] at hid
        obtain ⟨head, hhead, rfl⟩ := hid
        exact head_in_decisions hsound.chained hhead
      · rw [hinput]
        exact hord old hold rfl

section Commit

variable {call : WriteCall} {supersedesId : Option String} {id : String} {db : Ledger}

theorem Commits.unrecorded (hcommit : Commits w e call supersedesId id db) (h : w.Once) :
    ∀ d ∈ w.db.decisions, ¬ call.input.RecordedBy d := by
  obtain ⟨hmem, hprog⟩ := hcommit.waiting
  rcases (h.waiting call hmem _ hprog).2 with hnone | hhead
  · exact hnone
  · exact absurd hcommit.files.supersedes hhead

/-- A commit leaves the other waiting batches safe: in its topic they have read an older head,
and elsewhere it is about another decision. -/
theorem Commits.others_safe (hcommit : Commits w e call supersedesId id db) (h : w.Once) :
    ∀ other ∈ (w.next e).calls, ∀ sup, other.progress = .batch sup → (w.next e).Safe other sup := by
  intro other hother sup hprog
  have hmem : other ∈ w.calls := by
    rcases mem_calls_next hother with hmem | ⟨c, decision, -, rfl⟩ | ⟨old, -, -, -, hcont⟩
    · exact hmem
    · simp at hprog
    · rcases hcont with hanswered | ⟨he, -⟩
      · exact absurd hprog (hanswered sup)
      · rw [hcommit.event] at he
        cases he
  obtain ⟨hknown, hsafe⟩ := h.waiting other hmem sup hprog
  have hfiles := hcommit.files
  unfold Safe
  rw [hcommit.db_eq]
  refine ⟨fun x hx => ?_, ?_⟩
  · obtain ⟨d, hd⟩ := Option.isSome_iff_exists.1 (hknown x hx)
    obtain ⟨hmem', rfl⟩ := Table.get?_eq_some.1 hd
    rw [Table.get?_key (hfiles.mem_decisions.2 (Or.inl hmem'))]
    rfl
  · rw [hfiles.get?_heads]
    by_cases hsubject : other.input.subject = (call.input.row id supersedesId).subject
    · right
      rw [if_pos hsubject, Option.map_some]
      intro hsup
      have hfresh := hfiles.fresh
      have := hknown _ hsup
      simp [hfresh] at this
    · rw [if_neg hsubject]
      refine hsafe.imp (fun hnone d hd => ?_) fun hne => hne
      rcases hfiles.mem_decisions.1 hd with hd | rfl
      · exact hnone d hd
      · rintro ⟨hslug, hseq⟩
        exact hsubject (h.topics other hmem call hcommit.waiting.1 hslug.symm
          (Option.some.inj hseq).symm)

end Commit

theorem Once.next (h : w.Once) (hsound : w.Sound) (hord : w.Orderly e) : (w.next e).Once := by
  rcases next_cases w e with htables | ⟨call, sup, id, db, hcommit⟩
  · have hd : (w.next e).db.decisions = w.db.decisions := congrArg Prod.fst htables
    exact
      { topics := h.topics_next hord
        waiting := h.waiting_kept hsound hord htables
        once := hd ▸ h.once }
  · have hnew := hcommit.unrecorded h
    refine ⟨h.topics_next hord, hcommit.others_safe h, ?_⟩
    rw [hcommit.db_eq]
    intro d hd d' hd' hslug hseq
    rcases hcommit.files.mem_decisions.1 hd with hd | rfl <;>
      rcases hcommit.files.mem_decisions.1 hd' with hd' | rfl
    · exact h.once d hd d' hd' hslug hseq
    · exact absurd ⟨hslug, hseq⟩ (hnew d hd)
    · exact absurd ⟨hslug.symm, hseq.symm⟩ (hnew d' hd')
    · rfl

theorem Once.of_run {evs : List Event} (h : Run (Guarded Step Orderly) World.initial evs w) :
    w.Once := by
  have hboth : w.Once ∧ w.Sound :=
    h.invariant (I := fun w => w.Once ∧ w.Sound)
      (fun _ e _ hi hs => by
        obtain ⟨rfl, hord⟩ := hs
        exact ⟨hi.1.next hi.2 hord, hi.2.next e⟩)
      ⟨Once.initial, Sound.initial⟩
  exact hboth.1

/-- What a call has answered. -/
def answer (w : World) (c : ℕ) : Option DecisionLedgerWriteResult :=
  (w.calls.get? c).bind fun call =>
    match call.progress with
    | .answered result => some result
    | _ => none

theorem answer_eq_some {c : ℕ} {result : DecisionLedgerWriteResult} :
    w.answer c = some result ↔ ∃ call ∈ w.calls, call.id = c ∧ call.progress = .answered result := by
  simp only [answer, Option.bind_eq_some_iff, Table.get?_eq_some]
  constructor
  · rintro ⟨call, ⟨hcall, hid⟩, hresult⟩
    split at hresult
    · rename_i result' hprog
      cases hresult
      exact ⟨call, hcall, hid, hprog⟩
    · cases hresult
  · rintro ⟨call, hcall, hid, hprog⟩
    exact ⟨call, ⟨hcall, hid⟩, by simp [hprog]⟩

/-- An answer stands. -/
theorem answer_next {c : ℕ} {result : DecisionLedgerWriteResult} (h : w.answer c = some result)
    (e : Event) : (w.next e).answer c = some result := by
  obtain ⟨call, hcall, hid, hprog⟩ := answer_eq_some.1 h
  refine answer_eq_some.2 ⟨call, ?_, hid, hprog⟩
  cases e with
  | createChannel slug => exact hcall
  | setArchived slug archivedAt => exact hcall
  | call c decision => exact Table.mem_insert.2 (Or.inl hcall)
  | selectExisting c | selectHead c | batch c id | fails c message =>
    simp only [next]
    split
    · rename_i old hget
      obtain ⟨hold, rfl⟩ := Table.get?_eq_some.1 hget
      by_cases hsame : call.id = old.id
      · obtain rfl := Table.eq_of_key hcall hold hsame
        obtain ⟨n, input, progress⟩ := call
        obtain rfl : progress = .answered result := hprog
        exact hcall
      · exact mem_calls_take_other hcall hsame
    · exact hcall

theorem answer_run (evs : List Event) {c : ℕ} {result : DecisionLedgerWriteResult}
    (h : w.answer c = some result) : (evs.foldl next w).answer c = some result := by
  induction evs generalizing w with
  | nil => exact h
  | cons e evs ih => exact ih (answer_next h e)

theorem Commits.answer {call : WriteCall} {supersedesId : Option String} {id : String} {db : Ledger}
    (h : Commits w e call supersedesId id db) :
    (w.next e).answer call.id = some ⟨true, some id, call.input.topic, none⟩ := by
  rw [h.next]
  exact answer_eq_some.2 ⟨_, Table.mem_put.2 (Or.inl rfl), rfl, rfl⟩

/-- The call answers that it recorded nothing. -/
def Refused (w : World) (c : ℕ) : Prop := ∃ result, w.answer c = some result ∧ result.recorded = false

theorem refused_leaves_tables {evs : List Event} {c : ℕ} (hrefused : (evs.foldl next w).Refused c)
    {before : List Event} (hbefore : before ++ [e] <+: evs) (hcaller : e.caller = some c) :
    ((before ++ [e]).foldl next w).tables = (before.foldl next w).tables := by
  obtain ⟨after, rfl⟩ := hbefore
  rw [List.foldl_append] at hrefused
  rw [List.foldl_append, List.foldl_cons, List.foldl_nil]
  rcases next_cases (before.foldl next w) e with htables | ⟨call, sup, id, db, hcommit⟩
  · exact htables
  · exfalso
    obtain rfl : c = call.id := by
      rw [hcommit.event] at hcaller
      exact (Option.some.inj hcaller).symm
    obtain ⟨result, hresult, hrecorded⟩ := hrefused
    have hanswer := answer_run after hcommit.answer
    rw [List.foldl_append, List.foldl_cons, List.foldl_nil, hanswer, Option.some.injEq] at hresult
    subst hresult
    cases hrecorded

end World

theorem run_events (evs : List Event) :
    Run World.Step World.initial evs (evs.foldl World.next World.initial) :=
  have hstep : ∀ w e, World.Step w e (World.next w e) := fun _ _ => rfl
  run_foldl hstep _ _

/-- In every run of calls, the rows of a topic form one chain whose last row the one head of
the topic names; a channel has at most a hundred heads, rows stay as they were written, and
topics stay in their namespace and within their bound. -/
theorem one_chain_per_topic {evs : List Event} {w : World} (h : Run World.Step World.initial evs w) :
    (∀ slug topic, ∃ rows,
      rows = w.db.decisions.rows.filter (fun d => d.channelSlug = slug ∧ noCase d.topic = noCase topic) ∧
      Chain.Linked ChannelDecision.id ChannelDecision.supersedesId rows ∧
      (w.db.heads.rows.filter fun h => h.channelSlug = slug ∧ noCase h.topic = noCase topic).map
        (·.decisionId) = (rows.getLast?.map (·.id)).toList) ∧
    (∀ slug, (w.db.heads.rows.filter (·.channelSlug = slug)).length ≤ CHANNEL_DECISION_ACTIVE_MAX) ∧
    (∀ evs' w', Run World.Step w evs' w' → w.db.decisions.rows <+: w'.db.decisions.rows) ∧
    ∀ d ∈ w.db.decisions, bound DECISION_ASK_TOPIC_PREFIX <+: d.topic ∧
      utf8Length d.topic ≤ CHANNEL_DECISION_TOPIC_LIMIT := by
  have hsound := World.Sound.of_run h
  refine ⟨fun slug topic => ⟨_, rfl, ?_⟩, hsound.chained.limit,
    fun _ _ => World.decisions_prefix, hsound.topics⟩
  have hrows : w.db.decisions.rows.filter (fun d => d.channelSlug = slug ∧ noCase d.topic = noCase topic) =
      w.db.rowsOf (slug, noCase topic) :=
    List.filter_congr fun d _ => by simp [ChannelDecision.subject]
  have hheads : (w.db.heads.rows.filter fun h => h.channelSlug = slug ∧ noCase h.topic = noCase topic) =
      (w.db.heads.get? (slug, noCase topic)).toList := by
    rw [← Table.filter_key]
    exact List.filter_congr fun h _ => by simp [DecisionHead.subject]
  rw [hrows, hheads]
  refine ⟨hsound.chained.linked _, ?_⟩
  rw [← hsound.chained.head, Option.toList_map]

/-- The owner's approval of a request. -/
def approved (seq : ℕ) (prompt : String) : ResolvedDecision :=
  ⟨"general", seq, js prompt, .approval, 0, js "yes", none, "owner", .human, 100⟩

/-- Two decisions of one topic, spelt alike up to case. -/
def twoApprovals : List Event :=
  [.createChannel "general", .call 0 (approved 7 "Ship it?"), .selectExisting 0, .selectHead 0,
    .batch 0 "decision_a", .call 1 (approved 9 "SHIP it?"), .selectExisting 1, .selectHead 1,
    .batch 1 "decision_b"]

theorem one_chain_per_topic_two : ∃ w, Run World.Step World.initial twoApprovals w ∧
    w.db.decisions.rows.length = 2 ∧
    (∃ rows, rows = w.db.decisions.rows.filter
        (fun d => d.channelSlug = "general" ∧ noCase d.topic = noCase "ask:ship IT?".toList) ∧
      Chain.Linked ChannelDecision.id ChannelDecision.supersedesId rows ∧
      (w.db.heads.rows.filter fun h => h.channelSlug = "general" ∧
        noCase h.topic = noCase "ask:ship IT?".toList).map (·.decisionId) =
        (rows.getLast?.map (·.id)).toList) ∧
    w.db.heads.rows.map (·.decisionId) = ["decision_b"] := by
  have hrun := run_events twoApprovals
  exact ⟨_, hrun, by decide, (one_chain_per_topic hrun).1 _ _, by decide⟩

/-- A refused call leaves both tables alone; and where the calls of a decision carry one
topic and none of them reads the head after another has recorded the decision, each decision
has at most one row. -/
theorem one_row_per_decision {evs : List Event} {w : World}
    (h : Run World.Step World.initial evs w) :
    (∀ c, w.Refused c → ∀ before e, before ++ [e] <+: evs → e.caller = some c →
      ((before ++ [e]).foldl World.next World.initial).tables =
        (before.foldl World.next World.initial).tables) ∧
    (Run (Guarded World.Step World.Orderly) World.initial evs w →
      ∀ d ∈ w.db.decisions, ∀ d' ∈ w.db.decisions, d.channelSlug = d'.channelSlug →
        d.sourceSeq = d'.sourceSeq → d = d') := by
  refine ⟨fun c hrefused before e hbefore hcaller => ?_,
    fun hguarded => (World.Once.of_run hguarded).once⟩
  rw [h.eq_foldl fun _ _ _ hstep => hstep] at hrefused
  exact World.refused_leaves_tables hrefused hbefore hcaller

/-- The second call commits after the first one's duplicate check. -/
def overlappingRetries : List Event :=
  [.createChannel "general", .call 0 (approved 7 "Ship it?"), .call 1 (approved 7 "Ship it?"),
    .selectExisting 0, .selectExisting 1, .selectHead 1, .batch 1 "decision_b", .selectHead 0,
    .batch 0 "decision_a"]

/-- Here the first call has read the head as well. -/
def refusedRetry : List Event :=
  [.createChannel "general", .call 0 (approved 7 "Ship it?"), .call 1 (approved 7 "Ship it?"),
    .selectExisting 0, .selectExisting 1, .selectHead 1, .selectHead 0, .batch 1 "decision_b",
    .batch 0 "decision_a", .call 2 (approved 9 "SHIP it?"), .selectExisting 2, .selectHead 2,
    .batch 2 "decision_c"]

theorem one_row_per_decision_refused : ∃ evs w, Run World.Step World.initial evs w ∧ w.Refused 0 ∧
    (∀ before e, before ++ [e] <+: evs → e.caller = some 0 →
      ((before ++ [e]).foldl World.next World.initial).tables =
        (before.foldl World.next World.initial).tables) ∧
    w.db.decisions.rows.length = 2 ∧
    ∀ d ∈ w.db.decisions, ∀ d' ∈ w.db.decisions, d.channelSlug = d'.channelSlug →
      d.sourceSeq = d'.sourceSeq → d = d' := by
  have hrun := run_events refusedRetry
  have hready : AllReady World.Orderly World.next World.initial refusedRetry := by decide
  have hguarded : Run (Guarded World.Step World.Orderly) World.initial refusedRetry
      (refusedRetry.foldl World.next World.initial) :=
    run_of_ready (fun _ _ h => ⟨rfl, h⟩) hready
  have hrefused : (refusedRetry.foldl World.next World.initial).Refused 0 :=
    ⟨_, (by decide : _ = some ⟨false, none, decisionAskLedgerTopic (js "Ship it?"), some .conflict⟩), rfl⟩
  exact ⟨_, _, hrun, hrefused, (one_row_per_decision hrun).1 0 hrefused, by decide,
    (one_row_per_decision hrun).2 hguarded⟩

/-- Both retries record the decision, the second one over the first one's row. -/
theorem recorded_twice : ∃ w, Run World.Step World.initial overlappingRetries w ∧
    w.answer 0 = some ⟨true, some "decision_a", decisionAskLedgerTopic (js "Ship it?"), none⟩ ∧
    w.answer 1 = some ⟨true, some "decision_b", decisionAskLedgerTopic (js "Ship it?"), none⟩ ∧
    w.db.decisions.rows.map (fun d => (d.id, d.channelSlug, d.sourceSeq, d.supersedesId)) =
      [("decision_b", "general", some 7, none),
        ("decision_a", "general", some 7, some "decision_b")] :=
  ⟨_, run_events _, by decide⟩

end Decisions
end AgentParty
