import AgentParty.Web.SessionOutputStore
import AgentParty.Proofs.SessionView
import AgentParty.Lib.Recent

/-! The ring and its tables hold the same sessions after every call, so that a ring loaded from
the tables answers like the one it replaces. -/

namespace AgentParty
namespace Web

open EventSystem (AllReady)

@[simp] theorem SessionEntry.row_name (e : SessionEntry) : e.row.name = e.name := rfl

@[simp] theorem SessionEntry.entry_row (e : SessionEntry) (lines : List SessionOutputLine) :
    e.row.entry lines = { e with lines := lines } := rfl

theorem SessionEntry.disconnected_name (e : SessionEntry) (now : Int) :
    (e.disconnected now).name = e.name := rfl

@[simp] theorem SessionRow.entry_name (row : SessionRow) (lines : List SessionOutputLine) :
    (row.entry lines).name = row.name := rfl

@[simp] theorem SessionRow.entry_lines (row : SessionRow) (lines : List SessionOutputLine) :
    (row.entry lines).lines = lines := rfl

namespace SessionOutputStore

variable {store : SessionOutputStore} {entry : SessionEntry} {name : String}

/-- All lines of an agent. -/
def linesOf (store : SessionOutputStore) (name : String) : List SessionOutputLine :=
  (store.lines.filter fun l => l.name = name).map StoredLine.line

/-- The entry that is loaded for an agent. -/
def loaded? (store : SessionOutputStore) (name : String) : Option SessionEntry :=
  (store.sessions.get? name).map fun row => row.entry (ringLines (store.linesOf name))

/-- The ids are a key. -/
structure Numbered (store : SessionOutputStore) : Prop where
  nodup : (store.lines.map StoredLine.id).Nodup
  le_lastId : ∀ l ∈ store.lines, l.id ≤ store.lastId

/-- No agent has more rows than are loaded. -/
def Trimmed (store : SessionOutputStore) : Prop :=
  ∀ name, (store.linesOf name).length ≤ SESSION_OUTPUT_RING_LINES

theorem ringLines_eq (lines : List SessionOutputLine) :
    ringLines lines = lines.rtake SESSION_OUTPUT_RING_LINES := rfl

theorem ringLines_ringLines_append (lines lines' : List SessionOutputLine) :
    ringLines (ringLines lines ++ lines') = ringLines (lines ++ lines') :=
  Recent.rtake_rtake_append _ _ _

theorem ringLines_ringLines (lines : List SessionOutputLine) :
    ringLines (ringLines lines) = ringLines lines :=
  Recent.rtake_eq_self (length_ringLines lines)

theorem ringLines_map (lines : List StoredLine) :
    ringLines (lines.map StoredLine.line) =
      (lines.rtake SESSION_OUTPUT_RING_LINES).map StoredLine.line := by
  rw [ringLines_eq, List.rtake, List.rtake, List.map_drop, List.length_map]

theorem reverse_latest (store : SessionOutputStore) (name : String) :
    (store.latest name).reverse =
      (store.lines.filter fun l => l.name = name).rtake SESSION_OUTPUT_RING_LINES := by
  rw [List.rtake_eq_reverse_take_reverse, latest]

theorem map_line_latest (store : SessionOutputStore) (name : String) :
    (store.latest name).reverse.map StoredLine.line = ringLines (store.linesOf name) := by
  rw [reverse_latest, linesOf, ringLines_map]

theorem get?_loadAll (store : SessionOutputStore) (name : String) :
    store.loadAll.get? name = store.loaded? name := by
  cases h : store.sessions.get? name with
  | none =>
    rw [loaded?, h, Option.map_none, Table.get?_eq_none]
    intro e he
    obtain ⟨row, hrow, rfl⟩ := List.mem_map.1 he
    exact Table.get?_eq_none.1 h row hrow
  | some row =>
    obtain ⟨hrow, rfl⟩ := Table.get?_eq_some.1 h
    rw [loaded?, h, Option.map_some, Table.get?_eq_some, ← map_line_latest]
    exact ⟨List.mem_map.2 ⟨row, hrow, rfl⟩, rfl⟩

section Lines

theorem linesOf_updateMeta (m : String) : (store.updateMeta entry).linesOf m = store.linesOf m :=
  rfl

theorem linesOf_filter_ne (m : String) :
    linesOf { store with lines := store.lines.filter fun l => l.name ≠ name } m =
      if m = name then [] else store.linesOf m := by
  simp only [linesOf, List.filter_filter]
  split_ifs with h
  · subst h
    rw [List.map_eq_nil_iff, List.filter_eq_nil_iff]
    intro l _
    simp
  · refine congrArg (List.map StoredLine.line) (List.filter_congr fun l _ => ?_)
    by_cases hl : l.name = m
    · simp [hl, h]
    · simp [hl]

theorem linesOf_insertLine (line : SessionOutputLine) (m : String) :
    (insertLine name store line).linesOf m =
      store.linesOf m ++ if m = name then [line] else [] := by
  simp only [linesOf, insertLine, List.filter_append, List.map_append]
  split_ifs with h
  · simp [h]
  · simp [Ne.symm h]

theorem linesOf_insertLines (lines : List SessionOutputLine) (m : String) :
    (lines.foldl (insertLine name) store).linesOf m =
      store.linesOf m ++ if m = name then lines else [] := by
  induction lines generalizing store with
  | nil => simp
  | cons line lines ih =>
    rw [List.foldl_cons, ih, linesOf_insertLine]
    split_ifs <;> simp

theorem linesOf_trim (h : Numbered store) (m : String) :
    (store.trim name).linesOf m =
      if m = name then ringLines (store.linesOf m) else store.linesOf m := by
  simp only [linesOf, trim, List.filter_filter]
  split_ifs with hm
  · subst hm
    have hkeys : ((store.lines.filter fun l => l.name = m).map StoredLine.id).Nodup :=
      h.nodup.sublist (List.filter_sublist.map _)
    have hkept : ∀ id, id ∈ (store.latest m).map StoredLine.id ↔
        id ∈ ((store.lines.filter fun l => l.name = m).rtake SESSION_OUTPUT_RING_LINES).map
          StoredLine.id := by
      intro id
      rw [← reverse_latest, List.map_reverse, List.mem_reverse]
    rw [ringLines_map, ← Recent.filter_mem_rtake hkeys, List.filter_filter]
    refine congrArg (List.map StoredLine.line) (List.filter_congr fun l _ => ?_)
    by_cases hl : l.name = m
    · simp only [hl, hkept, decide_true, true_and, not_not, Bool.true_and, Bool.and_true]
    · simp [hl]
  · refine congrArg (List.map StoredLine.line) (List.filter_congr fun l _ => ?_)
    by_cases hl : l.name = m
    · simp [hl, hm]
    · simp [hl]

end Lines

section Numbered

theorem numbered_empty : Numbered empty := ⟨List.nodup_nil, fun _ hl => absurd hl List.not_mem_nil⟩

theorem Numbered.filter (h : Numbered store) (p : StoredLine → Bool) :
    Numbered { store with lines := store.lines.filter p } where
  nodup := h.nodup.sublist (List.filter_sublist.map _)
  le_lastId l hl := h.le_lastId l (List.mem_filter.1 hl).1

theorem Numbered.insertLine (h : Numbered store) (line : SessionOutputLine) :
    Numbered (insertLine name store line) where
  nodup := by
    rw [SessionOutputStore.insertLine, List.map_append, List.nodup_append]
    refine ⟨h.nodup, List.nodup_singleton _, fun id hid id' hid' => ?_⟩
    obtain ⟨l, hl, rfl⟩ := List.mem_map.1 hid
    rw [List.map_singleton, List.mem_singleton] at hid'
    have hle := h.le_lastId l hl
    dsimp only at hid'
    omega
  le_lastId l hl := by
    rcases List.mem_append.1 hl with hl | hl
    · exact (h.le_lastId l hl).trans (Nat.le_succ _)
    · obtain rfl := List.mem_singleton.1 hl
      exact le_rfl

theorem Numbered.insertLines (h : Numbered store) (lines : List SessionOutputLine) :
    Numbered (lines.foldl (SessionOutputStore.insertLine name) store) := by
  induction lines generalizing store with
  | nil => exact h
  | cons line lines ih => exact ih (h.insertLine line)

theorem Numbered.updateMeta (h : Numbered store) : Numbered (store.updateMeta entry) :=
  ⟨h.nodup, h.le_lastId⟩

theorem Numbered.reset (h : Numbered store) : Numbered (store.reset entry) :=
  (h.filter _).updateMeta

theorem Numbered.append (h : Numbered store) (lines : List SessionOutputLine) :
    Numbered (store.append entry lines) := by
  unfold SessionOutputStore.append
  dsimp only
  split_ifs
  · exact (h.insertLines lines).updateMeta
  · exact ((h.insertLines lines).filter _).updateMeta

theorem Numbered.remove (h : Numbered store) : Numbered (store.remove name) :=
  ⟨(h.filter _).nodup, (h.filter _).le_lastId⟩

end Numbered

section Entries

variable {lines : List SessionOutputLine} {m : String}

theorem loaded?_eq_some {e : SessionEntry} (h : store.loaded? m = some e) :
    e.name = m ∧ e.lines = ringLines (store.linesOf m) := by
  obtain ⟨row, hrow, rfl⟩ := Option.map_eq_some_iff.1 h
  exact ⟨(Table.get?_eq_some.1 hrow).2, SessionRow.entry_lines _ _⟩

theorem loaded?_updateMeta :
    (store.updateMeta entry).loaded? m =
      if m = entry.name then some { entry with lines := ringLines (store.linesOf m) }
      else store.loaded? m := by
  rw [loaded?, updateMeta, Table.get?_put, SessionEntry.row_name]
  by_cases h : m = entry.name
  · rw [if_pos h, if_pos h, Option.map_some, SessionEntry.entry_row]
    rfl
  · rw [if_neg h, if_neg h]
    rfl

theorem loaded?_filter_ne (h : m ≠ name) :
    loaded? { store with lines := store.lines.filter fun l => l.name ≠ name } m =
      store.loaded? m := by
  rw [loaded?, linesOf_filter_ne, if_neg h, loaded?]

theorem linesOf_append (h : Numbered store) :
    (store.append entry lines).linesOf m =
      if m = entry.name ∧ lines ≠ [] then ringLines (store.linesOf m ++ lines)
      else store.linesOf m := by
  unfold append
  dsimp only
  rw [linesOf_updateMeta]
  cases lines with
  | nil => simp
  | cons line lines =>
    rw [List.isEmpty_cons, if_neg Bool.false_ne_true, linesOf_trim (h.insertLines _),
      linesOf_insertLines]
    by_cases hm : m = entry.name
    · rw [if_pos hm, if_pos hm, if_pos ⟨hm, List.cons_ne_nil _ _⟩]
    · rw [if_neg hm, if_neg hm, if_neg fun h => hm h.1, List.append_nil]

/-- The lines are what the trim leaves, whether there is something to trim or not. -/
theorem ringLines_linesOf_append (h : Numbered store) :
    ringLines ((store.append entry lines).linesOf m) =
      ringLines (store.linesOf m ++ if m = entry.name then lines else []) := by
  rw [linesOf_append h]
  by_cases hm : m = entry.name
  · rw [if_pos hm]
    split_ifs with hlines
    · exact ringLines_ringLines _
    · rw [not_and.1 hlines hm |> not_not.1, List.append_nil]
  · rw [if_neg hm, if_neg fun h => hm h.1, List.append_nil]

theorem sessions_append : (store.append entry lines).sessions = store.sessions.put entry.row := by
  have hinsert : (lines.foldl (insertLine entry.name) store).sessions = store.sessions := by
    induction lines generalizing store with
    | nil => rfl
    | cons line lines ih => exact ih
  unfold append
  dsimp only
  split_ifs
  · rw [updateMeta, hinsert]
  · rw [updateMeta, trim, hinsert]

theorem loaded?_append (h : Numbered store)
    (hlines : entry.lines = ringLines (store.linesOf entry.name ++ lines)) :
    (store.append entry lines).loaded? m =
      if m = entry.name then some entry else store.loaded? m := by
  rw [loaded?, sessions_append, ringLines_linesOf_append h, Table.get?_put, SessionEntry.row_name]
  by_cases hm : m = entry.name
  · rw [if_pos hm, if_pos hm, if_pos hm, Option.map_some, SessionEntry.entry_row, hm, ← hlines]
  · rw [if_neg hm, if_neg hm, if_neg hm, List.append_nil]
    exact rfl

theorem loaded?_reset_append (h : Numbered store) (hlines : entry.lines = ringLines lines) :
    ((store.reset entry).append entry lines).loaded? m =
      if m = entry.name then some entry else store.loaded? m := by
  have hnone : (store.reset entry).linesOf entry.name = [] := by
    rw [reset, linesOf_updateMeta, linesOf_filter_ne, if_pos rfl]
  rw [loaded?_append h.reset (by rw [hnone, List.nil_append, hlines])]
  by_cases hm : m = entry.name
  · rw [if_pos hm, if_pos hm]
  · rw [if_neg hm, if_neg hm, reset, loaded?_updateMeta, if_neg hm, loaded?_filter_ne hm]

theorem loaded?_remove :
    (store.remove name).loaded? m = if m = name then none else store.loaded? m := by
  rw [loaded?, remove, Table.get?_delete]
  by_cases h : m = name
  · rw [if_pos h, if_pos h, Option.map_none]
  · rw [if_neg h, if_neg h]
    exact loaded?_filter_ne h

/-- What the marks of a list of entries come to. -/
theorem loaded?_foldl_updateMeta {entries : List SessionEntry}
    (hnodup : (entries.map SessionEntry.name).Nodup) (f : SessionEntry → SessionEntry)
    (hf : ∀ e, (f e).name = e.name) :
    (entries.foldl (fun store e => store.updateMeta (f e)) store).loaded? m =
      match entries.find? fun e => e.name = m with
      | some e => some { f e with lines := ringLines (store.linesOf m) }
      | none => store.loaded? m := by
  induction entries generalizing store with
  | nil => rfl
  | cons e entries ih =>
    rw [List.map_cons, List.nodup_cons] at hnodup
    rw [List.foldl_cons, ih hnodup.2, List.find?_cons]
    by_cases hm : e.name = m
    · have hlast : entries.find? (fun e => e.name = m) = none :=
        List.find?_eq_none.2 fun e' he' hname => hnodup.1 <| by
          rw [hm, ← of_decide_eq_true hname]
          exact List.mem_map_of_mem he'
      rw [hlast]
      simp only [hm, decide_true]
      rw [loaded?_updateMeta, if_pos ((hf e).trans hm).symm]
    · simp only [hm, decide_false]
      rw [loaded?_updateMeta, if_neg fun h => hm ((hf e).symm.trans h.symm), linesOf_updateMeta]

end Entries

section Trimmed

/-- The ids are a key, and no agent has more rows than are loaded. -/
structure Sound (store : SessionOutputStore) : Prop extends Numbered store where
  trimmed : Trimmed store

theorem sound_empty : Sound empty := ⟨numbered_empty, fun _ => Nat.zero_le _⟩

theorem Sound.updateMeta (h : Sound store) : Sound (store.updateMeta entry) :=
  ⟨h.toNumbered.updateMeta, h.trimmed⟩

theorem Sound.append (h : Sound store) (lines : List SessionOutputLine) :
    Sound (store.append entry lines) := by
  refine ⟨h.toNumbered.append lines, fun m => ?_⟩
  rw [linesOf_append h.toNumbered]
  split_ifs
  · exact length_ringLines _
  · exact h.trimmed m

theorem Trimmed.filter_ne (h : Trimmed store) :
    Trimmed { store with lines := store.lines.filter fun l => l.name ≠ name } := by
  intro m
  rw [linesOf_filter_ne]
  split_ifs
  · exact Nat.zero_le _
  · exact h m

theorem Sound.reset (h : Sound store) : Sound (store.reset entry) :=
  ⟨h.toNumbered.reset, @Trimmed.filter_ne store entry.name h.trimmed⟩

theorem Sound.remove (h : Sound store) : Sound (store.remove name) :=
  ⟨h.toNumbered.remove, @Trimmed.filter_ne store name h.trimmed⟩

end Trimmed

end SessionOutputStore

namespace SessionOutputRing

section Oldest

theorem oldest_cons_cons (a b : SessionEntry) (rows : List SessionEntry) :
    oldest (a :: b :: rows) =
      if b.updatedAt < a.updatedAt then oldest (b :: rows) else oldest (a :: rows) := by
  split_ifs with h <;> simp [oldest, h]

theorem oldest_spec (rows : List SessionEntry) (a : SessionEntry) :
    ∃ x ∈ a :: rows, oldest (a :: rows) = some x ∧ ∀ y ∈ a :: rows, x.updatedAt ≤ y.updatedAt := by
  induction rows generalizing a with
  | nil => exact ⟨a, List.mem_singleton_self a, rfl, by simp⟩
  | cons b rows ih =>
    rw [oldest_cons_cons]
    split_ifs with h
    · obtain ⟨x, hx, holdest, hle⟩ := ih b
      refine ⟨x, List.mem_cons_of_mem a hx, holdest, fun y hy => ?_⟩
      rcases List.mem_cons.1 hy with rfl | hy
      · exact (hle b List.mem_cons_self).trans h.le
      · exact hle y hy
    · obtain ⟨x, hx, holdest, hle⟩ := ih a
      refine ⟨x, ?_, holdest, fun y hy => ?_⟩
      · rcases List.mem_cons.1 hx with rfl | hx
        · exact List.mem_cons_self
        · exact List.mem_cons_of_mem _ (List.mem_cons_of_mem _ hx)
      · rcases List.mem_cons.1 hy with rfl | hy
        · exact hle y List.mem_cons_self
        rcases List.mem_cons.1 hy with rfl | hy
        · exact (hle a List.mem_cons_self).trans (not_lt.1 h)
        · exact hle y (List.mem_cons_of_mem _ hy)

/-- The entry that came last, and latest, is not the one to go. -/
theorem oldest_snoc {rows : List SessionEntry} {a e : SessionEntry}
    (h : ∀ x ∈ a :: rows, x.updatedAt ≤ e.updatedAt) :
    oldest (a :: rows ++ [e]) = oldest (a :: rows) := by
  induction rows generalizing a with
  | nil =>
    have hle := h a List.mem_cons_self
    rw [List.singleton_append, oldest_cons_cons, if_neg (not_lt.2 hle)]
  | cons b rows ih =>
    rw [List.cons_append, List.cons_append, oldest_cons_cons, oldest_cons_cons,
      ← List.cons_append, ← List.cons_append, ih fun x hx => ?_, ih fun x hx => ?_]
    · rcases List.mem_cons.1 hx with rfl | hx
      · exact h x List.mem_cons_self
      · exact h x (List.mem_cons_of_mem _ (List.mem_cons_of_mem _ hx))
    · exact h x (List.mem_cons_of_mem a hx)

/-- The table ends with its latest entry. -/
def EndsWith (sessions : Sessions) (entry : SessionEntry) : Prop :=
  ∃ rows, sessions.rows = rows ++ [entry] ∧ ∀ x ∈ rows, x.updatedAt ≤ entry.updatedAt

variable {sessions : Sessions} {entry : SessionEntry} {turns : ℕ}

/-- What a turn of the loop of `evict` does to such a table. -/
theorem EndsWith.turn (h : EndsWith sessions entry) (hlength : 1 < sessions.rows.length) :
    ∃ x ∈ sessions, x.name ≠ entry.name ∧ oldest sessions.rows = some x ∧
      (∀ y ∈ sessions, x.updatedAt ≤ y.updatedAt) ∧
      EndsWith (sessions.delete fun e => e.name = x.name) entry := by
  obtain ⟨rows, hrows, hle⟩ := h
  cases rows with
  | nil => simp [hrows] at hlength
  | cons a rows =>
    obtain ⟨x, hx, holdest, hmin⟩ := oldest_spec rows a
    have hmem : x ∈ sessions := by
      rw [Table.mem_def, hrows]
      exact List.mem_append_left _ hx
    have hne : x.name ≠ entry.name := by
      have hnodup := sessions.nodup
      rw [hrows, List.map_append, List.nodup_append] at hnodup
      exact hnodup.2.2 _ (List.mem_map_of_mem hx) _ (by simp)
    refine ⟨x, hmem, hne, ?_, fun y hy => ?_, (a :: rows).filter fun e => e.name ≠ x.name, ?_,
      fun y hy => hle y (List.mem_filter.1 hy).1⟩
    · rw [hrows, oldest_snoc hle, holdest]
    · rw [Table.mem_def, hrows] at hy
      rcases List.mem_append.1 hy with hy | hy
      · exact hmin y hy
      · rw [List.mem_singleton.1 hy]
        exact hle x hx
    · simp only [Table.delete, hrows, List.filter_append, decide_not]
      simp [hne.symm]

theorem evict_succ {x : SessionEntry} (h : oldest sessions.rows = some x) :
    evict sessions (turns + 1) = evict (sessions.delete fun e => e.name = x.name) turns := by
  rw [evict, h]

theorem EndsWith.evict (h : EndsWith sessions entry) (hturns : turns < sessions.rows.length) :
    entry ∈ evict sessions turns ∧
      (SessionOutputRing.evict sessions turns).rows.length + turns = sessions.rows.length := by
  induction turns generalizing sessions with
  | zero =>
    obtain ⟨rows, hrows, -⟩ := h
    refine ⟨?_, rfl⟩
    rw [SessionOutputRing.evict, Table.mem_def, hrows]
    exact List.mem_append_right _ (List.mem_singleton_self entry)
  | succ turns ih =>
    obtain ⟨x, hx, -, holdest, -, hrest⟩ := h.turn (by omega)
    have hlength := Table.length_delete_key hx
    rw [evict_succ holdest]
    obtain ⟨hmem, heq⟩ := ih hrest (by omega)
    exact ⟨hmem, by omega⟩

end Oldest

section Lookups

variable {r : SessionOutputRing} {entry : SessionEntry} {m : String}

theorem get?_record (frame : SessionOutputClientFrame) :
    (r.record entry frame).1.sessions.get? m =
      if m = entry.name then (r.sessions.get? m).map fun _ => entry else r.sessions.get? m := by
  simp only [record, Table.get?_update]
  cases h : r.sessions.get? m with
  | none => simp
  | some e =>
    obtain ⟨-, rfl⟩ := Table.get?_eq_some.1 h
    by_cases hname : e.name = entry.name <;> simp [hname]

theorem length_record (frame : SessionOutputClientFrame) :
    (r.record entry frame).1.sessions.rows.length = r.sessions.rows.length := by
  simp only [record, Table.update, List.length_map]

/-- What is loaded are the stored entries. -/
theorem get?_load (stored : Sessions) (m : String) :
    (load stored).sessions.get? m =
      (stored.get? m).map fun e => { e with lines := ringLines e.lines } := by
  have hmem : ∀ e, e ∈ (load stored).sessions ↔
      ∃ e₀ ∈ stored, e = { e₀ with lines := ringLines e₀.lines } := by
    intro e
    rw [load, Table.mem_def, List.mem_insertionSort, ← Table.mem_def, Table.mem_update]
    simp
  cases h : stored.get? m with
  | none =>
    rw [Option.map_none, Table.get?_eq_none]
    intro e he
    obtain ⟨e₀, he₀, rfl⟩ := (hmem e).1 he
    exact Table.get?_eq_none.1 h e₀ he₀
  | some e =>
    obtain ⟨he, rfl⟩ := Table.get?_eq_some.1 h
    exact Table.get?_eq_some.2 ⟨(hmem _).2 ⟨e, he, rfl⟩, rfl⟩

end Lookups

end SessionOutputRing

open SessionOutputRing (oldest reported record EndsWith)

namespace SessionOutputRing

/-- The rings have the same entries, in whatever order, and the same buckets. -/
structure Alike (r r' : SessionOutputRing) : Prop where
  mem : ∀ e, e ∈ r.sessions ↔ e ∈ r'.sessions
  buckets : r.buckets = r'.buckets

/-- The other agents' entries. -/
def others (r : SessionOutputRing) (name : String) : Sessions :=
  r.sessions.delete fun e => e.name = name

/-- If an entry has to go for a new session of the agent, there is one that was updated longer ago
than all others. -/
def Decided (r : SessionOutputRing) (name : String) : Prop :=
  SESSION_OUTPUT_MAX_AGENTS ≤ (r.others name).rows.length →
    ∀ x ∈ r.others name, ∀ y ∈ r.others name,
      (∀ z ∈ r.others name, x.updatedAt ≤ z.updatedAt) →
        (∀ z ∈ r.others name, y.updatedAt ≤ z.updatedAt) → x = y

variable {r r' : SessionOutputRing} {name connectionId : String}
  {frame : SessionOutputClientFrame} {now : Int}

theorem Alike.get? (h : Alike r r') (m : String) : r.sessions.get? m = r'.sessions.get? m := by
  cases hget : r'.sessions.get? m with
  | none =>
    exact Table.get?_eq_none.2 fun e he => Table.get?_eq_none.1 hget e ((h.mem e).1 he)
  | some e =>
    obtain ⟨he, rfl⟩ := Table.get?_eq_some.1 hget
    exact Table.get?_key ((h.mem e).2 he)

theorem Alike.take (h : Alike r r') :
    (r.take connectionId now).2 = (r'.take connectionId now).2 ∧
      Alike (r.take connectionId now).1 (r'.take connectionId now).1 := by
  unfold SessionOutputRing.take
  rw [h.buckets]
  dsimp only
  split_ifs
  · exact ⟨rfl, h.mem, rfl⟩
  · exact ⟨rfl, h.mem, rfl⟩

theorem Alike.update (h : Alike r r') {p : SessionEntry → Bool} {f : SessionEntry → SessionEntry}
    (hf : ∀ e, (f e).name = e.name) (e : SessionEntry) :
    e ∈ r.sessions.update p f hf ↔ e ∈ r'.sessions.update p f hf := by
  rw [Table.mem_update, Table.mem_update]
  exact exists_congr fun e₀ => and_congr_left' (h.mem e₀)

theorem Alike.delete (h : Alike r r') (p : SessionEntry → Bool) (e : SessionEntry) :
    e ∈ r.sessions.delete p ↔ e ∈ r'.sessions.delete p := by
  rw [Table.mem_delete, Table.mem_delete, h.mem]

theorem name_recorded (entry e : SessionEntry) :
    (if e.name = entry.name then entry else e).name = e.name := by
  split_ifs with hname
  · exact hname.symm
  · rfl

theorem Alike.record (h : Alike r r') (entry : SessionEntry) :
    (r.record entry frame).2 = (r'.record entry frame).2 ∧
      Alike (r.record entry frame).1 (r'.record entry frame).1 :=
  ⟨rfl, h.update (name_recorded entry), h.buckets⟩

/-- The same entry goes, in whatever order the entries stand. -/
theorem Alike.enter {entry : SessionEntry} (h : Alike r r')
    (hearly : ∀ e ∈ r.sessions, e.updatedAt ≤ entry.updatedAt)
    (hfull : r.sessions.rows.length ≤ SESSION_OUTPUT_MAX_AGENTS) (hone : r.Decided entry.name) :
    Alike (r.enter entry) (r'.enter entry) := by
  set t := (r.sessions.delete fun e => e.name = entry.name).put entry with ht
  set t' := (r'.sessions.delete fun e => e.name = entry.name).put entry with ht'
  have hmem : ∀ e, e ∈ t ↔ e ∈ t' := fun e => by
    rw [ht, ht', Table.mem_put, Table.mem_put, h.delete]
  have hnone : ∀ (r : SessionOutputRing),
      (r.sessions.delete fun e => e.name = entry.name).get? entry.name = none := fun r => by
    rw [Table.get?_delete, if_pos rfl]
  have hends : EndsWith t entry :=
    ⟨_, Table.put_rows (hnone r), fun x hx => hearly x (Table.mem_delete.1 hx).1⟩
  have hends' : EndsWith t' entry :=
    ⟨_, Table.put_rows (hnone r'), fun x hx => hearly x ((h.mem x).2 (Table.mem_delete.1 hx).1)⟩
  have hlength : t.rows.length = (r.others entry.name).rows.length + 1 := by
    rw [ht, Table.put_rows (hnone r), List.length_append, List.length_singleton, others]
  have hothers : (r.others entry.name).rows.length ≤ r.sessions.rows.length :=
    List.length_filter_le _ _
  refine ⟨?_, h.buckets⟩
  change ∀ e, e ∈ evict t (t.rows.length - SESSION_OUTPUT_MAX_AGENTS) ↔
    e ∈ evict t' (t'.rows.length - SESSION_OUTPUT_MAX_AGENTS)
  rw [← (Table.perm_of_mem_iff hmem).length_eq]
  rcases Nat.lt_or_ge SESSION_OUTPUT_MAX_AGENTS t.rows.length with hover | hfits
  swap
  · rw [Nat.sub_eq_zero_of_le hfits]
    exact hmem
  obtain ⟨x, hx, hxne, hxold, hxmin, -⟩ := hends.turn (Nat.lt_of_le_of_lt (by decide) hover)
  obtain ⟨y, hy, hyne, hyold, hymin, -⟩ := hends'.turn
    ((Table.perm_of_mem_iff hmem).length_eq ▸ Nat.lt_of_le_of_lt (by decide) hover)
  have hin : ∀ z ∈ t, z.name ≠ entry.name → z ∈ r.others entry.name := fun z hz hne =>
    ((Table.mem_put.1 hz).resolve_left fun heq => hne (congrArg SessionEntry.name heq)).1
  have hout : ∀ z ∈ r.others entry.name, z ∈ t := fun z hz =>
    Table.mem_put.2 (Or.inr ⟨hz, by simpa using (Table.mem_delete.1 hz).2⟩)
  have hsame : x = y := hone (by omega) x (hin x hx hxne) y (hin y ((hmem y).2 hy) hyne)
    (fun z hz => hxmin z (hout z hz)) fun z hz => hymin z ((hmem z).1 (hout z hz))
  have hturn : t.rows.length - SESSION_OUTPUT_MAX_AGENTS = 1 := by omega
  rw [hturn, evict_succ hxold, evict_succ hyold, hsame]
  intro e
  rw [evict, evict, Table.mem_delete, Table.mem_delete, hmem]

theorem Alike.apply (h : Alike r r') (hearly : ∀ e ∈ r.sessions, e.updatedAt ≤ now)
    (hfull : r.sessions.rows.length ≤ SESSION_OUTPUT_MAX_AGENTS)
    (hone : r.admits connectionId frame now = true →
      (r.sessions.get? name).filter (fun e => e.sessionId = frame.sessionId) = none →
        r.Decided name) :
    (r.apply name connectionId frame now).2 = (r'.apply name connectionId frame now).2 ∧
      Alike (r.apply name connectionId frame now).1 (r'.apply name connectionId frame now).1 := by
  have htaken : (if frame.state ≠ .running then (r, true) else r.take connectionId now).2 =
      (if frame.state ≠ .running then (r', true) else r'.take connectionId now).2 ∧
      Alike (if frame.state ≠ .running then (r, true) else r.take connectionId now).1
        (if frame.state ≠ .running then (r', true) else r'.take connectionId now).1 := by
    split_ifs
    · exact ⟨rfl, h⟩
    · exact h.take
  have hsessions : (if frame.state ≠ .running then (r, true)
      else r.take connectionId now).1.sessions = r.sessions := by
    split_ifs
    · rfl
    · exact sessions_take r connectionId now
  have hadmits : (if frame.state ≠ .running then (r, true) else r.take connectionId now).2 =
      r.admits connectionId frame now := by
    by_cases hstate : frame.state = .running <;> simp [admits, hstate]
  unfold SessionOutputRing.apply
  simp only [decide_eq_true_eq]
  set out := if frame.state ≠ .running then (r, true) else r.take connectionId now
  set out' := if frame.state ≠ .running then (r', true) else r'.take connectionId now
  rw [← htaken.1, ← htaken.2.get? name]
  by_cases htake : out.2 = true
  swap
  · rw [if_pos (by simpa using htake), if_pos (by simpa using htake)]
    exact ⟨rfl, htaken.2⟩
  rw [if_neg (by simpa using htake), if_neg (by simpa using htake)]
  cases hfound : (out.1.sessions.get? name).filter fun e => e.sessionId = frame.sessionId with
  | none =>
    rw [hsessions] at hfound
    refine (Alike.enter htaken.2 (hsessions ▸ hearly) (hsessions ▸ hfull) ?_).record _
    rw [Decided, others, hsessions]
    exact hone (hadmits.symm.trans htake) hfound
  | some e =>
    dsimp only
    split_ifs
    · exact ⟨rfl, htaken.2⟩
    · exact ⟨rfl, htaken.2⟩
    · exact htaken.2.record _

end SessionOutputRing

namespace StoredRing

variable {s : StoredRing} {name connectionId : String} {frame : SessionOutputClientFrame}
  {now : Int}

/-- The ring and the tables have the same entries. -/
structure Synced (s : StoredRing) : Prop where
  sound : s.store.Sound
  get?_eq : ∀ m, s.ensureLoaded.sessions.get? m = s.store.loaded? m

theorem get?_load_loadAll (store : SessionOutputStore) (m : String) :
    (SessionOutputRing.load store.loadAll).sessions.get? m = store.loaded? m := by
  rw [SessionOutputRing.get?_load, SessionOutputStore.get?_loadAll]
  cases h : store.loaded? m with
  | none => rfl
  | some e =>
    rw [Option.map_some, (SessionOutputStore.loaded?_eq_some h).2,
      SessionOutputStore.ringLines_ringLines, ← (SessionOutputStore.loaded?_eq_some h).2]

/-- Whatever is stored, a new ring agrees with it. -/
theorem synced_restarted (h : s.store.Sound) : Synced s.restarted :=
  ⟨h, get?_load_loadAll s.store⟩

theorem evict_fst (sessions : Sessions) (store : SessionOutputStore) (turns : ℕ) :
    (evict sessions store turns).1 = SessionOutputRing.evict sessions turns := by
  induction turns generalizing sessions store with
  | zero => rfl
  | succ turns ih =>
    rw [evict, SessionOutputRing.evict]
    cases oldest sessions.rows with
    | none => rfl
    | some entry => exact ih _ _

/-- The evicted leave memory and tables together; the new entry is not stored yet. -/
theorem evict_synced {sessions : Sessions} {store : SessionOutputStore} (turns : ℕ)
    (hsound : store.Sound) (h : ∀ m ≠ name, sessions.get? m = store.loaded? m) :
    (evict sessions store turns).2.Sound ∧ ∀ m ≠ name,
      (evict sessions store turns).1.get? m = (evict sessions store turns).2.loaded? m := by
  induction turns generalizing sessions store with
  | zero => exact ⟨hsound, h⟩
  | succ turns ih =>
    rw [evict]
    cases oldest sessions.rows with
    | none => exact ⟨hsound, h⟩
    | some entry =>
      refine ih hsound.remove fun m hm => ?_
      rw [Table.get?_delete, SessionOutputStore.loaded?_remove]
      split_ifs
      · rfl
      · exact h m hm

/-- The entry that a report begins. -/
def begun (name connectionId : String) (frame : SessionOutputClientFrame) (now : Int) :
    SessionEntry :=
  ⟨name, frame.sessionId, frame.taskSeq, frame.state, [], connectionId, now⟩

/-- The entries with a new one in front of the eviction. -/
def entered (sessions : Sessions) (entry : SessionEntry) : Sessions :=
  (sessions.delete fun e => e.name = entry.name).put entry

def surplus (sessions : Sessions) : ℕ := sessions.rows.length - SESSION_OUTPUT_MAX_AGENTS

/-- The session of the report is the one that is kept for the agent. -/
def current? (s : StoredRing) (name : String) (frame : SessionOutputClientFrame) :
    Option SessionEntry :=
  (s.ensureLoaded.sessions.get? name).filter fun e => e.sessionId = frame.sessionId

/-- What is left of the entries and the tables when a report begins a session. -/
def leftFor (s : StoredRing) (entry : SessionEntry) : Sessions × SessionOutputStore :=
  evict (entered s.ensureLoaded.sessions entry) s.store
    (surplus (entered s.ensureLoaded.sessions entry))

/-- A report is dropped, begins a session, or goes on with one. -/
inductive Applied (s : StoredRing) (name connectionId : String) (frame : SessionOutputClientFrame)
    (now : Int) : StoredRing × Option SessionOutputFrame → Prop
  | dropped (r : SessionOutputRing) (hr : r.sessions = s.ensureLoaded.sessions) :
      Applied s name connectionId frame now (⟨some r, s.store⟩, none)
  | begun (r : SessionOutputRing) (entry : SessionEntry) (hnew : s.current? name frame = none)
      (hentry : entry = reported (begun name connectionId frame now) connectionId frame now)
      (hr : r.sessions = (s.leftFor (StoredRing.begun name connectionId frame now)).1) :
      Applied s name connectionId frame now
        (⟨some (record r entry frame).1,
          ((s.leftFor (StoredRing.begun name connectionId frame now)).2.reset entry).append entry
            frame.lines⟩, some (entry.frame frame.lines false))
  | continued (r : SessionOutputRing) (e entry : SessionEntry)
      (hcurrent : s.current? name frame = some e) (hstate : e.state = .running)
      (hentry : entry = reported e connectionId frame now)
      (hr : r.sessions = s.ensureLoaded.sessions) :
      Applied s name connectionId frame now
        (⟨some (record r entry frame).1, s.store.append entry frame.lines⟩,
          some (entry.frame frame.lines false))

theorem applied (s : StoredRing) (name connectionId : String) (frame : SessionOutputClientFrame)
    (now : Int) :
    s.Applied name connectionId frame now (s.apply name connectionId frame now) := by
  have htake : (if frame.state ≠ .running then (s.ensureLoaded, true)
      else s.ensureLoaded.take connectionId now).1.sessions = s.ensureLoaded.sessions := by
    split_ifs
    · rfl
    · exact SessionOutputRing.sessions_take _ connectionId now
  unfold apply
  simp only [decide_eq_true_eq]
  set r' := if frame.state ≠ .running then (s.ensureLoaded, true)
    else s.ensureLoaded.take connectionId now
  by_cases htaken : r'.2 = true
  swap
  · rw [if_pos (by simpa using htaken)]
    exact .dropped _ htake
  rw [if_neg (by simpa using htaken), htake]
  cases hfound : s.current? name frame with
  | none =>
    rw [current?] at hfound
    rw [hfound]
    exact .begun _ _ hfound rfl rfl
  | some e =>
    rw [current?] at hfound
    rw [hfound]
    dsimp only
    split_ifs with hstate hnothing
    · exact .dropped _ htake
    · exact .dropped _ htake
    · exact .continued _ e _ hfound (not_not.1 hstate) rfl htake

/-- The store has no say in what the ring does. -/
theorem apply_eq (s : StoredRing) (name connectionId : String) (frame : SessionOutputClientFrame)
    (now : Int) :
    (s.apply name connectionId frame now).1.ensureLoaded =
        (s.ensureLoaded.apply name connectionId frame now).1 ∧
      (s.apply name connectionId frame now).2 =
        (s.ensureLoaded.apply name connectionId frame now).2 := by
  unfold apply SessionOutputRing.apply
  simp only [decide_eq_true_eq]
  set r' := if frame.state ≠ .running then (s.ensureLoaded, true)
    else s.ensureLoaded.take connectionId now
  by_cases htaken : r'.2 = true
  swap
  · rw [if_pos (by simpa using htaken), if_pos (by simpa using htaken)]
    exact ⟨rfl, rfl⟩
  rw [if_neg (by simpa using htaken), if_neg (by simpa using htaken)]
  cases (r'.1.sessions.get? name).filter fun e => e.sessionId = frame.sessionId with
  | none =>
    dsimp only
    rw [evict_fst]
    exact ⟨rfl, rfl⟩
  | some e =>
    dsimp only
    split_ifs
    · exact ⟨rfl, rfl⟩
    · exact ⟨rfl, rfl⟩
    · exact ⟨rfl, rfl⟩

section Synced

theorem current?_eq_some {e : SessionEntry} (h : s.current? name frame = some e) :
    s.ensureLoaded.sessions.get? name = some e ∧ e.sessionId = frame.sessionId := by
  obtain ⟨hget, hsession⟩ := Option.filter_eq_some_iff.1 h
  exact ⟨hget, of_decide_eq_true hsession⟩

theorem get?_entered (sessions : Sessions) (entry : SessionEntry) (m : String) :
    (entered sessions entry).get? m = if m = entry.name then some entry else sessions.get? m := by
  rw [entered, Table.get?_put, Table.get?_delete]
  split_ifs <;> rfl

theorem endsWith_entered {sessions : Sessions} {entry : SessionEntry}
    (h : ∀ e ∈ sessions, e.updatedAt ≤ entry.updatedAt) :
    EndsWith (entered sessions entry) entry := by
  refine ⟨_, Table.put_rows ?_, fun x hx => h x (Table.mem_delete.1 hx).1⟩
  rw [Table.get?_delete, if_pos rfl]

theorem surplus_lt {sessions : Sessions} {entry : SessionEntry} (h : EndsWith sessions entry) :
    surplus sessions < sessions.rows.length := by
  obtain ⟨rows, hrows, -⟩ := h
  rw [surplus, hrows, List.length_append, List.length_singleton, SESSION_OUTPUT_MAX_AGENTS]
  omega

/-- The new session is not the one to go. -/
theorem get?_leftFor {entry : SessionEntry}
    (h : ∀ e ∈ s.ensureLoaded.sessions, e.updatedAt ≤ entry.updatedAt) :
    (s.leftFor entry).1.get? entry.name = some entry ∧
      (s.leftFor entry).1.rows.length ≤ SESSION_OUTPUT_MAX_AGENTS := by
  have hends := endsWith_entered h
  obtain ⟨hmem, hlength⟩ := hends.evict (surplus_lt hends)
  rw [leftFor, evict_fst]
  refine ⟨Table.get?_key hmem, ?_⟩
  rw [surplus] at hlength ⊢
  omega

theorem get?_of_leftFor {entry e : SessionEntry} {m : String}
    (h : (s.leftFor entry).1.get? m = some e) : e = entry ∨ e ∈ s.ensureLoaded.sessions := by
  rw [leftFor, evict_fst] at h
  rcases Table.mem_put.1 (SessionOutputRing.mem_evict (Table.get?_eq_some.1 h).1) with
    rfl | ⟨hmem, -⟩
  · exact Or.inl rfl
  · exact Or.inr (Table.mem_delete.1 hmem).1

/-- The entry of a report takes its place in memory and in the tables. -/
structure Records (s s' : StoredRing) (name : String) (frame : SessionOutputClientFrame)
    (now : Int) (entry : SessionEntry) : Prop where
  name_eq : entry.name = name
  updatedAt_eq : entry.updatedAt = now
  lines_eq : entry.lines =
    ringLines (((s.current? name frame).map SessionEntry.lines).getD [] ++ frame.lines)
  get?_eq : s'.ensureLoaded.sessions.get? name = some entry
  loaded?_eq : s'.store.loaded? name = some entry
  others : ∀ m ≠ name, s'.ensureLoaded.sessions.get? m = s'.store.loaded? m ∧
    ∀ e ∈ s'.ensureLoaded.sessions.get? m, s.ensureLoaded.sessions.get? m = some e

theorem reported_name (e : SessionEntry) : (reported e connectionId frame now).name = e.name := rfl

theorem reported_updatedAt (e : SessionEntry) :
    (reported e connectionId frame now).updatedAt = now := rfl

theorem records_begun {r : SessionOutputRing} {fresh entry : SessionEntry} (h : s.Synced)
    (hearly : ∀ e ∈ s.ensureLoaded.sessions, e.updatedAt ≤ now)
    (hnew : s.current? name frame = none) (hname : fresh.name = name)
    (hnone : fresh.lines = []) (htime : fresh.updatedAt = now)
    (hentry : entry = reported fresh connectionId frame now)
    (hr : r.sessions = (s.leftFor fresh).1) :
    (((s.leftFor fresh).2.reset entry).append entry frame.lines).Sound ∧
      Records s ⟨some (record r entry frame).1,
        ((s.leftFor fresh).2.reset entry).append entry frame.lines⟩ name frame now entry := by
  have hentryName : entry.name = name := by rw [hentry, reported_name, hname]
  have hlines : entry.lines = ringLines frame.lines := by
    rw [hentry, SessionOutputRing.lines_reported, hnone, List.nil_append]
  obtain ⟨hsound, hleft⟩ : (s.leftFor fresh).2.Sound ∧ ∀ m ≠ name,
      (s.leftFor fresh).1.get? m = (s.leftFor fresh).2.loaded? m :=
    evict_synced _ h.sound fun m hm => by
      rw [get?_entered, hname, if_neg hm]
      exact h.get?_eq m
  have hstored := fun m => SessionOutputStore.loaded?_reset_append (m := m) hsound.toNumbered hlines
  have hkept : ∀ m, (record r entry frame).1.sessions.get? m =
      if m = entry.name then (r.sessions.get? m).map fun _ => entry else r.sessions.get? m :=
    fun m => SessionOutputRing.get?_record frame
  refine ⟨hsound.reset.append _, hentryName, by rw [hentry, reported_updatedAt], ?_, ?_, ?_,
    fun m hm => ?_⟩
  · rw [hnew, hlines, Option.map_none, Option.getD_none, List.nil_append]
  · have hget : (s.leftFor fresh).1.get? fresh.name = some fresh :=
      (get?_leftFor (htime ▸ hearly)).1
    refine (hkept name).trans ?_
    rw [if_pos hentryName.symm, hr, ← hname, hget, Option.map_some]
  · rw [hstored, if_pos hentryName.symm]
  · have hm' : m ≠ entry.name := hentryName ▸ hm
    have hget : (record r entry frame).1.sessions.get? m = (s.leftFor fresh).1.get? m := by
      rw [hkept, if_neg hm', hr]
    refine ⟨?_, fun e he => ?_⟩
    · rw [hstored, if_neg hm']
      exact hget.trans (hleft m hm)
    · have hfound : (s.leftFor fresh).1.get? m = some e := hget.symm.trans he
      obtain ⟨-, rfl⟩ := Table.get?_eq_some.1 hfound
      rcases get?_of_leftFor hfound with rfl | hmem
      · exact absurd hname hm
      · exact Table.get?_key hmem

theorem records_continued {r : SessionOutputRing} {e entry : SessionEntry} (h : s.Synced)
    (hcurrent : s.current? name frame = some e)
    (hentry : entry = reported e connectionId frame now)
    (hr : r.sessions = s.ensureLoaded.sessions) :
    Records s ⟨some (record r entry frame).1, s.store.append entry frame.lines⟩ name frame now
      entry := by
  obtain ⟨hget, -⟩ := current?_eq_some hcurrent
  have hname : entry.name = name := by
    rw [hentry, reported_name, (Table.get?_eq_some.1 hget).2]
  have hlines : entry.lines = ringLines (e.lines ++ frame.lines) := by
    rw [hentry, SessionOutputRing.lines_reported]
  have hstored : entry.lines = ringLines (s.store.linesOf entry.name ++ frame.lines) := by
    have hloaded? := SessionOutputStore.loaded?_eq_some ((h.get?_eq name).symm.trans hget)
    rw [hlines, hloaded?.2, SessionOutputStore.ringLines_ringLines_append, hname]
  refine ⟨hname, by rw [hentry, reported_updatedAt], ?_, ?_, ?_,
    fun m hm => ?_⟩
  · rw [hcurrent, hlines, Option.map_some, Option.getD_some]
  · refine (SessionOutputRing.get?_record frame).trans ?_
    rw [if_pos hname.symm, hr, hget, Option.map_some]
  · rw [SessionOutputStore.loaded?_append h.sound.toNumbered hstored, if_pos hname.symm]
  · have hm' : m ≠ entry.name := hname ▸ hm
    have hsame : (record r entry frame).1.sessions.get? m = s.ensureLoaded.sessions.get? m := by
      rw [SessionOutputRing.get?_record, if_neg hm', hr]
    refine ⟨?_, fun e he => hsame.symm.trans he⟩
    rw [SessionOutputStore.loaded?_append h.sound.toNumbered hstored, if_neg hm']
    exact hsame.trans (h.get?_eq m)

theorem sound_persistMarks {store : SessionOutputStore} (h : store.Sound)
    (sessions : Sessions) (marked : SessionEntry → Bool) (now : Int) :
    (persistMarks store sessions marked now).Sound := by
  unfold persistMarks
  generalize sessions.rows.filter marked = entries
  induction entries generalizing store with
  | nil => exact h
  | cons e entries ih => exact ih h.updateMeta

theorem get?_marked (sessions : Sessions) (marked : SessionEntry → Bool) (now : Int) (m : String) :
    (sessions.update marked (·.disconnected now) fun e => e.disconnected_name now).get? m =
      (sessions.get? m).map fun e => if marked e then e.disconnected now else e :=
  Table.get?_update m

/-- A mark changes the row of its entry and nothing else. -/
theorem loaded?_persistMarks {store : SessionOutputStore} {sessions : Sessions}
    (h : ∀ m, sessions.get? m = store.loaded? m) (marked : SessionEntry → Bool) (now : Int)
    (m : String) :
    (persistMarks store sessions marked now).loaded? m =
      (sessions.get? m).map fun e => if marked e then e.disconnected now else e := by
  have hnodup : ((sessions.rows.filter marked).map SessionEntry.name).Nodup :=
    sessions.nodup.sublist (List.filter_sublist.map _)
  rw [persistMarks, SessionOutputStore.loaded?_foldl_updateMeta hnodup (·.disconnected now)
    fun _ => rfl]
  cases hfind : (sessions.rows.filter marked).find? fun e => e.name = m with
  | none =>
    rw [← h m]
    cases hget : sessions.get? m with
    | none => rfl
    | some e =>
      obtain ⟨hmem, rfl⟩ := Table.get?_eq_some.1 hget
      have hnot : ¬marked e := fun hmarked =>
        List.find?_eq_none.1 hfind e (List.mem_filter.2 ⟨hmem, hmarked⟩) (decide_eq_true rfl)
      rw [Option.map_some, if_neg hnot]
  | some e =>
    obtain ⟨hmem, hmarked⟩ := List.mem_filter.1 (List.mem_of_find?_eq_some hfind)
    have hname : e.name = m := by simpa using List.find?_some hfind
    have hget : sessions.get? m = some e := Table.get?_eq_some.2 ⟨hmem, hname⟩
    have hlines := (SessionOutputStore.loaded?_eq_some ((h m).symm.trans hget)).2
    rw [hget, Option.map_some, if_pos hmarked, ← hlines]
    rfl

theorem synced_disconnect (h : s.Synced) (connectionId : String) (now : Int) :
    (s.disconnect connectionId now).1.Synced :=
  ⟨sound_persistMarks h.sound _ _ _,
    fun m => (get?_marked _ _ _ m).trans (loaded?_persistMarks h.get?_eq _ _ m).symm⟩

theorem synced_snapshot (h : s.Synced) (live : Option (List String)) (now : Int) :
    (s.snapshot live now).1.Synced :=
  ⟨sound_persistMarks h.sound _ _ _,
    fun m => (get?_marked _ _ _ m).trans (loaded?_persistMarks h.get?_eq _ _ m).symm⟩

theorem get?_forget (m : String) :
    (s.forget name).ensureLoaded.sessions.get? m =
      if m = name then none else s.ensureLoaded.sessions.get? m :=
  Table.get?_delete m name

theorem synced_forget (h : s.Synced) : (s.forget name).Synced where
  sound := h.sound.remove
  get?_eq m := by
    rw [get?_forget, forget, SessionOutputStore.loaded?_remove]
    split_ifs
    · rfl
    · exact h.get?_eq m

/-- The connection's session is forgotten, or nothing but a bucket. -/
theorem forgetConnection_cases (s : StoredRing) (name connectionId : String) :
    ((s.forgetConnection name connectionId).ensureLoaded.sessions = s.ensureLoaded.sessions ∧
        (s.forgetConnection name connectionId).store = s.store) ∨
      (s.forgetConnection name connectionId).ensureLoaded.sessions =
          (s.forget name).ensureLoaded.sessions ∧
        (s.forgetConnection name connectionId).store = (s.forget name).store := by
  unfold forgetConnection
  dsimp only
  split
  · exact Or.inl ⟨rfl, rfl⟩
  · exact Or.inr ⟨rfl, rfl⟩

theorem synced_forgetConnection (h : s.Synced) (name connectionId : String) :
    (s.forgetConnection name connectionId).Synced := by
  rcases forgetConnection_cases s name connectionId with ⟨hring, hstore⟩ | ⟨hring, hstore⟩
  · exact ⟨hstore ▸ h.sound, fun m => by rw [hring, hstore, h.get?_eq]⟩
  · have hforget : (s.forget name).Synced := synced_forget h
    exact ⟨hstore ▸ hforget.sound, fun m => by rw [hring, hstore, hforget.get?_eq]⟩

/-- A report leaves ring and tables as they are, or both take its entry. -/
theorem synced_apply (h : s.Synced) (hearly : ∀ e ∈ s.ensureLoaded.sessions, e.updatedAt ≤ now)
    (hfull : s.ensureLoaded.sessions.rows.length ≤ SESSION_OUTPUT_MAX_AGENTS) :
    (s.apply name connectionId frame now).1.Synced ∧
      (s.apply name connectionId frame now).1.ensureLoaded.sessions.rows.length ≤
        SESSION_OUTPUT_MAX_AGENTS ∧
      (((s.apply name connectionId frame now).2 = none ∧
          (s.apply name connectionId frame now).1.ensureLoaded.sessions =
            s.ensureLoaded.sessions) ∨
        (s.apply name connectionId frame now).2.isSome ∧
          ∃ entry, Records s (s.apply name connectionId frame now).1 name frame now entry) := by
  have happlied := s.applied name connectionId frame now
  have hsynced : ∀ {s' : StoredRing} {entry : SessionEntry}, s'.store.Sound →
      Records s s' name frame now entry → s'.Synced := by
    intro s' entry hsound hrecords
    refine ⟨hsound, fun m => ?_⟩
    by_cases hm : m = name
    · rw [hm, hrecords.get?_eq, hrecords.loaded?_eq]
    · exact (hrecords.others m hm).1
  generalize s.apply name connectionId frame now = out at happlied
  cases happlied with
  | dropped r hr =>
    exact ⟨⟨h.sound, fun m => (congrArg (Table.get? · m) hr).trans (h.get?_eq m)⟩,
      (congrArg (fun t : Sessions => t.rows.length) hr).trans_le hfull, Or.inl ⟨rfl, hr⟩⟩
  | begun r entry hnew hentry hr =>
    obtain ⟨hsound, hrecords⟩ := records_begun h hearly hnew rfl rfl rfl hentry hr
    refine ⟨hsynced hsound hrecords, ?_, Or.inr ⟨rfl, entry, hrecords⟩⟩
    refine (SessionOutputRing.length_record frame).trans_le ?_
    rw [hr]
    exact (get?_leftFor hearly).2
  | continued r e entry hcurrent hstate hentry hr =>
    have hrecords := records_continued h hcurrent hentry hr
    refine ⟨hsynced (h.sound.append _) hrecords, ?_, Or.inr ⟨rfl, entry, hrecords⟩⟩
    refine (SessionOutputRing.length_record frame).trans_le ?_
    rw [hr]
    exact hfull

end Synced

end StoredRing

open StoredRing (Call)

/-- A ring in use, the time of its last call, and the lines that were taken from each agent's
current session. -/
structure Served where
  kept : StoredRing
  clock : Int
  fed : String → List SessionOutputLine

namespace Served

def answer (s : Served) (call : Call) : List SessionOutputFrame := (s.kept.call call).2

def next (s : Served) (call : Call) : Served where
  kept := (s.kept.call call).1
  clock := call.now?.getD s.clock
  fed :=
    match call with
    | .apply name _ frame _ =>
      if s.answer call = [] then s.fed
      else Function.update s.fed name
        (if s.kept.current? name frame = none then frame.lines else s.fed name ++ frame.lines)
    | _ => s.fed

def Step (s : Served) (call : Call) (s' : Served) : Prop := s' = s.next call

/-- The clock does not run backwards. -/
def InTime (s : Served) (call : Call) : Prop := ∀ now ∈ call.now?, s.clock ≤ now

abbrev Run := EventSystem.Run (EventSystem.Guarded Step InTime)

/-- The first object of a channel. -/
def initial (clock : Int) : Served := ⟨⟨none, SessionOutputStore.empty⟩, clock, fun _ => []⟩

/-- The bounds on what is kept, and where its lines are from. -/
structure Fits (sessions : Sessions) (clock : Int) (fed : String → List SessionOutputLine) :
    Prop where
  length : sessions.rows.length ≤ SESSION_OUTPUT_MAX_AGENTS
  early : ∀ e ∈ sessions, e.updatedAt ≤ clock
  lines : ∀ e ∈ sessions, e.lines = ringLines (fed e.name)

structure Kept (s : Served) : Prop where
  synced : s.kept.Synced
  fits : Fits s.kept.ensureLoaded.sessions s.clock s.fed

section Fits

variable {sessions sessions' : Sessions} {clock now : Int} {fed : String → List SessionOutputLine}

theorem Fits.later (h : Fits sessions clock fed) (hle : clock ≤ now) : Fits sessions now fed :=
  ⟨h.length, fun e he => (h.early e he).trans hle, h.lines⟩

theorem Fits.of_mem_iff (h : Fits sessions clock fed) (hmem : ∀ e, e ∈ sessions ↔ e ∈ sessions') :
    Fits sessions' clock fed :=
  ⟨(Table.perm_of_mem_iff hmem).length_eq ▸ h.length, fun e he => h.early e ((hmem e).2 he),
    fun e he => h.lines e ((hmem e).2 he)⟩

theorem Fits.delete (h : Fits sessions clock fed) (p : SessionEntry → Bool) :
    Fits (sessions.delete p) clock fed :=
  ⟨(List.length_filter_le _ _).trans h.length, fun e he => h.early e (Table.mem_delete.1 he).1,
    fun e he => h.lines e (Table.mem_delete.1 he).1⟩

theorem Fits.marked (h : Fits sessions clock fed) (hle : clock ≤ now)
    (marked : SessionEntry → Bool) :
    Fits (sessions.update marked (·.disconnected now) fun e => e.disconnected_name now) now
      fed := by
  refine ⟨?_, fun e he => ?_, fun e he => ?_⟩
  · rw [Table.update, List.length_map]
    exact h.length
  · obtain ⟨e₀, he₀, rfl⟩ := (Table.mem_update _).1 he
    split_ifs
    · exact le_rfl
    · exact (h.early e₀ he₀).trans hle
  · obtain ⟨e₀, he₀, rfl⟩ := (Table.mem_update _).1 he
    split_ifs
    · exact h.lines e₀ he₀
    · exact h.lines e₀ he₀

end Fits

variable {s s' : Served} {call : Call}

theorem Kept.apply (h : Kept s) {name connectionId : String} {frame : SessionOutputClientFrame}
    {now : Int} (hle : s.clock ≤ now) : Kept (s.next (.apply name connectionId frame now)) := by
  have hearly : ∀ e ∈ s.kept.ensureLoaded.sessions, e.updatedAt ≤ now :=
    (h.fits.later hle).early
  obtain ⟨hsynced, hlength, hcases⟩ := @StoredRing.synced_apply s.kept name connectionId frame now
    h.synced hearly h.fits.length
  refine ⟨hsynced, hlength, fun e he => ?_, fun e he => ?_⟩
  · rcases hcases with ⟨-, hsame⟩ | ⟨-, entry, hrecords⟩
    · exact hearly e (hsame ▸ he)
    have hget := Table.get?_key he
    by_cases hname : e.name = name
    · rw [hname] at hget
      obtain rfl := Option.some.inj (hget.symm.trans hrecords.get?_eq)
      exact hrecords.updatedAt_eq.le
    · exact hearly e (Table.get?_eq_some.1 ((hrecords.others _ hname).2 e hget)).1
  · have hanswer : s.answer (.apply name connectionId frame now) =
        (s.kept.apply name connectionId frame now).2.toList := rfl
    rcases hcases with ⟨hnone, hsame⟩ | ⟨hsome, entry, hrecords⟩
    · simp only [next, hanswer, hnone, Option.toList_none, if_true]
      exact h.fits.lines e (hsame ▸ he)
    obtain ⟨out, hout⟩ := Option.isSome_iff_exists.1 hsome
    simp only [next, hanswer, hout, Option.toList_some, List.cons_ne_nil, if_false]
    have hget := Table.get?_key he
    by_cases hname : e.name = name
    · rw [hname] at hget ⊢
      obtain rfl := Option.some.inj (hget.symm.trans hrecords.get?_eq)
      rw [Function.update_self, hrecords.lines_eq]
      cases hcurrent : s.kept.current? name frame with
      | none => rw [if_pos rfl, Option.map_none, Option.getD_none, List.nil_append]
      | some e₀ =>
        obtain ⟨hmem, hname₀⟩ := Table.get?_eq_some.1 (StoredRing.current?_eq_some hcurrent).1
        rw [if_neg (by simp), Option.map_some, Option.getD_some, h.fits.lines e₀ hmem, hname₀,
          SessionOutputStore.ringLines_ringLines_append]
    · rw [Function.update_of_ne hname]
      exact h.fits.lines e (Table.get?_eq_some.1 ((hrecords.others _ hname).2 e hget)).1

theorem Kept.step (h : Kept s) (hs : EventSystem.Guarded Step InTime s call s') : Kept s' := by
  obtain ⟨rfl, htime⟩ := hs
  cases call with
  | apply name connectionId frame now => exact h.apply (htime now rfl)
  | disconnect connectionId now =>
    exact ⟨StoredRing.synced_disconnect h.synced _ _, h.fits.marked (htime now rfl) _⟩
  | snapshot live now =>
    exact ⟨StoredRing.synced_snapshot h.synced _ _, h.fits.marked (htime now rfl) _⟩
  | forget name => exact ⟨StoredRing.synced_forget h.synced, h.fits.delete _⟩
  | forgetConnection name connectionId =>
    refine ⟨StoredRing.synced_forgetConnection h.synced _ _, ?_⟩
    change Fits (s.kept.forgetConnection name connectionId).ensureLoaded.sessions s.clock s.fed
    rcases s.kept.forgetConnection_cases name connectionId with ⟨hring, -⟩ | ⟨hring, -⟩
    · exact hring ▸ h.fits
    · exact hring ▸ h.fits.delete _
  | restart =>
    have hsynced := StoredRing.synced_restarted h.synced.sound
    exact ⟨hsynced, h.fits.of_mem_iff
      (Table.mem_iff_of_get? fun m => (h.synced.get?_eq m).trans (hsynced.get?_eq m).symm)⟩

theorem kept_initial (clock : Int) : Kept (initial clock) where
  synced := ⟨SessionOutputStore.sound_empty, StoredRing.get?_load_loadAll _⟩
  fits := ⟨Nat.zero_le _, fun _ he => absurd he List.not_mem_nil,
    fun _ he => absurd he List.not_mem_nil⟩

theorem Kept.run {clock : Int} {calls : List Call} (h : Run (initial clock) calls s) : Kept s :=
  EventSystem.Run.invariant (fun _ _ _ hk hs => hk.step hs) h (kept_initial clock)

/-- The frames of a list of calls. -/
def answers : Served → List Call → List (List SessionOutputFrame)
  | _, [] => []
  | s, call :: calls => s.answer call :: (s.next call).answers calls

/-- A report that passes the rate limit and begins a session has at most one entry to choose from
for the eviction. -/
def Decided (s : Served) : Call → Prop
  | .apply name connectionId frame now =>
    s.kept.ensureLoaded.admits connectionId frame now = true →
      s.kept.current? name frame = none → s.kept.ensureLoaded.Decided name
  | _ => True

def Ready (s : Served) (call : Call) : Prop := s.InTime call ∧ s.Decided call

/-- A new ring over the same tables takes over, with the old one's buckets. -/
def reloaded (s : Served) : Served := { s with kept := s.kept.reloaded }

/-- Two rings that cannot be told apart but by the order of their entries. -/
structure Twin (s s' : Served) : Prop where
  kept : Kept s
  kept' : Kept s'
  clock : s.clock = s'.clock
  alike : s.kept.ensureLoaded.Alike s'.kept.ensureLoaded

theorem twin_reloaded (h : Kept s) : Twin s s.reloaded := by
  have hget : ∀ m, s.kept.ensureLoaded.sessions.get? m =
      (SessionOutputRing.load s.kept.store.loadAll).sessions.get? m := fun m =>
    (h.synced.get?_eq m).trans (StoredRing.get?_load_loadAll _ m).symm
  exact ⟨h, ⟨⟨h.synced.sound, StoredRing.get?_load_loadAll _⟩,
    h.fits.of_mem_iff (Table.mem_iff_of_get? hget)⟩, rfl, Table.mem_iff_of_get? hget, rfl⟩

/-- The frames agree in all but their order, and so do the rings behind the call. -/
theorem Twin.answer (h : Twin s s') (hdecided : s.Decided call) (htime : s.InTime call) :
    (s.answer call).Perm (s'.answer call) ∧
      (s.next call).kept.ensureLoaded.Alike (s'.next call).kept.ensureLoaded := by
  cases call with
  | apply name connectionId frame now =>
    have hearly := (h.kept.fits.later (htime now rfl)).early
    obtain ⟨hframe, halike⟩ :=
      @SessionOutputRing.Alike.apply _ _ name connectionId frame now h.alike hearly
        h.kept.fits.length hdecided
    obtain ⟨hring, hout⟩ := s.kept.apply_eq name connectionId frame now
    obtain ⟨hring', hout'⟩ := s'.kept.apply_eq name connectionId frame now
    refine ⟨List.Perm.of_eq ?_, ?_⟩
    · exact congrArg Option.toList (hout.trans (hframe.trans hout'.symm))
    · change (s.kept.apply name connectionId frame now).1.ensureLoaded.Alike
        (s'.kept.apply name connectionId frame now).1.ensureLoaded
      rw [hring, hring']
      exact halike
  | disconnect connectionId now =>
    refine ⟨(Table.perm_of_mem_iff h.alike.mem).filterMap _,
      h.alike.update fun e => e.disconnected_name now, ?_⟩
    exact congrArg (Table.delete · fun b => b.connectionId = connectionId) h.alike.buckets
  | snapshot live now =>
    have hmem := h.alike.update (p := (·.lost live)) fun e => e.disconnected_name now
    exact ⟨(Table.perm_of_mem_iff hmem).map _, hmem, h.alike.buckets⟩
  | forget name => exact ⟨List.Perm.refl _, h.alike.delete _, h.alike.buckets⟩
  | forgetConnection name connectionId =>
    have hbuckets := congrArg (Table.delete · fun b => b.connectionId = connectionId)
      h.alike.buckets
    refine ⟨List.Perm.refl _, ?_⟩
    change (s.kept.forgetConnection name connectionId).ensureLoaded.Alike
      (s'.kept.forgetConnection name connectionId).ensureLoaded
    unfold StoredRing.forgetConnection
    dsimp only
    rw [h.alike.get? name]
    cases (s'.kept.ensureLoaded.sessions.get? name).filter
      fun e => e.connectionId = connectionId with
    | none => exact ⟨h.alike.mem, hbuckets⟩
    | some e => exact ⟨h.alike.delete _, hbuckets⟩
  | restart =>
    refine ⟨List.Perm.refl _, Table.mem_iff_of_get? fun m => ?_, rfl⟩
    exact (StoredRing.get?_load_loadAll _ m).trans (((h.kept.synced.get?_eq m).symm.trans
      (h.alike.get? m)).trans ((h.kept'.synced.get?_eq m).trans
        (StoredRing.get?_load_loadAll _ m).symm))

theorem Twin.next (h : Twin s s') (hready : s.Ready call) :
    Twin (s.next call) (s'.next call) where
  kept := h.kept.step ⟨rfl, hready.1⟩
  kept' := h.kept'.step ⟨rfl, fun now hnow => h.clock ▸ hready.1 now hnow⟩
  clock := congrArg call.now?.getD h.clock
  alike := (h.answer hready.2 hready.1).2

theorem Twin.answers (h : Twin s s') {calls : List Call}
    (hready : AllReady Ready Served.next s calls) :
    List.Forall₂ List.Perm (s.answers calls) (s'.answers calls) ∧
      Twin (calls.foldl Served.next s) (calls.foldl Served.next s') := by
  induction calls generalizing s s' with
  | nil => exact ⟨.nil, h⟩
  | cons call calls ih =>
    obtain ⟨hrest, htwin⟩ := ih (h.next hready.1) hready.2
    exact ⟨.cons (h.answer hready.1.2 hready.1.1).1 hrest, htwin⟩

section Reloaded

instance (s : Served) (call : Call) : Decidable (s.InTime call) :=
  inferInstanceAs (Decidable (∀ now ∈ call.now?, s.clock ≤ now))

/-- A report of a session that is over, without lines; the rate limit spares it. -/
def lastReport (sessionId : String) : SessionOutputClientFrame := ⟨sessionId, none, .done, []⟩

def twoAgents : List Call :=
  [.apply "ada" "c1" ⟨"run-1", none, .running, []⟩ 1, .apply "bot" "c2" (lastReport "run-2") 2,
    .apply "ada" "c1" (lastReport "run-1") 3]

theorem run_foldl {s : Served} {calls : List Call} (h : AllReady InTime next s calls) :
    Run s calls (calls.foldl next s) :=
  EventSystem.run_of_ready (fun _ _ htime => ⟨rfl, htime⟩) h

/-- A full ring, every entry of which was updated at the same time; the first agent began anew. -/
def fullRing : List Call :=
  ("abcdefghijklmnopqrstuvwxyzABCDEFGHIJKLMNOPQRSTUVWXYZ0123456789+-".toList.map fun c =>
      Call.apply (String.ofList [c]) "c1" (lastReport "run-1") 0) ++
    [Call.apply "a" "c1" (lastReport "run-2") 0]

/-- One agent too many. -/
def oneMore : List Call := [.apply "extra" "c1" (lastReport "run-1") 0, .snapshot none 0]

end Reloaded

end Served

end Web
end AgentParty
