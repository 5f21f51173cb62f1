import AgentParty.Delivery.History

/-! Paging through the history of a channel. A page around a row is one block of the filtered
table, as long as the limit and the table allow, and paging back from the first row of a page
loads every older row once. -/

namespace AgentParty
namespace History

variable {C : Type*} (t : Messages C) (completionOnly : Bool)

section Rows

variable {t completionOnly}

theorem mem_history {r : MessageRow C} :
    r ∈ history t completionOnly ↔ r ∈ t ∧ completionClause completionOnly r = true := by
  rw [history, Keyset.mem_ascending, List.mem_filter, Table.mem_def]

theorem increasing_history : Keyset.Increasing MessageRow.seq (history t completionOnly) :=
  Keyset.increasing_ascending (t.nodup.sublist (List.filter_sublist.map _))

theorem length_history_le : (history t completionOnly).length ≤ t.rows.length := by
  rw [history, (Keyset.ascending_perm _).length_eq]
  exact List.length_filter_le _ _

theorem ascending_select (p : MessageRow C → Bool) :
    Keyset.ascending MessageRow.seq (select t completionOnly p) =
      (history t completionOnly).filter p := by
  rw [history, ← Keyset.ascending_filter, List.filter_filter]
  rfl

theorem selectFirst_eq (p : MessageRow C → Bool) {n : ℤ} (hn : 0 ≤ n) :
    selectFirst t completionOnly p n = ((history t completionOnly).filter p).take n.toNat := by
  rw [selectFirst, Keyset.limit, if_neg (by omega), ascending_select]

theorem selectLast_eq (p : MessageRow C → Bool) {n : ℤ} (hn : 0 ≤ n) :
    selectLast t completionOnly p n = ((history t completionOnly).filter p).rtake n.toNat := by
  have hnodup : ((select t completionOnly p).map MessageRow.seq).Nodup :=
    t.nodup.sublist (List.filter_sublist.map _)
  rw [selectLast, Keyset.ascending_limit_descending hnodup hn, ascending_select]

end Rows

section Around

def upTo (a : ℤ) : List (MessageRow C) :=
  (history t completionOnly).filter fun r => r.seq ≤ a

def after (a : ℤ) : List (MessageRow C) :=
  (history t completionOnly).filter fun r => a < r.seq

theorem upTo_append_after (a : ℤ) :
    upTo t completionOnly a ++ after t completionOnly a = history t completionOnly :=
  Keyset.filter_le_append_filter_lt increasing_history a

variable {t completionOnly}

/-- The lower half ends in the anchor just if the anchor is there. -/
theorem last_upTo_iff {a : ℤ} (ha : 0 < a) :
    ((upTo t completionOnly a).getLast?.map MessageRow.seq).getD 0 = a ↔
      ∃ r ∈ history t completionOnly, r.seq = a := by
  constructor
  · intro h
    cases hlast : (upTo t completionOnly a).getLast? with
    | none =>
      rw [hlast] at h
      simp at h
      omega
    | some r =>
      rw [hlast] at h
      have hr : r ∈ upTo t completionOnly a := List.mem_of_getLast? hlast
      exact ⟨r, (List.mem_filter.1 hr).1, by simpa using h⟩
  · rintro ⟨r, hr, rfl⟩
    have hmem : r ∈ upTo t completionOnly r.seq := List.mem_filter.2 ⟨hr, by simp⟩
    obtain ⟨front, last, hsplit⟩ : ∃ front last, upTo t completionOnly r.seq = front ++ [last] :=
      ⟨_, _, (List.dropLast_concat_getLast (List.ne_nil_of_mem hmem)).symm⟩
    have hlast : last.seq ≤ r.seq := by
      have : last ∈ upTo t completionOnly r.seq := by simp [hsplit]
      simpa using (List.mem_filter.1 this).2
    have hsorted : Keyset.Increasing MessageRow.seq (front ++ [last]) :=
      hsplit ▸ increasing_history.sublist List.filter_sublist
    have hle : r.seq ≤ last.seq := by
      rcases List.mem_append.1 (hsplit ▸ hmem) with h | h
      · exact ((List.pairwise_append.1 hsorted).2.2 r h last (by simp)).le
      · rw [List.mem_singleton.1 h]
    simpa [hsplit] using le_antisymm hlast hle

/-- Three queries make one window of the filtered table. -/
theorem aroundRows_eq {a limit : ℤ} (hlimit : 1 ≤ limit) (ha : 0 < a)
    (hanchor : ∃ r ∈ history t completionOnly, r.seq = a) :
    aroundRows t completionOnly a limit = Keyset.window (upTo t completionOnly a)
      (after t completionOnly a) (max 1 ((limit + 1) / 2)).toNat limit.toNat := by
  obtain ⟨half, hhalf⟩ : ∃ half : ℕ, max 1 ((limit + 1) / 2) = half :=
    ⟨(max 1 ((limit + 1) / 2)).toNat, by omega⟩
  have hlower : selectLast t completionOnly (fun r => r.seq ≤ a) half =
      (upTo t completionOnly a).rtake half := selectLast_eq _ (by omega)
  have hlast : ((upTo t completionOnly a).rtake half).getLast? =
      (upTo t completionOnly a).getLast? := Keyset.getLast?_rtake (by omega)
  have hcount : ((upTo t completionOnly a).rtake half).length ≤ half := by
    simp only [List.rtake, List.length_drop]
    omega
  have hupper : selectFirst t completionOnly (fun r => a < r.seq)
      (limit - ((upTo t completionOnly a).rtake half).length) = (after t completionOnly a).take
        (limit.toNat - ((upTo t completionOnly a).rtake half).length) := by
    rw [selectFirst_eq _ (by omega), Int.toNat_sub']
    rfl
  obtain ⟨x, rest, hx⟩ : ∃ x rest, (upTo t completionOnly a).rtake half = x :: rest := by
    obtain ⟨r, hr, rfl⟩ := hanchor
    refine List.exists_cons_of_ne_nil fun hnil => ?_
    rw [hnil, List.getLast?_nil, eq_comm, List.getLast?_eq_none_iff] at hlast
    exact List.ne_nil_of_mem (List.mem_filter.2 ⟨hr, by simp⟩) hlast
  have holder : ((history t completionOnly).filter fun r => r.seq < x.seq) =
      (upTo t completionOnly a).take ((upTo t completionOnly a).length - half) := by
    have hrows : history t completionOnly =
        (upTo t completionOnly a).take ((upTo t completionOnly a).length - half) ++
          x :: (rest ++ after t completionOnly a) := by
      rw [← List.cons_append, ← hx, ← List.append_assoc, List.rtake, List.take_append_drop,
        upTo_append_after]
    exact Keyset.filter_lt_of_append increasing_history hrows
  rw [aroundRows]
  simp only [hhalf, hlower, hlast, hupper, Int.toNat_natCast]
  rw [if_neg (not_not.2 ((last_upTo_iff ha).2 hanchor)), Keyset.window]
  congr 2
  rw [hx, List.head?_cons, Option.map_some, Option.getD_some, ← hx]
  split_ifs with hmissing
  · rw [selectLast_eq _ hmissing.le, holder]
    congr 1
    omega
  · rw [Int.not_lt] at hmissing
    symm
    have hnone : limit.toNat - ((upTo t completionOnly a).rtake half).length -
        ((after t completionOnly a).take
          (limit.toNat - ((upTo t completionOnly a).rtake half).length)).length = 0 := by
      omega
    rw [hnone, List.rtake_zero]

theorem aroundRows_eq_nil {a limit : ℤ} (ha : 0 < a)
    (h : ∀ r ∈ history t completionOnly, r.seq ≠ a) : aroundRows t completionOnly a limit = [] := by
  have hlower := @selectLast_eq _ t completionOnly
    (fun r => r.seq ≤ a) (max 1 ((limit + 1) / 2)) (by omega)
  have hlast := @Keyset.getLast?_rtake _ (upTo t completionOnly a) _
    (by omega : 0 < (max 1 ((limit + 1) / 2)).toNat)
  rw [aroundRows]
  simp only [hlower]
  rw [if_pos]
  rw [← upTo, hlast]
  exact fun hseq => by
    obtain ⟨r, hr, hra⟩ := (last_upTo_iff ha).1 hseq
    exact h r hr hra

end Around

section Older

variable {t completionOnly}

theorem toInt_some (n fallback : ℤ) : toInt (some n) fallback = n := rfl

theorem getMessages_around {q : MessagesQuery} {a limit : ℤ} (ha : 0 < a) (hlow : 1 ≤ limit)
    (hhigh : limit ≤ 1000) (hq : q.around = some a) (hl : q.limit = some limit) :
    getMessages t q = aroundRows t q.completionOnly a limit := by
  simp only [getMessages, hq, hl, toInt_some]
  rw [max_eq_left ha.le, if_neg (not_le.2 ha), max_eq_left hlow, min_eq_left hhigh]

/-- A page further back is the end of what is older. -/
theorem getMessages_older {first : ℤ} (hfirst : 0 < first) (size : ℤ → ℤ) :
    ∃ n, 0 < n ∧ getMessages t (olderQuery completionOnly size first) =
      ((history t completionOnly).filter fun r => r.seq < first).rtake n := by
  refine ⟨(min (max (size first) 1) 1000).toNat, by omega, ?_⟩
  rw [← selectLast_eq _ (by omega : 0 ≤ min (max (size first) 1) 1000)]
  simp only [getMessages, olderQuery, toInt, Option.getD_none, Option.getD_some,
    max_eq_left hfirst.le, max_self, le_refl, if_true, if_pos hfirst]

/-- What the reader has still to load, and what it has loaded, are the older rows. -/
structure Paging (t : Messages C) (completionOnly : Bool) (start : ℤ) (s : Reader C) : Prop where
  first_pos : 0 < s.first
  split : ((history t completionOnly).filter fun r => r.seq < s.first) ++ s.loaded =
    (history t completionOnly).filter fun r => r.seq < start

theorem Paging.loadOlder {size : ℤ → ℤ} {start : ℤ} {s s' : Reader C}
    (h : Paging t completionOnly start s)
    (hstep : loadOlder t completionOnly size s = .inl s') :
    Paging t completionOnly start s' ∧
      ((history t completionOnly).filter fun r => r.seq < s'.first).length <
        ((history t completionOnly).filter fun r => r.seq < s.first).length := by
  obtain ⟨n, hn, hpage⟩ := @getMessages_older _ t completionOnly _
    h.first_pos size
  generalize holder : ((history t completionOnly).filter fun r => r.seq < s.first) = older
    at hpage
  rw [History.loadOlder, hpage] at hstep
  cases hrows : older.rtake n with
  | nil =>
    rw [hrows] at hstep
    cases hstep
  | cons r rows =>
    rw [hrows] at hstep
    cases hstep
    have hcut : older.take (older.length - n) ++ r :: rows = older := by
      rw [← hrows, List.rtake, List.take_append_drop]
    have hlt : r.seq < s.first := by
      have : r ∈ older := hcut ▸ by simp
      rw [← holder] at this
      simpa using (List.mem_filter.1 this).2
    have hfront : ((history t completionOnly).filter fun b => b.seq < r.seq) =
        older.take (older.length - n) := by
      have hsorted : Keyset.Increasing MessageRow.seq older :=
        holder ▸ increasing_history.sublist List.filter_sublist
      rw [← Keyset.filter_lt_of_append hsorted hcut.symm, ← holder, List.filter_filter]
      refine List.filter_congr fun b _ => ?_
      by_cases hb : b.seq < r.seq
      · simp [hb, hb.trans hlt]
      · simp [hb]
    refine ⟨⟨r.seq_pos, ?_⟩, ?_⟩
    · rw [hfront, ← h.split, holder, ← List.append_assoc, hcut]
    · rw [hfront]
      calc (older.take (older.length - n)).length
          < (older.take (older.length - n) ++ r :: rows).length := by simp
        _ = older.length := by rw [hcut]

theorem Paging.loaded {size : ℤ → ℤ} {start : ℤ} {s : Reader C} {rows : List (MessageRow C)}
    (h : Paging t completionOnly start s)
    (hstep : History.loadOlder t completionOnly size s = .inr rows) :
    rows = (history t completionOnly).filter fun r => r.seq < start := by
  obtain ⟨n, hn, hpage⟩ := @getMessages_older _ t completionOnly _
    h.first_pos size
  rw [History.loadOlder, hpage] at hstep
  cases hrows : ((history t completionOnly).filter fun r => r.seq < s.first).rtake n with
  | nil =>
    rw [hrows] at hstep
    cases hstep
    have hnone : ((history t completionOnly).filter fun r => r.seq < s.first) = [] := by
      rw [← List.getLast?_eq_none_iff, ← Keyset.getLast?_rtake hn, hrows, List.getLast?_nil]
    rw [← h.split, hnone, List.nil_append]
  | cons r rows' =>
    rw [hrows] at hstep
    cases hstep

/-- Paging back ends with the older rows, each of them once. -/
theorem run_loadOlder (size : ℤ → ℤ) {start : ℤ} (hstart : 0 < start) {fuel : ℕ}
    (hfuel : t.rows.length < fuel) :
    WhileLoop.run (loadOlder t completionOnly size) fuel ⟨start, []⟩ =
      some ((history t completionOnly).filter fun r => r.seq < start) := by
  have hpaging : Paging t completionOnly start ⟨start, []⟩ := ⟨hstart, List.append_nil _⟩
  have hmeasure : ((history t completionOnly).filter fun r => r.seq < start).length < fuel :=
    ((List.length_filter_le _ _).trans length_history_le).trans_lt hfuel
  obtain ⟨rows, hrun⟩ := WhileLoop.run_terminates (I := Paging t completionOnly start)
    (fun s s' hi hs => hi.loadOlder hs) hpaging hmeasure
  rw [hrun, WhileLoop.run_invariant (fun s s' hi hs => (Paging.loadOlder hi hs).1)
    (fun s b hi hs => Paging.loaded hi hs) hpaging hrun]

end Older

/-- Around a row the answer is empty without the row. With it, it is one block of the filtered
table that holds the row, as long as the limit and the table allow; and paging back from the first
row of any page loads every older row of the table once, and ends. -/
theorem getMessages_window (q : MessagesQuery) {a limit : ℤ} (ha : 0 < a)
    (hlimit : 1 ≤ limit ∧ limit ≤ 1000) (hq : q.around = some a) (hl : q.limit = some limit) :
    (getMessages t q = [] ↔ ∀ r ∈ history t q.completionOnly, r.seq ≠ a) ∧
    (getMessages t q ≠ [] →
      ((getMessages t q).length : ℤ) = min limit (history t q.completionOnly).length ∧
        ((getMessages t q).Pairwise fun r r' => r.seq < r'.seq) ∧
        (∃ r ∈ getMessages t q, r.seq = a) ∧
        getMessages t q <:+: history t q.completionOnly) ∧
    ∀ (page : MessagesQuery) (first : MessageRow C) (rest : List (MessageRow C)) (size : ℤ → ℤ),
      getMessages t page = first :: rest →
      ∃ rows, WhileLoop.run (loadOlder t page.completionOnly size) (t.rows.length + 1)
          ⟨first.seq, []⟩ = some rows ∧
        (rows.Pairwise fun r r' => r.seq < r'.seq) ∧
        ∀ r, r ∈ rows ↔ r ∈ history t page.completionOnly ∧ r.seq < first.seq := by
  have hpage := getMessages_around (t := t) ha hlimit.1 hlimit.2 hq hl
  refine ⟨?_, fun hne => ?_, fun page first rest size _ => ?_⟩
  · rw [hpage]
    refine ⟨fun hnil r hr hra => ?_, aroundRows_eq_nil ha⟩
    rw [aroundRows_eq hlimit.1 ha ⟨r, hr, hra⟩, ← List.length_eq_zero_iff,
      Keyset.length_window _ _ (by omega), ← List.length_append, upTo_append_after] at hnil
    have hpos := List.length_pos_of_mem hr
    omega
  · have hanchor : ∃ r ∈ history t q.completionOnly, r.seq = a := by
      by_contra hnone
      refine hne (hpage.trans (aroundRows_eq_nil ha fun r hr hra => hnone ⟨r, hr, hra⟩))
    rw [hpage, aroundRows_eq hlimit.1 ha hanchor]
    have hblock := Keyset.window_infix (upTo t q.completionOnly a) (after t q.completionOnly a)
      (max 1 ((limit + 1) / 2)).toNat limit.toNat
    rw [upTo_append_after] at hblock
    refine ⟨?_, increasing_history.sublist hblock.sublist, ?_, hblock⟩
    · rw [Keyset.length_window _ _ (by omega), ← List.length_append, upTo_append_after]
      omega
    · have hlast := (last_upTo_iff ha).2 hanchor
      cases hx : (upTo t q.completionOnly a).getLast? with
      | none =>
        rw [hx] at hlast
        exact absurd hlast ha.ne
      | some x =>
        rw [hx] at hlast
        exact ⟨x, Keyset.mem_window_last _ (by omega) hx, hlast⟩
  · refine ⟨_, run_loadOlder size first.seq_pos (Nat.lt_succ_self _),
      increasing_history.sublist List.filter_sublist, fun r => ?_⟩
    rw [List.mem_filter, decide_eq_true_eq]

/-- A row that is no completion. -/
def plainRow (n : ℕ) : MessageRow Unit := ⟨(n.succ : ℕ), Int.natCast_succ_pos n, none, ()⟩

theorem plainRows_nodup : (([8, 0, 3, 2, 7].map plainRow).map MessageRow.seq).Nodup := by decide

/-- What is left of nine rows after pruning. -/
def prunedTable : Messages Unit := ⟨[8, 0, 3, 2, 7].map plainRow, plainRows_nodup⟩

def aroundNine : MessagesQuery := ⟨none, none, some 9, some 3, false⟩

theorem getMessages_window_pruned :
    (getMessages prunedTable aroundNine).map MessageRow.seq = [4, 8, 9] ∧
      ((getMessages prunedTable aroundNine).length : ℤ) =
        min 3 (history prunedTable false).length ∧
      getMessages prunedTable aroundNine <:+: history prunedTable false := by
  have h := getMessages_window prunedTable aroundNine (by decide : (0 : ℤ) < 9)
    (by decide : (1 : ℤ) ≤ 3 ∧ (3 : ℤ) ≤ 1000) rfl rfl
  have hrow : plainRow 8 ∈ history prunedTable false :=
    mem_history.2 ⟨List.mem_cons_self, rfl⟩
  obtain ⟨hlength, -, -, hblock⟩ := h.2.1 fun hnil => h.1.1 hnil (plainRow 8) hrow rfl
  exact ⟨by decide, hlength, hblock⟩

end History
end AgentParty
