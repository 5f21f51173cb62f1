import AgentParty.Cli.Account

/-! The newest refresh token stays in account.json, over every run whose processes keep out of
each other's way: a token is presented once, nobody is taken for logged out who is not, and a
logout lasts. -/

namespace AgentParty
namespace Account

open EventSystem

section Lists

variable {l : List Stage} {p q : ℕ} {stage new : Stage}

theorem getElem?_set_cases (h : (l.set p new)[q]? = some stage) :
    (q = p ∧ stage = new) ∨ (q ≠ p ∧ l[q]? = some stage) := by
  rw [List.getElem?_set] at h
  split_ifs at h with hpq hlt
  · exact Or.inl ⟨hpq.symm, (Option.some.inj h).symm⟩
  · exact Or.inr ⟨fun hq => hpq hq.symm, h⟩

theorem mem_set_of_ne (h : l[q]? = some stage) (hne : q ≠ p) : stage ∈ l.set p new := by
  refine List.mem_of_getElem? (i := q) ?_
  rw [List.getElem?_set_ne hne.symm]
  exact h

theorem mem_set_new (h : l[p]? = some stage) : new ∈ l.set p new := by
  refine List.mem_of_getElem? (i := p) ?_
  rw [List.getElem?_set_self (List.getElem?_eq_some_iff.1 h).1]

end Lists

section Conditions

variable {Byte : Type} (X : Externals Byte) (start : Option AccountSession) (s : World Byte)

/-- A process is between the truncation of account.json and its write. -/
def World.Torn : Prop :=
  ∃ stage ∈ s.stages, stage.opens.isSome = true ∧ stage.opens = s.disk.file

instance : Decidable s.Torn := List.decidableBEx _ _

/-- What the next step of a process must find: a request, the session that it read and no answer
under way; the removal by a logout, no answer that is still to be written. -/
def Stage.Undisturbed : Stage → Prop
  | .requesting sess _ =>
    readAccount X s.disk = some sess ∧ ∀ stage ∈ s.stages, ¬ stage.Holding
  | .clearing _ => ∀ stage ∈ s.stages, ¬ stage.Answered
  | _ => True

instance : DecidablePred (Stage.Undisturbed X s)
  | .requesting .. => inferInstanceAs (Decidable (_ ∧ _))
  | .clearing _ => inferInstanceAs (Decidable (∀ stage ∈ s.stages, ¬ stage.Answered))
  | .configuring .. | .answered .. | .opened .. | .rereading .. | .returned _ | .thrown
  | .cleared _ | .dead => inferInstanceAs (Decidable True)

/-- Nobody reads the file truncated or dies with it truncated, and the steps of a request and of a
logout find what they must. -/
def World.Undisturbed : Event → Prop
  | .resolveAuthDetailed .. | .clearAccount => ¬ s.Torn
  | .act p .. => ∀ stage ∈ s.stages[p]?, stage.Undisturbed X s
  | .crash p => ∀ stage ∈ s.stages[p]?, stage.opens.isSome = true → stage.opens ≠ s.disk.file
  | .fail _ => True

instance : DecidablePred (World.Undisturbed X s)
  | .resolveAuthDetailed .. | .clearAccount => inferInstanceAs (Decidable (¬ s.Torn))
  | .act p .. => inferInstanceAs (Decidable (∀ stage ∈ s.stages[p]?, stage.Undisturbed X s))
  | .crash p => inferInstanceAs (Decidable (∀ stage ∈ s.stages[p]?,
      stage.opens.isSome = true → stage.opens ≠ s.disk.file))
  | .fail _ => inferInstanceAs (Decidable True)

/-- There was no session, or a logout is done. -/
def World.LoggedOut : Prop := start = none ∨ ∃ existed, .cleared existed ∈ s.stages

def World.HoldsNewest : Prop :=
  ∃ sess, readAccount X s.disk = some sess ∧ s.issued.head? = some sess.refreshToken

/-- What a user may expect of account.json. -/
structure World.Sound : Prop where
  once : s.presented.Nodup
  newest : (∀ stage ∈ s.stages, stage.Over) → s.LoggedOut start ∨ s.HoldsNewest X
  seen : ∀ auth, .returned auth ∈ s.stages → auth.account.present = false → s.LoggedOut start
  found : .clearing false ∈ s.stages → s.LoggedOut start
  gone : s.LoggedOut start → s.disk.file = none

/-- At most one process holds an answer, and then nobody presents a token. -/
structure World.Orderly : Prop where
  alone : ∀ (p q : ℕ) (a b : Stage), s.stages[p]? = some a → s.stages[q]? = some b →
    a.Holding → b.Holding → p = q
  fresh : s.issued.Nodup
  once : s.presented.Nodup
  spent : ∀ token ∈ s.presented, token ∈ s.issued.tail
  out : s.LoggedOut start ↔ s.disk.file = none
  kept : s.disk.file.isSome = true → (∀ stage ∈ s.stages, ¬ stage.Holding) → s.HoldsNewest X
  answered : ∀ updated sess server, .answered updated sess server ∈ s.stages →
    s.issued.head? = some updated.refreshToken ∧ (readAccount X s.disk).isSome = true
  opened : ∀ updated sess server i, .opened updated sess server i ∈ s.stages →
    s.issued.head? = some updated.refreshToken ∧
      ((s.disk.file = some i ∧ s.disk.texts i = []) ∨ s.disk.file = none)
  seen : ∀ auth, .returned auth ∈ s.stages → auth.account.present = false → s.disk.file = none
  found : .clearing false ∈ s.stages → s.disk.file = none

end Conditions

section Steps

variable {Byte : Type} {X : Externals Byte} {start : Option AccountSession} {s s' : World Byte}
  {p : ℕ} {old new : Stage}

theorem readAccount_isSome_file {disk : Disk Byte} (h : (readAccount X disk).isSome = true) :
    ∃ i, disk.file = some i := by
  unfold readAccount at h
  cases hfile : disk.file with
  | none => simp [hfile] at h
  | some i => exact ⟨i, rfl⟩

theorem Stage.Holding.cases {stage : Stage} (h : stage.Holding) :
    (∃ updated sess server, stage = .answered updated sess server) ∨
      ∃ updated sess server i, stage = .opened updated sess server i := by
  cases stage with
  | answered updated sess server => exact Or.inl ⟨_, _, _, rfl⟩
  | opened updated sess server i => exact Or.inr ⟨_, _, _, _, rfl⟩
  | _ => simp [Stage.Holding, Stage.Answered, Stage.opens] at h

theorem Stage.not_holding {stage : Stage} (hans : ¬ stage.Answered) (hopens : stage.opens = none) :
    ¬ stage.Holding := by
  rintro (hhold | hhold)
  · exact hans hhold
  · simp [hopens] at hhold

theorem World.Orderly.sound (h : s.Orderly X start) : s.Sound X start where
  once := h.once
  newest hquiet := by
    cases hfile : s.disk.file with
    | none => exact Or.inl (h.out.2 hfile)
    | some i =>
      refine Or.inr (h.kept (by simp [hfile]) fun stage hmem hhold => ?_)
      have hover := hquiet stage hmem
      obtain ⟨_, _, _, rfl⟩ | ⟨_, _, _, _, rfl⟩ := hhold.cases <;> exact hover
  seen auth hmem hpresent := h.out.2 (h.seen auth hmem hpresent)
  found hmem := h.out.2 (h.found hmem)
  gone := h.out.1

/-- Outside a write a read finds the account, as long as there is one. -/
theorem World.Orderly.read (h : s.Orderly X start) (hnot : ¬ s.Torn)
    (hnone : readAccount X s.disk = none) : s.disk.file = none := by
  by_contra hfile
  by_cases hany : ∃ stage ∈ s.stages, stage.Holding
  · obtain ⟨stage, hmem, hhold⟩ := hany
    obtain ⟨updated, sess, server, rfl⟩ | ⟨updated, sess, server, i, rfl⟩ := hhold.cases
    · have hsome := (h.answered _ _ _ hmem).2
      simp [hnone] at hsome
    · rcases (h.opened _ _ _ _ hmem).2 with ⟨hi, -⟩ | hgone
      · exact hnot ⟨_, hmem, rfl, hi.symm⟩
      · exact hfile hgone
  · obtain ⟨sess, hread, -⟩ := h.kept (Option.isSome_iff_ne_none.2 hfile)
      fun stage hmem hhold => hany ⟨stage, hmem, hhold⟩
    simp [hnone] at hread

/-- Stages change, and nothing else: one of them becomes `new`, or `new` comes. -/
structure World.Turns (s s' : World Byte) (new : Stage) : Prop where
  disk : s'.disk = s.disk
  issued : s'.issued = s.issued
  presented : s'.presented = s.presented
  back : ∀ (q : ℕ) (stage : Stage), s'.stages[q]? = some stage → s.stages[q]? = some stage ∨ stage = new
  forth : ∀ stage ∈ s.stages, stage ∈ s'.stages ∨
    (∀ existed, stage ≠ .cleared existed) ∧ (stage.Holding → s.disk.file = none)

theorem World.turns_goto (hp : s.stages[p]? = some old) (hcleared : ∀ existed, old ≠ .cleared existed)
    (hhold : old.Holding → s.disk.file = none) : s.Turns (s.goto p new) new where
  disk := rfl
  issued := rfl
  presented := rfl
  back q stage hq := by
    rcases getElem?_set_cases hq with ⟨-, rfl⟩ | ⟨-, hq⟩
    · exact Or.inr rfl
    · exact Or.inl hq
  forth stage hmem := by
    obtain ⟨q, hq⟩ := List.mem_iff_getElem?.1 hmem
    by_cases hqp : q = p
    · subst hqp
      obtain rfl := Option.some.inj (hp.symm.trans hq)
      exact Or.inr ⟨hcleared, hhold⟩
    · exact Or.inl (mem_set_of_ne hq hqp)

theorem World.turns_arrive : s.Turns (s.arrive new) new where
  disk := rfl
  issued := rfl
  presented := rfl
  back q stage hq := by
    have hmem : (s.stages ++ [new])[q]? = some stage := hq
    rw [List.getElem?_append] at hmem
    split_ifs at hmem
    · exact Or.inl hmem
    · exact Or.inr (List.mem_singleton.1 (List.mem_of_getElem? hmem))
  forth stage hmem := Or.inl (List.mem_append_left _ hmem)

theorem World.Turns.mem (h : s.Turns s' new) {stage : Stage} (hmem : stage ∈ s'.stages) :
    stage ∈ s.stages ∨ stage = new := by
  obtain ⟨q, hq⟩ := List.mem_iff_getElem?.1 hmem
  exact (h.back q stage hq).imp_left List.mem_of_getElem?

/-- A process that turns to a stage without an answer, having seen what there is. -/
theorem World.Orderly.turn (h : s.Orderly X start) (ht : s.Turns s' new) (hnew : ¬ new.Holding)
    (hcleared : ∀ existed, new ≠ .cleared existed)
    (hseen : ∀ auth, new = .returned auth → auth.account.present = false → s.disk.file = none)
    (hfound : new = .clearing false → s.disk.file = none) : s'.Orderly X start where
  alone q q' a b ha hb hha hhb := by
    rcases ht.back q a ha with ha | rfl
    · rcases ht.back q' b hb with hb | rfl
      · exact h.alone q q' a b ha hb hha hhb
      · exact absurd hhb hnew
    · exact absurd hha hnew
  fresh := ht.issued ▸ h.fresh
  once := ht.presented ▸ h.once
  spent := by
    rw [ht.presented, ht.issued]
    exact h.spent
  out := by
    rw [ht.disk, ← h.out]
    refine or_congr_right ⟨?_, ?_⟩
    · rintro ⟨existed, hmem⟩
      exact (ht.mem hmem).elim (fun hmem => ⟨existed, hmem⟩) fun heq =>
        absurd heq.symm (hcleared existed)
    · rintro ⟨existed, hmem⟩
      exact (ht.forth _ hmem).elim (fun hmem => ⟨existed, hmem⟩) fun hnot =>
        absurd rfl (hnot.1 existed)
  kept hfile hnone := by
    rw [ht.disk] at hfile
    unfold HoldsNewest
    rw [ht.disk, ht.issued]
    refine h.kept hfile fun stage hmem hhold => ?_
    rcases ht.forth stage hmem with hmem | ⟨-, hgone⟩
    · exact hnone stage hmem hhold
    · simp [hgone hhold] at hfile
  answered updated sess server hmem := by
    rw [ht.disk, ht.issued]
    rcases ht.mem hmem with hmem | rfl
    · exact h.answered _ _ _ hmem
    · exact absurd (Or.inl trivial) hnew
  opened updated sess server i hmem := by
    rw [ht.disk, ht.issued]
    rcases ht.mem hmem with hmem | rfl
    · exact h.opened _ _ _ _ hmem
    · exact absurd (Or.inr rfl) hnew
  seen auth hmem hpresent := by
    rw [ht.disk]
    rcases ht.mem hmem with hmem | heq
    · exact h.seen auth hmem hpresent
    · exact hseen auth heq.symm hpresent
  found hmem := by
    rw [ht.disk]
    rcases ht.mem hmem with hmem | heq
    · exact h.found hmem
    · exact hfound heq.symm

/-- An answer alone, where nobody else holds one. -/
theorem alone_of_none (hnone : ∀ stage ∈ s.stages, ¬ stage.Holding) {q q' : ℕ} {a b : Stage}
    (ha : (s.stages.set p new)[q]? = some a) (hb : (s.stages.set p new)[q']? = some b)
    (hha : a.Holding) (hhb : b.Holding) : q = q' := by
  rcases getElem?_set_cases ha with ⟨rfl, -⟩ | ⟨-, ha⟩
  · rcases getElem?_set_cases hb with ⟨rfl, -⟩ | ⟨-, hb⟩
    · rfl
    · exact absurd hhb (hnone b (List.mem_of_getElem? hb))
  · exact absurd hha (hnone a (List.mem_of_getElem? ha))

/-- The only process that holds an answer turns: the others still hold none. -/
theorem World.Orderly.others (h : s.Orderly X start) (hp : s.stages[p]? = some old)
    (hhold : old.Holding) {stage : Stage} (hmem : stage ∈ s.stages.set p new) :
    stage = new ∨ (stage ∈ s.stages ∧ ¬ stage.Holding) := by
  obtain ⟨q, hq⟩ := List.mem_iff_getElem?.1 hmem
  rcases getElem?_set_cases hq with ⟨-, rfl⟩ | ⟨hne, hq⟩
  · exact Or.inl rfl
  · exact Or.inr ⟨List.mem_of_getElem? hq, fun hstage => hne (h.alone q p _ _ hq hp hstage hhold)⟩

theorem alone_of_others (h : s.Orderly X start) (hp : s.stages[p]? = some old)
    (hhold : old.Holding) {q q' : ℕ} {a b : Stage}
    (ha : (s.stages.set p new)[q]? = some a) (hb : (s.stages.set p new)[q']? = some b)
    (hha : a.Holding) (hhb : b.Holding) : q = q' := by
  have hat {q : ℕ} {a : Stage} (ha : (s.stages.set p new)[q]? = some a) (hha : a.Holding) :
      q = p := by
    rcases getElem?_set_cases ha with ⟨rfl, -⟩ | ⟨-, ha⟩
    · rfl
    · exact h.alone q p _ _ ha hp hha hhold
  rw [hat ha hha, hat hb hhb]

theorem loggedOut_set (hs : s'.stages = s.stages.set p new) (hp : s.stages[p]? = some old)
    (hold : ∀ existed, old ≠ .cleared existed) (hnew : ∀ existed, new ≠ .cleared existed) :
    s'.LoggedOut start ↔ s.LoggedOut start := by
  unfold World.LoggedOut
  rw [hs]
  refine or_congr_right ⟨?_, ?_⟩
  · rintro ⟨existed, hmem⟩
    rcases List.mem_or_eq_of_mem_set hmem with hmem | heq
    · exact ⟨existed, hmem⟩
    · exact absurd heq.symm (hnew existed)
  · rintro ⟨existed, hmem⟩
    obtain ⟨q, hq⟩ := List.mem_iff_getElem?.1 hmem
    refine ⟨existed, mem_set_of_ne hq fun hqp => ?_⟩
    subst hqp
    exact hold existed (Option.some.inj (hp.symm.trans hq))

/-- The newest token is presented, and the next one is answered. -/
theorem World.Orderly.request (h : s.Orderly X start) {sess : AccountSession} {server : String}
    {tokens : TokenResponse} {now : Int} (hp : s.stages[p]? = some (.requesting sess server))
    (hready : s.Rotates tokens) (hread : readAccount X s.disk = some sess)
    (hnone : ∀ stage ∈ s.stages, ¬ stage.Holding) :
    (s.request p sess server tokens now).Orderly X start := by
  obtain ⟨i, hfile⟩ := readAccount_isSome_file (by rw [hread]; rfl)
  obtain ⟨sess', hread', hhead⟩ := h.kept (by rw [hfile]; rfl) hnone
  obtain rfl : sess = sess' := Option.some.inj (hread.symm.trans hread')
  obtain ⟨fresh, hfresh, hnew⟩ : ∃ fresh, tokens.refreshToken = some fresh ∧ fresh ∉ s.issued := by
    obtain ⟨fresh, hmem, hnot⟩ := (Option.any_eq_true _ _).1 hready
    exact ⟨fresh, hmem, by simpa using hnot⟩
  obtain ⟨rest, hissued⟩ : ∃ rest, s.issued = sess.refreshToken :: rest :=
    List.head?_eq_some_iff.1 hhead
  have htoken : (sess.updated tokens now).refreshToken = fresh := by
    simp [AccountSession.updated, hfresh]
  have hs : s.request p sess server tokens now =
      { s with presented := sess.refreshToken :: s.presented, issued := fresh :: s.issued }.goto p
        (.answered (sess.updated tokens now) sess server) := by
    simp [World.request, hhead, hfresh]
  have hold {stage : Stage} (hmem : stage ∈ s.stages.set p
      (.answered (sess.updated tokens now) sess server)) :
      stage ∈ s.stages ∨ stage = .answered (sess.updated tokens now) sess server :=
    List.mem_or_eq_of_mem_set hmem
  rw [hs]
  exact {
    alone := fun q q' a b ha hb hha hhb => alone_of_none hnone ha hb hha hhb
    fresh := List.nodup_cons.2 ⟨hnew, h.fresh⟩
    once := by
      refine List.nodup_cons.2 ⟨fun hmem => ?_, h.once⟩
      have htail := h.spent _ hmem
      have hnodup := h.fresh
      rw [hissued] at htail hnodup
      exact (List.nodup_cons.1 hnodup).1 htail
    spent := by
      intro token hmem
      rcases List.mem_cons.1 hmem with rfl | hmem
      · change sess.refreshToken ∈ s.issued
        rw [hissued]
        exact List.mem_cons_self
      · exact List.mem_of_mem_tail (h.spent token hmem)
    out := Iff.trans (loggedOut_set rfl hp nofun nofun) h.out
    kept := fun _ hnone' => absurd (Or.inl trivial) (hnone' _ (mem_set_new hp))
    answered := by
      intro updated sess' server' hmem
      rcases hold hmem with hmem | heq
      · exact absurd (Or.inl trivial) (hnone _ hmem)
      · obtain ⟨rfl, -, -⟩ := Stage.answered.inj heq
        exact ⟨by rw [htoken]; rfl, Option.isSome_iff_exists.2 ⟨sess, hread⟩⟩
    opened := by
      intro updated sess' server' j hmem
      rcases hold hmem with hmem | heq
      · exact absurd (Or.inr rfl) (hnone _ hmem)
      · exact nomatch heq
    seen := by
      intro auth hmem hpresent
      rcases hold hmem with hmem | heq
      · exact h.seen auth hmem hpresent
      · exact nomatch heq
    found := by
      intro hmem
      rcases hold hmem with hmem | heq
      · exact h.found hmem
      · exact nomatch heq }

/-- The file that is truncated is the one that the write goes to. -/
theorem World.Orderly.truncate (h : s.Orderly X start) {updated sess : AccountSession}
    {server : String} (hp : s.stages[p]? = some (.answered updated sess server)) :
    ({ s with disk := s.disk.truncate.1 }.goto p
      (.opened updated sess server s.disk.truncate.2)).Orderly X start := by
  have hmem := List.mem_of_getElem? hp
  obtain ⟨hhead, hread⟩ := h.answered _ _ _ hmem
  obtain ⟨i, hfile⟩ := readAccount_isSome_file hread
  have htruncate : s.disk.truncate =
      ({ s.disk with texts := Function.update s.disk.texts i [] }, i) := by
    simp [Disk.truncate, hfile]
  rw [htruncate]
  have hothers {stage : Stage} (hmem : stage ∈ s.stages.set p (.opened updated sess server i)) :
      stage = .opened updated sess server i ∨ (stage ∈ s.stages ∧ ¬ stage.Holding) :=
    h.others hp (Or.inl trivial) hmem
  exact {
    alone := fun q q' a b ha hb hha hhb => alone_of_others h hp (Or.inl trivial) ha hb hha hhb
    fresh := h.fresh
    once := h.once
    spent := h.spent
    out := Iff.trans (loggedOut_set rfl hp nofun nofun) h.out
    kept := fun _ hnone => absurd (Or.inr rfl) (hnone _ (mem_set_new hp))
    answered := by
      intro updated' sess' server' hmem
      rcases hothers hmem with heq | ⟨-, hnot⟩
      · exact nomatch heq
      · exact absurd (Or.inl trivial) hnot
    opened := by
      intro updated' sess' server' j hmem
      rcases hothers hmem with heq | ⟨-, hnot⟩
      · obtain ⟨rfl, -, -, rfl⟩ := Stage.opened.inj heq
        exact ⟨hhead, Or.inl ⟨hfile, Function.update_self ..⟩⟩
      · exact absurd (Or.inr rfl) hnot
    seen := by
      intro auth hmem hpresent
      rcases hothers hmem with heq | ⟨hmem, -⟩
      · exact nomatch heq
      · exact h.seen auth hmem hpresent
    found := by
      intro hmem
      rcases hothers hmem with heq | ⟨hmem, -⟩
      · exact nomatch heq
      · exact h.found hmem }

/-- The truncated file gets the text, or the file has lost its name to a logout. -/
theorem World.Orderly.write (h : s.Orderly X start) {updated sess : AccountSession}
    {server token : String} {i : ℕ} (hp : s.stages[p]? = some (.opened updated sess server i)) :
    ({ s with disk := s.disk.write i (X.stringify updated) }.goto p
      (.rereading sess server token)).Orderly X start := by
  obtain ⟨hhead, hfile⟩ := h.opened _ _ _ _ (List.mem_of_getElem? hp)
  have hothers {stage : Stage} (hmem : stage ∈ s.stages.set p (.rereading sess server token)) :
      stage = .rereading sess server token ∨ (stage ∈ s.stages ∧ ¬ stage.Holding) :=
    h.others hp (Or.inr rfl) hmem
  exact {
    alone := fun q q' a b ha hb hha hhb => alone_of_others h hp (Or.inr rfl) ha hb hha hhb
    fresh := h.fresh
    once := h.once
    spent := h.spent
    out := Iff.trans (loggedOut_set rfl hp nofun nofun) h.out
    kept := by
      intro hsome _
      rcases hfile with ⟨hfile, hempty⟩ | hgone
      · refine ⟨updated, ?_, hhead⟩
        change readAccount X (s.disk.write i (X.stringify updated)) = _
        simp [readAccount, Disk.write, hfile, hempty, X.parse_stringify]
      · change s.disk.file.isSome = true at hsome
        simp [hgone] at hsome
    answered := by
      intro updated' sess' server' hmem
      rcases hothers hmem with heq | ⟨-, hnot⟩
      · exact nomatch heq
      · exact absurd (Or.inl trivial) hnot
    opened := by
      intro updated' sess' server' j hmem
      rcases hothers hmem with heq | ⟨-, hnot⟩
      · exact nomatch heq
      · exact absurd (Or.inr rfl) hnot
    seen := by
      intro auth hmem hpresent
      rcases hothers hmem with heq | ⟨hmem, -⟩
      · exact nomatch heq
      · exact h.seen auth hmem hpresent
    found := by
      intro hmem
      rcases hothers hmem with heq | ⟨hmem, -⟩
      · exact nomatch heq
      · exact h.found hmem }

/-- A logout removes the file, and no answer is left that would bring it back. -/
theorem World.Orderly.remove (h : s.Orderly X start) {existed : Bool}
    (hp : s.stages[p]? = some (.clearing existed))
    (hnone : ∀ stage ∈ s.stages, ¬ stage.Answered) :
    ({ s with disk := s.disk.remove }.goto p (.cleared existed)).Orderly X start := by
  have hold {stage : Stage} (hmem : stage ∈ s.stages.set p (.cleared existed)) :
      stage ∈ s.stages ∨ stage = .cleared existed := List.mem_or_eq_of_mem_set hmem
  exact {
    alone := by
      intro q q' a b ha hb hha hhb
      rcases getElem?_set_cases ha with ⟨-, rfl⟩ | ⟨-, ha⟩
      · exact absurd hha (Stage.not_holding not_false rfl)
      · rcases getElem?_set_cases hb with ⟨-, rfl⟩ | ⟨-, hb⟩
        · exact absurd hhb (Stage.not_holding not_false rfl)
        · exact h.alone q q' a b ha hb hha hhb
    fresh := h.fresh
    once := h.once
    spent := h.spent
    out := iff_of_true (Or.inr ⟨existed, mem_set_new hp⟩) rfl
    kept := fun hfile => absurd hfile Bool.false_ne_true
    answered := by
      intro updated sess server hmem
      rcases hold hmem with hmem | heq
      · exact absurd trivial (hnone _ hmem)
      · exact nomatch heq
    opened := by
      intro updated sess server i hmem
      rcases hold hmem with hmem | heq
      · exact ⟨(h.opened _ _ _ _ hmem).1, Or.inr rfl⟩
      · exact nomatch heq
    seen := fun _ _ _ => rfl
    found := fun _ => rfl }

variable (X) in
/-- The first part of a call keeps no answer, and reports the account that it has read. -/
theorem resolveAuthDetailed_quiet (setting : Setting) (sess : Option AccountSession) (now : Int) :
    ¬ (resolveAuthDetailed X setting sess now).Holding ∧
      (∀ existed, resolveAuthDetailed X setting sess now ≠ .cleared existed) ∧
      resolveAuthDetailed X setting sess now ≠ .clearing false ∧
      ∀ auth, resolveAuthDetailed X setting sess now = .returned auth →
        auth.account = accountInfo sess := by
  simp only [resolveAuthDetailed]
  repeat' split
  all_goals simp [Stage.Holding, Stage.Answered, Stage.opens]

theorem accountInfo_present {sess : Option AccountSession}
    (h : (accountInfo sess).present = false) : sess = none := by
  cases sess with
  | none => rfl
  | some sess => simp [accountInfo] at h

theorem World.Orderly.act {tokens : TokenResponse} {now : Int} (h : s.Orderly X start)
    (hp : s.stages[p]? = some old) (hrotates : s.Rotates tokens)
    (hfree : old.Undisturbed X s) : (s.act X p tokens now).Orderly X start := by
  unfold World.act
  rw [hp]
  cases old with
  | configuring sess server =>
    exact h.turn (World.turns_goto hp nofun fun hhold => absurd hhold
      (Stage.not_holding not_false rfl)) (Stage.not_holding not_false rfl) nofun
      (fun _ heq _ => nomatch heq) nofun
  | requesting sess server => exact h.request hp hrotates hfree.1 hfree.2
  | answered updated sess server => exact h.truncate hp
  | opened updated sess server i => exact h.write hp
  | rereading sess server token =>
    refine h.turn (World.turns_goto hp nofun fun hhold => absurd hhold
      (Stage.not_holding not_false rfl)) (Stage.not_holding not_false rfl) nofun
      (fun auth heq hpresent => ?_) nofun
    -- what was read first stands in for a read that finds nothing
    rw [← Stage.returned.inj heq] at hpresent
    have hnone := accountInfo_present hpresent
    cases hread : readAccount X s.disk <;> simp [hread] at hnone
  | clearing existed => exact h.remove hp hfree
  | returned auth => exact h
  | thrown => exact h
  | cleared existed => exact h
  | dead => exact h

theorem World.Orderly.next {e : Event} (h : s.Orderly X start) (hready : s.Ready e)
    (hfree : s.Undisturbed X e) : (s.next X e).Orderly X start := by
  cases e with
  | resolveAuthDetailed setting now =>
    obtain ⟨hhold, hcleared, hclearing, hauth⟩ :=
      resolveAuthDetailed_quiet X setting (readAccount X s.disk) now
    refine h.turn World.turns_arrive hhold hcleared (fun auth heq hpresent => ?_)
      fun heq => absurd heq hclearing
    rw [hauth auth heq] at hpresent
    exact h.read hfree (accountInfo_present hpresent)
  | clearAccount =>
    refine h.turn World.turns_arrive (Stage.not_holding not_false rfl) nofun
      (fun _ heq _ => nomatch heq) fun heq => h.read hfree ?_
    simpa using Stage.clearing.inj heq
  | fail p =>
    obtain ⟨stage, hp, hasks⟩ := hready
    have hholds : ¬ stage.Holding := by
      intro hhold
      obtain ⟨_, _, _, rfl⟩ | ⟨_, _, _, _, rfl⟩ := hhold.cases <;> exact hasks
    refine h.turn (World.turns_goto hp ?_ fun hhold => absurd hhold hholds)
      (Stage.not_holding not_false rfl) nofun (fun _ heq _ => nomatch heq) nofun
    rintro existed rfl
    exact hasks
  | crash p =>
    obtain ⟨stage, hp, hover, hans⟩ := hready
    have hmem := List.mem_of_getElem? hp
    refine h.turn (World.turns_goto hp ?_ fun hhold => ?_) (Stage.not_holding not_false rfl)
      nofun (fun _ heq _ => nomatch heq) nofun
    · rintro existed rfl
      exact hover trivial
    · -- a process that dies with a file open had lost the name to a logout
      obtain ⟨_, _, _, rfl⟩ | ⟨updated, sess, server, i, rfl⟩ := hhold.cases
      · exact absurd trivial hans
      · rcases (h.opened _ _ _ _ hmem).2 with ⟨hfile, -⟩ | hgone
        · exact absurd hfile.symm (hfree _ hp rfl)
        · exact hgone
  | act p tokens now =>
    obtain ⟨⟨stage, hp, hover⟩, hrotates⟩ := hready
    exact h.act hp hrotates (hfree stage hp)

theorem orderly_initial : (World.initial X start).Orderly X start := by
  cases start with
  | none =>
    exact {
      alone := fun q q' a b ha => by simp [World.initial] at ha
      fresh := List.nodup_nil
      once := List.nodup_nil
      spent := by simp [World.initial]
      out := iff_of_true (Or.inl rfl) rfl
      kept := fun hfile => absurd hfile Bool.false_ne_true
      answered := by simp [World.initial]
      opened := by simp [World.initial]
      seen := by simp [World.initial]
      found := by simp [World.initial] }
  | some sess =>
    exact {
      alone := fun q q' a b ha => by simp [World.initial] at ha
      fresh := by simp [World.initial]
      once := List.nodup_nil
      spent := by simp [World.initial]
      out := by simp [World.LoggedOut, World.initial]
      kept := fun _ _ => ⟨sess, X.parse_stringify sess, rfl⟩
      answered := by simp [World.initial]
      opened := by simp [World.initial]
      seen := by simp [World.initial]
      found := by simp [World.initial] }

end Steps

section Runs

variable {Byte : Type} {X : Externals Byte} {start : Option AccountSession} {s : World Byte}
  {evs : List Event}

open World (Step initial Undisturbed)

/-- Where no step of a process falls between those of another's write, and no token is presented
while one is under way: every token is presented once, the file holds the newest one when all is
quiet, nobody is told that there is no account before a logout, and a logout lasts. -/
theorem account_keeps_newest
    (h : Run (Guarded (Step X) (Undisturbed X)) (initial X start) evs s) : s.Sound X start := by
  refine World.Orderly.sound (h.invariant (I := World.Orderly X start) ?_ orderly_initial)
  rintro t e t' ht ⟨⟨hready, rfl⟩, hfree⟩
  exact ht.next hready hfree

end Runs

section Samples

open World (Step initial Undisturbed Ready)

/-- A session is one byte. -/
def plain : Externals AccountSession where
  stringify sess := [sess]
  parse text := text.head?
  healServerUrl := some
  parse_stringify _ := rfl
  parse_nil := rfl

def expired : AccountSession := ⟨"https://party", "t0", some "a0", some 1000, none, none⟩

def resolving (now : Int) : Event := .resolveAuthDetailed ⟨none, false, none⟩ now

/-- The next step of `p`; the endpoint would answer with the token `t`. -/
def acting (p : ℕ) (t : String) : Event := .act p ⟨"access", some t, none⟩ 2000

/-- A process refreshes, a second one finds its answer, a third one logs out. -/
def sequential : List Event :=
  [resolving 2000, acting 0 "t1", acting 0 "t1", acting 0 "t2", acting 0 "t2", acting 0 "t2",
    resolving 2000, acting 1 "t2", .clearAccount, acting 2 "t2", resolving 2000]

theorem account_keeps_newest_sequential :
    ∃ s, Run (Step plain) (initial plain (some expired)) sequential s ∧ s.presented = ["t0"] ∧
      s.Sound plain (some expired) := by
  have hready : AllReady (fun s e => Ready s e ∧ Undisturbed plain s e) (World.next plain)
      (initial plain (some expired)) sequential := by decide
  have hrun : Run (Guarded (Step plain) (Undisturbed plain)) (initial plain (some expired))
      sequential _ := run_of_ready (fun _ _ h => ⟨⟨h.1, rfl⟩, h.2⟩) hready
  exact ⟨_, hrun.of_guarded, by decide, account_keeps_newest hrun⟩

/-- A process dies after the truncation. -/
def dying : List Event :=
  [resolving 2000, acting 0 "t1", acting 0 "t1", acting 0 "t2", .crash 0]

/-- Without that, a token is presented twice; a process that dies between truncation and write
takes the newest token with it; a process that reads between them sees nobody logged in; and an
answer that comes after a logout brings the session back. -/
theorem account_refresh_races :
    (¬ ∀ evs s, Run (Step plain) (initial plain (some expired)) evs s → s.presented.Nodup) ∧
    (¬ ∀ evs s, Run (Step plain) (initial plain (some expired)) evs s →
      (∀ stage ∈ s.stages, stage.Over) → s.LoggedOut (some expired) ∨ s.HoldsNewest plain) ∧
    (¬ ∀ evs s, Run (Step plain) (initial plain (some expired)) evs s →
      ∀ auth, .returned auth ∈ s.stages → auth.account.present = false →
        s.LoggedOut (some expired)) ∧
    ¬ ∀ evs s, Run (Step plain) (initial plain (some expired)) evs s →
      s.LoggedOut (some expired) → s.disk.file = none := by
  have hrun {evs : List Event} (hready : AllReady Ready (World.next plain)
      (initial plain (some expired)) evs) : Run (Step plain) (initial plain (some expired)) evs
        (evs.foldl (World.next plain) (initial plain (some expired))) :=
    run_of_ready (fun _ _ h => ⟨h, rfl⟩) hready
  have hin {s : World AccountSession} (hany : ∀ stage ∈ s.stages, ∀ existed,
      stage ≠ .cleared existed) : ¬ s.LoggedOut (some expired) := by
    rintro (hnone | ⟨existed, hmem⟩)
    · exact nomatch hnone
    · exact hany _ hmem existed rfl
  refine ⟨fun hclaim => ?_, fun hclaim => ?_, fun hclaim => ?_, fun hclaim => ?_⟩
  · have hready : AllReady Ready (World.next plain) (initial plain (some expired))
        [resolving 2000, resolving 2000, acting 0 "t1", acting 1 "t1", acting 0 "t1",
          acting 1 "t2"] := by decide
    exact absurd (hclaim _ _ (hrun hready)) (by decide)
  · have hready : AllReady Ready (World.next plain) (initial plain (some expired)) dying := by
      decide
    have hempty : (readAccount plain (dying.foldl (World.next plain)
        (initial plain (some expired))).disk).isSome = false := by decide
    rcases hclaim _ _ (hrun hready) (by decide) with hout | ⟨sess, hread, -⟩
    · exact hin (by decide) hout
    · rw [hread] at hempty
      exact absurd hempty (by simp)
  · have hready : AllReady Ready (World.next plain) (initial plain (some expired))
        [resolving 2000, acting 0 "t1", acting 0 "t1", acting 0 "t2", resolving 2000] := by
      decide
    exact hin (by decide) (hclaim _ _ (hrun hready)
      ⟨none, none, .none, accountInfo none⟩ (by decide) rfl)
  · have hready : AllReady Ready (World.next plain) (initial plain (some expired))
        [resolving 2000, acting 0 "t1", acting 0 "t1", .clearAccount, acting 1 "t2",
          acting 0 "t2", acting 0 "t2"] := by decide
    exact absurd (hclaim _ _ (hrun hready) (Or.inr ⟨true, by decide⟩)) (by decide)

end Samples

end Account
end AgentParty
