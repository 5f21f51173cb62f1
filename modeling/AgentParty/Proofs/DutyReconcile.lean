import AgentParty.Desktop.DutyReconcile
import AgentParty.Lib.Sorting

/-! What one run of `reconcile_duties_with` does to the duties, whatever launchd answers: at most
one bootstrap for an instance, and only onto an instance that was last seen unloaded. -/

namespace AgentParty
namespace DutyReconcile

open Calls

namespace Call

def label : Call → Option String
  | loaded l _ | disabled l _ | bootout l _ | bootstrap l _ _ | archive l _ _ _ | marker l _ =>
    some l
  | sleep _ => none

/-- The calls that change a duty. -/
def acts : Call → Bool
  | bootout _ _ | bootstrap _ _ _ | archive _ _ _ _ => true
  | loaded _ _ | disabled _ _ | sleep _ | marker _ _ => false

def bootstraps : Call → Bool
  | bootstrap _ _ _ => true
  | _ => false

def failedProbe : Call → Bool
  | loaded _ (.error _) | disabled _ (.error _) => true
  | _ => false

def loadedAnswer (l : String) : Call → Option (Except String Bool)
  | loaded l' answer => if l' = l then some answer else none
  | _ => none

def disabledAnswer (l : String) : Call → Option (Except String Bool)
  | disabled l' answer => if l' = l then some answer else none
  | _ => none

def markerRead (l : String) : Call → Option MarkerFile
  | marker l' file => if l' = l then some file else none
  | _ => none

end Call

variable (cs : List DutyCandidate)

/-- The call is on a candidate of the instance. -/
def ofInstance (i : String) (e : Call) : Bool :=
  cs.any fun c => c.identity = .known i ∧ e.label = some c.label

def lastLoaded (t : List Call) (l : String) : Option (Except String Bool) :=
  last (Call.loadedAnswer l) t

/-- The last reading of the candidate's marker does not block it. -/
def Unblocked (c : DutyCandidate) (t : List Call) : Prop :=
  ∃ file, last (Call.markerRead c.label) t = some file ∧
    dutyBlockedReasonForGeneration file c.label c.generation = none

def Enabled (c : DutyCandidate) (t : List Call) : Prop :=
  last (Call.disabledAnswer c.label) t = some (.ok false)

/-- A bootstrap of `c`, after the calls `t`. -/
structure Bootable (i : String) (c : DutyCandidate) (t : List Call) : Prop where
  managed : c.generation.isManaged = true
  unblocked : Unblocked c t
  enabled : Enabled c t
  unloaded : ∀ d ∈ cs, d.identity = .known i → lastLoaded t d.label = some (.ok false)
  first : ∀ e ∈ t, e.bootstraps = true → ofInstance cs i e = false

/-- An archive of `c`, after the calls `t`. -/
structure Archivable (i : String) (c : DutyCandidate) (winner : String) (t : List Call) : Prop where
  unloaded : lastLoaded t c.label = some (.ok false)
  other : ∃ d ∈ cs, d.identity = .known i ∧ d.label = winner ∧ d.label ≠ c.label ∧
    .loaded d.label (.ok true) ∈ t

/-- A change of an instance follows an earlier one, or probes of which none failed. -/
def Begun (i : String) (t : List Call) : Prop :=
  (∃ e ∈ t, e.acts = true ∧ ofInstance cs i e = true) ∨
    ∀ e ∈ t, e.failedProbe = true → ofInstance cs i e = false

def Permits (i : String) (c : DutyCandidate) (t : List Call) : Call → Prop
  | .bootstrap _ path _ => c.plistPath = path ∧ Bootable cs i c t
  | .archive _ path winner _ => c.plistPath = path ∧ Archivable cs i c winner t
  | _ => True

/-- What the calls before it say of a call. -/
def Legal (t : List Call) (e : Call) : Prop :=
  ∀ l, e.label = some l → ∃ c ∈ cs, ∃ i, c.identity = .known i ∧ c.label = l ∧
    (e.acts = true → Begun cs i t) ∧ Permits cs i c t e

section Trace

variable {cs : List DutyCandidate} {i : String} {t₀ t : List Call} {e : Call} {c : DutyCandidate}

theorem ofInstance_iff : ofInstance cs i e = true ↔
    ∃ c ∈ cs, c.identity = .known i ∧ e.label = some c.label := by
  simp [ofInstance]

theorem ofInstance_of (hc : c ∈ cs) (hi : c.identity = .known i) (hl : e.label = some c.label) :
    ofInstance cs i e = true :=
  ofInstance_iff.2 ⟨c, hc, hi, hl⟩

/-- The calls since `t₀` are on the instance `i`. -/
structure Base (cs : List DutyCandidate) (i : String) (t₀ t : List Call) : Prop where
  legal : Each (Legal cs) t
  frame : ∀ e ∈ t, e ∈ t₀ ∨ e.label = none ∨ ofInstance cs i e = true

theorem Base.snoc (h : Base cs i t₀ t) (hc : c ∈ cs) (hi : c.identity = .known i)
    (hl : e.label = some c.label) (hacts : e.acts = true → Begun cs i t)
    (hpermits : Permits cs i c t e) : Base cs i t₀ (t ++ [e]) where
  legal := h.legal.snoc fun l hel => ⟨c, hc, i, hi, by simpa [hl] using hel, hacts, hpermits⟩
  frame e' he' := by
    rcases List.mem_append.1 he' with he' | he'
    · exact h.frame e' he'
    · obtain rfl : e' = e := by simpa using he'
      exact Or.inr (Or.inr (ofInstance_of hc hi hl))

theorem Base.sleep (h : Base cs i t₀ t) (milliseconds : ℕ) :
    Base cs i t₀ (t ++ [Call.sleep milliseconds]) where
  legal := h.legal.snoc fun l hel => by cases hel
  frame e' he' := by
    rcases List.mem_append.1 he' with he' | he'
    · exact h.frame e' he'
    · obtain rfl : e' = .sleep milliseconds := by simpa using he'
      exact Or.inr (Or.inl rfl)

/-- A property that no call of the instance so far has, and the next one has not either. -/
theorem none_snoc {p : Call → Bool} (h : ∀ e ∈ t, p e = true → ofInstance cs i e = false)
    (he : p e = false) : ∀ e' ∈ t ++ [e], p e' = true → ofInstance cs i e' = false := by
  intro e' he' hp
  rcases List.mem_append.1 he' with he' | he'
  · exact h e' he' hp
  · obtain rfl : e' = e := by simpa using he'
    simp [he] at hp

end Trace

section Probing

variable {W : Type} {env : Launchd W} {cs : List DutyCandidate} {i : String} {t₀ t : List Call}
variable {done done' : List DutyCandidate} {c : DutyCandidate}
variable {sel : String → Call → Option (Except String Bool)} {states : States} {e : Call}

/-- The map holds the latest answers, and has one for each candidate of `done`. -/
structure Known (sel : String → Call → Option (Except String Bool)) (states : States)
    (done : List DutyCandidate) (t : List Call) : Prop where
  latest : ∀ l b, states l = some b → last (sel l) t = some (.ok b)
  total : ∀ c ∈ done, ∃ b, states c.label = some b

theorem Known.nil : Known sel (fun _ => none) [] t :=
  ⟨by simp, by simp⟩

theorem Known.insert (h : Known sel states done t) {v : Bool}
    (he : ∀ l, sel l e = if c.label = l then some (.ok v) else none) :
    Known sel (states.insert c.label v) (done ++ [c]) (t ++ [e]) where
  latest l b hl := by
    rw [last_snoc, he]
    by_cases hlabel : l = c.label
    · subst hlabel
      simp only [States.insert, Function.update_self, Option.some.injEq] at hl
      simp [hl]
    · rw [States.insert, Function.update_of_ne hlabel] at hl
      simp [Ne.symm hlabel, h.latest l b hl]
  total d hd := by
    by_cases hlabel : d.label = c.label
    · exact ⟨v, by rw [States.insert, hlabel, Function.update_self]⟩
    · rw [States.insert, Function.update_of_ne hlabel]
      rcases List.mem_append.1 hd with hd | hd
      · exact h.total d hd
      · obtain rfl : d = c := by simpa using hd
        exact absurd rfl hlabel

theorem Known.frame (h : Known sel states done t) (he : ∀ l, sel l e = none) :
    Known sel states done (t ++ [e]) where
  latest l b hl := by
    rw [last_snoc, he]
    exact h.latest l b hl
  total := h.total

/-- The probes of `done` (loaded) and `done'` (disabled) are over. -/
structure Probed (cs : List DutyCandidate) (i : String) (t₀ : List Call)
    (done done' : List DutyCandidate) (p : Probes) (t : List Call) : Prop where
  base : Base cs i t₀ t
  idle : ∀ e ∈ t, e.acts = true → ofInstance cs i e = false
  answered : p.probeFailed = false → ∀ e ∈ t, e.failedProbe = true → ofInstance cs i e = false
  loaded : p.probeFailed = false → Known Call.loadedAnswer p.loadedStates done t
  disabled : p.probeFailed = false → Known Call.disabledAnswer p.disabledStates done' t

theorem probed_fail (p : Probes) (hbase : Base cs i t₀ t)
    (hidle : ∀ e ∈ t, e.acts = true → ofInstance cs i e = false) (label detail : String) :
    Probed cs i t₀ done done' (p.fail label detail) t where
  base := hbase
  idle := hidle
  answered hok := by cases hok
  loaded hok := by cases hok
  disabled hok := by cases hok

theorem probeLoaded_probed {p : Probes} (h : Probed cs i t₀ done done' p t) (hc : c ∈ cs)
    (hi : c.identity = .known i) :
    Wp (probeLoaded env p c) (Probed cs i t₀ (done ++ [c]) done') t := by
  refine wp_bind (wp_call fun answer => ?_)
  have hbase : Base cs i t₀ (t ++ [Call.loaded c.label answer]) :=
    h.base.snoc hc hi rfl (by simp [Call.acts]) trivial
  cases answer with
  | ok v =>
    exact wp_pure ⟨hbase, none_snoc h.idle rfl, fun hok => none_snoc (h.answered hok) rfl,
      fun hok => (h.loaded hok).insert fun l => rfl, fun hok => (h.disabled hok).frame fun l => rfl⟩
  | error error =>
    exact wp_pure (probed_fail p hbase (none_snoc h.idle rfl) _ _)

theorem probeDisabled_probed {p : Probes} (h : Probed cs i t₀ done done' p t) (hc : c ∈ cs)
    (hi : c.identity = .known i) :
    Wp (probeDisabled env p c) (Probed cs i t₀ done (done' ++ [c])) t := by
  refine wp_bind (wp_call fun answer => ?_)
  have hbase : Base cs i t₀ (t ++ [Call.disabled c.label answer]) :=
    h.base.snoc hc hi rfl (by simp [Call.acts]) trivial
  cases answer with
  | ok v =>
    exact wp_pure ⟨hbase, none_snoc h.idle rfl, fun hok => none_snoc (h.answered hok) rfl,
      fun hok => (h.loaded hok).frame fun l => rfl, fun hok => (h.disabled hok).insert fun l => rfl⟩
  | error error =>
    exact wp_pure (probed_fail p hbase (none_snoc h.idle rfl) _ _)

theorem probe_probed {p : Probes} (h : Probed cs i t₀ done done p t) (hc : c ∈ cs)
    (hi : c.identity = .known i) :
    Wp (probe env p c) (Probed cs i t₀ (done ++ [c]) (done ++ [c])) t :=
  wp_bind (wp_mono (probeLoaded_probed h hc hi) fun _ _ h' => probeDisabled_probed h' hc hi)

end Probing

section Reasons

variable {W : Type} {env : Launchd W} {cs group done : List DutyCandidate} {i : String}
variable {t₀ t : List Call} {e : Call} {c : DutyCandidate} {disabledStates : States}
variable {reasons : TerminalReasons}

theorem Unblocked.snoc (h : Unblocked c t) (he : Call.markerRead c.label e = none) :
    Unblocked c (t ++ [e]) := by
  obtain ⟨file, hlast, hnone⟩ := h
  exact ⟨file, by simp [last_snoc, he, hlast], hnone⟩

theorem Enabled.snoc (h : Enabled c t) (he : Call.disabledAnswer c.label e = none) :
    Enabled c (t ++ [e]) := by
  simpa [Enabled, last_snoc, he] using h

/-- A candidate of `done` without a terminal reason was seen unblocked and enabled. -/
def Clear (reasons : TerminalReasons) (done : List DutyCandidate) (t : List Call) : Prop :=
  ∀ c ∈ done, reasons c.label = none → Unblocked c t ∧ Enabled c t

theorem Clear.snoc (h : Clear reasons done t)
    (he : ∀ c ∈ done, Call.markerRead c.label e = none ∧ Call.disabledAnswer c.label e = none) :
    Clear reasons done (t ++ [e]) := fun c hc hnone =>
  ⟨(h c hc hnone).1.snoc (he c hc).1, (h c hc hnone).2.snoc (he c hc).2⟩

structure Reasoned (cs : List DutyCandidate) (i : String) (t₀ : List Call)
    (group done : List DutyCandidate) (loadedStates disabledStates : States)
    (reasons : TerminalReasons) (t : List Call) : Prop where
  base : Base cs i t₀ t
  idle : ∀ e ∈ t, e.acts = true → ofInstance cs i e = false
  answered : ∀ e ∈ t, e.failedProbe = true → ofInstance cs i e = false
  loaded : Known Call.loadedAnswer loadedStates group t
  disabled : Known Call.disabledAnswer disabledStates group t
  clear : Clear reasons done t

theorem terminalReason_reasoned {loadedStates : States}
    (h : Reasoned cs i t₀ group done loadedStates disabledStates reasons t) (hc : c ∈ cs)
    (hi : c.identity = .known i) (hgroup : c ∈ group) (hnew : ∀ d ∈ done, d.label ≠ c.label) :
    Wp (terminalReason env disabledStates reasons c)
      (Reasoned cs i t₀ group (done ++ [c]) loadedStates disabledStates) t := by
  refine wp_bind (wp_call fun file => ?_)
  have hold : Clear reasons done (t ++ [Call.marker c.label file]) :=
    h.clear.snoc fun d hd => ⟨if_neg (hnew d hd).symm, rfl⟩
  have hnext : ∀ reasons', (∀ d ∈ done, reasons' d.label = reasons d.label) →
      (reasons' c.label = none → Unblocked c (t ++ [Call.marker c.label file]) ∧
        Enabled c (t ++ [Call.marker c.label file])) →
      Reasoned cs i t₀ group (done ++ [c]) loadedStates disabledStates reasons'
        (t ++ [Call.marker c.label file]) := by
    intro reasons' hsame hthis
    refine ⟨h.base.snoc hc hi rfl (by simp [Call.acts]) trivial, none_snoc h.idle rfl,
      none_snoc h.answered rfl, h.loaded.frame fun l => rfl, h.disabled.frame fun l => rfl,
      fun d hd hnone => ?_⟩
    rcases List.mem_append.1 hd with hd | hd
    · exact hold d hd (by rw [← hsame d hd, hnone])
    · obtain rfl : d = c := by simpa using hd
      exact hthis hnone
  have hupdate : ∀ reason : String, ∀ d ∈ done,
      Function.update reasons c.label (some reason) d.label = reasons d.label :=
    fun reason d hd => Function.update_of_ne (hnew d hd) _ _
  cases hblocked : dutyBlockedReasonForGeneration file c.label c.generation with
  | some reason => exact wp_pure (hnext _ (hupdate reason) (by simp))
  | none =>
    dsimp only
    split_ifs with hdisabled
    · exact wp_pure (hnext _ (hupdate _) (by simp))
    · refine wp_pure (hnext _ (fun d hd => rfl) fun _ => ⟨⟨file, ?_, hblocked⟩, ?_⟩)
      · simp [last_snoc, Call.markerRead]
      · obtain ⟨b, hb⟩ := h.disabled.total c hgroup
        cases b with
        | true => exact absurd hb hdisabled
        | false =>
          rw [Enabled, last_snoc]
          simpa [Call.disabledAnswer] using h.disabled.latest _ _ hb

end Reasons

section Winner

variable {reasons : TerminalReasons} {states : States} {group : List DutyCandidate}
variable {winner : DutyCandidate}

theorem winnerKey_loaded {left right : DutyCandidate}
    (h : winnerKey states left ≤ winnerKey states right) (hl : states left.label = some true) :
    states right.label = some true := by
  have hfirst : decide (states left.label = some true) ≤ decide (states right.label = some true) :=
    Prod.Lex.monotone_fst _ _ h
  simpa [hl, Bool.le_iff_imp] using hfirst

theorem chooseWinner_spec (h : chooseWinner reasons states group = some winner) :
    winner ∈ group ∧ eligible reasons states winner = true ∧
      ∀ c ∈ group, eligible reasons states c = true → states c.label = some true →
        states winner.label = some true := by
  obtain ⟨l, hl⟩ := List.getLast?_eq_some_iff.1 h
  have hmem : ∀ c, c ∈ l ++ [winner] ↔ c ∈ group ∧ eligible reasons states c = true := fun c => by
    rw [← hl, List.mem_insertionSort, List.mem_filter]
  have hsorted := List.pairwise_insertionSort
    (fun left right => winnerKey states left ≤ winnerKey states right)
    (group.filter (eligible reasons states))
  rw [hl, List.pairwise_append] at hsorted
  obtain ⟨hgroup, helig⟩ := (hmem winner).1 (by simp)
  refine ⟨hgroup, helig, fun c hc he hloaded => ?_⟩
  rcases List.mem_append.1 ((hmem c).2 ⟨hc, he⟩) with hin | hin
  · exact winnerKey_loaded (hsorted.2.2 c hin winner (by simp)) hloaded
  · obtain rfl : c = winner := by simpa using hin
    exact hloaded

end Winner

section Changes

variable {W : Type} {env : Launchd W} {cs group done : List DutyCandidate} {i : String}
variable {t₀ t : List Call} {e : Call} {c d : DutyCandidate} {reasons : TerminalReasons}
variable {states : States} {g : Progress}

def Started (cs : List DutyCandidate) (i : String) (t : List Call) : Prop :=
  ∃ e ∈ t, e.acts = true ∧ ofInstance cs i e = true

theorem Started.snoc (h : Started cs i t) : Started cs i (t ++ [e]) := by
  obtain ⟨e', he', hacts⟩ := h
  exact ⟨e', List.mem_append_left _ he', hacts⟩

theorem started_snoc (hc : c ∈ cs) (hi : c.identity = .known i) (hl : e.label = some c.label)
    (he : e.acts = true) : Started cs i (t ++ [e]) :=
  ⟨e, by simp, he, ofInstance_of hc hi hl⟩

theorem Begun.snoc (h : Begun cs i t) (he : e.failedProbe = false) : Begun cs i (t ++ [e]) :=
  h.imp Started.snoc fun hnone => none_snoc hnone he

/-- What the map of loaded states says was seen; of the label `skip` it may be late. -/
structure Running (cs : List DutyCandidate) (i : String) (t₀ : List Call)
    (group : List DutyCandidate) (skip : Option String) (states : States) (t : List Call) :
    Prop where
  base : Base cs i t₀ t
  begun : Begun cs i t
  unloaded : ∀ l, some l ≠ skip → states l = some false → lastLoaded t l = some (.ok false)
  seen : ∀ l, states l = some true → .loaded l (.ok true) ∈ t
  total : ∀ c ∈ group, ∃ b, states c.label = some b

variable {skip : Option String}

theorem lastLoaded_mem {l : String} {answer : Except String Bool}
    (h : lastLoaded t l = some answer) : .loaded l answer ∈ t := by
  obtain ⟨e, he, hanswer⟩ := List.mem_filterMap.1 (List.mem_of_getLast? h)
  cases e with
  | loaded l' a =>
    simp only [Call.loadedAnswer, Option.ite_none_right_eq_some, Option.some.injEq] at hanswer
    obtain ⟨rfl, rfl⟩ := hanswer
    exact he
  | _ => cases hanswer

/-- A call that is no probe for the loaded state leaves the map right. -/
theorem Running.frame (h : Running cs i t₀ group skip states t) (hbase : Base cs i t₀ (t ++ [e]))
    (hbegun : Begun cs i (t ++ [e])) (he : ∀ l, Call.loadedAnswer l e = none) :
    Running cs i t₀ group skip states (t ++ [e]) where
  base := hbase
  begun := hbegun
  unloaded l hl hs := by
    rw [lastLoaded, last_snoc, he]
    exact h.unloaded l hl hs
  seen l hs := List.mem_append_left _ (h.seen l hs)
  total := h.total

theorem Running.bootout (h : Running cs i t₀ group skip states t) (hc : c ∈ cs)
    (hi : c.identity = .known i) (answer : Except String Unit) :
    Running cs i t₀ group skip states (t ++ [Call.bootout c.label answer]) :=
  h.frame (h.base.snoc hc hi rfl (fun _ => h.begun) trivial) (h.begun.snoc rfl) fun _ => rfl

/-- A probe whose answer the map does not take, of a label that it has as loaded or may be late
for. -/
theorem Running.doubt (h : Running cs i t₀ group skip states t) (hs : Started cs i t) (hc : c ∈ cs)
    (hi : c.identity = .known i) (hl : states c.label = some true ∨ skip = some c.label)
    (answer : Except String Bool) :
    Running cs i t₀ group skip states (t ++ [Call.loaded c.label answer]) where
  base := h.base.snoc hc hi rfl (by simp [Call.acts]) trivial
  begun := Or.inl hs.snoc
  unloaded l hskip hfalse := by
    have hne : c.label ≠ l := by
      rintro rfl
      rcases hl with hl | hl
      · simp [hl] at hfalse
      · exact hskip hl.symm
    rw [lastLoaded, last_snoc]
    simpa [lastLoaded, Call.loadedAnswer, hne] using h.unloaded l hskip hfalse
  seen l hs := List.mem_append_left _ (h.seen l hs)
  total := h.total

/-- A probe whose answer goes into the map. -/
theorem Running.saw (h : Running cs i t₀ group skip states t) {v : Bool}
    (hlast : lastLoaded t c.label = some (.ok v)) (hskip : skip = none ∨ skip = some c.label) :
    Running cs i t₀ group none (states.insert c.label v) t where
  base := h.base
  begun := h.begun
  unloaded l _ hfalse := by
    by_cases hlabel : l = c.label
    · subst hlabel
      simp only [States.insert, Function.update_self, Option.some.injEq] at hfalse
      rw [hlast, hfalse]
    · rw [States.insert, Function.update_of_ne hlabel] at hfalse
      refine h.unloaded l ?_ hfalse
      rcases hskip with rfl | rfl
      · exact Option.some_ne_none l
      · simpa using hlabel
  seen l htrue := by
    by_cases hlabel : l = c.label
    · subst hlabel
      simp only [States.insert, Function.update_self, Option.some.injEq] at htrue
      exact lastLoaded_mem (by rw [hlast, htrue])
    · rw [States.insert, Function.update_of_ne hlabel] at htrue
      exact h.seen l htrue
  total d hd := by
    by_cases hlabel : d.label = c.label
    · exact ⟨v, by rw [States.insert, hlabel, Function.update_self]⟩
    · rw [States.insert, Function.update_of_ne hlabel]
      exact h.total d hd

theorem lastLoaded_snoc_self (answer : Except String Bool) :
    lastLoaded (t ++ [Call.loaded c.label answer]) c.label = some answer := by
  simp [lastLoaded, last_snoc, Call.loadedAnswer]

theorem Running.late (h : Running cs i t₀ group none states t) (l : String) :
    Running cs i t₀ group (some l) states t where
  base := h.base
  begun := h.begun
  unloaded l' _ hl' := h.unloaded l' (Option.some_ne_none l') hl'
  seen := h.seen
  total := h.total

theorem Running.cases (h : Running cs i t₀ group skip states t) (hc : c ∈ group)
    (hne : states c.label ≠ some true) : states c.label = some false := by
  obtain ⟨b, hb⟩ := h.total c hc
  cases b with
  | true => exact absurd hb hne
  | false => exact hb

/-- The terminal candidates of `done` have been stopped, as far as launchd let them. -/
structure Stopping (cs : List DutyCandidate) (i : String) (t₀ : List Call)
    (group : List DutyCandidate) (reasons : TerminalReasons) (done : List DutyCandidate)
    (g : Progress) (t : List Call) : Prop where
  running : Running cs i t₀ group none g.loadedStates t
  unbooted : ∀ e ∈ t, e.bootstraps = true → ofInstance cs i e = false
  clear : Clear reasons group t
  stopped : g.terminalStillLoaded = false → ∀ c ∈ done, reasons c.label ≠ none →
    g.loadedStates c.label = some false

theorem Stopping.next {g' : Progress} (h : Stopping cs i t₀ group reasons done g t)
    (hstill : g'.terminalStillLoaded = g.terminalStillLoaded)
    (hrunning : Running cs i t₀ group none g'.loadedStates t)
    (hsame : ∀ l, g.loadedStates l = some false → g'.loadedStates l = some false)
    (hc : reasons c.label ≠ none → g'.loadedStates c.label = some false) :
    Stopping cs i t₀ group reasons (done ++ [c]) g' t where
  running := hrunning
  unbooted := h.unbooted
  clear := h.clear
  stopped hok d hd hd' := by
    rcases List.mem_append.1 hd with hd | hd
    · exact hsame _ (h.stopped (hstill ▸ hok) d hd hd')
    · obtain rfl : d = c := by simpa using hd
      exact hc hd'

theorem Stopping.stuck (h : Stopping cs i t₀ group reasons done g t) (done' : List DutyCandidate)
    (label detail : String) :
    Stopping cs i t₀ group reasons done' (g.stillLoaded.record label .failed detail) t where
  running := h.running
  unbooted := h.unbooted
  clear := h.clear
  stopped hok := by cases hok

theorem stopTerminal_stopping (h : Stopping cs i t₀ group reasons done g t) (hc : c ∈ cs)
    (hi : c.identity = .known i) (hgroup : c ∈ group) :
    Wp (stopTerminal env reasons g c) (Stopping cs i t₀ group reasons (done ++ [c])) t := by
  unfold stopTerminal
  cases hreason : reasons c.label with
  | none => exact wp_pure (h.next rfl h.running (fun l hl => hl) fun hne => absurd hreason hne)
  | some reason =>
    dsimp only
    split_ifs with hloaded
    · refine wp_bind (wp_call fun answer => ?_)
      have hout : Stopping cs i t₀ group reasons done g (t ++ [Call.bootout c.label answer]) :=
        ⟨h.running.bootout hc hi answer, none_snoc h.unbooted rfl,
          h.clear.snoc fun d _ => ⟨rfl, rfl⟩, h.stopped⟩
      cases answer with
      | error error => exact wp_pure (hout.stuck _ _ _)
      | ok =>
        refine wp_bind (wp_call fun answer => ?_)
        have hstarted : Started cs i (t ++ [Call.bootout c.label (.ok ())]) :=
          started_snoc hc hi rfl rfl
        have hprobed := hout.running.doubt hstarted hc hi (Or.inl hloaded) answer
        have hafter : Stopping cs i t₀ group reasons done g
            (t ++ [Call.bootout c.label (.ok ())] ++ [Call.loaded c.label answer]) :=
          ⟨hprobed, none_snoc hout.unbooted rfl, hout.clear.snoc fun d _ => ⟨rfl, rfl⟩, h.stopped⟩
        match answer with
        | .error error => exact wp_pure (hafter.stuck _ _ _)
        | .ok true => exact wp_pure (hafter.stuck _ _ _)
        | .ok false =>
          have hsaw := hprobed.saw (lastLoaded_snoc_self (.ok false)) (Or.inl rfl)
          refine wp_pure (hafter.next rfl hsaw (fun l hl => ?_) fun _ => ?_)
          · by_cases hlabel : l = c.label
            · exact hlabel ▸ Function.update_self ..
            · exact (Function.update_of_ne hlabel ..).trans hl
          · exact Function.update_self ..
    · exact wp_pure (h.next rfl h.running (fun l hl => hl) fun _ => h.running.cases hgroup hloaded)

theorem Stopping.same {g' : Progress} (h : Stopping cs i t₀ group reasons done g t)
    (hloaded : g'.loadedStates = g.loadedStates)
    (hstill : g'.terminalStillLoaded = g.terminalStillLoaded) :
    Stopping cs i t₀ group reasons done g' t where
  running := hloaded ▸ h.running
  unbooted := h.unbooted
  clear := h.clear
  stopped hok := hloaded ▸ h.stopped (hstill ▸ hok)

theorem noteRecoveryBlock_same (g : Progress) (c : DutyCandidate) :
    (noteRecoveryBlock reasons g c).loadedStates = g.loadedStates ∧
      (noteRecoveryBlock reasons g c).terminalStillLoaded = g.terminalStillLoaded := by
  unfold noteRecoveryBlock
  split_ifs
  · exact ⟨rfl, rfl⟩
  · split <;> exact ⟨rfl, rfl⟩

theorem foldl_noteRecoveryBlock_same (l : List DutyCandidate) (g : Progress) :
    (l.foldl (noteRecoveryBlock reasons) g).loadedStates = g.loadedStates ∧
      (l.foldl (noteRecoveryBlock reasons) g).terminalStillLoaded = g.terminalStillLoaded := by
  induction l generalizing g with
  | nil => exact ⟨rfl, rfl⟩
  | cons c l ih =>
    obtain ⟨hloaded, hstill⟩ := @noteRecoveryBlock_same reasons g c
    exact ⟨(ih _).1.trans hloaded, (ih _).2.trans hstill⟩

theorem bootable (h : Stopping cs i t₀ group reasons group g t)
    (hgroup : ∀ d, d ∈ group ↔ d ∈ cs ∧ d.identity = .known i)
    (hchosen : chooseWinner reasons g.loadedStates group = some c)
    (hunloaded : g.loadedStates c.label ≠ some true) (hok : g.terminalStillLoaded = false) :
    Bootable cs i c t := by
  obtain ⟨hc, helig, hmax⟩ := chooseWinner_spec hchosen
  simp only [eligible, Option.isNone_iff_eq_none, decide_eq_true_eq, hunloaded, false_or] at helig
  obtain ⟨hunblocked, henabled⟩ := h.clear c hc helig.1
  refine ⟨helig.2, hunblocked, henabled, fun d hd hdi => ?_, h.unbooted⟩
  have hd' := (hgroup d).2 ⟨hd, hdi⟩
  refine h.running.unloaded _ (Option.some_ne_none _) ?_
  by_cases hreason : reasons d.label = none
  · refine h.running.cases hd' fun hloaded => hunloaded (hmax d hd' ?_ hloaded)
    simp [eligible, hreason, hloaded]
  · exact h.stopped hok d hd' hreason

theorem verifyBootstrap_running (h : Running cs i t₀ group (some c.label) states t)
    (hs : Started cs i t) (hc : c ∈ cs) (hi : c.identity = .known i) (n : ℕ) :
    Wp (verifyBootstrap env c.label n) (fun answer t' =>
      Running cs i t₀ group (some c.label) states t' ∧ Started cs i t' ∧
        (answer = .ok true → lastLoaded t' c.label = some (.ok true))) t := by
  induction n generalizing t with
  | zero => exact wp_pure ⟨h, hs, by simp⟩
  | succ n ih =>
    refine wp_bind (wp_call fun answer => ?_)
    have hprobed := h.doubt hs hc hi (Or.inr rfl) answer
    match answer with
    | .error error => exact wp_pure ⟨hprobed, hs.snoc, by simp⟩
    | .ok true => exact wp_pure ⟨hprobed, hs.snoc, fun _ => lastLoaded_snoc_self _⟩
    | .ok false =>
      dsimp only
      split_ifs with hmore
      · refine wp_bind (wp_call fun _ => ?_)
        refine ih (hprobed.frame (hprobed.base.sleep _) ?_ fun _ => rfl) hs.snoc.snoc
        exact Or.inl hs.snoc.snoc
      · exact ih hprobed hs.snoc

/-- The winner has been seen loaded. -/
structure Clearing (cs : List DutyCandidate) (i : String) (t₀ : List Call)
    (group : List DutyCandidate) (winner : DutyCandidate) (g : Progress) (t : List Call) :
    Prop where
  running : Running cs i t₀ group none g.loadedStates t
  winner : .loaded winner.label (.ok true) ∈ t

theorem recover_spec (h : Stopping cs i t₀ group reasons group g t)
    (hgroup : ∀ d, d ∈ group ↔ d ∈ cs ∧ d.identity = .known i)
    (hchosen : chooseWinner reasons g.loadedStates group = some c)
    (hunloaded : g.loadedStates c.label ≠ some true) :
    Wp (recover env c g) (fun r t' => Base cs i t₀ t' ∧
      (r.1 = true → Clearing cs i t₀ group c r.2 t')) t := by
  obtain ⟨hc, hi⟩ := (hgroup c).1 (chooseWinner_spec hchosen).1
  unfold recover
  split_ifs with hstill
  · exact wp_pure ⟨h.running.base, by simp⟩
  · have hboot := bootable h hgroup hchosen hunloaded (by simpa using hstill)
    refine wp_bind (wp_call fun answer => ?_)
    have hbase : Base cs i t₀ (t ++ [Call.bootstrap c.label c.plistPath answer]) :=
      h.running.base.snoc hc hi rfl (fun _ => h.running.begun) ⟨rfl, hboot⟩
    have hstarted : Started cs i (t ++ [Call.bootstrap c.label c.plistPath answer]) :=
      started_snoc hc hi rfl rfl
    cases answer with
    | error error => exact wp_pure ⟨hbase, by simp⟩
    | ok =>
      have hrunning := (h.running.late c.label).frame hbase (Or.inl hstarted) fun _ => rfl
      refine wp_bind (wp_mono (verifyBootstrap_running hrunning hstarted hc hi 10) ?_)
      intro answer t' hverified
      obtain ⟨hrun, hs, hvisible⟩ := hverified
      match answer with
      | .error error => exact wp_pure ⟨hrun.base, by simp⟩
      | .ok false => exact wp_pure ⟨hrun.base, by simp⟩
      | .ok true =>
        refine wp_bind (wp_call fun file => ?_)
        have hread : Base cs i t₀ (t' ++ [Call.marker c.label file]) :=
          hrun.base.snoc hc hi rfl (by simp [Call.acts]) trivial
        split
        · refine wp_bind (wp_call fun answer => wp_pure ⟨?_, by simp⟩)
          exact hread.snoc hc hi rfl (fun _ => Or.inl hs.snoc) trivial
        · have hmarker := hrun.frame hread (Or.inl hs.snoc) fun _ => rfl
          have hlast : lastLoaded (t' ++ [Call.marker c.label file]) c.label = some (.ok true) := by
            simpa [lastLoaded, last_snoc, Call.loadedAnswer] using hvisible rfl
          exact wp_pure ⟨hread, fun _ =>
            ⟨hmarker.saw hlast (Or.inr rfl), lastLoaded_mem hlast⟩⟩

theorem archiveLoser_clearing {winner : DutyCandidate} (h : Clearing cs i t₀ group winner g t)
    (hw : winner ∈ cs) (hwi : winner.identity = .known i) (hc : c ∈ cs) (hi : c.identity = .known i)
    (hne : c.label ≠ winner.label) (hunloaded : g.loadedStates c.label = some false) :
    Wp (archiveLoser env winner c g) (Clearing cs i t₀ group winner) t := by
  refine wp_bind (wp_call fun answer => ?_)
  have hlegal : Archivable cs i c winner.label t :=
    ⟨h.running.unloaded _ (Option.some_ne_none _) hunloaded,
      winner, hw, hwi, rfl, hne.symm, h.winner⟩
  have hbase : Base cs i t₀ (t ++ [Call.archive c.label c.plistPath winner.label answer]) :=
    h.running.base.snoc hc hi rfl (fun _ => h.running.begun) ⟨rfl, hlegal⟩
  have hrunning := h.running.frame hbase (h.running.begun.snoc rfl) fun _ => rfl
  cases answer with
  | ok destination => exact wp_pure ⟨hrunning, List.mem_append_left _ h.winner⟩
  | error error => exact wp_pure ⟨hrunning, List.mem_append_left _ h.winner⟩

theorem clearLoser_clearing {winner : DutyCandidate} (h : Clearing cs i t₀ group winner g t)
    (hgroup : ∀ d, d ∈ group ↔ d ∈ cs ∧ d.identity = .known i) (hw : winner ∈ group)
    (hc : c ∈ group) (hne : c.label ≠ winner.label) :
    Wp (clearLoser env winner g c) (Clearing cs i t₀ group winner) t := by
  obtain ⟨hwcs, hwi⟩ := (hgroup winner).1 hw
  obtain ⟨hccs, hi⟩ := (hgroup c).1 hc
  unfold clearLoser
  split_ifs with hloaded
  · refine wp_bind (wp_call fun answer => ?_)
    have hout := h.running.bootout hccs hi answer
    cases answer with
    | error error => exact wp_pure ⟨hout, List.mem_append_left _ h.winner⟩
    | ok =>
      refine wp_bind (wp_call fun answer => ?_)
      have hprobed := hout.doubt (started_snoc hccs hi rfl rfl) hccs hi (Or.inl hloaded) answer
      have hseen := List.mem_append_left [.loaded c.label answer]
        (List.mem_append_left [.bootout c.label (.ok ())] h.winner)
      match answer with
      | .error error => exact wp_pure ⟨hprobed, hseen⟩
      | .ok true => exact wp_pure ⟨hprobed, hseen⟩
      | .ok false =>
        refine archiveLoser_clearing ⟨?_, hseen⟩ hwcs hwi hccs hi hne (Function.update_self ..)
        exact hprobed.saw (lastLoaded_snoc_self _) (Or.inl rfl)
  · exact archiveLoser_clearing h hwcs hwi hccs hi hne (h.running.cases hc hloaded)

end Changes

section Group

variable {W : Type} {env : Launchd W} {cs group : List DutyCandidate} {i : String}
variable {t₀ t : List Call} {reasons : TerminalReasons} {g : Progress} {winner : DutyCandidate}

theorem settleWinner_base (h : Clearing cs i t₀ group winner g t)
    (hgroup : ∀ d, d ∈ group ↔ d ∈ cs ∧ d.identity = .known i) (hw : winner ∈ group)
    (wasLoaded : Bool) :
    Wp (settleWinner env group winner wasLoaded g) (fun _ t' => Base cs i t₀ t') t := by
  refine wp_mono (wp_foldlM (I := fun _ => Clearing cs i t₀ group winner) ?_ ?_)
    fun _ _ h' => h'.running.base
  · split_ifs <;> exact ⟨h.running, h.winner⟩
  · intro done c rest g' t' hlist hc'
    have hc : c ∈ group.filter fun c => c.label ≠ winner.label := by
      rw [hlist]
      exact List.mem_append_right _ List.mem_cons_self
    rw [List.mem_filter, decide_eq_true_eq] at hc
    exact clearLoser_clearing hc' hgroup hw hc.1 hc.2

theorem elect_base (h : Stopping cs i t₀ group reasons group g t)
    (hgroup : ∀ d, d ∈ group ↔ d ∈ cs ∧ d.identity = .known i) :
    Wp (elect env group reasons g) (fun _ t' => Base cs i t₀ t') t := by
  unfold elect
  cases hchosen : chooseWinner reasons g.loadedStates group with
  | none => exact wp_pure h.running.base
  | some winner =>
    have hw := (chooseWinner_spec hchosen).1
    dsimp only
    split_ifs with hloaded
    · exact settleWinner_base ⟨h.running, h.running.seen _ hloaded⟩ hgroup hw true
    · refine wp_bind (wp_mono (recover_spec h hgroup hchosen hloaded) ?_)
      rintro ⟨confirmed, g'⟩ t' ⟨hbase, hconfirmed⟩
      cases confirmed with
      | true => exact settleWinner_base (hconfirmed rfl) hgroup hw false
      | false => exact wp_pure hbase

theorem reconcileGroup_base (hlegal : Each (Legal cs) t)
    (hfresh : ∀ e ∈ t, ofInstance cs i e = false)
    (hgroup : ∀ d, d ∈ group ↔ d ∈ cs ∧ d.identity = .known i)
    (hnodup : (group.map DutyCandidate.label).Nodup) :
    Wp (reconcileGroup env group) (fun _ t' => Base cs i t t') t := by
  have hmem : ∀ {done c rest}, group = done ++ c :: rest →
      c ∈ group ∧ c ∈ cs ∧ c.identity = .known i := fun hlist => by
    have hc : _ ∈ group := hlist ▸ List.mem_append_right _ List.mem_cons_self
    exact ⟨hc, (hgroup _).1 hc⟩
  have hnew : ∀ {done c rest}, group = done ++ c :: rest → ∀ d ∈ done, d.label ≠ c.label := by
    intro done c rest hlist d hd
    rw [hlist, List.map_append, List.nodup_append] at hnodup
    exact hnodup.2.2 d.label (List.mem_map_of_mem hd) c.label (by simp)
  have hprobes : Wp (group.foldlM (probe env) {}) (Probed cs i t group group) t :=
    wp_foldlM (I := fun done => Probed cs i t done done)
      ⟨⟨hlegal, fun e he => Or.inl he⟩, fun e he _ => hfresh e he, fun _ e he _ => hfresh e he,
        fun _ => Known.nil, fun _ => Known.nil⟩
      fun done c rest p t' hlist hp => probe_probed hp (hmem hlist).2.1 (hmem hlist).2.2
  refine wp_bind (wp_mono hprobes fun p t₁ hp => ?_)
  split_ifs with hfailed
  · exact wp_pure hp.base
  · have hok : p.probeFailed = false := by simpa using hfailed
    have hreasons : Wp (group.foldlM (terminalReason env p.disabledStates) fun _ => none)
        (Reasoned cs i t group group p.loadedStates p.disabledStates) t₁ :=
      wp_foldlM (I := fun done => Reasoned cs i t group done p.loadedStates p.disabledStates)
        ⟨hp.base, hp.idle, hp.answered hok, hp.loaded hok, hp.disabled hok, by simp [Clear]⟩
        fun done c rest reasons t' hlist hr =>
          terminalReason_reasoned hr (hmem hlist).2.1 (hmem hlist).2.2 (hmem hlist).1 (hnew hlist)
    refine wp_bind (wp_mono hreasons fun reasons t₂ hr => ?_)
    have hstops : Wp (group.foldlM (stopTerminal env reasons)
        { loadedStates := p.loadedStates, records := p.records })
        (Stopping cs i t group reasons group) t₂ := by
      refine wp_foldlM (I := fun done => Stopping cs i t group reasons done) ?_
        fun done c rest g t' hlist hs =>
          stopTerminal_stopping hs (hmem hlist).2.1 (hmem hlist).2.2 (hmem hlist).1
      refine ⟨⟨hr.base, Or.inr hr.answered, fun l _ hl => hr.loaded.latest l _ hl,
        fun l hl => lastLoaded_mem (hr.loaded.latest l _ hl), hr.loaded.total⟩,
        fun e he hboot => hr.idle e he ?_, hr.clear, by simp⟩
      cases e with
      | bootstrap => rfl
      | _ => cases hboot
    refine wp_bind (wp_mono hstops fun g t₃ hs => ?_)
    obtain ⟨hloaded, hstill⟩ := @foldl_noteRecoveryBlock_same reasons group g
    refine wp_bind (wp_mono (elect_base (hs.same hloaded hstill) hgroup) fun g' t₄ hbase => ?_)
    exact wp_pure hbase

end Group

section Run

variable {W : Type} {env : Launchd W} {cs : List DutyCandidate} {i : String} {t : List Call}

theorem mem_instanceGroup {d : DutyCandidate} :
    d ∈ instanceGroup cs i ↔ d ∈ cs ∧ d.identity = .known i := by
  simp [instanceGroup]

theorem instanceGroup_nodup (h : (cs.map DutyCandidate.label).Nodup) :
    ((instanceGroup cs i).map DutyCandidate.label).Nodup := by
  refine (((List.perm_insertionSort _ _).map _).nodup_iff).2 (h.sublist ?_)
  exact List.filter_sublist.map _

theorem instances_nodup : (instances cs).Nodup :=
  (List.perm_insertionSort _ _).nodup_iff.2 (List.nodup_eraseDups _)

theorem label_inj (candidates : DutyCandidates) {c d : DutyCandidate} (hc : c ∈ candidates.list)
    (hd : d ∈ candidates.list) (h : c.label = d.label) : c = d :=
  List.inj_on_of_nodup_map candidates.nodup hc hd h

theorem ofInstance_unique (candidates : DutyCandidates) {c : DutyCandidate} {j : String} {e : Call}
    (hc : c ∈ candidates.list) (hi : c.identity = .known i) (hl : e.label = some c.label)
    (h : ofInstance candidates.list j e = true) : j = i := by
  obtain ⟨d, hd, hj, hl'⟩ := ofInstance_iff.1 h
  obtain rfl := label_inj candidates hc hd (by simpa [hl] using hl')
  simpa [hi] using hj.symm

/-- The groups take their turns; a turn makes calls on its own instance only. -/
theorem reconcileDutiesWith_legal (candidates : DutyCandidates) :
    Wp (reconcileDutiesWith env (.ok candidates))
      (fun _ t => Each (Legal candidates.list) t) [] := by
  refine wp_bind (wp_mono (wp_foldlM (I := fun done (_ : List Record) t =>
    Each (Legal candidates.list) t ∧
      ∀ j, j ∉ done → ∀ e ∈ t, ofInstance candidates.list j e = false)
    ⟨Each.nil, fun j _ e he => by simp at he⟩ ?_) fun records t h => wp_pure h.1)
  rintro done i rest records t hlist ⟨hlegal, hothers⟩
  have hi : i ∉ done := by
    have hnodup := hlist ▸ @instances_nodup candidates.list
    exact fun hin => (List.nodup_append.1 hnodup).2.2 i hin i (by simp) rfl
  refine wp_bind (wp_mono (reconcileGroup_base hlegal (hothers i hi) (fun d => mem_instanceGroup)
    (instanceGroup_nodup candidates.nodup)) fun more t' hbase => wp_pure ⟨hbase.legal, ?_⟩)
  intro j hj e he
  obtain ⟨hjdone, hji⟩ : j ∉ done ∧ j ≠ i := by simpa using hj
  rcases hbase.frame e he with hold | hnone | hof
  · exact hothers j hjdone e hold
  · simp [ofInstance, hnone]
  · obtain ⟨c, hc, hci, hl⟩ := ofInstance_iff.1 hof
    by_contra hne
    exact hji (ofInstance_unique candidates hc hci hl (by simpa using hne))

end Run

/-- Never two bootstraps of an instance, and no change on a guess: what a run's calls keep to. -/
structure Cautious (cs : List DutyCandidate) (t : List Call) : Prop where
  once : ∀ i, (t.countP fun e => e.bootstraps && ofInstance cs i e) ≤ 1
  bootstrap : ∀ pre label path answer post, t = pre ++ Call.bootstrap label path answer :: post →
    ∃ c ∈ cs, ∃ i, c.label = label ∧ c.plistPath = path ∧ c.identity = .known i ∧
      c.generation.isManaged = true ∧ Unblocked c pre ∧ Enabled c pre ∧
      ∀ d ∈ cs, d.identity = .known i → lastLoaded pre d.label = some (.ok false)
  archive : ∀ pre label path winner answer post,
    t = pre ++ Call.archive label path winner answer :: post →
      ∃ c ∈ cs, ∃ i, c.label = label ∧ c.plistPath = path ∧ c.identity = .known i ∧
        lastLoaded pre c.label = some (.ok false) ∧
        ∃ d ∈ cs, d.identity = .known i ∧ d.label = winner ∧ d.label ≠ c.label ∧
          .loaded d.label (.ok true) ∈ pre
  failedProbe : ∀ i pre e post, t = pre ++ e :: post → e.failedProbe = true →
    ofInstance cs i e = true → (∀ e' ∈ pre, e'.acts = true → ofInstance cs i e' = false) →
      ∀ e' ∈ t, e'.acts = true → ofInstance cs i e' = false
  unreadable : ∀ c ∈ cs, ∀ reason, c.identity = .unreadable reason →
    ∀ e ∈ t, e.label ≠ some c.label

section Claim

variable {candidates : DutyCandidates} {t : List Call}

theorem once_of_legal (h : Each (Legal candidates.list) t) (i : String) :
    (t.countP fun e => e.bootstraps && ofInstance candidates.list i e) ≤ 1 := by
  refine h.countP_le_one fun pre e hlegal hp e' he' => ?_
  rw [Bool.and_eq_true] at hp
  cases e with
  | bootstrap label path answer =>
    obtain ⟨c, hc, j, hj, hl, -, -, hboot⟩ := hlegal label rfl
    obtain rfl := ofInstance_unique candidates hc hj (by rw [hl]; rfl) hp.2
    cases he : e'.bootstraps with
    | true => simp [hboot.first e' he' he]
    | false => rfl
  | _ => exact absurd hp.1 Bool.false_ne_true

/-- The first change of an instance has no failed probe before it. -/
theorem first_change (h : Each (Legal candidates.list) t) {i : String} {pre post : List Call}
    {e : Call} (ht : t = pre ++ e :: post) (he : e.acts = true)
    (hof : ofInstance candidates.list i e = true)
    (hfirst : ∀ e' ∈ pre, e'.acts = true → ofInstance candidates.list i e' = false) :
    ∀ e' ∈ pre, e'.failedProbe = true → ofInstance candidates.list i e' = false := by
  obtain ⟨d, hd, hi, hl⟩ := ofInstance_iff.1 hof
  obtain ⟨c, hc, j, hj, hcl, hbegun, -⟩ := h pre e post ht _ hl
  obtain rfl := label_inj candidates hc hd hcl
  obtain rfl : j = i := by simpa [hj] using hi
  rcases hbegun he with ⟨e', he', hacts, hof'⟩ | hnone
  · simp [hfirst e' he' hacts] at hof'
  · exact hnone

theorem failedProbe_of_legal (h : Each (Legal candidates.list) t) {i : String}
    {pre post : List Call} {e : Call} (ht : t = pre ++ e :: post) (he : e.failedProbe = true)
    (hof : ofInstance candidates.list i e = true)
    (hfirst : ∀ e' ∈ pre, e'.acts = true → ofInstance candidates.list i e' = false) :
    ∀ e' ∈ t, e'.acts = true → ofInstance candidates.list i e' = false := by
  by_contra hchange
  push Not at hchange
  -- the first change of the instance comes after the failed probe
  have hexists : (t.find? fun e' => e'.acts && ofInstance candidates.list i e').isSome := by
    obtain ⟨e', he', hacts, hof'⟩ := hchange
    exact List.find?_isSome.2 ⟨e', he', by simp [hacts, hof']⟩
  obtain ⟨e', hfind⟩ := Option.isSome_iff_exists.1 hexists
  obtain ⟨hp, pre', post', ht', hnone⟩ := List.find?_eq_some_iff_append.1 hfind
  rw [Bool.and_eq_true] at hp
  have hnone' : ∀ a ∈ pre', a.acts = true → ofInstance candidates.list i a = false := by
    intro a ha hacts
    simpa [hacts] using hnone a ha
  have hclean := first_change h ht' hp.1 hp.2 hnone'
  rcases List.append_eq_append_iff.1 (ht.symm.trans ht') with ⟨mid, rfl, hmid⟩ | ⟨mid, rfl, hmid⟩
  · cases mid with
    | nil =>
      obtain rfl : e = e' := by simpa using congrArg List.head? hmid
      cases e <;> simp [Call.failedProbe, Call.acts] at he hp
    | cons a mid =>
      obtain rfl : e = a := by simpa using congrArg List.head? hmid
      simp [hclean e (by simp) he] at hof
  · cases mid with
    | nil =>
      obtain rfl : e' = e := by simpa using congrArg List.head? hmid
      cases e' <;> simp [Call.failedProbe, Call.acts] at he hp
    | cons a mid =>
      obtain rfl : e' = a := by simpa using congrArg List.head? hmid
      simp [hfirst e' (by simp) hp.1] at hp

/-- Whatever launchd answers, and however its answers change, a run is cautious. -/
theorem reconcileDutiesWith_cautious {W : Type} (env : Launchd W) (candidates : DutyCandidates)
    (w : W) :
    Cautious candidates.list (reconcileDutiesWith env (.ok candidates) (w, [])).2.2 := by
  have h : Each (Legal candidates.list) _ := @reconcileDutiesWith_legal W env candidates w
  refine ⟨once_of_legal h, fun pre label path answer post ht => ?_,
    fun pre label path winner answer post ht => ?_,
    fun i pre e post ht he hof hfirst => failedProbe_of_legal h ht he hof hfirst,
    fun c hc reason hreason e he hl => ?_⟩
  · obtain ⟨c, hc, i, hi, hl, -, hpath, hboot⟩ := h pre _ post ht label rfl
    exact ⟨c, hc, i, hl, hpath, hi, hboot.managed, hboot.unblocked, hboot.enabled, hboot.unloaded⟩
  · obtain ⟨c, hc, i, hi, hl, -, hpath, harchive⟩ := h pre _ post ht label rfl
    exact ⟨c, hc, i, hl, hpath, hi, harchive.unloaded, harchive.other⟩
  · obtain ⟨pre, post, ht⟩ := List.append_of_mem he
    obtain ⟨d, hd, i, hi, hdl, -⟩ := h pre e post ht _ hl
    obtain rfl := label_inj candidates hd hc hdl
    simp [hi] at hreason

end Claim

/-! The duties of one instance: `kept` runs, `stopped` is disabled and still runs, `spare` does
not run. launchd no longer answers for `stopped` once it was booted out. -/

def duty (label : String) : DutyCandidate :=
  ⟨label, label ++ ".plist", 0, .managed "g1", .known "bot"⟩

def duties : DutyCandidates := ⟨[duty "kept", duty "spare", duty "stopped"], by decide⟩

/-- The state says whether `stopped` was booted out. -/
def silenced : Launchd Bool where
  loaded label out :=
    (if label = "stopped" then if out then .error "timed out" else .ok true
      else .ok (label = "kept"), out)
  disabled label out := (.ok (label = "stopped"), out)
  bootout _ _ := (.ok (), true)
  bootstrap _ _ out := (.ok (), out)
  archive label _ _ out := (.ok label, out)
  sleep _ out := ((), out)
  marker _ out := (.missing, out)

def silencedCalls : List Call := (reconcileDutiesWith silenced (.ok duties) (false, [])).2.2

/-- The re-check behind the bootout of `stopped` fails, and `spare` is archived after it. -/
theorem recheck_fails_and_archives :
    ¬ ∀ (W : Type) (env : Launchd W) (candidates : DutyCandidates) (w : W) (i : String)
      (pre post : List Call) (e : Call),
      (reconcileDutiesWith env (.ok candidates) (w, [])).2.2 = pre ++ e :: post →
      e.failedProbe = true → ofInstance candidates.list i e = true →
      ∀ e' ∈ post, e'.acts = true → ofInstance candidates.list i e' = false := by
  intro h
  have hrun : silencedCalls = silencedCalls.take 10 ++
      Call.loaded "stopped" (.error "timed out") ::
        [.archive "spare" "spare.plist" "kept" (.ok "spare"), .bootout "stopped" (.ok ()),
          .loaded "stopped" (.error "timed out")] := by decide +kernel
  have harchive := h Bool silenced duties false "bot" _ _ _ hrun rfl (by decide) _
    List.mem_cons_self rfl
  exact absurd harchive (by decide)

end DutyReconcile
end AgentParty
