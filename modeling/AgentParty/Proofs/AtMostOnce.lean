import AgentParty.Proofs.Uncertain

/-! At most one accepted write for an input: between two writes lies the evidence that the
first was not accepted, and nothing is written once it was. -/

namespace AgentParty
namespace Codex

/-- The id is known to be accepted or abandoned from here on. -/
def Effect.settles (id : String) : Effect → Prop
  | .write params (.ok _) => params.clientUserMessageId = id
  | .observed clientId => clientId = id
  | .resolved clientId outcome => clientId = id ∧ outcome ≠ .notAccepted
  | _ => False

theorem after_settles {id : String} {e : Effect} (f : Fate) (he : e.settles id) :
    e.after id f = .settled := by
  cases e with
  | write params answer =>
    cases answer with
    | ok turnId => exact if_pos he
    | error error => exact he.elim
  | observed clientId => exact if_pos he
  | resolved clientId outcome =>
    rw [Effect.after, if_pos he.1]
    cases outcome with
    | notAccepted => exact absurd rfl he.2
    | accepted => rfl
    | abandoned => rfl
  | _ => exact he.elim

section Lawful

variable {id : String} {l m r : List Effect} {e e' : Effect}

theorem Lawful.prefix {effects : List Effect} (hl : Lawful id effects) (hp : l <+: effects) :
    Lawful id l := fun _ _ h hw => hl _ _ (h.trans hp) hw

/-- The id is free again where it is written next. -/
theorem Lawful.free_at (hl : Lawful id (l ++ e :: m ++ e' :: r)) (hw : e'.writes id) :
    fate id (l ++ [e] ++ m) = .free := by
  refine hl _ e' ⟨r, by simp⟩ hw

theorem Lawful.between (hl : Lawful id (l ++ e :: m ++ e' :: r)) :
    Lawful id (l ++ [e] ++ m) := hl.prefix ⟨e' :: r, by simp⟩

theorem Lawful.not_after (hl : Lawful id (l ++ e :: m ++ e' :: r)) (he : e.settles id) :
    ¬ e'.writes id := fun hw => by
  have hf : fate id (l ++ [e]) = .settled := (fate_concat id l e).trans (after_settles _ he)
  have := (hl.between.settled hf).1
  rw [hl.free_at hw] at this
  cases this

theorem Lawful.refused {params : TurnParams} {error : Thrown}
    (hl : Lawful id (l ++ Effect.write params (.error error) :: m ++ e' :: r))
    (hid : params.clientUserMessageId = id) (hr : error.refuses = true) (hw : e'.writes id) :
    .rollback id true ∈ m ∨ .cancelled id ∈ m := by
  have hf : fate id (l ++ [Effect.write params (.error error)]) = .owing := by
    rw [fate_concat, Effect.after, if_pos hid, Fate.answered, if_pos hr]
  have hne : Fate.owing ≠ .free := by decide
  obtain ⟨e, he, hno, ha⟩ := hl.between.freed hf hne (hl.free_at hw)
  rcases frees_owing hno ha with rfl | rfl
  · exact Or.inl he
  · exact Or.inr he

theorem Lawful.lost {params : TurnParams} {error : Thrown}
    (hl : Lawful id (l ++ Effect.write params (.error error) :: m ++ e' :: r))
    (hid : params.clientUserMessageId = id) (hr : ¬ error.refuses = true) (hw : e'.writes id) :
    .resolved id .notAccepted ∈ m := by
  have hf : fate id (l ++ [Effect.write params (.error error)]) = .unknown := by
    rw [fate_concat, Effect.after, if_pos hid, Fate.answered, if_neg hr]
  have hne : Fate.unknown ≠ .free := by decide
  obtain ⟨e, he, hno, ha⟩ := hl.between.freed hf hne (hl.free_at hw)
  exact frees_unknown hno ha ▸ he

end Lawful

namespace Session
open Lane

/-- Two writes of an input are apart by the evidence that the first was not accepted; after
a refusal its rollback is done before the input is prepared again, unless it was cancelled in
between; and an input that was accepted or abandoned is not written. -/
theorem at_most_one_write {options : ArbiterOptions} {s : Session} (h : Reachable options s)
    {id : String} (hid : id ∉ s.lane.arbiter.evicted) :
    (∀ l m r params params' answer answer', s.lane.effects =
        l ++ Effect.write params answer :: m ++ Effect.write params' answer' :: r →
      params.clientUserMessageId = id → params'.clientUserMessageId = id →
        (∃ e, answer = .error e ∧ e.refuses = true) ∨ .resolved id .notAccepted ∈ m) ∧
    (∀ l m r params error thrown, s.lane.effects =
        l ++ Effect.write params (.error error) :: m ++ Effect.beforeWrite id thrown :: r →
      params.clientUserMessageId = id → error.refuses = true →
        .rollback id true ∈ m ∨ .cancelled id ∈ m) ∧
    ∀ l m r e e', s.lane.effects = l ++ e :: m ++ e' :: r → e.settles id → ¬ e'.writes id := by
  have hl := (kept_of_reachable h).lawful id hid
  refine ⟨fun l m r params params' answer answer' he hp hp' => ?_,
    fun l m r params error thrown he hp hr => ?_, fun l m r e e' he hs => ?_⟩
  · rw [he] at hl
    cases answer with
    | ok turnId => exact absurd hp' (hl.not_after hp)
    | error error =>
      by_cases hr : error.refuses = true
      · exact Or.inl ⟨error, rfl, hr⟩
      · exact Or.inr (hl.lost hp hr hp')
  · rw [he] at hl
    exact hl.refused hp hr rfl
  · rw [he] at hl
    exact hl.not_after hs

/-- The lost write is shown not to be accepted, and is made again. -/
def writtenTwiceOps : List Op :=
  lostWriteOps ++ [Op.resolveUnknownOutcome sampleInput .notAccepted fun _ =>
    answering (.error .other) true, .observeThreadIdle fun _ => answering (.ok "t1") true]

theorem at_most_one_write_resolved :
    (∃ e : Thrown, (.error .other : Except Thrown String) = .error e ∧ e.refuses = true) ∨
      Effect.resolved "m1" .notAccepted ∈
        [Effect.resolved "m1" .notAccepted, .beforeWrite "m1" none] := by
  have hreach : Reachable sampleOptions ((initial sampleOptions).exec writtenTwiceOps) :=
    ⟨writtenTwiceOps, run_exec (by simp [writtenTwiceOps, lostWriteOps, Enabled])⟩
  exact (at_most_one_write hreach (by decide)).1 [.beforeWrite "m1" none] _ []
    ⟨"thread", "m1", "hello", none, none⟩ ⟨"thread", "m1", "hello", none, none⟩ _ (.ok "t1")
    (by decide) rfl rfl

/-- The write of the input is refused, its rollback fails, and the queued input is cancelled
and submitted again. -/
def cancelledOps : List Op :=
  [.observeResume ⟨.idle, []⟩ false fun _ => answering (.error .other) true,
    .submit sampleInput fun _ => answering (.error (.rejected none)) false,
    .cancelQueued "m1", .submit sampleInput fun _ => answering (.ok "t1") true]

/-- A cancelled input takes its rollback with it. -/
theorem cancelled_without_rollback : ¬ ∀ (options : ArbiterOptions) (s : Session),
    Reachable options s → ∀ id ∉ s.lane.arbiter.evicted,
      ∀ l m r params error thrown, s.lane.effects =
          l ++ Effect.write params (.error error) :: m ++ Effect.beforeWrite id thrown :: r →
        params.clientUserMessageId = id → error.refuses = true → .rollback id true ∈ m := by
  intro hall
  have hreach : Reachable sampleOptions ((initial sampleOptions).exec cancelledOps) :=
    ⟨cancelledOps, run_exec (by simp [cancelledOps, Enabled])⟩
  have hmem := hall _ _ hreach "m1" (by decide) [.beforeWrite "m1" none]
    [.rollback "m1" false, .cancelled "m1"]
    [.write ⟨"thread", "m1", "hello", none, none⟩ (.ok "t1")]
    ⟨"thread", "m1", "hello", none, none⟩ (.rejected none) none (by decide) rfl rfl
  simp at hmem

end Session
end Codex
end AgentParty
