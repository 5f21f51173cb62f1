import AgentParty.Proofs.DesktopRefresh

/-! A pairing issues one set of credentials, over every interleaving of the requests of the device
flow: one session, one token body, only after an approval and a valid proof. -/

namespace AgentParty
namespace Desktop

open EventSystem

/-- `p'` is what became of the pairing `p`. -/
structure Pairing.Continues (p p' : Pairing) : Prop where
  id : p'.id = p.id
  codeChallenge : p'.codeChallenge = p.codeChallenge
  deviceSecretChallenge : p'.deviceSecretChallenge = p.deviceSecretChallenge
  expiresAt : p'.expiresAt = p.expiresAt
  denied : p.status = .denied → p'.status = .denied

theorem Pairing.Continues.refl (p : Pairing) : p.Continues p := ⟨rfl, rfl, rfl, rfl, fun h => h⟩

theorem Pairing.Continues.trans {p p' p'' : Pairing} (h : p.Continues p') (h' : p'.Continues p'') :
    p.Continues p'' :=
  ⟨h'.id.trans h.id, h'.codeChallenge.trans h.codeChallenge,
    h'.deviceSecretChallenge.trans h.deviceSecretChallenge, h'.expiresAt.trans h.expiresAt,
    fun hd => h'.denied (h.denied hd)⟩

section Effects

variable {Text Cipher : Type} {K : Primitives Text Cipher} {s s' : World Text Cipher} {e : Event}
  {r : ℕ}

/-- An answer that neither completes an exchange nor reports a decision. -/
def Answer.Other : Answer Text → Prop
  | .exchanged .. | .decided .. => False
  | .refused _ | .refreshed .. | .authorizationPending _ | .empty => True

/-- Nothing is answered, or something that is no exchange and no decision. -/
def World.SaysLittle (s s' : World Text Cipher) : Prop :=
  s'.answers = s.answers ∨ ∃ r a, a.Other ∧ s'.answers = s.answers ++ [(r, a)]

/-- Each session of `db'` is one of `db`. -/
def Db.SameSessions {Cipher : Type} (db db' : Db Cipher) : Prop :=
  ∀ y ∈ db'.sessions, ∃ x ∈ db.sessions, y.id = x.id ∧ y.pairingId = x.pairingId

theorem Db.sameSessions_rfl {db db' : Db Cipher} (h : db'.sessions = db.sessions) :
    db.SameSessions db' :=
  fun y hy => ⟨y, h ▸ hy, rfl, rfl⟩

theorem Db.sameSessions_update {db db' : Db Cipher} {p : Session → Bool} {f : Session → Session}
    {hf : ∀ x, (f x).id = x.id} (h : db'.sessions = db.sessions.update p f hf)
    (hpairing : ∀ x, (f x).pairingId = x.pairingId) : db.SameSessions db' := by
  intro y hy
  rw [h] at hy
  obtain ⟨x, hx, rfl⟩ := (Table.mem_update hf).1 hy
  refine ⟨x, hx, ?_⟩
  cases p x
  · exact ⟨rfl, rfl⟩
  · exact ⟨hf x, hpairing x⟩

theorem Db.sameSessions_revoke {db db' : Db Cipher} {p : Session → Bool} {now : Int}
    (h : db'.sessions = db.sessions.update p (Session.revoke now) fun _ => rfl) :
    db.SameSessions db' :=
  Db.sameSessions_update h fun _ => rfl

/-- What one event does to the pairings and the recoveries, and what it answers about them. -/
inductive Ledgered (K : Primitives Text Cipher) (s : World Text Cipher) :
    World Text Cipher → Prop
  | kept {s' : World Text Cipher} (hp : s'.db.pairings = s.db.pairings)
      (hr : ∀ row ∈ s'.db.recoveries, row ∈ s.db.recoveries)
      (hx : s.db.SameSessions s'.db) (ha : s.SaysLittle s') : Ledgered K s s'
  | added {s' : World Text Cipher} (p : Pairing) (hpending : p.status = .pending)
      (hfailures : p.proofFailures = 0) (hnew : ∀ q ∈ s.db.pairings, q.id ≠ p.id)
      (hp : s'.db.pairings = s.db.pairings.insert p) (hr : s'.db.recoveries = s.db.recoveries)
      (hx : s'.db.sessions = s.db.sessions) (ha : s'.answers = s.answers) : Ledgered K s s'
  /-- A poll: only the times of the next poll change. -/
  | polled {s' : World Text Cipher} (cond : Pairing → Bool) (f : Pairing → Pairing)
      (hf : ∀ p, (f p).id = p.id) (hsame : ∀ p, p.Continues (f p) ∧ (f p).status = p.status ∧
        (f p).proofFailures = p.proofFailures)
      (hp : s'.db.pairings = s.db.pairings.update cond f hf)
      (hr : s'.db.recoveries = s.db.recoveries) (hx : s'.db.sessions = s.db.sessions)
      (ha : s.SaysLittle s') : Ledgered K s s'
  | failed {s' : World Text Cipher} (id : String) (next : Int)
      (hp : s'.db.pairings = s.db.pairings.update (Pairing.open id) (Pairing.failProof next)
        fun _ => rfl)
      (hr : s'.db.recoveries = s.db.recoveries) (hx : s'.db.sessions = s.db.sessions)
      (ha : s.SaysLittle s') : Ledgered K s s'
  | decided {s' : World Text Cipher} (r : ℕ) (id account : String) (approve : Bool) (now : Int)
      (hdb : s'.db = (s.db.decide id account approve now).1)
      (ha : s'.answers = s.answers ++ [(r, if (s.db.decide id account approve now).2 = 1 then
        .decided id approve now else .refused .alreadyDecided)]) : Ledgered K s s'
  | replayed {s' : World Text Cipher} (r : ℕ) (pairing dev verifier : String) (t : Int)
      (row : Recovery Cipher) (x : Session) (text : Text)
      (hstage : s.stages r = .recoverPairing pairing dev verifier t true)
      (hrow : s.db.recoveryRow pairing = some (row, x))
      (htext : recoveredText K row x dev t = some text) (hdb : s'.db = s.db)
      (ha : s'.answers = s.answers ++ [(r, .exchanged pairing verifier true text)]) :
      Ledgered K s s'
  | created {s' : World Text Cipher} (r : ℕ) (p q : Pairing) (dev verifier : String) (t : Int)
      (mint : Mint) (hstage : s.stages r = .issue p dev verifier t) (hfresh : s.Fresh K mint)
      (hq : q ∈ s.db.pairings) (hissuable : q.issuable p.id t = true)
      (hnone : ∀ x ∈ s.db.sessions, x.pairingId ≠ p.id)
      (hs : s'.db.sessions = s.db.sessions.insert (q.session mint.sessionId (mint.hashes K) t))
      (hh : s'.db.history = s.db.history)
      (hp : s'.db.pairings = s.db.pairings.update (fun q => q.id = p.id && q.status = .approved)
        (fun q => { q with status := .consumed }) fun _ => rfl)
      (hr : s'.db.recoveries = s.db.recoveries.insert (mint.recovery K p dev t))
      (ha : s'.answers = s.answers ++
        [(r, .exchanged p.id verifier false (K.stringify mint.exchangeResponse))]) :
      Ledgered K s s'

theorem Answer.Blank.other {a : Answer Text} (h : a.Blank) : a.Other := by
  cases a <;> trivial

theorem Ledgered.proceed {v : Verdict Text} (hv : v.Blank) : Ledgered K s (s.proceed r v) := by
  cases v with
  | goto stage => exact .kept rfl (fun _ h => h) (Db.sameSessions_rfl rfl) (Or.inl rfl)
  | answer a => exact .kept rfl (fun _ h => h) (Db.sameSessions_rfl rfl) (Or.inr ⟨r, a, hv.other, rfl⟩)

theorem Ledgered.finish {db : Db Cipher} {a : Answer Text} (hp : db.pairings = s.db.pairings)
    (hr : db.recoveries = s.db.recoveries) (hx : s.db.SameSessions db) (ha : a.Other) :
    Ledgered K s ((s.write db).finish r a) :=
  .kept hp (fun _ h => hr ▸ h) hx (Or.inr ⟨r, a, ha, rfl⟩)

theorem retire_tables (db : Db Cipher) (row : Retired) (h : String) :
    (db.retire row h).pairings = db.pairings ∧ (db.retire row h).recoveries = db.recoveries ∧
      (db.retire row h).sessions = db.sessions := by
  unfold Db.retire
  split_ifs <;> exact ⟨rfl, rfl, rfl⟩

theorem reissue_tables (db : Db Cipher) (p : Session → Bool) (row : Retired) (pair : Hashes)
    (now : Int) : (db.reissue p row pair now).1.pairings = db.pairings ∧
      (db.reissue p row pair now).1.recoveries = db.recoveries ∧
      db.SameSessions (db.reissue p row pair now).1 := by
  obtain ⟨hp, hr, hs⟩ := retire_tables
    { db with sessions := db.sessions.update p (Session.issue pair now) fun _ => rfl } row pair.refresh
  have hupdate : (db.reissue p row pair now).1.sessions =
      db.sessions.update p (Session.issue pair now) fun _ => rfl := hs
  exact ⟨hp, hr, Db.sameSessions_update hupdate fun _ => rfl⟩

/-- The batches of a refresh leave pairings and recoveries alone. -/
theorem Ledgered.refresh {db : Db Cipher} {pair : Hashes} {v : Verdict Text}
    (hdb : db.pairings = s.db.pairings ∧ db.recoveries = s.db.recoveries ∧ s.db.SameSessions db)
    (hv : match v with | .goto _ => True | .answer a => a.Other) :
    Ledgered K s (((s.draw pair).write db).proceed r v) := by
  cases v with
  | goto stage => exact .kept hdb.1 (fun _ h => hdb.2.1 ▸ h) hdb.2.2 (Or.inl rfl)
  | answer a => exact .kept hdb.1 (fun _ h => hdb.2.1 ▸ h) hdb.2.2 (Or.inr ⟨r, a, hv, rfl⟩)

theorem Ledgered.issue {p : Pairing} {dev verifier : String} {t now : Int} {mint : Mint}
    (hstage : s.stages r = .issue p dev verifier t) (hfresh : s.Fresh K mint) :
    Ledgered K s (s.issue K r p dev verifier t now mint) := by
  unfold World.issue
  split
  · rename_i db heq
    unfold Db.exchange at heq
    split at heq
    · simp at heq
    · rename_i q hq
      split_ifs at heq with htaken
      obtain ⟨rfl, -⟩ := Prod.mk.inj (Option.some.inj heq)
      have hissuable : q.issuable p.id t = true := List.find?_some hq
      refine .created r p q dev verifier t mint hstage hfresh (List.mem_of_find?_eq_some hq)
        hissuable (fun x hx hsame => htaken ?_) rfl rfl rfl rfl rfl
      rw [Bool.or_eq_true]
      exact Or.inl (List.any_eq_true.2 ⟨x, hx, by simp [hsame]⟩)
  · exact .kept rfl (fun _ h => h) (Db.sameSessions_rfl rfl) (Or.inl rfl)

theorem Ledgered.act {now : Int} {mint : Mint} (hfresh : s.Fresh K mint) :
    Ledgered K s (s.act K r now mint) := by
  unfold World.act
  cases hstage : s.stages r with
  | idle | done => exact .kept rfl (fun _ h => h) (Db.sameSessions_rfl rfl) (Or.inl rfl)
  | replay token secret row t => exact .proceed (replayVerdict_blank _ _ _ _ _)
  | current token secret => exact .proceed (currentVerdict_blank _ _ _ _)
  | expire | replayed | surrender =>
    exact .finish rfl rfl (Db.sameSessions_revoke rfl) trivial
  | recover token row x t =>
    refine Ledgered.refresh (v := .answer _) (reissue_tables _ _ _ _ _) ?_
    simp only
    split_ifs <;> trivial
  | rotate token x t =>
    refine Ledgered.refresh (reissue_tables _ _ _ _ _) ?_
    split_ifs <;> trivial
  | slowDown p t =>
    exact .polled (fun q => q.id = p.id)
      (fun q => { q with pollIntervalSec := 10, nextPollAt := t + 10000 }) (fun _ => rfl)
      (fun q => ⟨⟨rfl, rfl, rfl, rfl, fun h => h⟩, rfl, rfl⟩) rfl rfl rfl
      (Or.inr ⟨r, .refused .slowDown, trivial, rfl⟩)
  | failProof p t =>
    refine .failed p.id (t + p.pollIntervalSec * 1000) rfl rfl rfl
      (Or.inr ⟨r, .refused _, ?_, rfl⟩)
    trivial
  | poll p t =>
    exact .polled (fun q => q.id = p.id && q.status = .pending)
      (fun q => { q with nextPollAt := t + p.pollIntervalSec * 1000 }) (fun _ => rfl)
      (fun q => ⟨⟨rfl, rfl, rfl, rfl, fun h => h⟩, rfl, rfl⟩) rfl rfl rfl
      (Or.inr ⟨r, .authorizationPending _, trivial, rfl⟩)
  | issue p dev verifier t => exact .issue hstage hfresh
  | recoverPairing pairing dev verifier t proofValid =>
    simp only
    unfold recoverVerdict
    split
    · exact .proceed trivial
    · rename_i row x hrow
      split
      · exact .proceed trivial
      · rename_i text htext
        cases proofValid with
        | true => exact .replayed r pairing dev verifier t row x text hstage hrow htext rfl rfl
        | false => exact .proceed trivial
  | dropRecovery pairing =>
    refine .kept rfl (fun row hrow => ?_) (Db.sameSessions_rfl rfl)
      (Or.inr ⟨r, .refused _, trivial, rfl⟩)
    exact (Table.mem_delete.1 hrow).1
  | decide pairing account approve => exact .decided r pairing account approve now rfl rfl

theorem next_ledgered (hready : s.Ready K e) : Ledgered K s (s.next K e) := by
  cases e with
  | start id dev user challenge secret now =>
    change Ledgered K s (s.start id dev user challenge secret now)
    unfold World.start
    split_ifs with htaken
    · exact .kept rfl (fun _ h => h) (Db.sameSessions_rfl rfl) (Or.inl rfl)
    · refine .added _ rfl rfl (fun q hq hsame => htaken ?_) rfl rfl rfl rfl
      exact List.any_eq_true.2 ⟨q, hq, by simp [show q.id = id from hsame]⟩
  | sweep now =>
    exact .kept rfl (fun row hrow => (Table.mem_delete.1 hrow).1) (Db.sameSessions_rfl rfl)
      (Or.inl rfl)
  | arrive r query now => exact .proceed (firstRead_blank _ _ _)
  | act r now mint => exact .act hready.2
  | revokeByOwner r sid account now =>
    refine .finish rfl rfl (Db.sameSessions_revoke rfl) ?_
    split_ifs <;> trivial

/-- What one event makes of a pairing, with what is answered about it. -/
inductive Pairing.Moved (s' : World Text Cipher) (p p' : Pairing) : Prop
  | same (hs : p'.status = p.status) (hf : p'.proofFailures = p.proofFailures)
  | failed (hopen : p.status = .pending ∨ p.status = .approved)
      (hs : p'.status = if 5 ≤ p'.proofFailures then .denied else p.status)
  | decided (hopen : p.status = .pending) (r : ℕ) (approve : Bool) (now : Int)
      (hnow : now < p.expiresAt) (hs : p'.status = if approve then .approved else .denied)
      (hf : p'.proofFailures = p.proofFailures) (ha : (r, .decided p.id approve now) ∈ s'.answers)
  | consumed (hopen : p.status = .approved) (hs : p'.status = .consumed)
      (hf : p'.proofFailures = p.proofFailures) (hx : ∃ x ∈ s'.db.sessions, x.pairingId = p.id)

/-- A pairing that is denied or consumed stays so. -/
theorem Pairing.Moved.final {p p' : Pairing} (h : p.Moved s' p')
    (hfinal : p.status = .denied ∨ p.status = .consumed) : p'.status = p.status := by
  cases h with
  | same hs hf => exact hs
  | failed hopen hs => rcases hfinal with hd | hd <;> simp [hd] at hopen
  | decided hopen r approve now hnow hs hf ha => rcases hfinal with hd | hd <;> simp [hd] at hopen
  | consumed hopen hs hf hx => rcases hfinal with hd | hd <;> simp [hd] at hopen

theorem Pairing.decide_id (approve : Bool) (account : String) (p : Pairing) :
    (p.decide approve account).id = p.id := by
  cases approve <;> rfl

/-- What one event makes of the pairings: each goes on, and what comes new is pending. -/
structure World.PairingsMove (s s' : World Text Cipher) : Prop where
  forward : ∀ p ∈ s.db.pairings, ∃ p' ∈ s'.db.pairings, p.Continues p' ∧ p.Moved s' p'
  back : ∀ p' ∈ s'.db.pairings, (p'.status = .pending ∧ p'.proofFailures = 0 ∧
    ∀ q ∈ s.db.pairings, q.id ≠ p'.id) ∨ ∃ p ∈ s.db.pairings, p.Continues p' ∧ p.Moved s' p'

theorem World.pairingsMove_same (hp : s'.db.pairings = s.db.pairings) : s.PairingsMove s' :=
  ⟨fun p hmem => ⟨p, hp ▸ hmem, .refl p, .same rfl rfl⟩,
    fun p hmem => Or.inr ⟨p, hp ▸ hmem, .refl p, .same rfl rfl⟩⟩

theorem World.pairingsMove_update {cond : Pairing → Bool} {f : Pairing → Pairing}
    (hf : ∀ p, (f p).id = p.id) (hp : s'.db.pairings = s.db.pairings.update cond f hf)
    (hmove : ∀ p ∈ s.db.pairings, cond p = true → p.Continues (f p) ∧ p.Moved s' (f p)) :
    s.PairingsMove s' := by
  have heach : ∀ p ∈ s.db.pairings, p.Continues (if cond p then f p else p) ∧
      p.Moved s' (if cond p then f p else p) := by
    intro p hmem
    cases hc : cond p with
    | false => exact ⟨.refl p, .same rfl rfl⟩
    | true => exact hmove p hmem hc
  refine ⟨fun p hmem => ?_, fun p' hmem => Or.inr ?_⟩
  · exact ⟨_, hp ▸ (Table.mem_update hf).2 ⟨p, hmem, rfl⟩, heach p hmem⟩
  · rw [hp] at hmem
    obtain ⟨p, hold, rfl⟩ := (Table.mem_update hf).1 hmem
    exact ⟨p, hold, heach p hold⟩

theorem Ledgered.pairingsMove (h : Ledgered K s s') : s.PairingsMove s' := by
  cases h with
  | kept hp hr hx ha => exact World.pairingsMove_same hp
  | replayed r pairing dev verifier t row x text hstage hrow htext hdb ha =>
    exact World.pairingsMove_same (by rw [hdb])
  | added p hpending hfailures hnew hp hr hx ha =>
    refine ⟨fun q hq => ⟨q, ?_, .refl q, .same rfl rfl⟩, fun q hq => ?_⟩
    · rw [hp]
      exact Table.mem_insert.2 (Or.inl hq)
    · rw [hp] at hq
      rcases Table.mem_insert.1 hq with hq | ⟨rfl, hkeys⟩
      · exact Or.inr ⟨q, hq, .refl q, .same rfl rfl⟩
      · exact Or.inl ⟨hpending, hfailures, hkeys⟩
  | polled cond f hf hsame hp hr hx ha =>
    exact World.pairingsMove_update hf hp fun p hmem hc =>
      ⟨(hsame p).1, .same (hsame p).2.1 (hsame p).2.2⟩
  | failed id next hp hr hx ha =>
    refine World.pairingsMove_update _ hp fun p hmem hc => ?_
    have hopen : p.status = .pending ∨ p.status = .approved := by
      simpa using (Bool.and_eq_true_iff.1 hc).2
    refine ⟨⟨rfl, rfl, rfl, rfl, fun hd => ?_⟩, .failed hopen rfl⟩
    simp [hd] at hopen
  | decided r id account approve now hdb ha =>
    have hp : s'.db.pairings = s.db.pairings.update (Pairing.decidable id now)
        (Pairing.decide approve account) (Pairing.decide_id approve account) := by
      rw [hdb]
      rfl
    refine World.pairingsMove_update _ hp fun p hmem hc => ?_
    have hdecidable : p.decidable id now = true := hc
    simp only [Pairing.decidable, Bool.and_eq_true, decide_eq_true_eq] at hc
    obtain ⟨⟨rfl, hpending⟩, hnow⟩ := hc
    have hcount : (s.db.decide p.id account approve now).2 = 1 :=
      Table.countP_eq_one hmem hdecidable fun q _ hq => by
        simp only [Pairing.decidable, Bool.and_eq_true, decide_eq_true_eq] at hq
        exact hq.1.1
    refine ⟨?_, .decided hpending r approve now hnow ?_ ?_ ?_⟩
    · cases approve <;> exact ⟨rfl, rfl, rfl, rfl, fun hd => by simp [hd] at hpending⟩
    · cases approve <;> rfl
    · cases approve <;> rfl
    · rw [ha, if_pos hcount]
      exact List.mem_append_right _ (List.mem_singleton.2 rfl)
  | created r p q dev verifier t mint hstage hfresh hq hissuable hnone hs hh hp hr ha =>
    refine World.pairingsMove_update _ hp fun w hmem hc => ?_
    simp only [Bool.and_eq_true, decide_eq_true_eq] at hc
    refine ⟨⟨rfl, rfl, rfl, rfl, fun hd => by simp [hd] at hc⟩, .consumed hc.2 rfl rfl ?_⟩
    have hqid : q.id = p.id := by
      simp only [Pairing.issuable, Bool.and_eq_true, decide_eq_true_eq] at hissuable
      exact hissuable.1.1.1
    refine ⟨q.session mint.sessionId (mint.hashes K) t, ?_, hqid.trans hc.1.symm⟩
    rw [hs]
    exact Table.mem_insert.2 (Or.inr ⟨rfl, Table.get?_eq_none.1 hfresh.2.2⟩)

/-- A retired hash is that of a session with one already, or the one its session had. -/
theorem history_origin (hb : s.Books K) (ho : Outcome K s e s') {row : Retired}
    (hrow : row ∈ s'.db.history) :
    (∃ old ∈ s.db.history, old.sessionId = row.sessionId) ∨
      ∃ x ∈ s.db.sessions, x.id = row.sessionId ∧ row.refreshHash = x.refreshHash := by
  have hkept (hh : s'.db.history = s.db.history) :
      ∃ old ∈ s.db.history, old.sessionId = row.sessionId := ⟨row, hh ▸ hrow, rfl⟩
  cases ho with
  | quiet hs hh => exact Or.inl (hkept hh)
  | revoked p now r a hs hh => exact Or.inl (hkept hh)
  | replayed r pairing dev verifier t old x text hstage hold htext hdb =>
    exact Or.inl (hkept (by rw [hdb]))
  | created r p q dev verifier t mint hstage hfresh hs hh => exact Or.inl (hkept hh)
  | rotated r token x t now mint he hstage hfresh =>
    rw [rotate_db] at hrow
    exact (Db.mem_rotate_history hb.sound (hb.unused hfresh) hrow).imp_left
      fun hold => ⟨row, hold, rfl⟩
  | recovered r token read x t now mint he hstage hfresh =>
    obtain ⟨-, hpos, -⟩ : (Stage.recover token read x t).Sane K s.db := hstage ▸ hb.sane r
    rw [recover_db] at hrow
    exact Db.mem_recover_history hb.sound (hb.unused hfresh) hpos hrow

/-- What a waiting exchange has checked. -/
def Stage.Proved (K : Primitives Text Cipher) (db : Db Cipher) : Stage → Prop
  | .issue p _ verifier _ => ∃ q ∈ db.pairings, q.id = p.id ∧
      q.deviceSecretChallenge = p.deviceSecretChallenge ∧ K.s256 verifier = q.codeChallenge
  | .recoverPairing pairing _ verifier _ proofValid => proofValid = true →
      ∃ q ∈ db.pairings, q.id = pairing ∧ K.s256 verifier = q.codeChallenge
  | _ => True

theorem Stage.Proved.move (hmove : s.PairingsMove s') {stage : Stage} (h : stage.Proved K s.db) :
    stage.Proved K s'.db := by
  cases stage with
  | issue p dev verifier t =>
    obtain ⟨q, hq, hid, hsecret, hproof⟩ := h
    obtain ⟨q', hq', hcont, -⟩ := hmove.forward q hq
    exact ⟨q', hq', hcont.id.trans hid, hcont.deviceSecretChallenge.trans hsecret,
      hproof.trans hcont.codeChallenge.symm⟩
  | recoverPairing pairing dev verifier t proofValid =>
    intro hvalid
    obtain ⟨q, hq, hid, hproof⟩ := h hvalid
    obtain ⟨q', hq', hcont, -⟩ := hmove.forward q hq
    exact ⟨q', hq', hcont.id.trans hid, hproof.trans hcont.codeChallenge.symm⟩
  | _ => trivial

theorem exchangeVerdict_proved {db : Db Cipher} {dev verifier : String} {now : Int} {p : Pairing}
    (hp : p ∈ db.pairings) : (exchangeVerdict K dev verifier now p).Meets (Stage.Proved K db) := by
  unfold exchangeVerdict
  refine .ite (fun hvalid => ⟨p, hp, rfl, by simpa using hvalid⟩) ?_
  iterate 3 refine .ite trivial ?_
  by_cases hproof : K.s256 verifier ≠ p.codeChallenge
  · rw [if_pos hproof]
    trivial
  · rw [if_neg hproof]
    exact .ite trivial (.ite trivial ⟨p, hp, rfl, rfl, not_not.1 hproof⟩)

theorem firstRead_proved {db : Db Cipher} {now : Int} (query : Query) :
    (firstRead K db now query).Meets (Stage.Proved K db) := by
  cases query with
  | refresh token secret =>
    simp only [firstRead]
    split_ifs
    · trivial
    · split <;> trivial
  | revokeCurrent token secret =>
    simp only [firstRead]
    split_ifs
    · trivial
    · split
      · split_ifs <;> trivial
      · trivial
  | exchange deviceCode verifier =>
    simp only [firstRead]
    split_ifs
    · trivial
    · split
      · trivial
      · rename_i p hp
        exact exchangeVerdict_proved (List.mem_of_find?_eq_some hp)
  | decide userCode account approve =>
    simp only [firstRead]
    split
    · trivial
    · split_ifs <;> trivial

theorem replayVerdict_proved {db : Db Cipher} {token secret : String} {row : Retired} {t : Int}
    {x : Option Session} : (replayVerdict K token secret row t x).Meets (Stage.Proved K db) := by
  cases x with
  | none => trivial
  | some x =>
    simp only [replayVerdict]
    split_ifs <;> trivial

theorem currentVerdict_proved {db : Db Cipher} {token secret : String} {now : Int}
    {x : Option Session} : (currentVerdict K token secret now x).Meets (Stage.Proved K db) := by
  cases x with
  | none => trivial
  | some x =>
    simp only [currentVerdict]
    split_ifs <;> trivial

theorem recoverVerdict_proved {db db' : Db Cipher} {pairing dev verifier : String} {t : Int}
    {proofValid : Bool} :
    (recoverVerdict K db pairing dev verifier t proofValid).Meets (Stage.Proved K db') := by
  unfold recoverVerdict
  split
  · trivial
  · split
    · trivial
    · split_ifs <;> trivial

theorem proved_next (h : ∀ r, (s.stages r).Proved K s.db) (hready : s.Ready K e) (r : ℕ) :
    ((s.next K e).stages r).Proved K (s.next K e).db := by
  refine Stage.Proved.move (next_ledgered hready).pairingsMove ?_
  refine stages_next h trivial hready (fun query now _ => firstRead_proved query)
    (fun _ _ _ _ _ _ => replayVerdict_proved) (fun _ _ _ _ _ _ => currentVerdict_proved)
    (fun _ _ _ _ _ => trivial) (fun r p dev verifier t now hr _ => ?_)
    (fun _ _ _ _ _ _ _ => recoverVerdict_proved) r
  obtain ⟨q, hq, hid, -, hproof⟩ : (Stage.issue p dev verifier t).Proved K s.db := hr ▸ h r
  exact ⟨q, hq, hid, hproof⟩

theorem World.SaysLittle.old (h : s.SaysLittle s') {a : Answer Text} (ha : ¬ a.Other)
    (hmem : (r, a) ∈ s'.answers) : (r, a) ∈ s.answers := by
  rcases h with hsame | ⟨r', b, hb, hmore⟩
  · exact hsame ▸ hmem
  · rw [hmore] at hmem
    rcases List.mem_append.1 hmem with hold | hnew
    · exact hold
    · obtain ⟨rfl, rfl⟩ := Prod.mk.inj (List.mem_singleton.1 hnew)
      exact absurd hb ha

theorem Ledgered.answers_subset (h : Ledgered K s s') : s.answers ⊆ s'.answers := by
  have hlittle (h : s.SaysLittle s') : s.answers ⊆ s'.answers := by
    rcases h with hsame | ⟨r, a, -, hmore⟩
    · rw [hsame]
      exact List.Subset.refl _
    · rw [hmore]
      exact List.subset_append_left _ _
  cases h with
  | kept hp hr hx ha | failed id next hp hr hx ha => exact hlittle ha
  | polled cond f hf hsame hp hr hx ha => exact hlittle ha
  | added p hpending hfailures hnew hp hr hx ha =>
    rw [ha]
    exact List.Subset.refl _
  | decided r id account approve now hdb ha =>
    rw [ha]
    exact List.subset_append_left _ _
  | replayed r pairing dev verifier t row x text hstage hrow htext hdb ha =>
    rw [ha]
    exact List.subset_append_left _ _
  | created r p q dev verifier t mint hstage hfresh hq hissuable hnone hs hh hp hr ha =>
    rw [ha]
    exact List.subset_append_left _ _

/-- A session was there, or it is new and the first of its pairing, which is now consumed. -/
theorem Ledgered.session_origin (h : Ledgered K s s') {y : Session} (hy : y ∈ s'.db.sessions) :
    (∃ x ∈ s.db.sessions, y.id = x.id ∧ y.pairingId = x.pairingId) ∨
      (∀ z ∈ s'.db.sessions, z.pairingId = y.pairingId → z.id = y.id) ∧
        ∃ p ∈ s'.db.pairings, p.id = y.pairingId ∧ p.status = .consumed := by
  have hold (hx : s'.db.sessions = s.db.sessions) :
      ∃ x ∈ s.db.sessions, y.id = x.id ∧ y.pairingId = x.pairingId := ⟨y, hx ▸ hy, rfl, rfl⟩
  cases h with
  | kept hp hr hx ha => exact Or.inl (hx y hy)
  | added p hpending hfailures hnew hp hr hx ha => exact Or.inl (hold hx)
  | polled cond f hf hsame hp hr hx ha => exact Or.inl (hold hx)
  | failed id next hp hr hx ha => exact Or.inl (hold hx)
  | decided r id account approve now hdb ha => exact Or.inl (hold (by rw [hdb]; rfl))
  | replayed r pairing dev verifier t row x text hstage hrow htext hdb ha =>
    exact Or.inl (hold (by rw [hdb]))
  | created r p q dev verifier t mint hstage hfresh hq hissuable hnone hs hh hp hr ha =>
    simp only [Pairing.issuable, Bool.and_eq_true, decide_eq_true_eq] at hissuable
    obtain ⟨⟨⟨hid, happroved⟩, -⟩, -⟩ := hissuable
    rw [hs] at hy ⊢
    rcases Table.mem_insert.1 hy with hmem | ⟨rfl, -⟩
    · exact Or.inl ⟨y, hmem, rfl, rfl⟩
    · refine Or.inr ⟨fun z hz hsame => ?_, { q with status := .consumed }, ?_, rfl, rfl⟩
      · rcases Table.mem_insert.1 hz with hmem | ⟨rfl, -⟩
        · exact absurd (hsame.trans hid) (hnone z hmem)
        · rfl
      · rw [hp]
        exact (Table.mem_update _).2 ⟨q, hq, by simp [hid, happroved]⟩

/-- The pairings that are approved, denied or consumed are so for a reason. -/
structure World.Settled (s : World Text Cipher) : Prop where
  known : ∀ x ∈ s.db.sessions, ∃ p ∈ s.db.pairings, p.id = x.pairingId ∧ p.status = .consumed
  single : ∀ x ∈ s.db.sessions, ∀ y ∈ s.db.sessions, x.pairingId = y.pairingId → x.id = y.id
  consumed : ∀ p ∈ s.db.pairings, p.status = .consumed → ∃ x ∈ s.db.sessions, x.pairingId = p.id
  approved : ∀ p ∈ s.db.pairings, p.status = .approved ∨ p.status = .consumed →
    ∃ r now, (r, .decided p.id true now) ∈ s.answers ∧ now < p.expiresAt
  failures : ∀ p ∈ s.db.pairings, 5 ≤ p.proofFailures → p.status = .denied
  denied : ∀ r id now, (r, .decided id false now) ∈ s.answers →
    ∃ p ∈ s.db.pairings, p.id = id ∧ p.status = .denied

theorem settled_initial : (World.initial : World Text Cipher).Settled where
  known := by simp [World.initial, Db.empty]
  single := by simp [World.initial, Db.empty]
  consumed := by simp [World.initial, Db.empty]
  approved := by simp [World.initial, Db.empty]
  failures := by simp [World.initial, Db.empty]
  denied := by simp [World.initial]

theorem World.Settled.next (h : s.Settled) (hl : Ledgered K s s') (hev : s.db.Evolves s'.db) :
    s'.Settled where
  known y hy := by
    rcases hl.session_origin hy with ⟨x, hx, -, hpairing⟩ | ⟨-, hp⟩
    · obtain ⟨p, hp, hid, hconsumed⟩ := h.known x hx
      obtain ⟨p', hp', hcont, hmoved⟩ := hl.pairingsMove.forward p hp
      exact ⟨p', hp', hcont.id.trans (hid.trans hpairing.symm),
        (hmoved.final (Or.inr hconsumed)).trans hconsumed⟩
    · exact hp
  single y hy z hz hsame := by
    rcases hl.session_origin hy with ⟨x, hx, hid, hpairing⟩ | ⟨hfirst, -⟩
    · rcases hl.session_origin hz with ⟨w, hw, hid', hpairing'⟩ | ⟨hfirst, -⟩
      · rw [hid, hid']
        exact h.single x hx w hw (by rw [← hpairing, ← hpairing', hsame])
      · exact hfirst y hy hsame
    · exact (hfirst z hz hsame.symm).symm
  consumed p' hp' hconsumed := by
    rcases hl.pairingsMove.back p' hp' with ⟨hpending, -⟩ | ⟨p, hp, hcont, hmoved⟩
    · simp [hpending] at hconsumed
    · rw [hcont.id]
      cases hmoved with
      | same hs hf =>
        obtain ⟨x, hx, hpairing⟩ := h.consumed p hp (hs.symm.trans hconsumed)
        obtain ⟨y, hy, hcont⟩ := hev.session x hx
        exact ⟨y, hy, hcont.pairingId.trans hpairing⟩
      | failed hopen hs =>
        rw [hs] at hconsumed
        split_ifs at hconsumed
        simp [hconsumed] at hopen
      | decided hopen r approve now hnow hs hf ha => cases approve <;> simp [hs] at hconsumed
      | consumed hopen hs hf hx => exact hx
  approved p' hp' hstatus := by
    rcases hl.pairingsMove.back p' hp' with ⟨hpending, -⟩ | ⟨p, hp, hcont, hmoved⟩
    · simp [hpending] at hstatus
    · rw [hcont.id, hcont.expiresAt]
      have hkeep (hstatus : p.status = .approved ∨ p.status = .consumed) :
          ∃ r now, (r, .decided p.id true now) ∈ s'.answers ∧ now < p.expiresAt := by
        obtain ⟨r, now, ha, hnow⟩ := h.approved p hp hstatus
        exact ⟨r, now, hl.answers_subset ha, hnow⟩
      cases hmoved with
      | same hs hf => exact hkeep (hs ▸ hstatus)
      | failed hopen hs =>
        rw [hs] at hstatus
        split_ifs at hstatus
        · simp at hstatus
        · exact hkeep hstatus
      | decided hopen r approve now hnow hs hf ha =>
        cases approve with
        | true => exact ⟨r, now, ha, hnow⟩
        | false => simp [hs] at hstatus
      | consumed hopen hs hf hx => exact hkeep (Or.inl hopen)
  failures p' hp' hfailures := by
    rcases hl.pairingsMove.back p' hp' with ⟨-, hzero, -⟩ | ⟨p, hp, -, hmoved⟩
    · omega
    · have hfinal (hf : p'.proofFailures = p.proofFailures) : p'.status = .denied := by
        have hdenied := h.failures p hp (hf ▸ hfailures)
        exact (hmoved.final (Or.inl hdenied)).trans hdenied
      cases hmoved with
      | same hs hf => exact hfinal hf
      | failed hopen hs => rw [hs, if_pos hfailures]
      | decided hopen r approve now hnow hs hf ha => exact hfinal hf
      | consumed hopen hs hf hx => exact hfinal hf
  denied r id now ha := by
    have hold (hmem : (r, .decided id false now) ∈ s.answers) :
        ∃ p ∈ s'.db.pairings, p.id = id ∧ p.status = .denied := by
      obtain ⟨p, hp, hid, hdenied⟩ := h.denied r id now hmem
      obtain ⟨p', hp', hcont, hmoved⟩ := hl.pairingsMove.forward p hp
      exact ⟨p', hp', hcont.id.trans hid, (hmoved.final (Or.inl hdenied)).trans hdenied⟩
    cases hl with
    | kept hp hr hx hlittle => exact hold (hlittle.old not_false ha)
    | added p hpending hfailures hnew hp hr hx hsame => exact hold (hsame ▸ ha)
    | polled cond f hf hsame hp hr hx hlittle => exact hold (hlittle.old not_false ha)
    | failed id' next hp hr hx hlittle => exact hold (hlittle.old not_false ha)
    | replayed r' pairing dev verifier t row x text hstage hrow htext hdb hmore =>
      rw [hmore] at ha
      exact hold (by simpa using ha)
    | created r' p q dev verifier t mint hstage hfresh hq hissuable hnone hs hh hp hr hmore =>
      rw [hmore] at ha
      exact hold (by simpa using ha)
    | decided r' id' account approve now' hdb hmore =>
      rw [hmore] at ha
      rcases List.mem_append.1 ha with hmem | hnew
      · exact hold hmem
      · obtain ⟨-, heq⟩ := Prod.mk.inj (List.mem_singleton.1 hnew)
        split_ifs at heq with hcount
        obtain ⟨rfl, rfl, rfl⟩ := Answer.decided.inj heq
        have hpos : 0 < s.db.pairings.rows.countP (Pairing.decidable id now) := by
          rw [show s.db.pairings.rows.countP (Pairing.decidable id now) = 1 from hcount]
          exact Nat.one_pos
        obtain ⟨p, hp, hdecidable⟩ := List.countP_pos_iff.1 hpos
        refine ⟨p.decide false account, ?_, ?_, rfl⟩
        · rw [hdb]
          exact (Table.mem_update (Pairing.decide_id false account)).2 ⟨p, hp, by rw [hdecidable]; rfl⟩
        · simp only [Pairing.decidable, Bool.and_eq_true, decide_eq_true_eq] at hdecidable
          exact hdecidable.1.1

/-- The body is that of the first pair of tokens of a session of the pairing, which the session
still has as long as no hash of it is retired. -/
def Db.Issued (K : Primitives Text Cipher) (db : Db Cipher) (pairing : String) (body : Text) :
    Prop :=
  ∃ response, body = K.stringify response ∧
    ∃ x ∈ db.sessions, x.id = response.sessionId ∧ x.pairingId = pairing ∧
      ((x.refreshHash = K.refreshHash response.refreshToken ∧
          ∀ row ∈ db.history, row.sessionId ≠ x.id) ∨
        ∃ row ∈ db.history, row.refreshHash = K.refreshHash response.refreshToken)

/-- What was answered to an exchange: one body for each pairing, which a recovery keeps. -/
structure World.Bodied (K : Primitives Text Cipher) (s : World Text Cipher) : Prop where
  owned : ∀ row ∈ s.db.history, ∃ x ∈ s.db.sessions, x.id = row.sessionId
  refreshed : ∀ r way token response, (r, .refreshed way token response) ∈ s.answers →
    ∃ row ∈ s.db.history, row.sessionId = response.sessionId
  proved : ∀ r pairing verifier replayed body,
    (r, .exchanged pairing verifier replayed body) ∈ s.answers →
      ∃ p ∈ s.db.pairings, p.id = pairing ∧ K.s256 verifier = p.codeChallenge
  issued : ∀ r pairing verifier replayed body,
    (r, .exchanged pairing verifier replayed body) ∈ s.answers → s.db.Issued K pairing body
  same : ∀ r r' pairing verifier verifier' replayed replayed' body body',
    (r, .exchanged pairing verifier replayed body) ∈ s.answers →
      (r', .exchanged pairing verifier' replayed' body') ∈ s.answers → body = body'
  kept : ∀ row ∈ s.db.recoveries, ∃ r verifier replayed body,
    (r, .exchanged row.pairingId verifier replayed body) ∈ s.answers ∧
      ∃ x ∈ s.db.sessions, x.id = row.sessionId ∧
        row.ciphertext = K.encrypt row.nonce
          ⟨row.pairingId, row.sessionId, row.deviceCodeHash, x.deviceSecretChallenge⟩ body

theorem bodied_initial : (World.initial : World Text Cipher).Bodied K where
  owned := by simp [World.initial, Db.empty]
  refreshed := by simp [World.initial]
  proved := by simp [World.initial]
  issued := by simp [World.initial]
  same := by simp [World.initial]
  kept := by simp [World.initial, Db.empty]

theorem Db.Issued.next (hb : s.Books K) (ho : Outcome K s e s') {pairing : String} {body : Text}
    (h : s.db.Issued K pairing body) : s'.db.Issued K pairing body := by
  obtain ⟨response, hbody, x, hx, hid, hpairing, hfirst⟩ := h
  have hev := evolves_next hb ho
  obtain ⟨y, hy, hcont⟩ := hev.session x hx
  refine ⟨response, hbody, y, hy, hcont.id.trans hid, hcont.pairingId.trans hpairing, ?_⟩
  rcases hfirst with ⟨hhash, hnone⟩ | ⟨row, hrow, hhash⟩
  · by_cases hany : ∃ row ∈ s'.db.history, row.sessionId = y.id
    · obtain ⟨row, hrow, hsid⟩ := hany
      rcases history_origin hb ho hrow with ⟨old, hold, hsame⟩ | ⟨z, hz, hzid, hrowHash⟩
      · exact absurd (hsame.trans (hsid.trans hcont.id)) (hnone old hold)
      · have hzx := Table.eq_of_key hz hx (hzid.trans (hsid.trans hcont.id))
        exact Or.inr ⟨row, hrow, by rw [hrowHash, hzx, hhash]⟩
    · rcases hcont.hash with hsame | ⟨row, hrow, hrowHash, -⟩
      · exact Or.inl ⟨hsame.trans hhash, fun row hrow hsid => hany ⟨row, hrow, hsid⟩⟩
      · exact Or.inr ⟨row, hrow, hrowHash.trans hhash⟩
  · obtain ⟨row', hrow', hcont'⟩ := hev.history row hrow
    exact Or.inr ⟨row', hrow', hcont'.refreshHash.trans hhash⟩

theorem owned_next (hb : s.Books K) (ho : Outcome K s e s')
    (h : ∀ row ∈ s.db.history, ∃ x ∈ s.db.sessions, x.id = row.sessionId) :
    ∀ row ∈ s'.db.history, ∃ x ∈ s'.db.sessions, x.id = row.sessionId := by
  intro row hrow
  have hlater {x : Session} (hx : x ∈ s.db.sessions) (hid : x.id = row.sessionId) :
      ∃ y ∈ s'.db.sessions, y.id = row.sessionId := by
    obtain ⟨y, hy, hcont⟩ := (evolves_next hb ho).session x hx
    exact ⟨y, hy, hcont.id.trans hid⟩
  rcases history_origin hb ho hrow with ⟨old, hold, hsame⟩ | ⟨x, hx, hid, -⟩
  · obtain ⟨x, hx, hid⟩ := h old hold
    exact hlater hx (hid.trans hsame)
  · exact hlater hx hid

theorem refreshed_next (hb : s.Books K) (ho : Outcome K s e s')
    (h : ∀ r way token response, (r, .refreshed way token response) ∈ s.answers →
      ∃ row ∈ s.db.history, row.sessionId = response.sessionId) :
    ∀ r way token response, (r, .refreshed way token response) ∈ s'.answers →
      ∃ row ∈ s'.db.history, row.sessionId = response.sessionId := by
  intro r way token response hmem
  have hev := evolves_next hb ho
  have hold (hmem : (r, .refreshed way token response) ∈ s.answers) :
      ∃ row ∈ s'.db.history, row.sessionId = response.sessionId := by
    obtain ⟨row, hrow, hsid⟩ := h r way token response hmem
    obtain ⟨row', hrow', hcont⟩ := hev.history row hrow
    exact ⟨row', hrow', hcont.sessionId.trans hsid⟩
  have hother {r' : ℕ} {a : Answer Text} (ha : s'.answers = s.answers ++ [(r', a)])
      (hne : a ≠ .refreshed way token response) :
      ∃ row ∈ s'.db.history, row.sessionId = response.sessionId := by
    rw [ha] at hmem
    rcases List.mem_append.1 hmem with hmem | hnew
    · exact hold hmem
    · exact absurd (Prod.mk.inj (List.mem_singleton.1 hnew)).2.symm hne
  cases ho with
  | quiet hs hh hd ha =>
    rcases ha with ha | ⟨r', a, he, hplain, ha⟩
    · exact hold (ha ▸ hmem)
    · exact hother ha hplain.not_refreshed
  | revoked p now r' a hs hh hd he hplain ha hends => exact hother ha hplain.not_refreshed
  | replayed r' pairing dev verifier t row x text hstage hrow htext hdb hd he ha =>
    exact hother ha nofun
  | created r' p q dev verifier t mint hstage hfresh hs hh hd he ha => exact hother ha nofun
  | rotated r' token' x t now mint he hstage hfresh =>
    rcases rotate_cases _ _ _ _ hb hfresh with ⟨-, ha⟩ | ⟨y, hy, hholds, hfree, hh, -, ha⟩
    · exact hother ha nofun
    · rw [ha] at hmem
      rcases List.mem_append.1 hmem with hmem | hnew
      · exact hold hmem
      · obtain ⟨-, -, rfl⟩ := Answer.refreshed.inj (Prod.mk.inj (List.mem_singleton.1 hnew)).2
        refine ⟨⟨K.refreshHash token', x.id, t⟩, ?_, rfl⟩
        rw [hh]
        exact Table.mem_insert.2 (Or.inr ⟨rfl, Table.get?_eq_none.1 hfree⟩)
  | recovered r' token' row x t now mint he hstage hfresh =>
    obtain ⟨-, -, -, hsid, row', hrow', hcont⟩ : (Stage.recover token' row x t).Sane K s.db :=
      hstage ▸ hb.sane r'
    cases recover_cases hb hfresh hstage with
    | spent hclaim hmoved hdb ha => exact hother ha nofun
    | collided y hy hholds hclaim hmoved hmarked hissued ha => exact hother ha nofun
    | lost hclaim hmarked hdb ha => exact hother ha nofun
    | committed y hy hclaim hmoved hholds hmark ha =>
      rw [ha] at hmem
      rcases List.mem_append.1 hmem with hmem | hnew
      · exact hold hmem
      · obtain ⟨-, -, rfl⟩ := Answer.refreshed.inj (Prod.mk.inj (List.mem_singleton.1 hnew)).2
        obtain ⟨row'', hrow'', hcont'⟩ := hev.history row' hrow'
        exact ⟨row'', hrow'', hcont'.sessionId.trans (hcont.sessionId.trans hsid)⟩

/-- At most one exchange is answered, with a verified proof and the one body of its pairing. -/
theorem exchanged_step (h : s.Bodied K) (hb : s.Books K) (hproved : ∀ r, (s.stages r).Proved K s.db)
    (ho : Outcome K s e s') (hl : Ledgered K s s') :
    (∀ r pairing verifier replayed body,
      (r, .exchanged pairing verifier replayed body) ∈ s'.answers →
        (r, .exchanged pairing verifier replayed body) ∈ s.answers) ∨
    ∃ r pairing verifier replayed body,
      s'.answers = s.answers ++ [(r, .exchanged pairing verifier replayed body)] ∧
      (∃ p ∈ s.db.pairings, p.id = pairing ∧ K.s256 verifier = p.codeChallenge) ∧
      s'.db.Issued K pairing body ∧
      ∀ r' verifier' replayed' body',
        (r', .exchanged pairing verifier' replayed' body') ∈ s.answers → body' = body := by
  cases hl with
  | kept hp hr hx ha => exact Or.inl fun r pairing verifier replayed body => ha.old not_false
  | polled cond f hf hsame hp hr hx ha =>
    exact Or.inl fun r pairing verifier replayed body => ha.old not_false
  | failed id next hp hr hx ha =>
    exact Or.inl fun r pairing verifier replayed body => ha.old not_false
  | added p hpending hfailures hnew hp hr hx ha =>
    exact Or.inl fun r pairing verifier replayed body hmem => ha ▸ hmem
  | decided r id account approve now hdb ha =>
    refine Or.inl fun r' pairing verifier replayed body hmem => ?_
    rw [ha] at hmem
    rcases List.mem_append.1 hmem with hold | hnew
    · exact hold
    · have heq := (Prod.mk.inj (List.mem_singleton.1 hnew)).2
      split_ifs at heq
  | replayed r pairing dev verifier t row x text hstage hrow htext hdb ha =>
    have hchecked : (Stage.recoverPairing pairing dev verifier t true).Proved K s.db :=
      hstage ▸ hproved r
    obtain ⟨hmem, hkey, hx, hid, hpairing, -, -, hdecrypt, -⟩ := recoveredText_spec hrow htext
    obtain ⟨r', verifier', replayed', body, hanswer, y, hy, hyid, hcipher⟩ := h.kept row hmem
    -- the row decrypts to the body that it keeps
    obtain rfl : y = x := Table.eq_of_key hy hx (hyid.trans hid.symm)
    rw [hcipher, K.decrypt_encrypt] at hdecrypt
    obtain rfl := Option.some.inj hdecrypt
    rw [hkey] at hanswer
    exact Or.inr ⟨r, pairing, verifier, true, body, ha, hchecked rfl,
      (h.issued _ _ _ _ _ hanswer).next hb ho,
      fun r'' verifier'' replayed'' body' hother => h.same _ _ _ _ _ _ _ _ _ hother hanswer⟩
  | created r p q dev verifier t mint hstage hfresh hq hissuable hnone hs hh hp hr ha =>
    obtain ⟨q', hq', hid, -, hproof⟩ : (Stage.issue p dev verifier t).Proved K s.db :=
      hstage ▸ hproved r
    simp only [Pairing.issuable, Bool.and_eq_true, decide_eq_true_eq] at hissuable
    refine Or.inr ⟨r, p.id, verifier, false, _, ha, ⟨q', hq', hid, hproof⟩,
      ⟨mint.exchangeResponse, rfl, q.session mint.sessionId (mint.hashes K) t, ?_, rfl,
        hissuable.1.1.1, Or.inl ⟨rfl, fun row hrow hsid => ?_⟩⟩, fun r' verifier' replayed' body' hmem => ?_⟩
    · rw [hs]
      exact Table.mem_insert.2 (Or.inr ⟨rfl, Table.get?_eq_none.1 hfresh.2.2⟩)
    · -- the id of the session is new, so no hash is retired under it
      obtain ⟨x, hx, hxid⟩ := h.owned row (hh ▸ hrow)
      exact Table.get?_eq_none.1 hfresh.2.2 x hx (hxid.trans hsid)
    · obtain ⟨response, -, x, hx, -, hpairing, -⟩ := h.issued _ _ _ _ _ hmem
      exact absurd hpairing (hnone x hx)

theorem kept_next (h : s.Bodied K) (hproved : ∀ r, (s.stages r).Proved K s.db)
    (hl : Ledgered K s s') (hev : s.db.Evolves s'.db) :
    ∀ row ∈ s'.db.recoveries, ∃ r verifier replayed body,
      (r, .exchanged row.pairingId verifier replayed body) ∈ s'.answers ∧
        ∃ x ∈ s'.db.sessions, x.id = row.sessionId ∧
          row.ciphertext = K.encrypt row.nonce
            ⟨row.pairingId, row.sessionId, row.deviceCodeHash, x.deviceSecretChallenge⟩ body := by
  intro row hrow
  have hold (hrow : row ∈ s.db.recoveries) : ∃ r verifier replayed body,
      (r, .exchanged row.pairingId verifier replayed body) ∈ s'.answers ∧
        ∃ x ∈ s'.db.sessions, x.id = row.sessionId ∧
          row.ciphertext = K.encrypt row.nonce
            ⟨row.pairingId, row.sessionId, row.deviceCodeHash, x.deviceSecretChallenge⟩ body := by
    obtain ⟨r, verifier, replayed, body, ha, x, hx, hid, hcipher⟩ := h.kept row hrow
    obtain ⟨y, hy, hcont⟩ := hev.session x hx
    refine ⟨r, verifier, replayed, body, hl.answers_subset ha, y, hy, hcont.id.trans hid, ?_⟩
    rw [hcont.deviceSecretChallenge]
    exact hcipher
  cases hl with
  | kept hp hr hx ha => exact hold (hr row hrow)
  | added p hpending hfailures hnew hp hr hx ha => exact hold (hr ▸ hrow)
  | polled cond f hf hsame hp hr hx ha => exact hold (hr ▸ hrow)
  | failed id next hp hr hx ha => exact hold (hr ▸ hrow)
  | decided r id account approve now hdb ha =>
    rw [hdb] at hrow
    exact hold hrow
  | replayed r pairing dev verifier t row' x text hstage hrow' htext hdb ha =>
    rw [hdb] at hrow
    exact hold hrow
  | created r p q dev verifier t mint hstage hfresh hq hissuable hnone hs hh hp hr ha =>
    rw [hr] at hrow
    rcases Table.mem_insert.1 hrow with hmem | ⟨rfl, -⟩
    · exact hold hmem
    · obtain ⟨q', hq', hid, hsecret, -⟩ : (Stage.issue p dev verifier t).Proved K s.db :=
        hstage ▸ hproved r
      simp only [Pairing.issuable, Bool.and_eq_true, decide_eq_true_eq] at hissuable
      obtain rfl : q' = q := Table.eq_of_key hq' hq (hid.trans hissuable.1.1.1.symm)
      refine ⟨r, verifier, false, K.stringify mint.exchangeResponse, ?_,
        q'.session mint.sessionId (mint.hashes K) t, ?_, rfl, ?_⟩
      · rw [ha]
        exact List.mem_append_right _ (List.mem_singleton.2 rfl)
      · rw [hs]
        exact Table.mem_insert.2 (Or.inr ⟨rfl, Table.get?_eq_none.1 hfresh.2.2⟩)
      · simp only [Mint.recovery, Pairing.session, hsecret]

theorem World.Bodied.next (h : s.Bodied K) (hb : s.Books K)
    (hproved : ∀ r, (s.stages r).Proved K s.db) (ho : Outcome K s e s') (hl : Ledgered K s s') :
    s'.Bodied K := by
  have hev := evolves_next hb ho
  have hlater {pairing verifier : String}
      (hp : ∃ p ∈ s.db.pairings, p.id = pairing ∧ K.s256 verifier = p.codeChallenge) :
      ∃ p ∈ s'.db.pairings, p.id = pairing ∧ K.s256 verifier = p.codeChallenge := by
    obtain ⟨p, hp, hid, hproof⟩ := hp
    obtain ⟨p', hp', hcont, -⟩ := hl.pairingsMove.forward p hp
    exact ⟨p', hp', hcont.id.trans hid, hproof.trans hcont.codeChallenge.symm⟩
  have howned := owned_next hb ho h.owned
  have hrefreshed := refreshed_next hb ho h.refreshed
  have hkept := kept_next h hproved hl hev
  rcases exchanged_step h hb hproved ho hl with
    hold | ⟨r₀, pairing₀, verifier₀, replayed₀, body₀, ha, hproof, hissued, hagree⟩
  · refine ⟨howned, hrefreshed, fun r pairing verifier replayed body hmem => ?_,
      fun r pairing verifier replayed body hmem => ?_,
      fun r r' pairing verifier verifier' replayed replayed' body body' hmem hmem' => ?_, hkept⟩
    · exact hlater (h.proved _ _ _ _ _ (hold _ _ _ _ _ hmem))
    · exact (h.issued _ _ _ _ _ (hold _ _ _ _ _ hmem)).next hb ho
    · exact h.same _ _ _ _ _ _ _ _ _ (hold _ _ _ _ _ hmem) (hold _ _ _ _ _ hmem')
  · have hcases {r : ℕ} {a : Answer Text} (hmem : (r, a) ∈ s'.answers) :
        (r, a) ∈ s.answers ∨ a = .exchanged pairing₀ verifier₀ replayed₀ body₀ := by
      rw [ha] at hmem
      exact (List.mem_append.1 hmem).imp_right fun hnew =>
        (Prod.mk.inj (List.mem_singleton.1 hnew)).2
    refine ⟨howned, hrefreshed, fun r pairing verifier replayed body hmem => ?_,
      fun r pairing verifier replayed body hmem => ?_,
      fun r r' pairing verifier verifier' replayed replayed' body body' hmem hmem' => ?_, hkept⟩
    · rcases hcases hmem with hmem | hnew
      · exact hlater (h.proved _ _ _ _ _ hmem)
      · obtain ⟨rfl, rfl, -, -⟩ := Answer.exchanged.inj hnew
        exact hlater hproof
    · rcases hcases hmem with hmem | hnew
      · exact (h.issued _ _ _ _ _ hmem).next hb ho
      · obtain ⟨rfl, -, -, rfl⟩ := Answer.exchanged.inj hnew
        exact hissued
    · rcases hcases hmem with hmem | hnew
      · rcases hcases hmem' with hmem' | hnew'
        · exact h.same _ _ _ _ _ _ _ _ _ hmem hmem'
        · obtain ⟨rfl, -, -, rfl⟩ := Answer.exchanged.inj hnew'
          exact hagree _ _ _ _ hmem
      · obtain ⟨rfl, -, -, rfl⟩ := Answer.exchanged.inj hnew
        rcases hcases hmem' with hmem' | hnew'
        · exact (hagree _ _ _ _ hmem').symm
        · exact (Answer.exchanged.inj hnew').2.2.2.symm

/-- The session was revoked, or its tokens were rotated. -/
def Db.Ended (db : Db Cipher) (x : Session) : Prop :=
  x.revokedAt.isSome = true ∨ ∃ row ∈ db.history, row.sessionId = x.id

/-- The answer gives out the tokens of an exchange of the pairing. -/
def Answer.Exchanges (pairing : String) : Answer Text → Prop
  | .exchanged id .. => id = pairing
  | _ => False

theorem Db.Ended.next {x : Session} (h : s.db.Ended x) (hev : s.db.Evolves s'.db)
    (hx : x ∈ s.db.sessions) : ∃ y ∈ s'.db.sessions, y.id = x.id ∧ y.pairingId = x.pairingId ∧
      s'.db.Ended y := by
  obtain ⟨y, hy, hcont⟩ := hev.session x hx
  refine ⟨y, hy, hcont.id, hcont.pairingId, ?_⟩
  rcases h with hrev | ⟨row, hrow, hsid⟩
  · exact Or.inl (hcont.revoked hrev).1
  · obtain ⟨row', hrow', hcont'⟩ := hev.history row hrow
    exact Or.inr ⟨row', hrow', hcont'.sessionId.trans (hsid.trans hcont.id.symm)⟩

/-- What an event that replays a body has found: the first tokens of a live session. -/
theorem not_ended_of_replay (h : s.Bodied K) (hb : s.Books K) (hsettled : s.Settled)
    {pairing dev : String} {t : Int} {row : Recovery Cipher} {x y : Session} {text : Text}
    (hrow : s.db.recoveryRow pairing = some (row, x))
    (htext : recoveredText K row x dev t = some text) (hy : y ∈ s.db.sessions)
    (hpairing : y.pairingId = pairing) : ¬ s.db.Ended y := by
  obtain ⟨hmem, hkey, hx, hid, hxpairing, -, hnone, hdecrypt, value, hparse, -, hhash⟩ :=
    recoveredText_spec hrow htext
  obtain ⟨r, verifier, replayed, body, hanswer, z, hz, hzid, hcipher⟩ := h.kept row hmem
  obtain rfl : z = x := Table.eq_of_key hz hx (hzid.trans hid.symm)
  rw [hcipher, K.decrypt_encrypt] at hdecrypt
  obtain rfl := Option.some.inj hdecrypt
  obtain rfl : y = z :=
    Table.eq_of_key hy hz (hsettled.single y hy z hz (hpairing.trans hxpairing.symm))
  obtain ⟨response, rfl, w, hw, hwid, hwpairing, hfirst⟩ := h.issued _ _ _ _ _ hanswer
  rw [K.parse_stringify] at hparse
  obtain rfl := Option.some.inj hparse
  obtain rfl : w = y := Table.eq_of_key hw hy
    (hsettled.single w hw y hy (hwpairing.trans (hkey.trans hpairing.symm)))
  rintro (hrev | ⟨old, hold, hsid⟩)
  · simp [hnone] at hrev
  · rcases hfirst with ⟨-, hfree⟩ | ⟨old', hold', hhash'⟩
    · exact hfree old hold hsid
    · exact hb.sound.current old' hold' w hw (hhash.symm.trans hhash'.symm)

theorem ended_step (h : s.Bodied K) (hb : s.Books K) (hsettled : s.Settled)
    (hl : Ledgered K s s') {x : Session} (hx : x ∈ s.db.sessions) (hend : s.db.Ended x) :
    ∃ later, s'.answers = s.answers ++ later ∧ ∀ a ∈ later, ¬ a.2.Exchanges x.pairingId := by
  have hone {r : ℕ} {a : Answer Text} (ha : s'.answers = s.answers ++ [(r, a)])
      (hnot : ¬ a.Exchanges x.pairingId) :
      ∃ later, s'.answers = s.answers ++ later ∧ ∀ a ∈ later, ¬ a.2.Exchanges x.pairingId :=
    ⟨_, ha, fun b hb => by rwa [List.mem_singleton.1 hb]⟩
  have hlittle (ha : s.SaysLittle s') :
      ∃ later, s'.answers = s.answers ++ later ∧ ∀ a ∈ later, ¬ a.2.Exchanges x.pairingId := by
    rcases ha with ha | ⟨r, a, hother, ha⟩
    · exact ⟨[], by simpa using ha, by simp⟩
    · refine hone ha fun hex => ?_
      cases a with
      | exchanged => exact hother
      | _ => exact hex
  cases hl with
  | kept hp hr hx' ha => exact hlittle ha
  | added p hpending hfailures hnew hp hr hx' ha => exact hlittle (Or.inl ha)
  | polled cond f hf hsame hp hr hx' ha => exact hlittle ha
  | failed id next hp hr hx' ha => exact hlittle ha
  | decided r id account approve now hdb ha =>
    refine hone ha ?_
    split_ifs <;> exact not_false
  | replayed r pairing dev verifier t row y text hstage hrow htext hdb ha =>
    exact hone ha fun hsame =>
      not_ended_of_replay h hb hsettled hrow htext hx (Eq.symm hsame) hend
  | created r p q dev verifier t mint hstage hfresh hq hissuable hnone hs hh hp hr ha =>
    exact hone ha fun hsame => hnone x hx (Eq.symm hsame)

/-- An event that replays a body has found the recovery not yet expired. -/
theorem unexpired_of_replay (hl : Ledgered K s s') {pairing verifier : String} {body : Text}
    (ha : s'.answers = s.answers ++ [(r, .exchanged pairing verifier true body)]) :
    ∃ dev now, s.stages r = .recoverPairing pairing dev verifier now true ∧
      ∃ row ∈ s.db.recoveries, row.pairingId = pairing ∧ now < row.expiresAt := by
  have hone {r' : ℕ} {a : Answer Text} (ha' : s'.answers = s.answers ++ [(r', a)]) :
      r' = r ∧ a = .exchanged pairing verifier true body := by
    have heq := List.append_cancel_left (ha'.symm.trans ha)
    exact Prod.mk.inj (List.singleton_inj.1 heq)
  have hnotLittle : ¬ s.SaysLittle s' := by
    rintro (hsame | ⟨r', a, hother, ha'⟩)
    · simpa using hsame.symm.trans ha
    · rw [(hone ha').2] at hother
      exact hother
  cases hl with
  | kept hp hr hx hlittle => exact absurd hlittle hnotLittle
  | added p hpending hfailures hnew hp hr hx hsame => exact absurd (Or.inl hsame) hnotLittle
  | polled cond f hf hsame hp hr hx hlittle => exact absurd hlittle hnotLittle
  | failed id next hp hr hx hlittle => exact absurd hlittle hnotLittle
  | decided r' id account approve now hdb ha' =>
    have heq := (hone ha').2
    split_ifs at heq
  | replayed r' pairing' dev verifier' t row x text hstage hrow htext hdb ha' =>
    obtain ⟨rfl, heq⟩ := hone ha'
    obtain ⟨rfl, rfl, -, -⟩ := Answer.exchanged.inj heq
    obtain ⟨hmem, hkey, -, -, -, hexpires, -⟩ := recoveredText_spec hrow htext
    exact ⟨dev, t, hstage, row, hmem, hkey, hexpires⟩
  | created r' p q dev verifier' t mint hstage hfresh hq hissuable hnone hs hh hp hr ha' =>
    have heq := (hone ha').2
    simp at heq

end Effects

section Issues

variable {Text Cipher : Type} {K : Primitives Text Cipher} {s t : World Text Cipher}
  {evs evs' : List Event}

open World (Step initial)

/-- The books, the pairings, the waiting exchanges and the bodies. -/
structure World.Issues (K : Primitives Text Cipher) (s : World Text Cipher) : Prop where
  books : s.Books K
  settled : s.Settled
  proved : ∀ r, (s.stages r).Proved K s.db
  bodied : s.Bodied K

theorem World.Issues.next {e : Event} (h : s.Issues K) (hready : s.Ready K e) :
    (s.next K e).Issues K where
  books := h.books.next hready
  settled := h.settled.next (next_ledgered hready) (evolves_next h.books (next_outcome hready))
  proved := proved_next h.proved hready
  bodied := h.bodied.next h.books h.proved (next_outcome hready) (next_ledgered hready)

theorem issues_of_run (h : Run (Step K) initial evs s) : s.Issues K := by
  refine h.invariant (I := World.Issues K) (fun u e u' hu hstep => ?_)
    ⟨books_initial, settled_initial, fun _ => trivial, bodied_initial⟩
  obtain ⟨hready, rfl⟩ := hstep
  exact hu.next hready

theorem run_final (h : Run (Step K) s evs t) {p : Pairing} (hp : p ∈ s.db.pairings)
    (hdenied : p.status = .denied) : ∃ p' ∈ t.db.pairings, p'.id = p.id ∧ p'.status = .denied := by
  induction h with
  | nil => exact ⟨p, hp, rfl, hdenied⟩
  | snoc hbefore hstep ih =>
    obtain ⟨q, hq, hid, hqd⟩ := ih
    obtain ⟨hready, rfl⟩ := hstep
    obtain ⟨p', hp', hcont, hmoved⟩ := (next_ledgered hready).pairingsMove.forward q hq
    exact ⟨p', hp', hcont.id.trans hid, (hmoved.final (Or.inl hqd)).trans hqd⟩

/-- Once a session has ended, no exchange of its pairing is answered. -/
theorem run_ended (h : Run (Step K) s evs t) (hs : s.Issues K) {x : Session}
    (hx : x ∈ s.db.sessions) (hend : s.db.Ended x) :
    (t.Issues K ∧ ∃ y ∈ t.db.sessions, y.pairingId = x.pairingId ∧ t.db.Ended y) ∧
      ∃ later, t.answers = s.answers ++ later ∧ ∀ a ∈ later, ¬ a.2.Exchanges x.pairingId := by
  induction h with
  | nil => exact ⟨⟨hs, x, hx, rfl, hend⟩, [], by simp, by simp⟩
  | snoc hbefore hstep ih =>
    obtain ⟨⟨hissues, y, hy, hpairing, hyend⟩, later, hlater, hnone⟩ := ih
    obtain ⟨hready, rfl⟩ := hstep
    have hev := evolves_next hissues.books (next_outcome hready)
    obtain ⟨z, hz, -, hzpairing, hzend⟩ := hyend.next hev hy
    obtain ⟨more, hmore, hnone'⟩ := ended_step hissues.bodied hissues.books hissues.settled
      (next_ledgered hready) hy hyend
    refine ⟨⟨hissues.next hready, z, hz, hzpairing.trans hpairing, hzend⟩, later ++ more, ?_, ?_⟩
    · rw [hmore, hlater, List.append_assoc]
    · intro a ha
      rcases List.mem_append.1 ha with hold | hnew
      · exact hnone a hold
      · exact hpairing ▸ hnone' a hnew

/-- A pairing issues one set of credentials: it has one session for ever, and has one exactly when
it is consumed; every exchange answers one body, on a valid proof and after an approval in time; a
denied pairing stays denied; and no exchange is answered once the session has ended, or from a
recovery that has expired. -/
theorem pairing_issues_once (h : Run (Step K) initial evs s) (h' : Run (Step K) s evs' t) :
    (∀ x ∈ s.db.sessions, ∀ y ∈ t.db.sessions, x.pairingId = y.pairingId → x.id = y.id) ∧
    (∀ p ∈ t.db.pairings, p.status = .consumed ↔ ∃ x ∈ t.db.sessions, x.pairingId = p.id) ∧
    (∀ r r' pairing verifier verifier' replayed replayed' body body',
      (r, .exchanged pairing verifier replayed body) ∈ t.answers →
        (r', .exchanged pairing verifier' replayed' body') ∈ t.answers → body = body') ∧
    (∀ r pairing verifier replayed body,
      (r, .exchanged pairing verifier replayed body) ∈ t.answers →
        ∃ p ∈ t.db.pairings, p.id = pairing ∧ K.s256 verifier = p.codeChallenge ∧
          ∃ r' now, (r', .decided pairing true now) ∈ t.answers ∧ now < p.expiresAt) ∧
    (∀ p ∈ s.db.pairings, (p.status = .denied ∨ 5 ≤ p.proofFailures ∨
        ∃ r now, (r, .decided p.id false now) ∈ s.answers) →
      ∃ p' ∈ t.db.pairings, p'.id = p.id ∧ p'.status = .denied) ∧
    (∀ x ∈ s.db.sessions, s.db.Ended x → ∃ later, t.answers = s.answers ++ later ∧
      ∀ a ∈ later, ¬ a.2.Exchanges x.pairingId) ∧
    ∀ e, t.Ready K e → ∀ r pairing verifier body,
      (t.next K e).answers = t.answers ++ [(r, .exchanged pairing verifier true body)] →
        ∃ dev now, t.stages r = .recoverPairing pairing dev verifier now true ∧
          ∃ row ∈ t.db.recoveries, row.pairingId = pairing ∧ now < row.expiresAt := by
  have hbefore := issues_of_run h
  have hafter := issues_of_run (h.append h')
  refine ⟨fun x hx y hy hsame => ?_, fun p hp => ⟨hafter.settled.consumed p hp, ?_⟩,
    hafter.bodied.same, fun r pairing verifier replayed body hmem => ?_, fun p hp hdenied => ?_,
    fun x hx hend => (run_ended h' hbefore hx hend).2,
    fun e hready r pairing verifier body ha => unexpired_of_replay (next_ledgered hready) ha⟩
  · obtain ⟨z, hz, hcont⟩ := (run_evolves h' hbefore.books).2.session x hx
    rw [← hcont.id]
    exact hafter.settled.single z hz y hy (hcont.pairingId.trans hsame)
  · rintro ⟨x, hx, hpairing⟩
    obtain ⟨q, hq, hid, hconsumed⟩ := hafter.settled.known x hx
    rwa [← Table.eq_of_key hq hp (hid.trans hpairing)]
  · obtain ⟨p, hp, rfl, hproof⟩ := hafter.bodied.proved _ _ _ _ _ hmem
    obtain ⟨-, -, x, hx, -, hpairing, -⟩ := hafter.bodied.issued _ _ _ _ _ hmem
    obtain ⟨q, hq, hid, hconsumed⟩ := hafter.settled.known x hx
    obtain rfl : q = p := Table.eq_of_key hq hp (hid.trans hpairing)
    exact ⟨q, hp, rfl, hproof, hafter.settled.approved q hp (Or.inr hconsumed)⟩
  · rcases hdenied with hdenied | hfailures | ⟨r, now, hmem⟩
    · exact run_final h' hp hdenied
    · exact run_final h' hp (hbefore.settled.failures p hp hfailures)
    · obtain ⟨q, hq, hid, hdenied⟩ := hbefore.settled.denied r p.id now hmem
      obtain rfl : q = p := Table.eq_of_key hq hp hid
      exact run_final h' hp hdenied

/-- Two exchanges of an approved pairing whose batches both follow their reads: the second one
fails and replays the first one's body. -/
def racing : List Event :=
  [.start "pairing" (word 'D') "code" (word 'v') (word 's') 1,
    .arrive 0 (.decide "code" "account" true) 2, .act 0 2 (sampleMint "x" '0' 0),
    .arrive 1 (.exchange (word 'D') (word 'v')) 3, .arrive 2 (.exchange (word 'D') (word 'v')) 3,
    .act 1 3 (sampleMint "session" 'a' 0), .act 2 3 (sampleMint "other" 'b' 0),
    .act 2 3 (sampleMint "other" 'c' 0)]

theorem pairing_issues_once_racing :
    ∃ s, Run (Step glass) initial racing s ∧
      (∃ p ∈ s.db.pairings, p.status = .consumed) ∧
      (∃ body, (1, .exchanged "pairing" (word 'v') false body) ∈ s.answers ∧
        (2, .exchanged "pairing" (word 'v') true body) ∈ s.answers) ∧
      ∀ x ∈ s.db.sessions, ∀ y ∈ s.db.sessions, x.pairingId = y.pairingId → x.id = y.id := by
  have hready : AllReady (World.Ready glass) (World.next glass) initial racing := by
    decide
  have hrun : Run (Step glass) initial racing _ := run_of_ready (fun _ _ h => ⟨h, rfl⟩) hready
  exact ⟨_, hrun, by decide, ⟨(sampleMint "session" 'a' 0).exchangeResponse,
    by decide, by decide⟩, (pairing_issues_once hrun Run.nil).1⟩

end Issues

end Desktop
end AgentParty
