import AgentParty.Cli.TaskLease

/-! One executor at a time holds the lease of a key, in every run in which no operation
changes a lease file between another's look at it and its own write or unlink. -/

namespace AgentParty
namespace TaskLease

theorem leasePath_injective {key key' : String} (h : leasePath key = leasePath key') : key = key' :=
  (String.append_left_inj ".json").1 h

theorem readLease_put (files : Files) (file : LeaseFile) (name : String) :
    readLease (files.put file) name =
      if name = file.name then file.lease else readLease files name := by
  rw [readLease, Table.get?_put]
  split_ifs <;> rfl

theorem readLease_delete (files : Files) (entry name : String) :
    readLease (files.delete fun file => file.name = entry) name =
      if name = entry then none else readLease files name := by
  rw [readLease, Table.get?_delete]
  split_ifs <;> rfl

namespace Machine

/-- The executor's own lease would end before it does now. -/
def shortens (options : AcquireTaskLeaseOptions) (executorId : ExecutorId)
    (existing : Option TaskLeaseHolder) : Bool :=
  existing.any fun holder =>
    holder.executorId = executorId && options.now + options.ttlMs < holder.expiresAt

/-- The lease that the next step of a call writes over or unlinks is as the call read it,
and a renewal is no shorter than the lease it renews. -/
def Unchanged (s : Machine) : Option Call → Prop
  | some (.acquireWrite options executorId existing) =>
    readLease s.files (leasePath options.key) = existing ∧
      shortens options executorId existing = false
  | some (.pruneUnlink _ _ entry holder _ _) => readLease s.files entry = holder
  | some (.releaseUnlink key _ existing) => readLease s.files (leasePath key) = existing
  | _ => True

instance (s : Machine) : (call : Option Call) → Decidable (s.Unchanged call)
  | some (.acquireWrite _ _ _) => inferInstanceAs (Decidable (_ ∧ _))
  | some (.pruneUnlink _ _ _ _ _ _) => inferInstanceAs (Decidable (_ = _))
  | some (.releaseUnlink _ _ _) => inferInstanceAs (Decidable (_ = _))
  | none | some (.acquireRead _ _) | some (.pruneList _ _) | some (.pruneRead _ _ _ _)
  | some (.releaseRead _ _) | some (.answered _) => inferInstanceAs (Decidable True)

/-- Nobody has changed what the event's step relies on. -/
def Undisturbed (s : Machine) : Event → Prop
  | .step id _ => s.Unchanged (s.calls id)
  | _ => True

instance (s : Machine) : (e : Event) → Decidable (s.Undisturbed e)
  | .step id _ => inferInstanceAs (Decidable (s.Unchanged (s.calls id)))
  | .tick _ | .acquireTaskLease _ _ | .releaseTaskLease _ _ _ | .pruneExpiredTaskLeases _ =>
    inferInstanceAs (Decidable True)

/-- What a call knows when it comes to its next step. -/
def Remembers (clock : Int) : Call → Prop
  | .acquireRead options _ => options.now ≤ clock
  | .acquireWrite options executorId existing =>
    options.now ≤ clock ∧ refused options executorId existing = false
  | .pruneList now _ | .pruneRead now _ _ _ => now ≤ clock
  | .pruneUnlink now _ _ holder _ _ =>
    now ≤ clock ∧ ∀ lease, holder = some lease → lease.expiresAt ≤ now
  | .releaseUnlink _ executorId existing => mine executorId existing = true
  | .releaseRead _ _ | .answered _ => True

/-- Every grant that has not expired is backed by its lease file. -/
def Backed (s : Machine) : Prop :=
  ∀ g ∈ s.grants, s.clock < g.expiresAt → ∃ holder,
    readLease s.files (leasePath g.key) = some holder ∧ holder.executorId = g.executorId ∧
      g.expiresAt ≤ holder.expiresAt

structure Orderly (s : Machine) : Prop where
  remembered : ∀ id call, s.calls id = some call → Remembers s.clock call
  backed : s.Backed

variable {s s' : Machine}

theorem Remembers.later {clock clock' : Int} {call : Call} (h : Remembers clock call)
    (hle : clock ≤ clock') : Remembers clock' call := by
  cases call with
  | acquireRead => exact Int.le_trans h hle
  | acquireWrite => exact ⟨Int.le_trans h.1 hle, h.2⟩
  | pruneList => exact Int.le_trans h hle
  | pruneRead => exact Int.le_trans h hle
  | pruneUnlink => exact ⟨Int.le_trans h.1 hle, h.2⟩
  | releaseUnlink => exact h
  | releaseRead => trivial
  | answered => trivial

/-- The call goes on; the files and the grants are those of an orderly state. -/
theorem Orderly.moveTo {id : ℕ} {call : Call} (h : Orderly s) (hb : s'.Backed)
    (hcalls : s'.calls = s.calls) (hclock : s'.clock = s.clock) (hc : Remembers s.clock call) :
    Orderly (s'.moveTo id call) where
  remembered := fun id' call' hcall => by
    change Remembers s'.clock call'
    rw [hclock]
    by_cases hid : id' = id
    · subst hid
      change Function.update s'.calls id' (some call) id' = _ at hcall
      rw [Function.update_self] at hcall
      exact Option.some.inj hcall ▸ hc
    · change Function.update s'.calls id (some call) id' = _ at hcall
      rw [Function.update_of_ne hid, hcalls] at hcall
      exact h.remembered id' call' hcall
  backed := hb

/-- A lease is written over none, an expired one, the executor's own, or by force. -/
theorem Backed.write {options : AcquireTaskLeaseOptions} {executorId : ExecutorId}
    {existing : Option TaskLeaseHolder} (hb : s.Backed) (hnow : options.now ≤ s.clock)
    (hread : readLease s.files (leasePath options.key) = existing)
    (hnot : refused options executorId existing = false)
    (hlong : shortens options executorId existing = false) :
    Backed ({ s with files := s.files.put ⟨leasePath options.key,
      some (grantedHolder options executorId existing)⟩ }.grant options executorId
        (options.now + options.ttlMs)) := by
  intro g hg hlive
  change s.clock < g.expiresAt at hlive
  change ∃ holder, readLease (s.files.put _) _ = some holder ∧ _
  rw [readLease_put]
  rcases List.mem_cons.1 hg with rfl | hg
  · exact ⟨_, if_pos rfl, rfl, Int.le_refl _⟩
  have hmem : g ∈ s.grants := by
    split_ifs at hg
    · exact (List.mem_filter.1 hg).1
    · exact hg
  obtain ⟨holder, hholder, hid, hle⟩ := hb g hmem hlive
  by_cases hkey : g.key = options.key
  · rw [hkey, hread] at hholder
    have hmine : g.executorId = executorId := by
      by_contra hne
      have hrefused : refused options executorId existing = true := by
        have hforce : options.force = false := by
          by_contra hforce
          rw [if_pos (by simpa using hforce)] at hg
          simpa [hkey, hne] using (List.mem_filter.1 hg).2
        have hl : options.now < holder.expiresAt := by omega
        simp [refused, hholder, live, mine, hid, hne, hforce, hl]
      rw [hnot] at hrefused
      cases hrefused
    refine ⟨_, if_pos (by rw [hkey]), hmine.symm, ?_⟩
    rw [hholder] at hlong
    have hlong : holder.expiresAt ≤ options.now + options.ttlMs := by
      simpa [shortens, hid, hmine] using hlong
    exact Int.le_trans hle hlong
  · exact ⟨holder, by rw [if_neg fun h => hkey (leasePath_injective h), hholder], hid, hle⟩

/-- An expired or unreadable file goes. -/
theorem Backed.prune {entry : String} {seen : Option TaskLeaseHolder} {now : Int} (hb : s.Backed)
    (hnow : now ≤ s.clock) (hread : readLease s.files entry = seen)
    (hold : ∀ holder, seen = some holder → holder.expiresAt ≤ now) : (s.unlink entry).Backed := by
  intro g hg hlive
  obtain ⟨holder, hholder, hid, hle⟩ := hb g hg hlive
  change s.clock < g.expiresAt at hlive
  refine ⟨holder, ?_, hid, hle⟩
  change readLease (s.files.delete _) _ = _
  rw [readLease_delete, if_neg, hholder]
  rintro rfl
  have hexpired := hold holder (hread.symm.trans hholder)
  omega

theorem Backed.release {key : String} {executorId : ExecutorId}
    {existing : Option TaskLeaseHolder} (hb : s.Backed)
    (hread : readLease s.files (leasePath key) = existing)
    (hmine : mine executorId existing = true) :
    ((s.unlink (leasePath key)).endGrants key executorId).Backed := by
  intro g hg hlive
  obtain ⟨hmem, hne⟩ := List.mem_filter.1 hg
  obtain ⟨holder, hholder, hid, hle⟩ := hb g hmem hlive
  refine ⟨holder, ?_, hid, hle⟩
  change readLease (s.files.delete _) _ = _
  rw [readLease_delete, if_neg, hholder]
  intro hpath
  obtain rfl := leasePath_injective hpath
  rw [← hread, hholder] at hmine
  simp [mine, hid] at hmine
  simp [hmine] at hne

/-- A step of a call that nobody disturbs. -/
theorem Orderly.advance {id : ℕ} {fails : Bool} {call : Call} (h : Orderly s)
    (hcall : s.calls id = some call) (hu : s.Undisturbed (.step id fails)) :
    Orderly (s.advance id fails call) := by
  have hr := h.remembered id call hcall
  rw [Undisturbed, hcall] at hu
  cases call with
  | acquireRead options executorId =>
    simp only [Machine.advance]
    split_ifs with hrefused
    · exact h.moveTo h.backed rfl rfl trivial
    · exact h.moveTo h.backed rfl rfl ⟨hr, by simpa using hrefused⟩
  | acquireWrite options executorId existing =>
    simp only [Machine.advance]
    split_ifs
    · exact h.moveTo h.backed rfl rfl trivial
    · exact h.moveTo (h.backed.write hr.1 hu.1 hr.2 hu.2) rfl rfl hr.1
  | pruneList now result =>
    simp only [Machine.advance]
    split_ifs
    · exact h.moveTo h.backed rfl rfl trivial
    · exact h.moveTo h.backed rfl rfl hr
  | pruneRead now result entries removed =>
    cases entries with
    | nil => exact h.moveTo h.backed rfl rfl trivial
    | cons entry entries =>
      simp only [Machine.advance]
      split_ifs with hlive
      · exact h.moveTo h.backed rfl rfl hr
      · refine h.moveTo h.backed rfl rfl ⟨hr, fun lease hlease => ?_⟩
        rw [hlease] at hlive
        simpa using hlive
  | pruneUnlink now result entry holder entries removed =>
    simp only [Machine.advance]
    split_ifs
    · exact h.moveTo h.backed rfl rfl hr.1
    · exact h.moveTo (h.backed.prune hr.1 hu hr.2) rfl rfl hr.1
  | releaseRead key executorId =>
    simp only [Machine.advance]
    split_ifs with hmine
    · exact h.moveTo h.backed rfl rfl hmine
    · exact h.moveTo h.backed rfl rfl trivial
  | releaseUnlink key executorId existing =>
    simp only [Machine.advance]
    split_ifs
    · exact h.moveTo h.backed rfl rfl trivial
    · exact h.moveTo (h.backed.release hu hr) rfl rfl trivial
  | answered answer => exact h

theorem Orderly.step {e : Event} (h : Orderly s)
    (hs : EventSystem.Guarded Step Undisturbed s e s') : Orderly s' := by
  obtain ⟨⟨hen, rfl⟩, hu⟩ := hs
  cases e with
  | tick ms =>
    refine ⟨fun id call hcall => (h.remembered id call hcall).later ?_, fun g hg hlive => ?_⟩
    · exact Int.le_add_of_nonneg_right (Int.natCast_nonneg ms)
    · refine h.backed g hg ?_
      change s.clock + ms < g.expiresAt at hlive
      omega
  | acquireTaskLease id options =>
    unfold next
    dsimp only
    split
    · exact h.moveTo h.backed rfl rfl trivial
    · exact h.moveTo h.backed rfl rfl (Int.le_of_eq hen.2)
  | releaseTaskLease id key executorId =>
    unfold next
    dsimp only
    split <;> exact h.moveTo h.backed rfl rfl trivial
  | pruneExpiredTaskLeases id => exact h.moveTo h.backed rfl rfl (Int.le_refl _)
  | step id fails =>
    unfold next
    dsimp only
    split
    · exact h
    · rename_i call hcall
      exact h.advance hcall hu

theorem initial_orderly (files : Files) (clock : Int) : Orderly (initial files clock) := by
  refine ⟨fun id call hcall => ?_, fun g hg => ?_⟩
  · cases hcall
  · cases hg

/-- Two executors with a grant of one key that has not expired. -/
def Contested (s : Machine) : Prop :=
  ∃ g ∈ s.grants, ∃ g' ∈ s.grants, g.key = g'.key ∧ g.executorId ≠ g'.executorId ∧
    s.clock < g.expiresAt ∧ s.clock < g'.expiresAt

theorem Orderly.not_contested (h : Orderly s) : ¬ s.Contested := by
  rintro ⟨g, hg, g', hg', hkey, hne, hlive, hlive'⟩
  obtain ⟨holder, hholder, hid, -⟩ := h.backed g hg hlive
  obtain ⟨holder', hholder', hid', -⟩ := h.backed g' hg' hlive'
  rw [hkey, hholder'] at hholder
  obtain rfl := Option.some.inj hholder
  exact hne (hid.symm.trans hid')

/-- The step of a call leaves the files alone, writes one, or unlinks one. -/
theorem advance_files (s : Machine) (id : ℕ) (fails : Bool) (call : Call) :
    (s.advance id fails call).files = s.files ∨
    (∃ file, (s.advance id fails call).files = s.files.put file ∧ file.lease.isSome) ∨
    ∃ name, (s.advance id fails call).files = s.files.delete (fun file => file.name = name) ∧
      ((∃ now result holder entries removed,
        call = .pruneUnlink now result name holder entries removed) ∨
      ∃ key executorId existing, name = leasePath key ∧
        call = .releaseUnlink key executorId existing) := by
  cases call with
  | acquireRead options executorId =>
    simp only [Machine.advance]
    split_ifs <;> exact Or.inl rfl
  | acquireWrite options executorId existing =>
    simp only [Machine.advance]
    split_ifs
    · exact Or.inl rfl
    · exact Or.inr (Or.inl ⟨_, rfl, rfl⟩)
  | pruneList now result =>
    simp only [Machine.advance]
    split_ifs <;> exact Or.inl rfl
  | pruneRead now result entries removed =>
    cases entries with
    | nil => exact Or.inl rfl
    | cons entry entries =>
      simp only [Machine.advance]
      split_ifs <;> exact Or.inl rfl
  | pruneUnlink now result entry holder entries removed =>
    simp only [Machine.advance]
    split_ifs
    · exact Or.inl rfl
    · exact Or.inr (Or.inr ⟨entry, rfl, Or.inl ⟨now, result, holder, entries, removed, rfl⟩⟩)
  | releaseRead key executorId =>
    simp only [Machine.advance]
    split_ifs <;> exact Or.inl rfl
  | releaseUnlink key executorId existing =>
    simp only [Machine.advance]
    split_ifs
    · exact Or.inl rfl
    · exact Or.inr (Or.inr ⟨_, rfl, Or.inr ⟨key, executorId, existing, rfl, rfl⟩⟩)
  | answered answer => exact Or.inl rfl

/-- A lease that has not expired only goes when its own executor releases it. -/
theorem Orderly.removes {id : ℕ} {fails : Bool} {name : String} {holder : TaskLeaseHolder}
    (h : Orderly s) (hu : s.Undisturbed (.step id fails))
    (hread : readLease s.files name = some holder) (hlive : s.clock < holder.expiresAt)
    (hgone : readLease (s.next (.step id fails)).files name = none) :
    ∃ key existing, name = leasePath key ∧
      s.calls id = some (.releaseUnlink key holder.executorId existing) := by
  unfold next at hgone
  dsimp only at hgone
  split at hgone
  · rw [hread] at hgone
    cases hgone
  rename_i call hcall
  have hr := h.remembered id call hcall
  rw [Undisturbed, hcall] at hu
  rcases advance_files s id fails call with he | ⟨file, he, hsome⟩ | ⟨entry, he, hc⟩
  · rw [he, hread] at hgone
    cases hgone
  · rw [he, readLease_put] at hgone
    split_ifs at hgone
    · rw [hgone] at hsome
      cases hsome
    · rw [hread] at hgone
      cases hgone
  · rw [he, readLease_delete] at hgone
    split_ifs at hgone with hname
    · subst hname
      rcases hc with ⟨now, result, seen, entries, removed, rfl⟩ | ⟨key, executorId, existing, rfl, rfl⟩
      · have hexpired := hr.2 holder (hu.symm.trans hread)
        have hle := hr.1
        omega
      · refine ⟨key, existing, rfl, ?_⟩
        rw [Remembers, ← show _ = existing from hu, hread] at hr
        rw [hcall, show holder.executorId = executorId by simpa [mine] using hr]
    · rw [hread] at hgone
      cases hgone

def runnerId : ExecutorId := ⟨"runner:claude:aaa", by decide⟩

def sessionId : ExecutorId := ⟨"session:claude:b", by decide⟩

/-- Either executor may work on task 7 for a minute from the start of the clock. -/
def claimOf (executorId : ExecutorId) : AcquireTaskLeaseOptions :=
  ⟨"king-task-7", "king", 7, some executorId, 60000, 0, false⟩

/-- One executor acquires before the other reads. -/
def inTurnEvents : List Event :=
  [.acquireTaskLease 1 (claimOf runnerId), .step 1 false, .step 1 false,
    .acquireTaskLease 2 (claimOf sessionId), .step 2 false]

/-- Both executors read the missing lease before either writes it. -/
def racingEvents : List Event :=
  [.acquireTaskLease 1 (claimOf runnerId), .acquireTaskLease 2 (claimOf sessionId),
    .step 1 false, .step 2 false, .step 1 false, .step 2 false]

end Machine
end TaskLease
end AgentParty
