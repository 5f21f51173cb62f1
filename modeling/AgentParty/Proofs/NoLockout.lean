import AgentParty.Proofs.OwnerBooks

/-! What a process that owes the room deliveries can count on, whatever is lost, late or
repeated and whenever it crashes: `Sound` is kept by every step of the process and of the
room. -/

namespace AgentParty
open Ledger
namespace RecoveryJournal

section Frames

variable {q : RecoverRequest} {f : DeliveryRecoverFrame}

theorem acceptable_uuid (u : Uuid) : acceptable u.val = true := by
  have := u.length_eq
  simp [acceptable, u.val_ne, this]

theorem acceptable_ne {value : String} (h : acceptable value = true) : value ≠ "" := by
  simp only [acceptable, Bool.and_eq_true, decide_eq_true_eq] at h
  simpa using h.1

/-- The room reads a request as it was built. -/
structure Reads (q : RecoverRequest) (f : DeliveryRecoverFrame) : Prop where
  deliveryId : f.deliveryId = q.deliveryId
  attempt : f.attempt = q.attempt
  leaseEpoch : f.leaseEpoch = q.leaseEpoch
  leaseToken : f.leaseToken = q.leaseToken
  nextLeaseToken : f.nextLeaseToken = q.nextLeaseToken

theorem reads_of_parse (h : parseDeliveryRecoverFrame q = some f) : Reads q f := by
  unfold parseDeliveryRecoverFrame at h
  split_ifs at h
  obtain rfl := Option.some.inj h
  exact ⟨rfl, rfl, rfl, rfl, rfl⟩

theorem parse_isSome (hid : acceptable q.deliveryId = true) (hrequest : acceptable q.requestId = true)
    (hattempt : 0 < q.attempt) (hepoch : 0 < q.leaseEpoch) (htoken : acceptable q.leaseToken = true)
    (hnext : acceptable q.nextLeaseToken = true) (hne : q.leaseToken ≠ q.nextLeaseToken) :
    (parseDeliveryRecoverFrame q).isSome = true := by
  unfold parseDeliveryRecoverFrame
  rw [dif_pos ⟨acceptable_ne hid, hattempt, hepoch, acceptable_ne htoken, acceptable_ne hnext, hne⟩,
    if_pos (by simp [hid, hrequest, htoken, hnext])]
  rfl

end Frames
namespace Owner

def holding (s : Owner) (a : Assignment) : Holding where
  disk := copyAt s.file a
  memory := s.memory.bind (copyAt · a)
  asked := askedAt s.asked a
  served := servedAt s.answers a

/-- A received assignment: the process and the room agree on its tokens. -/
structure Assigned (s : Owner) (a : Assignment) : Prop where
  minted : a.1 ∈ s.room.minted
  attempt_pos : 0 < a.2.1
  leaseEpoch_pos : 0 < a.2.2
  handedOver : HandedOver a s.tokens (s.holding a) s.room.ledger

/-- A claim that has been sent. -/
structure Claimed (s : Owner) (a : Assignment) (token : String) : Prop where
  minted : a.1 ∈ s.room.minted
  attempt_pos : 0 < a.2.1
  leaseEpoch_pos : 0 < a.2.2
  acceptable : acceptable token = true
  stands : a ∉ s.received → token ∉ s.foreign → ClaimStands a token s.room.ledger

structure Asked (s : Owner) (q : RecoverRequest) : Prop where
  received : q.assignment ∈ s.received
  next_mem : q.nextLeaseToken ∈ s.tokens
  parsed : (parseDeliveryRecoverFrame q).isSome = true

/-- A `recovered` answer is that to a request, and tells of its next token. -/
structure Answers (q : RecoverRequest) (frame : RecoveryResultFrame) : Prop where
  requestId : frame.requestId = q.requestId
  assignment : frame.assignment = q.assignment
  leaseToken : frame.leaseToken = some q.nextLeaseToken
  leaseUntil : frame.leaseUntil.isSome = true

structure Books (s : Owner) : Prop where
  file : ∀ e ∈ s.file, IsFiled s.received s.tokens e
  memory : ∀ entries, s.memory = some entries → ∀ e ∈ entries, IsFiled s.received s.tokens e
  asked : ∀ q ∈ s.asked, s.Asked q
  requestIds : (s.asked.map (·.requestId)).Nodup
  answers : ∀ frame ∈ s.answers, frame.result = .recovered → ∃ q ∈ s.asked, Answers q frame
  latest : ∀ id q, s.latest id = some q → q ∈ s.asked ∧ q.deliveryId = id ∧
    ∃ entries, s.memory = some entries ∧
      copyAt entries q.assignment = some (q.leaseToken, some q.nextLeaseToken)

structure Sound (s : Owner) : Prop where
  room : s.room.Sound
  leased : LeaseEnds s.room.ledger
  minted : ∀ u ∈ s.room.minted, acceptable u = true
  claims : ∀ frame ∈ s.room.sockets.sent, ∀ id attempt leaseEpoch token,
    frame.2 = .delivery id attempt leaseEpoch (some token) →
      s.Claimed (id, attempt, leaseEpoch) token
  received : ∀ a ∈ s.received, s.Assigned a
  books : s.Books

theorem initial_sound : initial.Sound where
  room := Room.initial_sound
  leased := fun r hr => absurd hr (Table.not_mem_empty r)
  minted := nofun
  claims := nofun
  received := nofun
  books :=
    { file := fun e he => absurd he (Table.not_mem_empty e)
      memory := by
        rintro entries ⟨rfl⟩ e he
        exact absurd he (Table.not_mem_empty e)
      asked := nofun
      requestIds := List.nodup_nil
      answers := nofun
      latest := nofun }

section RoomSteps

variable {s : Owner} {e : Event} {room' : Room}

theorem mints_acceptable (e : Event) : ∀ u ∈ Room.mints e, acceptable u = true := by
  intro u hu
  have hval : ∃ v : Uuid, u = v.val := by
    cases e with
    | send c =>
      simp only [Room.mints, List.mem_append, List.mem_flatMap, List.mem_cons,
        List.not_mem_nil, or_false] at hu
      rcases hu with ⟨question, -, rfl | rfl⟩ | ⟨target, -, rfl | rfl | rfl⟩ <;> exact ⟨_, rfl⟩
    | stage seq edited targets now =>
      simp only [Room.mints, List.mem_flatMap, List.mem_cons, List.not_mem_nil, or_false] at hu
      obtain ⟨target, -, rfl | rfl | rfl⟩ := hu <;> exact ⟨_, rfl⟩
    | respond a =>
      simp only [Room.mints, List.mem_cons, List.not_mem_nil, or_false] at hu
      rcases hu with rfl | rfl | rfl <;> exact ⟨_, rfl⟩
    | dispatchPrincipal targetName isCurrent token now =>
      exact ⟨token, List.mem_singleton.1 hu⟩
    | _ => cases hu
  obtain ⟨v, rfl⟩ := hval
  exact acceptable_uuid v

theorem mem_servedAt {answers : List RecoveryResultFrame} {a : Assignment} {y : String} :
    y ∈ servedAt answers a ↔ ∃ frame ∈ answers, frame.result = .recovered ∧
      frame.assignment = a ∧ frame.leaseToken = some y := by
  simp [servedAt, and_assoc]

/-- The room goes on: at a frame of the process, or at what others do with other tokens.
What it answers is true of the row. -/
theorem Sound.afterRoom {foreign : List String} {new : List RecoveryResultFrame} (h : s.Sound)
    (hs : Room.Step s.room e room')
    (hframe : ∀ f, Room.recoverFrame e = some f →
      ((∀ t ∈ s.tokens, f.presents t = false) ∧ ∀ t, f.presents t = true → t ∈ foreign) ∨
        ∃ q ∈ s.asked, parseDeliveryRecoverFrame q = some f)
    (hforeign : s.foreign ⊆ foreign)
    (hnew : ∀ frame ∈ new, frame.result = .recovered → (∃ q ∈ s.asked, Answers q frame) ∧
      ∀ row ∈ room'.ledger.deliveries, row.id = frame.deliveryId → row.attempt = frame.attempt →
        row.leaseToken = frame.leaseToken) :
    Sound { s with room := room', foreign := foreign, answers := new ++ s.answers } := by
  have hroom := h.room.step hs
  have hminted : ∀ id ∈ s.room.minted, id ∈ room'.minted := by
    intro id hid
    rw [hs.2]
    exact List.mem_append_left _ hid
  have hclaimed : ∀ {a token}, s.Claimed a token →
      Claimed { s with room := room', foreign := foreign, answers := new ++ s.answers } a token := by
    intro a token hc
    refine ⟨hminted _ hc.minted, hc.attempt_pos, hc.leaseEpoch_pos, hc.acceptable,
      fun hreceived hother => ?_⟩
    refine (hc.stands hreceived fun hmem => hother (hforeign hmem)).step h.room hc.minted hs ?_
    intro f hf hconcerns
    rcases hframe f hf with ⟨-, hpresents⟩ | ⟨q, hq, hparse⟩
    · by_contra hne
      exact hother (hpresents token (by simpa using hne))
    · refine absurd ?_ hreceived
      have hreads := reads_of_parse hparse
      have := (h.books.asked q hq).received
      rwa [show q.assignment = a from Prod.ext (hreads.deliveryId.symm.trans hconcerns.1)
        (Prod.ext (hreads.attempt.symm.trans hconcerns.2.1)
          (hreads.leaseEpoch.symm.trans hconcerns.2.2))] at this
  constructor
  case room => exact hroom
  case leased => exact Room.step_leaseEnds h.room h.leased hs
  case minted =>
    rw [hs.2]
    intro u hu
    exact (List.mem_append.1 hu).elim (h.minted u) (mints_acceptable e u)
  case claims =>
    intro frame hframe' id attempt leaseEpoch token heq
    have hsent : frame ∈ (s.room.apply e).sockets.sent := by
      rw [hs.2] at hframe'
      exact hframe'
    rcases Room.apply_sends e hsent with hold | ⟨name, held, hlease⟩ | ⟨v, -, row, hrow, htells⟩
    · exact hclaimed (h.claims frame hold id attempt leaseEpoch token heq)
    · rw [heq] at hlease
      cases hlease
    · obtain ⟨hdelivery, htoken, hattempt, hepoch⟩ := htells
      rw [heq, ServerFrame.delivery.injEq] at hdelivery
      obtain ⟨rfl, rfl, rfl, htok⟩ := hdelivery
      have hrow' : row ∈ room'.ledger.deliveries := by
        rw [hs.2]
        exact hrow
      refine ⟨hroom.known _ (Or.inl ⟨row, hrow', Or.inl rfl⟩), hattempt, hepoch, ?_, ?_⟩
      · rw [htoken token htok.symm]
        exact acceptable_uuid v
      · intro _ _ row₁ hrow₁ hid₁
        rw [Table.eq_of_key hrow₁ hrow' hid₁]
        exact ⟨le_rfl, fun _ => ⟨rfl, htok.symm⟩⟩
  case received =>
    intro a ha
    obtain ⟨hmem, hattempt, hepoch, hhanded⟩ := h.received a ha
    refine ⟨hminted _ hmem, hattempt, hepoch, hhanded.step h.room hmem hs ?_ ?_⟩
    · intro f hf hconcerns
      rcases hframe f hf with ⟨hother, -⟩ | ⟨q, hq, hparse⟩
      · exact Or.inl hother
      · have hreads := reads_of_parse hparse
        rw [hreads.leaseToken, hreads.nextLeaseToken]
        refine Or.inr ⟨?_, (h.books.asked q hq).next_mem⟩
        refine List.mem_map.2 ⟨q, List.mem_filter.2 ⟨hq, decide_eq_true ?_⟩, rfl⟩
        exact Prod.ext (hreads.deliveryId.symm.trans hconcerns.1)
          (Prod.ext (hreads.attempt.symm.trans hconcerns.2.1)
            (hreads.leaseEpoch.symm.trans hconcerns.2.2))
    · intro y hy
      obtain ⟨frame, hframe', hresult, hassignment, hy⟩ := mem_servedAt.1 hy
      rcases List.mem_append.1 hframe' with hframe' | hframe'
      · refine Or.inr fun row hrow hid hat => ?_
        rw [← hassignment] at hid hat
        rw [(hnew frame hframe' hresult).2 row hrow hid hat, hy]
      · exact Or.inl (mem_servedAt.2 ⟨frame, hframe', hresult, hassignment, hy⟩)
  case books =>
    refine ⟨h.books.file, h.books.memory, fun q hq => ?_, h.books.requestIds, ?_, h.books.latest⟩
    · obtain ⟨hreceived, hnext, hparsed⟩ := h.books.asked q hq
      exact ⟨hreceived, hnext, hparsed⟩
    · intro frame hframe' hresult
      rcases List.mem_append.1 hframe' with hframe' | hframe'
      · exact (hnew frame hframe' hresult).1
      · exact h.books.answers frame hframe' hresult

end RoomSteps

section OwnSteps

variable {s s' : Owner}

/-- The process by itself: the room stays, the books are kept, and each copy of a token goes
as the protocol of the handover lets it. -/
theorem Sound.goes (h : s.Sound) (hroom : s'.room = s.room) (hforeign : s'.foreign = s.foreign)
    (hreceived : s.received ⊆ s'.received) (htokens : s.tokens ⊆ s'.tokens)
    (hanswers : s'.answers = s.answers) (hbooks : s'.Books)
    (hnew : ∀ a ∈ s'.received, a ∉ s.received → s'.Assigned a)
    (hgoes : ∀ a ∈ s.received, ∀ current spent, current ∈ s.tokens → (∀ t ∈ spent, t ∈ s.tokens) →
      (∀ y ∈ servedAt s.answers a, y = current ∨ y ∈ spent) →
      Handover.Aligned current spent (copyAt s.file a) (s.memory.bind (copyAt · a))
        (askedAt s.asked a) →
      Handover.Aligned current spent (copyAt s'.file a) (s'.memory.bind (copyAt · a))
        (askedAt s'.asked a)) : s'.Sound := by
  constructor
  case room => rw [hroom]; exact h.room
  case leased => rw [hroom]; exact h.leased
  case minted => rw [hroom]; exact h.minted
  case claims =>
    intro frame hframe id attempt leaseEpoch token heq
    rw [hroom] at hframe
    obtain ⟨hminted, hattempt, hepoch, hok, hstands⟩ :=
      h.claims frame hframe id attempt leaseEpoch token heq
    refine ⟨by rwa [hroom], hattempt, hepoch, hok, fun hnot hother => ?_⟩
    rw [hroom]
    exact hstands (fun hmem => hnot (hreceived hmem)) (hforeign ▸ hother)
  case received =>
    intro a ha
    by_cases hold : a ∈ s.received
    · obtain ⟨hminted, hattempt, hepoch, hhanded⟩ := h.received a hold
      refine ⟨by rwa [hroom], hattempt, hepoch, ?_⟩
      rw [hroom]
      refine hhanded.goes htokens (congrArg (servedAt · a) hanswers) ?_
      exact fun current spent => hgoes a hold current spent
    · exact hnew a ha hold
  case books => exact hbooks

theorem Sound.crash (h : s.Sound) : Sound { s with memory := none, latest := fun _ => none } := by
  refine h.goes rfl rfl (List.Subset.refl _) (List.Subset.refl _) rfl ?_
    (fun a ha hnot => absurd ha hnot) fun a _ current spent _ _ _ haligned => haligned.crash
  refine ⟨h.books.file, nofun, fun q hq => ?_, h.books.requestIds, h.books.answers, nofun⟩
  obtain ⟨hreceived, hnext, hparsed⟩ := h.books.asked q hq
  exact ⟨hreceived, hnext, hparsed⟩

theorem load_eq_some {file entries : Entries} (h : load file = some entries) : entries = file := by
  unfold load at h
  split_ifs at h
  exact (Option.some.inj h).symm

theorem Sound.restart (h : s.Sound) (hmemory : s.memory = none) :
    Sound { s with memory := load s.file } := by
  have hloaded : ∀ entries, load s.file = some entries → entries = s.file := fun _ => load_eq_some
  refine h.goes rfl rfl (List.Subset.refl _) (List.Subset.refl _) rfl ?_
    (fun a ha hnot => absurd ha hnot) fun a _ current spent _ _ _ haligned => ?_
  · refine ⟨h.books.file, fun entries hentries => ?_, fun q hq => ?_, h.books.requestIds,
      h.books.answers, fun id q hq => ?_⟩
    · rw [hloaded entries hentries]
      exact h.books.file
    · obtain ⟨hreceived, hnext, hparsed⟩ := h.books.asked q hq
      exact ⟨hreceived, hnext, hparsed⟩
    · obtain ⟨-, -, entries, hentries, -⟩ := h.books.latest id q hq
      rw [hmemory] at hentries
      cases hentries
  · change Handover.Aligned current spent (copyAt s.file a) ((load s.file).bind (copyAt · a)) _
    cases hload : load s.file with
    | none => exact haligned.crash
    | some entries =>
      rw [hloaded entries hload]
      exact haligned.load

section Operations

variable {entries : Entries} {j : Journal} {received : List Assignment} {tokens : List String}
  {asked : List RecoverRequest} {latest : String → Option RecoverRequest}

theorem Sound.filed (h : s.Sound) (hmemory : s.memory = some entries) :
    Journal.All (IsFiled s.received s.tokens) ⟨entries, s.file⟩ :=
  ⟨h.books.file, h.books.memory entries hmemory⟩

theorem Sound.latest_copy (h : s.Sound) (hmemory : s.memory = some entries) {id : String}
    {q : RecoverRequest} (hq : s.latest id = some q) : q ∈ s.asked ∧ q.deliveryId = id ∧
      copyAt entries q.assignment = some (q.leaseToken, some q.nextLeaseToken) := by
  obtain ⟨hasked, hid, entries', hentries, hcopy⟩ := h.books.latest id q hq
  rw [hmemory] at hentries
  exact ⟨hasked, hid, Option.some.inj hentries ▸ hcopy⟩

/-- An operation of the journal that reads nothing from the room. -/
theorem Sound.operates (h : s.Sound) (hmemory : s.memory = some entries)
    (htokens : s.tokens ⊆ tokens) (hfiled : j.All (IsFiled s.received tokens))
    (hasked : ∀ q ∈ asked, Asked { s with tokens := tokens } q)
    (hsub : s.asked ⊆ asked) (hids : (asked.map (·.requestId)).Nodup)
    (hlatest : ∀ id q, latest id = some q → q ∈ asked ∧ q.deliveryId = id ∧
      copyAt j.entriesById q.assignment = some (q.leaseToken, some q.nextLeaseToken))
    (hgoes : ∀ a ∈ s.received, ∀ current spent, current ∈ s.tokens → (∀ t ∈ spent, t ∈ s.tokens) →
      (∀ y ∈ servedAt s.answers a, y = current ∨ y ∈ spent) →
      Stands current spent ⟨entries, s.file⟩ a (askedAt s.asked a) →
      Stands current spent j a (askedAt asked a)) :
    Sound { s with
      file := j.file, memory := some j.entriesById, tokens := tokens, asked := asked,
      latest := latest } := by
  refine h.goes rfl rfl (List.Subset.refl _) htokens rfl ?_ (fun a ha hnot => absurd ha hnot) ?_
  · refine ⟨hfiled.1, ?_, fun q hq => ?_, hids, fun frame hframe hresult => ?_, fun id q hq => ?_⟩
    · rintro _ ⟨rfl⟩
      exact hfiled.2
    · obtain ⟨hreceived, hnext, hparsed⟩ := hasked q hq
      exact ⟨hreceived, hnext, hparsed⟩
    · obtain ⟨q, hq, hanswer⟩ := h.books.answers frame hframe hresult
      exact ⟨q, hsub hq, hanswer⟩
    · obtain ⟨hq, hid, hcopy⟩ := hlatest id q hq
      exact ⟨hq, hid, _, rfl, hcopy⟩
  · intro a ha current spent hcurrent hspent hserved haligned
    rw [hmemory] at haligned
    exact hgoes a ha current spent hcurrent hspent hserved haligned

theorem Sound.update (h : s.Sound) (hmemory : s.memory = some entries) (deliveryId : String)
    (patch : Patch) (now : Int) (c : Commit) :
    Sound (s.withJournal (update ⟨entries, s.file⟩ deliveryId patch now c).1) := by
  refine h.operates hmemory (List.Subset.refl _) ((h.filed hmemory).update deliveryId patch now)
    h.books.asked (List.Subset.refl _) h.books.requestIds (fun id q hq => ?_)
    fun a _ current spent _ _ _ hstands => hstands.update deliveryId patch now
  rw [copyAt_update]
  exact h.latest_copy hmemory hq

theorem Sound.removeMany (h : s.Sound) (hmemory : s.memory = some entries) (ids : List String)
    (c : Commit) : Sound { s.withJournal (removeMany ⟨entries, s.file⟩ ids c) with
      latest := fun id =>
        if decide (c = .durable) && ids.contains id then none else s.latest id } := by
  refine h.operates hmemory (List.Subset.refl _) ((h.filed hmemory).removeMany ids)
    h.books.asked (List.Subset.refl _) h.books.requestIds (fun id q hq => ?_)
    fun a _ current spent _ _ _ hstands => hstands.removeMany ids
  split_ifs at hq with hremoved
  obtain ⟨hasked, hid, hcopy⟩ := h.latest_copy hmemory hq
  refine ⟨hasked, hid, ?_⟩
  rw [copyAt_removeMany fun hc hmem => hremoved ?_]
  · exact hcopy
  · rw [show q.assignment.1 = id from hid] at hmem
    simpa [hc] using hmem

theorem forget_latest {s : Owner} {deliveryId id : String} {q : RecoverRequest}
    (h : (s.forget deliveryId).latest id = some q) : id ≠ deliveryId ∧ s.latest id = some q := by
  change Function.update s.latest deliveryId none id = some q at h
  by_cases hid : id = deliveryId
  · subst hid
    rw [Function.update_self] at h
    cases h
  · rw [Function.update_of_ne hid] at h
    exact ⟨hid, h⟩

theorem Sound.forget (h : s.Sound) (deliveryId : String) : Sound (s.forget deliveryId) := by
  refine h.goes rfl rfl (List.Subset.refl _) (List.Subset.refl _) rfl ?_
    (fun a ha hnot => absurd ha hnot) fun a _ current spent _ _ _ haligned => haligned
  refine ⟨h.books.file, h.books.memory, fun q hq => ?_, h.books.requestIds, h.books.answers,
    fun id q hq => h.books.latest id q (forget_latest hq).2⟩
  obtain ⟨hreceived, hnext, hparsed⟩ := h.books.asked q hq
  exact ⟨hreceived, hnext, hparsed⟩

theorem Sound.acceptRecovery (h : s.Sound) (hmemory : s.memory = some entries)
    {frame : RecoveryResultFrame} (hframe : frame ∈ s.answers) (hresult : frame.result = .recovered)
    (hlatest : ∀ id q, s.latest id = some q → id ≠ frame.deliveryId) (now : Int) (c : Commit) :
    Sound (s.withJournal (acceptRecovery ⟨entries, s.file⟩ frame now c).1) := by
  refine h.operates hmemory (List.Subset.refl _) ((h.filed hmemory).acceptRecovery frame now)
    h.books.asked (List.Subset.refl _) h.books.requestIds (fun id q hq => ?_)
    fun a _ current spent _ _ hserved hstands => hstands.accept ?_ ?_
  · obtain ⟨hasked, hid, hcopy⟩ := h.latest_copy hmemory hq
    refine ⟨hasked, hid, ?_⟩
    rw [copyAt_acceptRecovery now fun heq => hlatest id q hq (hid.symm.trans heq)]
    exact hcopy
  · intro e he
    obtain ⟨leaseEpoch, token, hfiled⟩ := h.books.memory entries hmemory e he
    rw [hfiled.leaseToken_eq]
    rfl
  · exact fun y ha hy => hserved y (mem_servedAt.2 ⟨frame, hframe, hresult, ha, hy⟩)

/-- A request of an entry is one that the room reads. -/
theorem parsed_of_filed {s : Owner} (h : s.Sound) {tokens : List String} {entries : Entries}
    {q : RecoverRequest} {requestId : Uuid}
    (hfiled : ∀ e ∈ entries, IsFiled s.received tokens e) (hrequest : q.requestId = requestId.val)
    (hcopy : copyAt entries q.assignment = some (q.leaseToken, some q.nextLeaseToken)) :
    Asked { s with tokens := tokens } q := by
  obtain ⟨e, he, hattempt, hepoch, htoken, hnext⟩ := copyAt_eq_some hcopy
  obtain ⟨hmem, hid⟩ := Table.get?_eq_some.1 he
  obtain ⟨leaseEpoch, token, hentry⟩ := hfiled e hmem
  have hreceived : q.assignment ∈ s.received := by
    have := hentry.received
    rwa [hid, hattempt, Option.some.inj (hentry.leaseEpoch_eq.symm.trans hepoch)] at this
  obtain ⟨hminted, hpos, hpos', -⟩ := h.received _ hreceived
  obtain rfl : token = q.leaseToken := Option.some.inj (hentry.leaseToken_eq.symm.trans htoken)
  obtain ⟨hmem', hok, hne⟩ := hentry.next _ hnext
  refine ⟨hreceived, hmem', parse_isSome (h.minted _ hminted) ?_ hpos hpos' hentry.acceptable hok hne⟩
  rw [hrequest]
  exact acceptable_uuid requestId

theorem Sound.prepareRecovery (h : s.Sound) (hmemory : s.memory = some entries)
    (deliveryId : String) (options : PrepareOptions) {token requestId : Uuid}
    (hnew : token.val ∉ s.tokens) (hrequestId : ∀ q ∈ s.asked, q.requestId ≠ requestId.val)
    (now : Int) (c : Commit) :
    Sound (s.advance entries (.prepareRecovery deliveryId options token requestId now c)) := by
  have hfiled := (h.filed hmemory).prepareRecovery (c := c) deliveryId options requestId.val now
    hnew (acceptable_uuid token)
  have hrequest := fun q => @prepareRecovery_request ⟨entries, s.file⟩ c now deliveryId token.val
    requestId.val options q
  have hcopy := fun a => @copyAt_prepareRecovery ⟨entries, s.file⟩ a c now deliveryId token.val
    requestId.val options
  have hstands := fun (a : Assignment) current spent => @Stands.prepare current spent
    ⟨entries, s.file⟩ a c s.asked deliveryId token.val requestId.val options now
  dsimp only [advance]
  generalize RecoveryJournal.prepareRecovery ⟨entries, s.file⟩ deliveryId options token.val
    requestId.val now c = prepared at hfiled hrequest hcopy hstands ⊢
  obtain ⟨j, request⟩ := prepared
  have hasked : ∀ q ∈ s.asked, Asked { s with tokens := [token.val] ++ s.tokens } q := by
    intro q hq
    obtain ⟨hreceived, hnext, hparsed⟩ := h.books.asked q hq
    exact ⟨hreceived, List.mem_cons_of_mem _ hnext, hparsed⟩
  have hgoes : ∀ a ∈ s.received, ∀ current spent, current ∈ s.tokens →
      (∀ t ∈ spent, t ∈ s.tokens) → (∀ y ∈ servedAt s.answers a, y = current ∨ y ∈ spent) →
      Stands current spent ⟨entries, s.file⟩ a (askedAt s.asked a) →
      Stands current spent j a (askedAt (request.toList ++ s.asked) a) := by
    intro a _ current spent hcurrent hspent _ hs
    refine hstands a current spent hs ?_ fun hmem => hnew (hspent _ hmem)
    rintro rfl
    exact hnew hcurrent
  cases request with
  | none =>
    refine h.operates hmemory (List.subset_cons_self _ _) hfiled hasked (List.Subset.refl _)
      h.books.requestIds (fun id q hq => ?_) hgoes
    rw [hcopy q.assignment (Or.inl rfl)]
    exact h.latest_copy hmemory hq
  | some q =>
    obtain ⟨hid, hrid, hq⟩ := hrequest q rfl
    refine h.operates hmemory (List.subset_cons_self _ _) hfiled ?_ (List.subset_cons_self _ _)
      ?_ ?_ hgoes
    · intro q' hq'
      rcases List.mem_cons.1 hq' with rfl | hq'
      · exact parsed_of_filed h hfiled.2 hrid hq
      · exact hasked q' hq'
    · refine List.nodup_cons.2 ⟨fun hmem => ?_, h.books.requestIds⟩
      obtain ⟨q', hq', heq⟩ := List.mem_map.1 hmem
      exact hrequestId q' hq' (heq.trans hrid)
    · intro id q' hq'
      change Function.update s.latest q.deliveryId (some q) id = some q' at hq'
      by_cases heq : id = q.deliveryId
      · subst heq
        rw [Function.update_self] at hq'
        obtain rfl := Option.some.inj hq'
        exact ⟨List.mem_cons_self, rfl, hq⟩
      · rw [Function.update_of_ne heq] at hq'
        obtain ⟨hmem, hid', hcopied⟩ := h.latest_copy hmemory hq'
        refine ⟨List.mem_cons_of_mem _ hmem, hid', ?_⟩
        rw [hcopy q'.assignment (Or.inr fun hat => heq (hid'.symm.trans (hat.trans hid.symm)))]
        exact hcopied

theorem assignmentOf_eq_some {delivery : DirectedDelivery} {a : Assignment} :
    assignmentOf delivery = some a ↔ delivery.leaseEpoch = some a.2.2 ∧
      delivery.leaseToken.isSome = true ∧ delivery.id = a.1 ∧ delivery.attempt = a.2.1 := by
  obtain ⟨id, attempt, leaseEpoch⟩ := a
  unfold assignmentOf
  cases delivery.leaseEpoch with
  | none => simp
  | some epoch =>
    cases delivery.leaseToken with
    | none => simp
    | some token =>
      simp only [Option.some.injEq, Prod.mk.injEq, Option.isSome_some, true_and]
      tauto

/-- Nothing is known of an assignment before its claim arrives. -/
theorem Sound.unknown (h : s.Sound) (hmemory : s.memory = some entries) {a : Assignment}
    (ha : a ∉ s.received) : copyAt s.file a = none ∧ copyAt entries a = none ∧
      askedAt s.asked a = [] ∧ servedAt s.answers a = [] := by
  have hcopy : ∀ {table : Entries}, (∀ e ∈ table, IsFiled s.received s.tokens e) →
      copyAt table a = none := by
    intro table htable
    by_contra hne
    obtain ⟨copy, hsome⟩ := Option.ne_none_iff_exists'.1 hne
    obtain ⟨e, he, hattempt, hepoch, -⟩ := copyAt_eq_some hsome
    obtain ⟨hmem, hid⟩ := Table.get?_eq_some.1 he
    obtain ⟨leaseEpoch, token, hfiled⟩ := htable e hmem
    refine ha ?_
    have := hfiled.received
    rwa [hid, hattempt, Option.some.inj (hfiled.leaseEpoch_eq.symm.trans hepoch)] at this
  have hasked : ∀ q ∈ s.asked, q.assignment ≠ a := fun q hq heq =>
    ha (heq ▸ (h.books.asked q hq).received)
  refine ⟨hcopy h.books.file, hcopy (h.books.memory entries hmemory), ?_, ?_⟩
  · rw [askedAt, List.filter_eq_nil_iff.2 fun q hq => by simpa using hasked q hq]
    rfl
  · refine List.eq_nil_iff_forall_not_mem.2 fun y hy => ?_
    obtain ⟨frame, hframe, hresult, hassignment, -⟩ := mem_servedAt.1 hy
    obtain ⟨q, hq, hanswer⟩ := h.books.answers frame hframe hresult
    exact hasked q hq (hanswer.assignment.symm.trans hassignment)

theorem Sound.claim (h : s.Sound) (hmemory : s.memory = some entries) {delivery : DirectedDelivery}
    (hsent : ∃ frame ∈ s.room.sockets.sent, claimFrame delivery = some frame.2)
    (hnew : ∀ a ∈ assignmentOf delivery, a ∉ s.received)
    (hforeign : ∀ token ∈ delivery.leaseToken, token ∉ s.foreign) (message : MsgFrame) (now : Int)
    (c : Commit) {latest : String → Option RecoverRequest}
    (hlatest : ∀ id q, latest id = some q → s.latest id = some q ∧
      ((recordClaim ⟨entries, s.file⟩ delivery message now c).2 = none ∨ id ≠ delivery.id)) :
    Sound { s with
      file := (recordClaim ⟨entries, s.file⟩ delivery message now c).1.file
      memory := some (recordClaim ⟨entries, s.file⟩ delivery message now c).1.entriesById
      received := (assignmentOf delivery).toList ++ s.received
      tokens := delivery.leaseToken.toList ++ s.tokens
      latest := latest } := by
  have hreceived : s.received ⊆ (assignmentOf delivery).toList ++ s.received :=
    List.subset_append_right _ _
  have htokens : s.tokens ⊆ delivery.leaseToken.toList ++ s.tokens := List.subset_append_right _ _
  -- what the room has said in the claim frame
  have hclaimed : ∀ a token, assignmentOf delivery = some a → delivery.leaseToken = some token →
      s.Claimed a token := by
    intro a token ha htoken
    obtain ⟨hepoch, -, hid, hattempt⟩ := assignmentOf_eq_some.1 ha
    obtain ⟨frame, hframe, heq⟩ := hsent
    refine h.claims frame hframe _ _ _ _ ?_
    rw [claimFrame, hepoch, htoken, hid, hattempt] at heq
    exact (Option.some.inj heq).symm
  have hfiled : Journal.All (IsFiled ((assignmentOf delivery).toList ++ s.received)
      (delivery.leaseToken.toList ++ s.tokens))
      (recordClaim ⟨entries, s.file⟩ delivery message now c).1 := by
    refine Journal.All.recordClaim ⟨fun e he => ((h.filed hmemory).1 e he).mono hreceived htokens,
      fun e he => ((h.filed hmemory).2 e he).mono hreceived htokens⟩ message now ?_ ?_
    · intro leaseEpoch hepoch htoken
      have hassignment : assignmentOf delivery = some (delivery.id, delivery.attempt, leaseEpoch) :=
        assignmentOf_eq_some.2 ⟨hepoch, htoken, rfl, rfl⟩
      rw [hassignment]
      exact List.mem_cons_self
    · intro token htoken
      refine ⟨by rw [htoken]; exact List.mem_cons_self, fun hepoch => ?_⟩
      obtain ⟨leaseEpoch, hepoch⟩ := Option.isSome_iff_exists.1 hepoch
      refine (hclaimed (delivery.id, delivery.attempt, leaseEpoch) token ?_ htoken).acceptable
      exact assignmentOf_eq_some.2 ⟨hepoch, by rw [htoken]; rfl, rfl, rfl⟩
  refine h.goes rfl rfl hreceived htokens rfl ?_ ?_ ?_
  · refine ⟨hfiled.1, ?_, fun q hq => ?_, h.books.requestIds, h.books.answers, fun id q hq => ?_⟩
    · rintro _ ⟨rfl⟩
      exact hfiled.2
    · obtain ⟨hmem, hnext, hparsed⟩ := h.books.asked q hq
      exact ⟨hreceived hmem, htokens hnext, hparsed⟩
    · obtain ⟨hold, hor⟩ := hlatest id q hq
      obtain ⟨hasked, hid, hcopy⟩ := h.latest_copy hmemory hold
      refine ⟨hasked, hid, _, rfl, ?_⟩
      rw [copyAt_recordClaim now (hor.imp_right fun hne => ?_)]
      · exact hcopy
      · rwa [show q.assignment.1 = id from hid]
  · intro a ha hnot
    have hassignment : assignmentOf delivery = some a :=
      Option.mem_toList.1 ((List.mem_append.1 ha).resolve_right hnot)
    obtain ⟨token, htoken⟩ := Option.isSome_iff_exists.1 (assignmentOf_eq_some.1 hassignment).2.1
    obtain ⟨hminted, hattempt, hepoch, -, hstands⟩ := hclaimed a token hassignment htoken
    obtain ⟨hfile, hentries, hasked, hserved⟩ := h.unknown hmemory hnot
    refine ⟨hminted, hattempt, hepoch, fun row hrow hid => ?_⟩
    obtain ⟨hle, hat⟩ := hstands hnot (hforeign token htoken) row hrow hid
    refine ⟨hle, fun heq => ⟨(hat heq).1, token, [], (hat heq).2, ?_, nofun, ?_, ?_⟩⟩
    · rw [htoken]
      exact List.mem_cons_self
    · intro y hy
      change y ∈ servedAt s.answers a at hy
      rw [hserved] at hy
      cases hy
    · change Handover.Aligned token [] _ _ (askedAt s.asked a)
      rw [hasked]
      exact Stands.recordNew message now hfile hentries htoken
  · intro a ha current spent _ _ _ haligned
    have hstands : Stands current spent ⟨entries, s.file⟩ a (askedAt s.asked a) := by
      rw [hmemory] at haligned
      exact haligned
    refine hstands.recordOther now fun hvalid hsame => ?_
    simp only [validClaim, Bool.and_eq_true, Option.any_eq_true] at hvalid
    obtain ⟨-, token, htoken, -⟩ := hvalid
    exact hnew a (assignmentOf_eq_some.2 ⟨hsame.2.2, by rw [htoken]; rfl, hsame.1, hsame.2.1⟩) ha

end Operations

end OwnSteps

section Steps

variable {s s' : Owner}

theorem Sound.deliver (h : s.Sound) {q : RecoverRequest} (hq : q ∈ s.asked) (identity : ConnState)
    (connectionId : String) (lingering : List String) (now : Int) :
    Sound (s.deliver q identity connectionId lingering now) := by
  unfold Owner.deliver
  cases hparse : parseDeliveryRecoverFrame q with
  | none => exact h
  | some f =>
    have hreads := reads_of_parse hparse
    have hready : s.room.Ready (.recover identity connectionId f lingering now) :=
      ⟨List.nodup_nil, nofun, trivial⟩
    refine h.afterRoom ⟨hready, rfl⟩ ?_ (List.Subset.refl _) ?_
    · rintro _ ⟨rfl⟩
      exact Or.inr ⟨q, hq, hparse⟩
    · intro frame hframe hresult
      obtain ⟨⟨result, row⟩, hanswer, rfl⟩ := Option.map_eq_some_iff.1 (Option.mem_toList.1 hframe)
      obtain rfl : result = .recovered := hresult
      obtain ⟨hstored, hattempt, hepoch, htoken⟩ := recoverDirectedDelivery_truly row hanswer
      obtain ⟨hmem, hid⟩ := row_eq_some.1 hstored
      refine ⟨⟨q, hq, rfl, ?_, ?_, rfl⟩, fun row' hrow' hid' _ => ?_⟩
      · exact Prod.ext (hid.trans hreads.deliveryId) (Prod.ext (hattempt.trans hreads.attempt)
          (hepoch.trans hreads.leaseEpoch))
      · simp [resultFrame, htoken, text, hreads.nextLeaseToken]
      · rw [Table.eq_of_key hrow' hmem hid']
        simp [resultFrame, htoken, text]

theorem Sound.room_step (h : s.Sound) {e : Event} (hready : s.room.Ready e)
    (hothers : ∀ token ∈ presented e, token ∉ s.tokens) :
    Sound { s with room := s.room.next e, foreign := presented e ++ s.foreign } := by
  refine @Sound.afterRoom s e _ (presented e ++ s.foreign) [] h ⟨hready, rfl⟩
    (fun f hf => Or.inl ?_) (List.subset_append_right _ _) nofun
  have hpresents : ∀ t, f.presents t = true → t ∈ presented e := by
    intro t ht
    simp only [DeliveryRecoverFrame.presents, Bool.or_eq_true, decide_eq_true_eq] at ht
    cases e with
    | recover identity connectionId f' lingering now =>
      obtain rfl := Option.some.inj hf
      rcases ht with rfl | rfl <;> simp [presented]
    | _ => cases hf
  refine ⟨fun t ht => ?_, fun t ht => List.mem_append_left _ (hpresents t ht)⟩
  by_contra hne
  exact hothers t (hpresents t (by simpa using hne)) ht

theorem Sound.step {e : OwnerEvent} (h : s.Sound) (hs : Step s e s') : s'.Sound := by
  obtain ⟨henabled, rfl⟩ := hs
  cases e with
  | room e => exact h.room_step henabled.1 henabled.2
  | deliver q identity connectionId lingering now =>
    exact h.deliver henabled identity connectionId lingering now
  | restart => exact h.restart henabled
  | claimArrives delivery message now c =>
    obtain ⟨hsent, hnew, hforeign⟩ := henabled
    cases hmemory : s.memory with
    | none => simpa [next, hmemory] using h
    | some entries =>
      simp only [next, hmemory]
      have hlatest : ∀ id q, (s.forget delivery.id).latest id = some q →
          s.latest id = some q ∧ id ≠ delivery.id := fun id q hq => (forget_latest hq).symm
      dsimp only [advance]
      split_ifs with hentry
      · exact h.claim hmemory hsent hnew hforeign message now c
          fun id q hq => (hlatest id q hq).imp_right Or.inr
      · refine h.claim hmemory hsent hnew hforeign message now c fun id q hq => ⟨hq, Or.inl ?_⟩
        simpa using hentry
  | update deliveryId patch now c =>
    cases hmemory : s.memory with
    | none => simpa [next, hmemory] using h
    | some entries =>
      simp only [next, hmemory]
      exact h.update hmemory deliveryId patch now c
  | removeMany ids c =>
    cases hmemory : s.memory with
    | none => simpa [next, hmemory] using h
    | some entries =>
      simp only [next, hmemory]
      exact h.removeMany hmemory ids c
  | prepareRecovery deliveryId options token requestId now c =>
    cases hmemory : s.memory with
    | none => simpa [next, hmemory] using h
    | some entries =>
      simp only [next, hmemory]
      exact h.prepareRecovery hmemory deliveryId options henabled.1 henabled.2 now c
  | answerArrives frame now c =>
    cases hmemory : s.memory with
    | none => simpa [next, hmemory] using h
    | some entries =>
      simp only [next, hmemory, advance]
      split_ifs with hawaits hresult
      · exact (h.forget frame.deliveryId).acceptRecovery hmemory henabled hresult
          (fun id q hq => (forget_latest hq).1) now c
      · exact h.forget frame.deliveryId
      · exact h
  | crash =>
    cases hmemory : s.memory with
    | none => simpa [next, hmemory] using h
    | some entries =>
      simp only [next, hmemory]
      exact h.crash

theorem Reachable.sound (h : Reachable s) : s.Sound := by
  obtain ⟨evs, hrun⟩ := h
  exact hrun.invariant (fun _ _ _ hi hs => hi.step hs) initial_sound

end Steps

section NoLockout

variable {s : Owner}

/-- The journal, in memory or on disk, has the entry. -/
def Journals (s : Owner) (e : DeliveryRecoveryEntry) : Prop :=
  e ∈ s.file ∨ ∃ entries, s.memory = some entries ∧ e ∈ entries

/-- The row still has the attempt and the lease epoch. -/
def AtRow (a : Assignment) (row : Delivery) : Prop :=
  row.id = a.1 ∧ row.attempt = a.2.1 ∧ row.leaseEpoch = a.2.2

/-- The request has come too late to move the token: another one has moved it. -/
def Overtaken (l : Ledger) (row : Delivery) (q : RecoverRequest) : Prop :=
  historyOf q.assignment q.leaseToken ∈ l.leaseHistory ∧
    (row.leaseToken = some q.nextLeaseToken ∨
      historyOf q.assignment q.nextLeaseToken ∈ l.leaseHistory)

theorem copyAt_of_mem {entries : Entries} {e : DeliveryRecoveryEntry} {token : String} {leaseEpoch : ℕ}
    (he : e ∈ entries) (hepoch : e.delivery.leaseEpoch = some leaseEpoch)
    (htoken : e.delivery.leaseToken = some token) :
    copyAt entries (e.delivery.id, e.delivery.attempt, leaseEpoch) =
      some (token, e.nextLeaseToken) := by
  rw [copyAt]
  change (entries.get? e.delivery.id).bind _ = _
  rw [Table.get?_key he, Option.bind_some, copyOf_eq rfl hepoch htoken]

/-- An entry of the journal is the copy of a received assignment. -/
theorem Sound.journalled (h : s.Sound) {e : DeliveryRecoveryEntry} (he : s.Journals e)
    {leaseEpoch : ℕ} (hepoch : e.delivery.leaseEpoch = some leaseEpoch) :
    ∃ token, e.delivery.leaseToken = some token ∧
      (e.delivery.id, e.delivery.attempt, leaseEpoch) ∈ s.received ∧
      (copyAt s.file (e.delivery.id, e.delivery.attempt, leaseEpoch) =
          some (token, e.nextLeaseToken) ∨
        s.memory.bind (copyAt · (e.delivery.id, e.delivery.attempt, leaseEpoch)) =
          some (token, e.nextLeaseToken)) := by
  have hfiled : IsFiled s.received s.tokens e := by
    rcases he with he | ⟨entries, hentries, he⟩
    · exact h.books.file e he
    · exact h.books.memory entries hentries e he
  obtain ⟨leaseEpoch', token, hfiled⟩ := hfiled
  obtain rfl : leaseEpoch' = leaseEpoch := Option.some.inj (hfiled.leaseEpoch_eq.symm.trans hepoch)
  refine ⟨token, hfiled.leaseToken_eq, hfiled.received, ?_⟩
  rcases he with he | ⟨entries, hentries, he⟩
  · exact Or.inl (copyAt_of_mem he hepoch hfiled.leaseToken_eq)
  · rw [hentries]
    exact Or.inr (copyAt_of_mem he hepoch hfiled.leaseToken_eq)

/-- While the row has the assignment, its token and everything the process has agree. -/
theorem Sound.aligned (h : s.Sound) {a : Assignment} (ha : a ∈ s.received) {row : Delivery}
    (hrow : row ∈ s.room.ledger.deliveries) (hat : AtRow a row) :
    ∃ current spent, row.leaseToken = some current ∧
      (∀ t ∈ spent, historyOf a t ∈ s.room.ledger.leaseHistory) ∧
      Handover.Aligned current spent (copyAt s.file a) (s.memory.bind (copyAt · a))
        (askedAt s.asked a) := by
  obtain ⟨-, hgo⟩ := (h.received a ha).handedOver row hrow hat.1
  obtain ⟨-, current, spent, htoken, -, hspent, -, haligned⟩ := hgo hat.2.1
  exact ⟨current, spent, htoken, fun t ht => (hspent t ht).2, haligned⟩

theorem mem_askedAt {q : RecoverRequest} (hq : q ∈ s.asked) :
    (q.leaseToken, q.nextLeaseToken) ∈ askedAt s.asked q.assignment :=
  List.mem_map.2 ⟨q, List.mem_filter.2 ⟨hq, decide_eq_true rfl⟩, rfl⟩

/-- The row's token is the entry's token or its next one. -/
theorem Sound.covers (h : s.Sound) {e : DeliveryRecoveryEntry} (he : s.Journals e)
    {leaseEpoch : ℕ} (hepoch : e.delivery.leaseEpoch = some leaseEpoch) {row : Delivery}
    (hrow : row ∈ s.room.ledger.deliveries)
    (hat : AtRow (e.delivery.id, e.delivery.attempt, leaseEpoch) row) :
    row.leaseToken.isSome = true ∧
      (row.leaseToken = e.delivery.leaseToken ∨ row.leaseToken = e.nextLeaseToken) := by
  obtain ⟨token, htoken, hreceived, hcopy⟩ := h.journalled he hepoch
  obtain ⟨current, spent, hcurrent, -, haligned⟩ := h.aligned hreceived hrow hat
  have hcovers : Handover.Covers current spent (token, e.nextLeaseToken) :=
    hcopy.elim (haligned.onDisk _) (haligned.inMemory _)
  rw [hcurrent, htoken]
  refine ⟨rfl, ?_⟩
  rcases hcovers with ⟨htok, -⟩ | ⟨hnext, -⟩
  · exact Or.inl (congrArg some htok.symm)
  · exact Or.inr hnext.symm

/-- A request that can still move the token has the journal's pair; any other one comes too
late. -/
theorem Sound.placed (h : s.Sound) {q : RecoverRequest} (hq : q ∈ s.asked) {row : Delivery}
    (hrow : row ∈ s.room.ledger.deliveries) (hat : AtRow q.assignment row) :
    (row.leaseToken = some q.leaseToken ∧ ∀ e, s.Journals e → e.delivery.id = q.deliveryId →
        e.delivery.attempt = q.attempt → e.delivery.leaseEpoch = some q.leaseEpoch →
          e.delivery.leaseToken = some q.leaseToken ∧ e.nextLeaseToken = some q.nextLeaseToken) ∨
      Overtaken s.room.ledger row q := by
  obtain ⟨current, spent, hcurrent, hspent, haligned⟩ :=
    h.aligned (h.books.asked q hq).received hrow hat
  rcases haligned.placed _ (mem_askedAt hq) with ⟨htoken, -⟩ | ⟨hs, hor⟩
  · change q.leaseToken = current at htoken
    refine Or.inl ⟨by rw [hcurrent, htoken], fun e he hid hattempt hepoch => ?_⟩
    obtain ⟨token, htok, -, hcopy⟩ := h.journalled he hepoch
    rw [hid, hattempt] at hcopy
    have heq := (haligned.pending _ (mem_askedAt hq) htoken).1 _ hcopy
    obtain ⟨rfl, hnext⟩ := Prod.mk.inj heq
    exact ⟨by rw [htok, ← htoken], hnext⟩
  · refine Or.inr ⟨hspent _ hs, ?_⟩
    rcases hor with hs' | hc
    · exact Or.inr (hspent _ hs')
    · exact Or.inl (by rw [hcurrent, ← hc])

/-- Every request is read and answered. -/
theorem Sound.answered (h : s.Sound) {q : RecoverRequest} (hq : q ∈ s.asked) {row : Delivery}
    (hrow : row ∈ s.room.ledger.deliveries) (hat : AtRow q.assignment row) :
    ∃ f, parseDeliveryRecoverFrame q = some f ∧
      ∀ (lingering : List String) (identity : ConnState) (connectionId : String) (now : Int),
        Authorised identity row →
        Registered s.room.sockets.connections identity connectionId row.recoveryAdapter →
        (s.room.ledger.recoverDirectedDelivery s.room.sockets.connections lingering identity
          connectionId f now).answer.isSome = true := by
  obtain ⟨f, hparse⟩ := Option.isSome_iff_exists.1 (h.books.asked q hq).parsed
  have hreads := reads_of_parse hparse
  refine ⟨f, hparse, fun lingering identity connectionId now hid hreg => ?_⟩
  have hstored : s.room.ledger.directedDeliveryRow f.deliveryId = some row := by
    rw [hreads.deliveryId]
    exact row_eq_some.2 ⟨hrow, hat.1⟩
  have hmatches : row.leaseToken = some q.leaseToken ∨ row.leaseToken = some q.nextLeaseToken →
      f.matchesCurrent row = true := by
    intro htoken
    have hattempt : row.attempt = q.attempt := hat.2.1
    have hepoch : row.leaseEpoch = q.leaseEpoch := hat.2.2
    rcases htoken with htoken | htoken <;>
      simp [DeliveryRecoverFrame.matchesCurrent, DeliveryRecoverFrame.presents, hreads.attempt,
        hreads.leaseEpoch, hreads.leaseToken, hreads.nextLeaseToken, hattempt, hepoch, htoken, text]
  refine recoverDirectedDelivery_answers lingering hstored hid hreg (h.leased row hrow) ?_
  rcases h.placed hq hrow hat with ⟨htoken, -⟩ | ⟨hhistory, -⟩
  · exact Or.inl (hmatches (Or.inl htoken))
  · refine Or.inr (List.any_eq_true.2 ⟨_, hhistory, ?_⟩)
    simp [historyOf, RecoverRequest.assignment, hreads.deliveryId, hreads.attempt,
      hreads.leaseEpoch, DeliveryRecoverFrame.presents, hreads.leaseToken]

/-- The answer `recovered` to the latest request is accepted. -/
theorem Sound.accepts (h : s.Sound) {frame : RecoveryResultFrame} (hframe : frame ∈ s.answers)
    {q : RecoverRequest} (hq : s.latest frame.deliveryId = some q)
    (hrequest : frame.requestId = q.requestId) (hresult : frame.result = .recovered) (now : Int) :
    ∃ entries, s.memory = some entries ∧
      (RecoveryJournal.acceptRecovery ⟨entries, s.file⟩ frame now .durable).2.isSome = true := by
  obtain ⟨hasked, hid, entries, hentries, hcopy⟩ := h.books.latest _ q hq
  obtain ⟨q', hq', hanswer⟩ := h.books.answers frame hframe hresult
  obtain rfl : q' = q := List.inj_on_of_nodup_map h.books.requestIds hq' hasked
    (hanswer.requestId.symm.trans hrequest)
  obtain ⟨e, he, hattempt, hepoch, htoken, hnext⟩ := copyAt_eq_some hcopy
  have hassignment := hanswer.assignment
  refine ⟨entries, hentries, ?_⟩
  have hack : acknowledges frame e = true := by
    obtain ⟨hd, hassign⟩ := Prod.mk.inj hassignment
    obtain ⟨hat, hep⟩ := Prod.mk.inj hassign
    simp [acknowledges, hresult, hanswer.leaseToken, hanswer.leaseUntil, hnext]
    exact ⟨hattempt.trans hat.symm, hepoch.trans (congrArg some hep.symm)⟩
  have he' : entries.get? frame.deliveryId = some e := by
    rw [← hid]
    exact he
  unfold RecoveryJournal.acceptRecovery
  dsimp only
  rw [he']
  dsimp only
  rw [if_neg (by simp [hack])]
  rfl

/-- Recovery never locks its owner out: while the row has the journalled assignment, its
token is the journal's or the next one; what the process has asked for can be moved to the
next token or has been overtaken, and is answered to whoever may ask; and the answer to the
latest request is accepted. -/
theorem recovery_keeps_owner (h : Reachable s) :
    (∀ e, s.Journals e → ∀ row ∈ s.room.ledger.deliveries, ∀ leaseEpoch,
        e.delivery.leaseEpoch = some leaseEpoch →
        AtRow (e.delivery.id, e.delivery.attempt, leaseEpoch) row → row.leaseToken.isSome = true ∧
          (row.leaseToken = e.delivery.leaseToken ∨ row.leaseToken = e.nextLeaseToken)) ∧
      (∀ q ∈ s.asked, ∀ row ∈ s.room.ledger.deliveries, AtRow q.assignment row →
        ((row.leaseToken = some q.leaseToken ∧ ∀ e, s.Journals e → e.delivery.id = q.deliveryId →
            e.delivery.attempt = q.attempt → e.delivery.leaseEpoch = some q.leaseEpoch →
              e.delivery.leaseToken = some q.leaseToken ∧
                e.nextLeaseToken = some q.nextLeaseToken) ∨
          Overtaken s.room.ledger row q) ∧
        ∃ f, parseDeliveryRecoverFrame q = some f ∧
          ∀ (lingering : List String) (identity : ConnState) (connectionId : String) (now : Int),
            Authorised identity row →
            Registered s.room.sockets.connections identity connectionId row.recoveryAdapter →
            (s.room.ledger.recoverDirectedDelivery s.room.sockets.connections lingering identity
              connectionId f now).answer.isSome = true) ∧
      ∀ frame ∈ s.answers, ∀ q, s.latest frame.deliveryId = some q →
        frame.requestId = q.requestId → frame.result = .recovered → ∀ now,
          ∃ entries, s.memory = some entries ∧
            (acceptRecovery ⟨entries, s.file⟩ frame now .durable).2.isSome = true := by
  have hsound := h.sound
  refine ⟨fun e he row hrow leaseEpoch hepoch hat => hsound.covers he hepoch hrow hat,
    fun q hq row hrow hat => ⟨hsound.placed hq hrow hat, hsound.answered hq hrow hat⟩,
    fun frame hframe q hq hrequest hresult now => hsound.accepts hframe hq hrequest hresult now⟩

end NoLockout

/-! The process of `bot` asks twice, and only the second frame arrives. -/

def botDelivery : DirectedDelivery where
  id := Room.deliveryUuid.val
  messageSeq := 1
  targetName := "bot"
  cause := .stored .mention
  state := .claimed
  attempt := 1
  leaseEpoch := some 1
  leaseToken := some Room.tokenUuid.val
  leaseUntil := none
  workId := some Room.workUuid.val
  continuationRef := some Room.continuationUuid.val
  replySeq := none
  createdAt := 0

def nextUuid : Uuid := ⟨"0b7f7c51-8b54-4a0e-9a1d-2f6a3c9d0015", by decide⟩

def spareUuid : Uuid := ⟨"0b7f7c51-8b54-4a0e-9a1d-2f6a3c9d0008", by decide⟩

def firstRequestId : Uuid := ⟨"0b7f7c51-8b54-4a0e-9a1d-2f6a3c9d0006", by decide⟩

def secondRequestId : Uuid := ⟨"0b7f7c51-8b54-4a0e-9a1d-2f6a3c9d0007", by decide⟩

def botRequest (requestId : Uuid) : RecoverRequest where
  deliveryId := Room.deliveryUuid.val
  requestId := requestId.val
  attempt := 1
  leaseEpoch := 1
  leaseToken := Room.tokenUuid.val
  nextLeaseToken := nextUuid.val
  replaySafe := false

def botAnswer : RecoveryResultFrame where
  deliveryId := Room.deliveryUuid.val
  requestId := secondRequestId.val
  result := .recovered
  state := .claimed
  attempt := 1
  leaseEpoch := 1
  leaseToken := some nextUuid.val
  leaseUntil := some 90005

/-- The events up to the answer. -/
def askedTwice : List OwnerEvent :=
  Room.claimedEvents.map OwnerEvent.room ++
    [OwnerEvent.claimArrives botDelivery ⟨1, "hello"⟩ 2 .durable,
      .prepareRecovery Room.deliveryUuid.val {} nextUuid firstRequestId 3 .durable,
      .prepareRecovery Room.deliveryUuid.val {} spareUuid secondRequestId 4 .durable,
      .deliver (botRequest secondRequestId) Room.botState "c1" [] 5]

def answeredOnce : List OwnerEvent := askedTwice ++ [OwnerEvent.answerArrives botAnswer 6 .durable]

def delivered : OwnerEvent → Option RecoverRequest
  | .deliver q _ _ _ _ => some q
  | _ => none

theorem run_answeredOnce : Run initial answeredOnce (answeredOnce.foldl next initial) :=
  EventSystem.run_of_ready (fun _ _ henabled => ⟨henabled, rfl⟩) (by decide)

/-- The first frame comes too late, and may still be sent. -/
theorem recovery_keeps_owner_overtaken :
    botRequest firstRequestId ∈ (answeredOnce.foldl next initial).asked ∧
      ∃ row ∈ (answeredOnce.foldl next initial).room.ledger.deliveries,
        Overtaken (answeredOnce.foldl next initial).room.ledger row (botRequest firstRequestId) := by
  have hasked : botRequest firstRequestId ∈ (answeredOnce.foldl next initial).asked := by decide
  have hrow : ∃ row ∈ (answeredOnce.foldl next initial).room.ledger.deliveries,
      AtRow (botRequest firstRequestId).assignment row ∧
        row.leaseToken ≠ some (botRequest firstRequestId).leaseToken := by
    unfold AtRow
    decide
  obtain ⟨row, hmem, hat, hne⟩ := hrow
  have hplaced := ((recovery_keeps_owner ⟨_, run_answeredOnce⟩).2.1 _ hasked row hmem hat).1
  exact ⟨hasked, row, hmem, hplaced.resolve_left fun hold => hne hold.1⟩

/-- A frame that has not arrived yet need not carry the journal's pair. -/
theorem frame_in_flight_differs :
    ¬ ∀ (evs : List OwnerEvent) (s : Owner), Run initial evs s →
      ∀ q ∈ s.asked, q ∉ evs.filterMap delivered → ∀ e, s.Journals e →
        ∀ row ∈ s.room.ledger.deliveries, AtRow q.assignment row →
          e.delivery.id = q.deliveryId → e.delivery.attempt = q.attempt →
          e.delivery.leaseEpoch = some q.leaseEpoch →
            e.delivery.leaseToken = some q.leaseToken ∧
              e.nextLeaseToken = some q.nextLeaseToken := by
  intro h
  have hfacts : ∃ e ∈ (answeredOnce.foldl next initial).file,
      ∃ row ∈ (answeredOnce.foldl next initial).room.ledger.deliveries,
        AtRow (botRequest firstRequestId).assignment row ∧
          e.delivery.id = (botRequest firstRequestId).deliveryId ∧
          e.delivery.attempt = (botRequest firstRequestId).attempt ∧
          e.delivery.leaseEpoch = some (botRequest firstRequestId).leaseEpoch ∧
          e.delivery.leaseToken ≠ some (botRequest firstRequestId).leaseToken := by
    unfold AtRow
    decide
  obtain ⟨e, he, row, hrow, hat, hid, hattempt, hepoch, hne⟩ := hfacts
  exact hne (h _ _ run_answeredOnce (botRequest firstRequestId) (by decide) (by decide) e
    (Or.inl he) row hrow hat hid hattempt hepoch).1

end Owner
end RecoveryJournal
end AgentParty
