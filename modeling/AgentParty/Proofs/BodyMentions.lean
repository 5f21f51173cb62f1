import AgentParty.Delivery.BodyMentions
import AgentParty.Proofs.Aliases
import AgentParty.Proofs.CodeRanges

/-! When the hints of a client leave it open whether its message is accepted: they pass the
server's own checks, whose expression knows no combining marks. -/

namespace AgentParty
namespace Mentions

section CodePoints

variable {text : Text}

def pairs (u v : ℕ) : Prop := (0xd800 ≤ u ∧ u ≤ 0xdbff) ∧ 0xdc00 ≤ v ∧ v ≤ 0xdfff

theorem isLead_and_isTrail (u v : ℕ) : (isLead u && isTrail v) = true ↔ pairs u v := by
  simp [isLead, isTrail, pairs]

/-- The first code point of a text and the rest of the text. -/
theorem codePoints_cases (text : Text) : text = [] ∨
    ∃ c rest, c ≠ [] ∧ text = c ++ rest ∧ codePoints text = c :: codePoints rest := by
  fun_cases codePoints text with
  | case1 => exact Or.inl rfl
  | case2 u => exact Or.inr ⟨[u], [], by simp, rfl, by simp [codePoints]⟩
  | case3 u v rest h => exact Or.inr ⟨[u, v], rest, by simp, rfl, by simp⟩
  | case4 u v rest h => exact Or.inr ⟨[u], v :: rest, by simp, rfl, by simp⟩

theorem flatten_codePoints (text : Text) : (codePoints text).flatten = text := by
  fun_induction codePoints text with
  | case1 => rfl
  | case2 u => rfl
  | case3 u v rest h ih => simp [ih]
  | case4 u v rest h ih => simp [ih]

/-- A text cut between two code points has the code points before the cut. -/
theorem codePoints_take (text : Text) (n : ℕ) :
    codePoints ((codePoints text).take n).flatten = (codePoints text).take n := by
  fun_induction codePoints text generalizing n with
  | case1 => simp [codePoints]
  | case2 u =>
    cases n with
    | zero => rfl
    | succ n => simp [codePoints]
  | case3 u v rest h ih =>
    cases n with
    | zero => rfl
    | succ n => simp [codePoints, h, ih]
  | case4 u v rest h ih =>
    cases n with
    | zero => rfl
    | succ n =>
      have ih' := ih n
      rcases codePoints_cases (v :: rest) with hnil | ⟨c, rest', hc, htext, hcons⟩
      · cases hnil
      · cases n with
        | zero => simp [codePoints]
        | succ n =>
          obtain ⟨w, tail, rfl⟩ := List.exists_cons_of_ne_nil hc
          obtain ⟨rfl, -⟩ : v = w ∧ rest = tail ++ rest' := by simpa using htext
          rw [hcons] at ih' ⊢
          simp only [List.take_succ_cons, List.flatten_cons, List.cons_append, List.nil_append]
            at ih' ⊢
          rw [codePoints, if_neg h, ih']

@[simp] theorem codePointAt_single (u : ℕ) : codePointAt [u] = u := rfl

theorem codePointAt_pair (u v : ℕ) :
    codePointAt [u, v] = 0x10000 + (u - 0xd800) * 0x400 + (v - 0xdc00) := rfl

theorem classRun_eq (p : ℕ → Bool) (text : Text) : classRun p text =
    ((codePoints text).takeWhile fun c => p (codePointAt c)).flatten.length := by
  fun_induction codePoints text with
  | case1 => rfl
  | case2 u => cases hp : p u <;> simp [classRun, hp]
  | case3 u v rest h ih =>
    rw [classRun, if_pos ((isLead_and_isTrail u v).2 h), List.takeWhile_cons, codePointAt_pair, ih]
    generalize 0x10000 + (u - 0xd800) * 0x400 + (v - 0xdc00) = point
    cases p point with
    | true =>
      simp only [if_true, List.flatten_cons, List.length_append, List.length_cons, List.length_nil]
    | false => rfl
  | case4 u v rest h ih =>
    rw [classRun, if_neg (mt (isLead_and_isTrail u v).1 h), List.takeWhile_cons,
      codePointAt_single, ih]
    cases p u with
    | true => simp [Nat.add_comm]
    | false => rfl

theorem classFirst_eq (p : ℕ → Bool) {c : Text} {cs : List Text} (h : codePoints text = c :: cs) :
    classFirst p text = if p (codePointAt c) then c.length else 0 := by
  revert h
  fun_cases codePoints text with
  | case1 => exact fun h => by cases h
  | case2 u =>
    rintro ⟨⟩
    rfl
  | case3 u v rest hpair =>
    rintro ⟨⟩
    rw [classFirst, if_pos ((isLead_and_isTrail u v).2 hpair), codePointAt_pair]
    rfl
  | case4 u v rest hpair =>
    rintro ⟨⟩
    rw [classFirst, if_neg (mt (isLead_and_isTrail u v).1 hpair), codePointAt_single]
    rfl

theorem codePoints_last {c : Text} (hc : c ∈ codePoints text) (h : c.getLast? = some DOT) :
    c = [DOT] := by
  fun_induction codePoints text with
  | case1 => cases hc
  | case2 u =>
    obtain rfl : c = [u] := by simpa using hc
    simpa using h
  | case3 u v rest hpair ih =>
    rcases List.mem_cons.1 hc with rfl | hc
    · obtain rfl : v = DOT := by simpa using h
      exact absurd hpair.2.1 (by decide)
    · exact ih hc
  | case4 u v rest hpair ih =>
    rcases List.mem_cons.1 hc with rfl | hc
    · simpa using h
    · exact ih hc

theorem codePoints_prefix {l : List Text} (h : l <+: codePoints text) :
    codePoints l.flatten = l := by
  rw [List.prefix_iff_eq_take.1 h]
  exact codePoints_take text _

theorem codePoints_ne_nil {c : Text} (hc : c ∈ codePoints text) : c ≠ [] := by
  fun_induction codePoints text with
  | case1 => cases hc
  | case2 u => simp [List.mem_singleton.1 hc]
  | case3 u v rest hpair ih =>
    rcases List.mem_cons.1 hc with rfl | hc
    · simp
    · exact ih hc
  | case4 u v rest hpair ih =>
    rcases List.mem_cons.1 hc with rfl | hc
    · simp
    · exact ih hc

theorem dropDots_snoc (value : Text) (u : ℕ) :
    dropDots (value ++ [u]) = if u = DOT then dropDots value else value ++ [u] := by
  by_cases hu : u = DOT <;> simp [dropDots, hu]

/-- The dots at the end of a text are code points of their own. -/
theorem dropDots_flatten {l : List Text} (h : l <+: codePoints text) :
    ∃ l', l' <+: l ∧ dropDots l.flatten = l'.flatten := by
  induction l using List.reverseRecOn with
  | nil => exact ⟨[], List.prefix_rfl, rfl⟩
  | append_singleton l c ih =>
    have hc : c ∈ codePoints text := h.subset (by simp)
    obtain ⟨l', hl', hdrop⟩ := ih ((List.prefix_append l [c]).trans h)
    obtain ⟨init, u, rfl⟩ := List.eq_nil_or_concat c |>.resolve_left (codePoints_ne_nil hc)
    rw [List.flatten_append, List.flatten_singleton, List.concat_eq_append, ← List.append_assoc,
      dropDots_snoc]
    split_ifs with hu
    · have hdot := codePoints_last hc (by simp [hu])
      obtain rfl : init = [] := by simpa using congrArg List.dropLast hdot
      exact ⟨l', hl'.trans (List.prefix_append _ _), by simpa using hdrop⟩
    · exact ⟨l ++ [init ++ [u]], by simp, by simp⟩

end CodePoints

section Tokens

variable {L : Lexis} {text : Text}

/-- A value of the lexer: a letter or number, then letters, numbers, marks and `._-`. -/
def Lexical (L : Lexis) (value : Text) : Prop :=
  ∃ c cs, codePoints value = c :: cs ∧ L.valueStart (codePointAt c) = true ∧
    ∀ c' ∈ cs, L.valueRest (codePointAt c') = true

theorem take_valueLength {c rest : Text} (hc : c ≠ []) (htext : text = c ++ rest)
    (hcons : codePoints text = c :: codePoints rest) :
    text.take (valueLength L text) =
      if L.valueStart (codePointAt c) then
        (c :: (codePoints rest).takeWhile fun c' => L.valueRest (codePointAt c')).flatten
      else [] := by
  rw [valueLength, classFirst_eq _ hcons]
  by_cases hstart : L.valueStart (codePointAt c) = true
  · have hzero : c.length ≠ 0 := mt List.length_eq_zero_iff.1 hc
    simp only [if_pos hstart, if_neg hzero]
    obtain ⟨more, hmore⟩ := List.takeWhile_prefix (l := codePoints rest)
      fun c' => L.valueRest (codePointAt c')
    have hsplit := congrArg List.flatten hmore
    rw [List.flatten_append, flatten_codePoints] at hsplit
    have hrest : rest.take (classRun L.valueRest rest) =
        ((codePoints rest).takeWhile fun c' => L.valueRest (codePointAt c')).flatten := by
      rw [classRun_eq]
      exact (congrArg _ hsplit).symm.trans List.take_left
    rw [htext, List.drop_left, List.take_append, List.take_of_length_le (by omega),
      Nat.add_sub_cancel_left, hrest, List.flatten_cons]
  · simp [hstart]

theorem readMentionToken_lexical {pos : ℕ} {token : ParsedMentionToken}
    (h : readMentionToken L text pos = some token) : Lexical L token.value := by
  unfold readMentionToken at h
  simp only at h
  split_ifs at h with hat hvalue
  obtain rfl := Option.some.inj h
  simp only
  rcases codePoints_cases (text.drop (pos + 1)) with hnil | ⟨c, rest, hc, htext, hcons⟩
  · simp [hnil, dropDots] at hvalue
  · rw [take_valueLength hc htext hcons] at hvalue ⊢
    split_ifs at hvalue ⊢ with hstart
    · obtain ⟨more, hmore⟩ := List.takeWhile_prefix (l := codePoints rest)
        fun c' => L.valueRest (codePointAt c')
      have hinit : (c :: (codePoints rest).takeWhile fun c' => L.valueRest (codePointAt c')) <+:
          codePoints (text.drop (pos + 1)) := ⟨more, by rw [hcons, List.cons_append, hmore]⟩
      obtain ⟨l, hl, hdrop⟩ := dropDots_flatten hinit
      rw [hdrop] at hvalue ⊢
      have hcodes := codePoints_prefix (hl.trans hinit)
      cases l with
      | nil => exact absurd rfl hvalue
      | cons c' cs =>
        obtain ⟨rfl, hcs⟩ := List.cons_prefix_cons.1 hl
        refine ⟨c', cs, hcodes, hstart, fun x hx => ?_⟩
        simpa using List.mem_takeWhile_imp (hcs.subset hx)
    · exact absurd rfl hvalue

theorem tokenValues_lexical {L : Classes} {value : Text} (h : value ∈ tokenValues L text) :
    Lexical L.toLexis value := by
  obtain ⟨ranges, hranges, hordered⟩ := ordered_markdownCodeRanges text
  simp only [tokenValues, extractMentionTokens_scan hranges hordered, Option.getD_some,
    List.mem_map, List.mem_filterMap] at h
  obtain ⟨token, ⟨pos, -, htoken⟩, rfl⟩ := h
  unfold mentionAt at htoken
  split_ifs at htoken
  exact readMentionToken_lexical htoken

theorem isIdentifierUnit_cases {u : ℕ} (h : isIdentifierUnit u = true) :
    isAsciiAlphanumeric u = true ∨ u = DOT ∨ u = 95 ∨ u = 45 := by
  simp only [isIdentifierUnit, Bool.or_eq_true, Bool.and_eq_true, decide_eq_true_eq] at h
  simp only [isAsciiAlphanumeric, Bool.or_eq_true, Bool.and_eq_true, decide_eq_true_eq, DOT]
  omega

theorem isIdentifierUnit_server (L : Classes) {u : ℕ} (h : isIdentifierUnit u = true) :
    isServerUnit L u = true := by
  rcases isIdentifierUnit_cases h with h | h | h | h
  · simp [isServerUnit, L.ascii_start u h]
  · simp [isServerUnit, h]
  · simp [isServerUnit, h]
  · simp [isServerUnit, h]

theorem isIdentifierUnit_lt {u : ℕ} (h : isIdentifierUnit u = true) : u < 0xd800 := by
  rcases isIdentifierUnit_cases h with h | h | h | h
  · simp only [isAsciiAlphanumeric, Bool.or_eq_true, Bool.and_eq_true, decide_eq_true_eq] at h
    omega
  all_goals
    rw [h]
    decide

theorem codePoints_singles {value : Text} (h : ∀ u ∈ value, u < 0xd800) :
    codePoints value = value.map fun u => [u] := by
  fun_induction codePoints value with
  | case1 => rfl
  | case2 u => rfl
  | case3 u v rest hpair ih => exact absurd hpair.1.1 (not_le.2 (h u (by simp)))
  | case4 u v rest hpair ih =>
    rw [ih fun w hw => h w (List.mem_cons_of_mem _ hw)]
    rfl

/-- `\p{M}`. -/
def isMark (L : Classes) (c : ℕ) : Bool := L.valueRest c && !isServerUnit L c

/-- No combining marks. -/
def Unmarked (L : Classes) (value : Text) : Prop :=
  ∀ c ∈ codePoints value, isMark L (codePointAt c) = false

theorem isMark_of_server {L : Classes} {c : ℕ} (h : isServerUnit L c = true) :
    isMark L c = false := by simp [isMark, h]

theorem mention_token_re_iff {L : Classes} {value : Text} : MENTION_TOKEN_RE L value = true ↔
    ∃ c cs, codePoints value = c :: cs ∧ L.valueStart (codePointAt c) = true ∧
      (∀ c' ∈ cs, isServerUnit L (codePointAt c') = true) ∧ cs.length ≤ 63 := by
  unfold MENTION_TOKEN_RE
  cases codePoints value with
  | nil => simp
  | cons c cs => simp [and_assoc]

/-- The server's expression takes a hint that has no marks, and only such a one. -/
theorem hintOf_valid {L : Classes} {value : Text} (h : Lexical L.toLexis value) :
    MENTION_TOKEN_RE L (Protocol.hintOf value) = true ↔ Unmarked L (Protocol.hintOf value) := by
  obtain ⟨c, cs, hcodes, hstart, hrest⟩ := h
  rw [mention_token_re_iff]
  constructor
  · rintro ⟨c', cs', hcodes', hstart', hall, -⟩ x hx
    rw [hcodes'] at hx
    rcases List.mem_cons.1 hx with rfl | hx
    · exact isMark_of_server (by simp [isServerUnit, hstart'])
    · exact isMark_of_server (hall x hx)
  · intro hunmarked
    unfold Protocol.hintOf at hunmarked ⊢
    cases hascii : Protocol.asciiPrefixOf value with
    | some init =>
      cases value with
      | nil => cases hascii
      | cons u rest =>
        simp only [Protocol.asciiPrefixOf, Option.ite_none_right_eq_some, Option.some.injEq]
          at hascii
        obtain ⟨hu, rfl⟩ := hascii
        have hrest : ∀ v ∈ (rest.take 63).takeWhile isIdentifierUnit, isIdentifierUnit v = true :=
          fun v hv => List.mem_takeWhile_imp hv
        have hident : isIdentifierUnit u = true := by
          simp only [isAsciiAlphanumeric] at hu
          simp [isIdentifierUnit, hu]
        refine ⟨[u], ((rest.take 63).takeWhile isIdentifierUnit).map fun v => [v], ?_,
          L.ascii_start u hu, ?_, ?_⟩
        · refine codePoints_singles fun v hv => ?_
          rcases List.mem_cons.1 hv with rfl | hv
          · exact isIdentifierUnit_lt hident
          · exact isIdentifierUnit_lt (hrest v hv)
        · intro c' hc'
          obtain ⟨v, hv, rfl⟩ := List.mem_map.1 hc'
          exact isIdentifierUnit_server L (hrest v hv)
        · rw [List.length_map]
          exact (List.takeWhile_prefix _).length_le.trans (List.length_take_le _ _)
    | none =>
      simp only [hascii, Option.getD_none] at hunmarked ⊢
      have htake := codePoints_take value 64
      rw [hcodes, List.take_succ_cons] at htake hunmarked
      rw [hcodes, List.take_succ_cons]
      refine ⟨c, cs.take 63, htake, hstart, fun x hx => ?_, List.length_take_le _ _⟩
      have hmark := hunmarked x (by rw [htake]; exact List.mem_cons_of_mem _ hx)
      simpa [isMark, hrest x (List.mem_of_mem_take hx)] using hmark

end Tokens

section Firsts

variable {U : Unicode} {known : List Text}

theorem mem_keys_firsts {key : Text} (names : List Text) :
    key ∈ keys U (firsts U known names) ↔ key ∈ keys U names ∧ key ∉ known := by
  induction names generalizing known with
  | nil => simp [firsts, keys]
  | cons name names ih =>
    rw [firsts]
    split_ifs with hname
    · rw [ih]
      simp only [keys, List.map_cons, List.mem_cons]
      constructor
      · exact fun h => ⟨Or.inr h.1, h.2⟩
      · rintro ⟨rfl | h, hkey⟩
        · exact absurd hname hkey
        · exact ⟨h, hkey⟩
    · have ih' := @ih (known ++ [mentionMatchKey U name])
      simp only [keys, List.map_cons, List.mem_cons, List.mem_append, List.not_mem_nil, or_false]
        at ih' ⊢
      rw [ih']
      by_cases hkey : key = mentionMatchKey U name
      · subst hkey
        simp [hname]
      · simp [hkey]

theorem nodup_keys_firsts (names : List Text) : (keys U (firsts U known names)).Nodup := by
  induction names generalizing known with
  | nil => simp [firsts, keys]
  | cons name names ih =>
    rw [firsts]
    split_ifs with hname
    · exact ih
    · rw [keys, List.map_cons, List.nodup_cons]
      refine ⟨fun h => ?_, ih⟩
      exact ((mem_keys_firsts names).1 h).2 (by simp)

/-- Only the keys of the names matter for how many first names there are. -/
theorem length_firsts_eq {names names' : List Text}
    (h : ∀ key, key ∈ keys U names ↔ key ∈ keys U names') :
    (firsts U known names).length = (firsts U known names').length := by
  have hperm : (keys U (firsts U known names)).Perm (keys U (firsts U known names')) :=
    (List.perm_ext_iff_of_nodup (nodup_keys_firsts _) (nodup_keys_firsts _)).2 fun key => by
      rw [mem_keys_firsts, mem_keys_firsts, h]
  simpa [keys] using hperm.length_eq

section Push

variable {explicit : List Text} {c : Collected} {name : Text}

theorem push_known (h : mentionMatchKey U name ∈ keys U explicit ++ c.seen) :
    push U explicit c name = some c :=
  if_pos (List.mem_append.1 h)

theorem push_new (h : mentionMatchKey U name ∉ keys U explicit ++ c.seen) :
    push U explicit c name =
      if MAX_MENTIONS ≤ explicit.length + c.out.length then none
      else some ⟨c.seen ++ [mentionMatchKey U name], c.out ++ [name]⟩ :=
  if_neg (mt List.mem_append.2 h)

/-- The pushes take the first names, as long as there is room for all of them. -/
theorem foldlM_push (names : List Text) (hroom : explicit.length + c.out.length ≤ MAX_MENTIONS) :
    names.foldlM (push U explicit) c =
      if explicit.length + c.out.length + (firsts U (keys U explicit ++ c.seen) names).length ≤
          MAX_MENTIONS then
        some ⟨c.seen ++ keys U (firsts U (keys U explicit ++ c.seen) names),
          c.out ++ firsts U (keys U explicit ++ c.seen) names⟩
      else none := by
  induction names generalizing c with
  | nil => simp [firsts, keys, hroom]
  | cons name names ih =>
    rw [List.foldlM_cons, firsts]
    by_cases hknown : mentionMatchKey U name ∈ keys U explicit ++ c.seen
    · rw [push_known hknown, if_pos hknown]
      exact ih hroom
    · rw [push_new hknown, if_neg hknown, List.length_cons]
      split_ifs with hfull hfits hfits
      · omega
      · rfl
      · have hroom' : explicit.length + (c.out ++ [name]).length ≤ MAX_MENTIONS := by
          rw [List.length_append, List.length_singleton]
          omega
        refine (@ih ⟨_, _⟩ hroom').trans ?_
        simp only [← List.append_assoc]
        rw [if_pos (by rw [List.length_append, List.length_singleton]; omega)]
        simp [keys]
      · have hroom' : explicit.length + (c.out ++ [name]).length ≤ MAX_MENTIONS := by
          rw [List.length_append, List.length_singleton]
          omega
        refine (@ih ⟨_, _⟩ hroom').trans ?_
        simp only [← List.append_assoc]
        rw [if_neg (by rw [List.length_append, List.length_singleton]; omega)]

end Push

end Firsts

section Server

variable {L : Classes} {U : Unicode} {explicit : List Text} {text : Text}

theorem parseMentions_length {input : Field} {list : List Text}
    (h : parseMentions L input = some list) : list.length ≤ MAX_MENTIONS := by
  unfold parseMentions at h
  split at h
  · obtain rfl := Option.some.inj h
    simp
  · cases h
  · simp only at h
    split_ifs at h with hbad
    obtain rfl := Option.some.inj h
    push Not at hbad
    exact (List.length_filterMap_le _ _).trans hbad.1

theorem parseMentions_strings (list : List Text) : parseMentions L (.array (list.map some)) =
    if list.length ≤ MAX_MENTIONS ∧ (∀ name ∈ list, MENTION_TOKEN_RE L name = true) ∧
        jsonBytes list ≤ MENTIONS_JSON_LIMIT then some list
    else none := by
  simp only [parseMentions, List.length_map, List.any_map, List.filterMap_map, Function.comp_def,
    Option.any_some, id, List.filterMap_some, List.any_eq_true, Bool.not_eq_true']
  by_cases hok : list.length ≤ MAX_MENTIONS ∧ (∀ name ∈ list, MENTION_TOKEN_RE L name = true) ∧
      jsonBytes list ≤ MENTIONS_JSON_LIMIT
  · rw [if_pos hok, if_neg]
    rintro (hlong | ⟨name, hname, hre⟩ | hbytes)
    · exact absurd hok.1 (not_le.2 hlong)
    · simp [hok.2.1 name hname] at hre
    · exact absurd hok.2.2 (not_le.2 hbytes)
  · rw [if_neg hok, if_pos]
    by_contra hnone
    push Not at hnone
    exact hok ⟨hnone.1, fun name hname => by simpa using hnone.2.1 name hname, hnone.2.2⟩

theorem mem_keys_namesInBody (clientBody : List Text) (key : Text) :
    key ∈ keys U (namesInBody L U clientBody text) ↔ key ∈ keys U (tokenValues L text) := by
  simp only [namesInBody, keys, List.map_append, List.mem_append, or_iff_right_iff_imp,
    List.mem_map, List.mem_filter, decide_eq_true_eq]
  rintro ⟨name, ⟨-, hbody⟩, rfl⟩
  exact hbody

theorem collectBodyMentions_eq (clientBody : List Text) (h : explicit.length ≤ MAX_MENTIONS) :
    collectBodyMentions L U explicit clientBody text =
      if explicit.length +
            (firsts U (keys U explicit) (namesInBody L U clientBody text)).length ≤ MAX_MENTIONS ∧
          jsonBytes (firsts U (keys U explicit) (namesInBody L U clientBody text)) ≤
            MENTIONS_JSON_LIMIT then
        some (firsts U (keys U explicit) (namesInBody L U clientBody text))
      else none := by
  have hpush := @foldlM_push U explicit ⟨[], []⟩ (namesInBody L U clientBody text) h
  simp only [List.append_nil, List.nil_append, List.length_nil, Nat.add_zero] at hpush
  have hcollect : collectBodyMentions L U explicit clientBody text =
      ((namesInBody L U clientBody text).foldlM (push U explicit) ⟨[], []⟩).bind fun c =>
        if jsonBytes c.out ≤ MENTIONS_JSON_LIMIT then some c.out else none := by
    rw [namesInBody, List.foldlM_append]
    simp only [collectBodyMentions, keys, Option.bind_eq_bind, Option.bind_assoc]
    rfl
  rw [hcollect, hpush]
  split_ifs with hfits hboth hboth
  · exact if_pos hboth.2
  · exact if_neg fun hbytes => hboth ⟨hfits, hbytes⟩
  · exact absurd hboth.1 hfits
  · rfl

theorem parseSendFrame_iff {ρ : Type*} {φ : Type} {parseOthers : ρ → Option φ} {f : SendPayload ρ}
    {frame : SendFrame φ} : parseSendFrame L U parseOthers f = some frame ↔
      f.body = some frame.body ∧ parseMentions L f.mentions = some frame.mentions ∧
        (∃ clientBody, parseMentions L f.bodyMentions = some clientBody ∧
          collectBodyMentions L U frame.mentions clientBody frame.body =
            some frame.bodyMentions) ∧
        parseOthers f.others = some frame.others := by
  simp only [parseSendFrame, Option.bind_eq_bind, Option.bind_eq_some_iff, Option.some.injEq]
  constructor
  · rintro ⟨body, hbody, explicit, hexplicit, client, hclient, out, hout, others, hothers, rfl⟩
    exact ⟨hbody, hexplicit, ⟨client, hclient, hout⟩, hothers⟩
  · rintro ⟨hbody, hexplicit, ⟨client, hclient, hout⟩, hothers⟩
    exact ⟨_, hbody, _, hexplicit, client, hclient, _, hout, _, hothers, rfl⟩

end Server

section Hints

variable {L : Classes} {U : Unicode}

theorem mem_extractLoop {limit : ℤ} {tokens : List Text} {h : Protocol.Hints} {hint : Text}
    (hmem : hint ∈ Protocol.extractLoop U limit tokens h) :
    hint ∈ h.out ∨ ∃ token ∈ tokens, hint = Protocol.hintOf token := by
  induction tokens generalizing h with
  | nil => exact Or.inl hmem
  | cons token tokens ih =>
    have hlater : hint ∈ h.out ++ [Protocol.hintOf token] ∨
        (∃ token ∈ tokens, hint = Protocol.hintOf token) →
          hint ∈ h.out ∨ ∃ token' ∈ token :: tokens, hint = Protocol.hintOf token' := by
      rintro (hout | ⟨token', htoken', heq⟩)
      · rcases List.mem_append.1 hout with hout | hout
        · exact Or.inl hout
        · exact Or.inr ⟨token, List.mem_cons_self, List.mem_singleton.1 hout⟩
      · exact Or.inr ⟨token', List.mem_cons_of_mem _ htoken', heq⟩
    rw [Protocol.extractLoop] at hmem
    simp only at hmem
    split_ifs at hmem with hseen hlimit
    · exact hlater ((ih hmem).imp_left (List.mem_append_left _))
    · exact hlater (Or.inl hmem)
    · exact hlater (ih hmem)

theorem extractMentionTokens_valid {text : Text} {limit : ℤ} {hint : Text}
    (h : hint ∈ Protocol.extractMentionTokens L U text limit) :
    MENTION_TOKEN_RE L hint = true ↔ Unmarked L hint := by
  unfold Protocol.extractMentionTokens at h
  split_ifs at h with hlimit
  · cases h
  · rcases mem_extractLoop h with hnil | ⟨token, htoken, rfl⟩
    · cases hnil
    · exact hintOf_valid (tokenValues_lexical htoken)

/-- The hints of a body have no combining marks and pass for a list of mentions, and spelled as
the hints are the mentions of the body still have room. -/
structure HintsFit (L : Classes) (U : Unicode) (explicit : List Text) (body : Text) (limit : ℤ) :
    Prop where
  unmarked : ∀ hint ∈ Protocol.extractMentionTokens L U body limit, Unmarked L hint
  count : (Protocol.extractMentionTokens L U body limit).length ≤ MAX_MENTIONS
  bytes : jsonBytes (Protocol.extractMentionTokens L U body limit) ≤ MENTIONS_JSON_LIMIT
  spelled : jsonBytes (firsts U (keys U explicit)
    (namesInBody L U (Protocol.extractMentionTokens L U body limit) body)) ≤ MENTIONS_JSON_LIMIT

/-- A message that is accepted without hints is accepted with the hints of its body, and to the
same mentions, if and only if the hints fit. -/
theorem hints_accepted_iff {ρ : Type*} {φ : Type} {parseOthers : ρ → Option φ} {body : Text}
    {mentions : Field} {others : ρ} {frame : SendFrame φ}
    (h : parseSendFrame L U parseOthers ⟨some body, mentions, .missing, others⟩ = some frame)
    (limit : ℤ) :
    (∃ frame', parseSendFrame L U parseOthers ⟨some body, mentions,
        .array ((Protocol.extractMentionTokens L U body limit).map some), others⟩ = some frame' ∧
      ∀ key, key ∈ keys U frame'.bodyMentions ↔ key ∈ keys U frame.bodyMentions) ↔
      HintsFit L U frame.mentions body limit := by
  obtain ⟨hbody, hmentions, ⟨client, hclient, hout⟩, hothers⟩ := parseSendFrame_iff.1 h
  obtain rfl : body = frame.body := Option.some.inj hbody
  obtain rfl : [] = client := Option.some.inj hclient
  have hexplicit := parseMentions_length hmentions
  rw [collectBodyMentions_eq _ hexplicit] at hout
  split_ifs at hout with hfits
  obtain hframe := Option.some.inj hout
  set hints := Protocol.extractMentionTokens L U frame.body limit with hhints
  have hsame : ∀ key, key ∈ keys U (namesInBody L U hints frame.body) ↔
      key ∈ keys U (namesInBody L U [] frame.body) := fun key => by
    rw [mem_keys_namesInBody, mem_keys_namesInBody]
  have hcount : frame.mentions.length +
      (firsts U (keys U frame.mentions) (namesInBody L U hints frame.body)).length ≤
        MAX_MENTIONS := by
    rw [length_firsts_eq hsame]
    exact hfits.1
  constructor
  · rintro ⟨frame', hframe', -⟩
    obtain ⟨hbody', hmentions', ⟨client, hclient', hout'⟩, -⟩ := parseSendFrame_iff.1 hframe'
    rw [parseMentions_strings] at hclient'
    split_ifs at hclient' with hvalid
    obtain rfl := Option.some.inj hclient'
    obtain hexplicit' : frame.mentions = frame'.mentions :=
      Option.some.inj (hmentions.symm.trans hmentions')
    obtain hbody'' : frame.body = frame'.body := Option.some.inj hbody'
    rw [← hexplicit', ← hbody'', collectBodyMentions_eq _ hexplicit] at hout'
    split_ifs at hout' with hfits'
    exact ⟨fun hint hhint => (extractMentionTokens_valid hhint).1 (hvalid.2.1 hint hhint),
      hvalid.1, hvalid.2.2, hfits'.2⟩
  · intro hfit
    refine ⟨⟨frame.body, frame.mentions,
      firsts U (keys U frame.mentions) (namesInBody L U hints frame.body), frame.others⟩,
      parseSendFrame_iff.2 ⟨rfl, hmentions, ⟨hints, ?_, ?_⟩, hothers⟩, fun key => ?_⟩
    · rw [parseMentions_strings, if_pos]
      exact ⟨hfit.count, fun hint hhint =>
        (extractMentionTokens_valid hhint).2 (hfit.unmarked hint hhint), hfit.bytes⟩
    · rw [collectBodyMentions_eq _ hexplicit, if_pos ⟨hcount, hfit.spelled⟩]
    · rw [← hframe, mem_keys_firsts, mem_keys_firsts, hsame]

end Hints

section Samples

/-- The letters of Devanagari beside ASCII. -/
def isDevanagariStart (u : ℕ) : Bool := isAsciiAlphanumeric u || (0x904 ≤ u && u ≤ 0x939)

theorem isDevanagariStart_ascii (u : ℕ) (h : isAsciiAlphanumeric u = true) :
    isDevanagariStart u = true := by simp [isDevanagariStart, h]

/-- The vowel signs of Devanagari and the virama are marks. -/
def devanagari : Classes where
  valueStart := isDevanagariStart
  valueRest u := isDevanagariStart u || (0x93a ≤ u && u ≤ 0x94f && u ≠ 0x93d) ||
    u = DOT || u = 95 || u = 45
  isNpmScopedPackage _ _ := false
  isMentionInEmail _ _ := false
  isMentionInUrl _ _ := false
  ascii_start := isDevanagariStart_ascii

/-- `@bob`. -/
def atBob : Text := [64, 98, 111, 98]

theorem hints_accepted_iff_bob : ∃ frame', parseSendFrame devanagari latin some
    ⟨some atBob, .missing, .array ((Protocol.extractMentionTokens devanagari latin atBob 50).map
      some), ()⟩ = some frame' ∧
    ∀ key, key ∈ keys latin frame'.bodyMentions ↔ key ∈ keys latin [[98, 111, 98]] :=
  (@hints_accepted_iff devanagari latin Unit Unit some atBob .missing ()
    ⟨atBob, [], [[98, 111, 98]], ()⟩ rfl 50).2
    ⟨by unfold Unmarked; decide, by decide, by decide, by decide⟩

/-- `@हिन्दी`, a word with vowel signs: the message is accepted without the hint only. -/
def atHindi : Text := [64, 0x939, 0x93f, 0x928, 0x94d, 0x926, 0x940]

theorem marked_hint_rejects_message :
    ¬ ∀ (L : Classes) (U : Unicode) (body : Text) (mentions : Field) (limit : ℤ)
      (frame : SendFrame Unit),
      parseSendFrame L U some ⟨some body, mentions, .missing, ()⟩ = some frame →
        ∃ frame', parseSendFrame L U some ⟨some body, mentions,
            .array ((Protocol.extractMentionTokens L U body limit).map some), ()⟩ = some frame' ∧
          ∀ key, key ∈ keys U frame'.bodyMentions ↔ key ∈ keys U frame.bodyMentions := by
  intro hclaim
  obtain ⟨frame', hframe', -⟩ := hclaim devanagari latin atHindi .missing 50
    ⟨atHindi, [], [atHindi.tail], ()⟩ rfl
  have hnone : parseSendFrame devanagari latin some ⟨some atHindi, .missing,
      .array ((Protocol.extractMentionTokens devanagari latin atHindi 50).map some), ()⟩ =
        none := rfl
  rw [hnone] at hframe'
  cases hframe'

end Samples

end Mentions
end AgentParty
