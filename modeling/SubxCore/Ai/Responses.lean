import SubxCore.Common.ByteSlices
import SubxCore.Error
/-!
# Parsing a reply

The object of a reply is cut out from the first opening brace to the last
closing brace, and decoded. The two are searched for on their own, so in a reply
that is no object the one may stand far behind the other, and the cut panics
(`cut_eq_none_iff`). Around an object there may be any text without braces.
-/

namespace SubxCore.Ai

open Text

/-- Why a reply is not parsed. -/
inductive ParseStop
  | failed (error : SubXError)
  /-- A slice that begins after its end. -/
  | sliceOrder
  deriving DecidableEq, Repr

/-- The part of a response that is decoded: from the first opening brace, or the
beginning, through the last closing brace, or to the end. -/
def cut (response : Text) : Option Text :=
  let jsonStart := (find '\x7b' response).getD 0
  let jsonEnd := ((rfind '\x7d' response).map (· + 1)).getD (byteLen response)
  slice response jsonStart jsonEnd

variable {α β : Type}

/-- A response parsed with `serde_json::from_str`, whose error is introduced by
a text. -/
def parseObject (failure : Text) (fromStr : Text → Except Text α) (response : Text) :
    Except ParseStop α :=
  match cut response with
  | none => .error .sliceOrder
  | some jsonStr => (fromStr jsonStr).mapError fun e => .failed (.aiService (failure ++ e))

/-- `parse_match_result_base`. -/
def parseMatchResultBase (fromStr : Text → Except Text α) (response : Text) : Except ParseStop α :=
  parseObject "AI response parsing failed: ".toList fromStr response

/-- `parse_confidence_score_base`. -/
def parseConfidenceScoreBase (fromStr : Text → Except Text α) (response : Text) :
    Except ParseStop α :=
  parseObject "AI confidence parsing failed: ".toList fromStr response

/-! ## What is cut out -/

variable {p m r before between after response pre j suf : Text}

theorem utf8Size_open : Char.utf8Size '\x7b' = 1 := rfl

theorem utf8Size_close : Char.utf8Size '\x7d' = 1 := rfl

/-- An object is cut out as it is. -/
theorem cut_object (hp : '\x7b' ∉ p) (hr : '\x7d' ∉ r) :
    cut (p ++ '\x7b' :: (m ++ '\x7d' :: r)) = some ('\x7b' :: (m ++ ['\x7d'])) := by
  have hend : p ++ '\x7b' :: (m ++ '\x7d' :: r) = (p ++ '\x7b' :: m) ++ '\x7d' :: r := by
    rw [List.append_assoc, List.cons_append]
  have hslice := slice_append p ('\x7b' :: (m ++ ['\x7d'])) r
  rw [List.cons_append, List.append_assoc, List.singleton_append] at hslice
  have hlen : byteLen (p ++ '\x7b' :: m) + 1 =
      byteLen p + byteLen ('\x7b' :: (m ++ ['\x7d'])) := by
    rw [byteLen_append, byteLen_cons, byteLen_cons, byteLen_append, byteLen_cons, utf8Size_open,
      utf8Size_close, byteLen_nil]
    omega
  rw [cut, find_append hp, hend, rfind_append _ hr, ← hend]
  dsimp only [Option.getD_some, Option.map_some]
  rw [hlen, hslice]

/-- Where all closing braces stand before all opening ones, nothing is cut out, or
not even that. -/
theorem cut_reversed (hbefore : '\x7b' ∉ before) (hopen : '\x7b' ∉ between)
    (hclose : '\x7d' ∉ between) (hafter : '\x7d' ∉ after) :
    cut (before ++ '\x7d' :: (between ++ '\x7b' :: after)) =
      if between = [] then some [] else none := by
  have hstart : before ++ '\x7d' :: (between ++ '\x7b' :: after) =
      (before ++ '\x7d' :: between) ++ '\x7b' :: after := by
    rw [List.append_assoc, List.cons_append]
  have hfirst : '\x7b' ∉ before ++ '\x7d' :: between := by
    rw [List.mem_append, List.mem_cons, not_or, not_or]
    exact ⟨hbefore, by decide, hopen⟩
  have hlast : '\x7d' ∉ between ++ '\x7b' :: after := by
    rw [List.mem_append, List.mem_cons, not_or, not_or]
    exact ⟨hclose, by decide, hafter⟩
  have hlen : byteLen (before ++ '\x7d' :: between) = byteLen before + 1 + byteLen between := by
    rw [byteLen_append, byteLen_cons, utf8Size_close]
    omega
  rw [cut, rfind_append _ hlast, hstart, find_append hfirst]
  dsimp only [Option.getD_some, Option.map_some]
  split
  · next h =>
    subst h
    rw [byteLen_nil, Nat.add_zero] at hlen
    rw [← hlen, slice_self]
  · next h =>
    refine slice_eq_none_of_lt ?_
    obtain ⟨c, rest, rfl⟩ := List.exists_cons_of_ne_nil h
    have := c.utf8Size_pos
    rw [hlen, byteLen_cons]
    omega

/-- A text with both braces has an object, or all the closing braces before all the
opening ones. -/
theorem object_or_reversed (hopen : '\x7b' ∈ response) (hclose : '\x7d' ∈ response) :
    (∃ p m r, response = p ++ '\x7b' :: (m ++ '\x7d' :: r) ∧ '\x7b' ∉ p ∧ '\x7d' ∉ r) ∨
      ∃ before between after, response = before ++ '\x7d' :: (between ++ '\x7b' :: after) ∧
        '\x7b' ∉ before ∧ '\x7b' ∉ between ∧ '\x7d' ∉ between ∧ '\x7d' ∉ after := by
  obtain ⟨p, rest, hfirst, hp⟩ := List.eq_append_cons_of_mem hopen
  obtain ⟨q, r, hlast, hr⟩ := exists_eq_append_last hclose
  rw [hfirst] at hlast
  rcases List.append_eq_append_iff.1 hlast with ⟨m, rfl, hm⟩ | ⟨m, rfl, hm⟩
  · -- the opening brace comes first
    cases m with
    | nil => cases hm
    | cons c m =>
      obtain ⟨rfl, rfl⟩ := List.cons.inj hm
      exact .inl ⟨p, m, r, hfirst, hp, hr⟩
  · cases m with
    | nil => cases hm
    | cons c m =>
      obtain ⟨rfl, rfl⟩ := List.cons.inj hm
      rw [List.mem_append, List.mem_cons, not_or, not_or] at hp
      rw [List.append_eq, List.mem_append, List.mem_cons, not_or, not_or] at hr
      refine .inr ⟨q, m, rest, ?_, hp.1, hp.2.2, hr.1, hr.2.2⟩
      rw [hfirst, List.append_assoc, List.cons_append]

/-- **Nothing can be cut out** exactly where all closing braces stand before all
opening ones, and not right before. -/
theorem cut_eq_none_iff : cut response = none ↔
    ∃ before between after, response = before ++ '\x7d' :: (between ++ '\x7b' :: after) ∧
      '\x7b' ∉ before ∧ '\x7b' ∉ between ∧ '\x7d' ∉ between ∧ '\x7d' ∉ after ∧ between ≠ [] := by
  constructor
  · intro h
    by_cases hopen : '\x7b' ∈ response
    · by_cases hclose : '\x7d' ∈ response
      · rcases object_or_reversed hopen hclose with ⟨p, m, r, rfl, hp, hr⟩ |
          ⟨before, between, after, rfl, hbefore, hopen', hclose', hafter⟩
        · rw [cut_object hp hr] at h
          cases h
        · rw [cut_reversed hbefore hopen' hclose' hafter] at h
          refine ⟨before, between, after, rfl, hbefore, hopen', hclose', hafter, fun hnil => ?_⟩
          rw [if_pos hnil] at h
          cases h
      · -- from the first opening brace to the end
        obtain ⟨p, rest, rfl, hp⟩ := List.eq_append_cons_of_mem hopen
        have hslice := slice_append p ('\x7b' :: rest) []
        rw [List.append_nil, ← byteLen_append] at hslice
        rw [cut, find_append hp, rfind_eq_none.2 hclose] at h
        dsimp only [Option.getD_some, Option.map_none, Option.getD_none] at h
        rw [hslice] at h
        cases h
    · by_cases hclose : '\x7d' ∈ response
      · -- from the beginning through the last closing brace
        obtain ⟨p, r, rfl, hr⟩ := exists_eq_append_last hclose
        have hslice := slice_append [] (p ++ ['\x7d']) r
        rw [List.nil_append, byteLen_nil, Nat.zero_add, List.append_assoc, List.singleton_append,
          byteLen_append, byteLen_cons, byteLen_nil, utf8Size_close] at hslice
        rw [cut, find_eq_none.2 hopen, rfind_append _ hr] at h
        dsimp only [Option.getD_some, Option.map_some, Option.getD_none] at h
        rw [hslice] at h
        cases h
      · have hslice := slice_append [] response []
        rw [List.nil_append, List.append_nil, byteLen_nil, Nat.zero_add] at hslice
        rw [cut, find_eq_none.2 hopen, rfind_eq_none.2 hclose] at h
        dsimp only [Option.map_none, Option.getD_none] at h
        rw [hslice] at h
        cases h
  · rintro ⟨before, between, after, rfl, hbefore, hopen, hclose, hafter, hne⟩
    rw [cut_reversed hbefore hopen hclose hafter, if_neg hne]

/-- **Around an object there may be any text without braces.** -/
theorem cut_surrounded (hopen : '\x7b' ∈ j) (hclose : '\x7d' ∈ j)
    (hpre : '\x7b' ∉ pre ∧ '\x7d' ∉ pre) (hsuf : '\x7b' ∉ suf ∧ '\x7d' ∉ suf) :
    cut (pre ++ j ++ suf) = cut j := by
  rcases object_or_reversed hopen hclose with ⟨p, m, r, rfl, hp, hr⟩ |
    ⟨before, between, after, rfl, hbefore, hopen', hclose', hafter⟩
  · have heq : pre ++ (p ++ '\x7b' :: (m ++ '\x7d' :: r)) ++ suf =
        (pre ++ p) ++ '\x7b' :: (m ++ '\x7d' :: (r ++ suf)) := by
      simp only [List.append_assoc, List.cons_append]
    rw [heq, cut_object hp hr]
    refine cut_object ?_ ?_
    · exact List.not_mem_append hpre.1 hp
    · exact List.not_mem_append hr hsuf.2
  · have heq : pre ++ (before ++ '\x7d' :: (between ++ '\x7b' :: after)) ++ suf =
        (pre ++ before) ++ '\x7d' :: (between ++ '\x7b' :: (after ++ suf)) := by
      simp only [List.append_assoc, List.cons_append]
    rw [heq, cut_reversed hbefore hopen' hclose' hafter]
    exact cut_reversed (List.not_mem_append hpre.1 hbefore) hopen' hclose'
      (List.not_mem_append hafter hsuf.2)

/-! ## Parsing -/

/-- **A result or an error of the provider**, and no panic. -/
def Typed (result : Except ParseStop α) : Prop :=
  (∃ value, result = .ok value) ∨ ∃ message, result = .error (.failed (.aiService message))

theorem typed_parseObject {failure : Text} {fromStr : Text → Except Text α} :
    Typed (parseObject failure fromStr response) ↔ cut response ≠ none := by
  unfold parseObject
  cases cut response with
  | none =>
    refine iff_of_false ?_ fun h => h rfl
    rintro (⟨value, h⟩ | ⟨message, h⟩) <;> cases h
  | some jsonStr =>
    refine iff_of_true ?_ (Option.some_ne_none _)
    dsimp only
    cases fromStr jsonStr with
    | ok value => exact .inl ⟨value, rfl⟩
    | error e => exact .inr ⟨_, rfl⟩

/-- **A response is parsed without a panic**, whatever is decoded, unless all its
closing braces stand before all opening ones, and not right before; and a text
with an object in it is parsed as it is with any text without braces around. -/
theorem parse_response (fromStr : Text → Except Text α) (fromStr' : Text → Except Text β)
    (response : Text) :
    (Typed (parseMatchResultBase fromStr response) ↔
      ¬∃ before between after, response = before ++ '\x7d' :: (between ++ '\x7b' :: after) ∧
        '\x7b' ∉ before ∧ '\x7b' ∉ between ∧ '\x7d' ∉ between ∧ '\x7d' ∉ after ∧
        between ≠ []) ∧
    (Typed (parseConfidenceScoreBase fromStr' response) ↔
      ¬∃ before between after, response = before ++ '\x7d' :: (between ++ '\x7b' :: after) ∧
        '\x7b' ∉ before ∧ '\x7b' ∉ between ∧ '\x7d' ∉ between ∧ '\x7d' ∉ after ∧
        between ≠ []) ∧
    ∀ pre j suf, '\x7b' ∈ j → '\x7d' ∈ j → '\x7b' ∉ pre ∧ '\x7d' ∉ pre →
      '\x7b' ∉ suf ∧ '\x7d' ∉ suf →
      parseMatchResultBase fromStr (pre ++ j ++ suf) = parseMatchResultBase fromStr j ∧
      parseConfidenceScoreBase fromStr' (pre ++ j ++ suf) =
        parseConfidenceScoreBase fromStr' j := by
  refine ⟨?_, ?_, fun pre j suf hopen hclose hpre hsuf => ?_⟩
  · rw [parseMatchResultBase, typed_parseObject, ← cut_eq_none_iff]
  · rw [parseConfidenceScoreBase, typed_parseObject, ← cut_eq_none_iff]
  · unfold parseMatchResultBase parseConfidenceScoreBase parseObject
    rw [cut_surrounded hopen hclose hpre hsuf]
    exact ⟨rfl, rfl⟩

/-- A closing brace, a blank and an opening brace panic. -/
theorem reversed_braces_panic : ¬∀ response,
    Typed (parseMatchResultBase (fun _ => (.error [] : Except Text Unit)) response) := by
  intro h
  have hcut : cut ['\x7d', ' ', '\x7b'] = none := by decide
  exact (typed_parseObject.1 (h ['\x7d', ' ', '\x7b'])) hcut

end SubxCore.Ai
