import SubxCore.Common.Occurrences
import SubxCore.Common.Run
import SubxCore.Translation.Protect
import Mathlib.Data.List.Nodup
import Mathlib.Data.List.Range
import Mathlib.Tactic.IntervalCases
/-!
# Restored formatting

A translation brings the placeholders of a cue in any order, with any text around
them. They are put back one after another, into a text that has tags in it
already. Each is found where it stands and nowhere else: what identifies a
placeholder starts in no literal, in no tag, and in no other placeholder.
-/

namespace SubxCore

open Text Decimal

variable {cueIndex marker other n : ℕ} {lead lit text tag t : Text} {cue : ProtectedCueText}
variable {shown : Text × Text → Text} {slots : List ((Text × Text) × Text)}

/-- What every placeholder has, and no text or tag of a cue. -/
def placeholderMark : Text := "SUBX_FMT_".toList

/-- A placeholder from its mark on. -/
def placeholderWord (cueIndex marker : ℕ) : Text :=
  placeholderMark ++ decimal cueIndex ++ "_".toList ++ decimal marker ++ "__".toList

theorem formatPlaceholder_eq (cueIndex marker : ℕ) :
    formatPlaceholder cueIndex marker = "__".toList ++ placeholderWord cueIndex marker := by
  have hmark : "__SUBX_FMT_".toList = "__".toList ++ placeholderMark := rfl
  unfold formatPlaceholder placeholderWord
  rw [hmark]
  generalize decimal cueIndex = a
  generalize decimal marker = b
  simp only [List.append_assoc]

/-! ## What a placeholder is made of -/

theorem isDigit_or_mem_of_mem_placeholder {c : Char} (h : c ∈ formatPlaceholder cueIndex marker) :
    c.isDigit = true ∨ c ∈ "__SUBX_FMT_".toList := by
  have hcue : c ∈ decimal cueIndex → c.isDigit = true := isDigit_of_mem_decimal
  have hmarker : c ∈ decimal marker → c.isDigit = true := isDigit_of_mem_decimal
  unfold formatPlaceholder at h
  generalize decimal cueIndex = a at h hcue
  generalize decimal marker = b at h hmarker
  simp only [List.mem_append] at h
  rcases h with (((h | h) | h) | h) | h
  · exact .inr h
  · exact .inl (hcue h)
  · exact .inr ((by decide : "_".toList <+: "__SUBX_FMT_".toList).subset h)
  · exact .inl (hmarker h)
  · exact .inr ((by decide : "__".toList <+: "__SUBX_FMT_".toList).subset h)

theorem underscore_not_mem_decimal : '_' ∉ decimal n := fun h =>
  absurd (isDigit_of_mem_decimal h) (by decide)

theorem decimal_injective {m : ℕ} (h : decimal n = decimal m) : n = m := by
  rw [← ofDigitChars_decimal (n := n), h, ofDigitChars_decimal]

/-! ## Where a placeholder starts -/

/-- What may follow a literal: nothing, a placeholder or a tag. -/
def IsBoundary (t : Text) : Prop :=
  t = [] ∨ "__".toList <+: t ∨ t.head? = some '<' ∨ t.head? = some '{'

/-- A text in brackets. -/
structure IsToken (token : Text) : Prop where
  opens : token.head? = some '<' ∨ token.head? = some '{'
  closes : token.getLast? = some '>' ∨ token.getLast? = some '}'

/-- A tag: in brackets, and without the mark. -/
structure IsTag (tag : Text) : Prop extends IsToken tag where
  unmarked : ¬ placeholderMark <:+: tag

theorem mem_placeholder_of_mem_word {c : Char} (h : c ∈ placeholderWord cueIndex marker) :
    c ∈ formatPlaceholder cueIndex marker := by
  rw [formatPlaceholder_eq]
  exact List.mem_append_right _ h

/-- No bracket is in a placeholder. -/
theorem bracket_not_mem_word :
    '<' ∉ placeholderWord cueIndex marker ∧ '{' ∉ placeholderWord cueIndex marker ∧
      '>' ∉ placeholderWord cueIndex marker ∧ '}' ∉ placeholderWord cueIndex marker := by
  refine ⟨fun h => ?_, fun h => ?_, fun h => ?_, fun h => ?_⟩ <;>
    exact absurd (isDigit_or_mem_of_mem_placeholder (mem_placeholder_of_mem_word h)) (by decide)

theorem mark_prefix_word : placeholderMark <+: placeholderWord cueIndex marker :=
  ⟨_, by simp only [placeholderWord, List.append_assoc]; rfl⟩

/-- What a literal ends with is not all of a mark. -/
theorem length_lt_of_suffix_literal {x y : Text} (hlit : ¬ placeholderMark <:+: lit)
    (hword : placeholderWord cueIndex marker = x ++ y) (hsuffix : x <:+ lit) :
    x.length < placeholderMark.length := by
  by_contra hlong
  have hmark : placeholderMark <+: x :=
    List.prefix_of_prefix_length_le mark_prefix_word (hword ▸ List.prefix_append x y)
      (not_lt.1 hlong)
  exact hlit (hmark.isInfix.trans hsuffix.isInfix)

/-- The mark and the first digit. -/
theorem exists_word_eq_mark (cueIndex marker : ℕ) :
    ∃ d rest, d ≠ '_' ∧ placeholderWord cueIndex marker = placeholderMark ++ d :: rest := by
  obtain ⟨d, ds, hdecimal⟩ := List.exists_cons_of_ne_nil (decimal_ne_nil (n := cueIndex))
  refine ⟨d, ds ++ ("_".toList ++ (decimal marker ++ "__".toList)), fun h => ?_, ?_⟩
  · refine underscore_not_mem_decimal (n := cueIndex) ?_
    rw [hdecimal, h]
    exact List.mem_cons_self
  · rw [placeholderWord, hdecimal]
    simp only [List.append_assoc, List.cons_append]

/-- No two underscores stand in the mark, or at its end and after it. -/
theorem word_ne_of_underscores {x z : Text} (hpos : 0 < x.length)
    (hlength : x.length < placeholderMark.length) :
    placeholderWord cueIndex marker ≠ x ++ ("__".toList ++ z) := by
  intro hword
  have hfirst : (placeholderWord cueIndex marker)[x.length]? = some '_' := by
    rw [hword, List.getElem?_append_right le_rfl, Nat.sub_self]
    rfl
  have hsecond : (placeholderWord cueIndex marker)[x.length + 1]? = some '_' := by
    rw [hword, List.getElem?_append_right (Nat.le_succ _), Nat.succ_sub le_rfl, Nat.sub_self]
    rfl
  obtain ⟨d, rest, hd, hcons⟩ := exists_word_eq_mark cueIndex marker
  rw [hcons] at hfirst hsecond
  have hmark : placeholderMark ++ d :: rest =
      'S' :: 'U' :: 'B' :: 'X' :: '_' :: 'F' :: 'M' :: 'T' :: '_' :: d :: rest := rfl
  have hnine : placeholderMark.length = 9 := rfl
  rw [hmark] at hfirst hsecond
  rw [hnine] at hlength
  clear hword hcons hmark
  generalize x.length = m at hlength hpos hfirst hsecond
  interval_cases m <;> simp_all

/-- **It starts in no literal.** Its mark is not there, and what follows a literal
does not complete one: a digit comes after the mark. -/
theorem noStart_literal (hlit : ¬ placeholderMark <:+: lit) (ht : IsBoundary t) :
    NoStart (placeholderWord cueIndex marker) lit t := by
  intro k hk hpre
  rcases starts_cases hk hpre with hin | ⟨x, y, hword, hx, hsuffix, hy, hyt⟩
  · exact hlit (mark_prefix_word.isInfix.trans hin)
  -- it starts with `x` at the end of the literal, and goes on with `y` behind it
  have hlength := length_lt_of_suffix_literal hlit hword hsuffix
  rcases ht with rfl | hunder | hbracket
  · -- nothing is left to go on with
    exact hy (List.prefix_nil.1 hyt)
  · have hyUnder : "__".toList <+: y := by
      refine List.prefix_of_prefix_length_le hunder hyt ?_
      obtain ⟨d, rest, -, hcons⟩ := exists_word_eq_mark cueIndex marker
      have hall := congrArg List.length (hcons.symm.trans hword)
      simp only [List.length_append, List.length_cons] at hall
      have htwo : "__".toList.length = 2 := rfl
      omega
    obtain ⟨z, rfl⟩ := hyUnder
    exact word_ne_of_underscores (List.length_pos_of_ne_nil hx) hlength hword
  · obtain ⟨c, y, rfl⟩ := List.exists_cons_of_ne_nil hy
    have hc : t.head? = some c := by
      obtain ⟨z, rfl⟩ := hyt
      rfl
    have hmem : c ∈ placeholderWord cueIndex marker :=
      hword ▸ List.mem_append_right x List.mem_cons_self
    rw [hc] at hbracket
    rcases hbracket with h | h <;> cases h
    · exact bracket_not_mem_word.1 hmem
    · exact bracket_not_mem_word.2.1 hmem

/-- **It starts in no tag**, whatever follows. -/
theorem noStart_tag (htag : IsTag tag) : NoStart (placeholderWord cueIndex marker) tag t := by
  intro k hk hpre
  rcases starts_cases hk hpre with hin | ⟨x, y, hword, hx, hsuffix, -, -⟩
  · exact htag.unmarked (mark_prefix_word.isInfix.trans hin)
  have hlast : tag.getLast? = some (x.getLast hx) := by
    obtain ⟨s, rfl⟩ := hsuffix
    rw [List.getLast?_append_of_ne_nil _ hx, List.getLast?_eq_some_getLast hx]
  have hmem : x.getLast hx ∈ placeholderWord cueIndex marker :=
    hword ▸ List.mem_append_left y (List.getLast_mem hx)
  rcases htag.closes with h | h <;> rw [hlast] at h <;> rw [Option.some.inj h] at hmem
  · exact bracket_not_mem_word.2.2.1 hmem
  · exact bracket_not_mem_word.2.2.2 hmem

/-- It starts with its only `S`. -/
theorem exists_word_eq_cons (cueIndex marker : ℕ) :
    ∃ rest, placeholderWord cueIndex marker = 'S' :: rest ∧ 'S' ∉ rest := by
  have hcue : 'S' ∉ decimal cueIndex := fun h => absurd (isDigit_of_mem_decimal h) (by decide)
  have hmarker : 'S' ∉ decimal marker := fun h => absurd (isDigit_of_mem_decimal h) (by decide)
  unfold placeholderWord
  generalize decimal cueIndex = a at hcue
  generalize decimal marker = b at hmarker
  refine ⟨"UBX_FMT_".toList ++ a ++ "_".toList ++ b ++ "__".toList, rfl, ?_⟩
  simp only [List.mem_append, not_or]
  exact ⟨⟨⟨⟨by decide, hcue⟩, by decide⟩, hmarker⟩, by decide⟩

/-- The numbers of two placeholders are compared up to their underscore. -/
theorem eq_of_prefix_word
    (h : placeholderWord cueIndex marker <+: placeholderWord cueIndex other ++ t) :
    marker = other := by
  unfold placeholderWord at h
  simp only [List.append_assoc, List.prefix_append_right_inj] at h
  exact decimal_injective
    (eq_of_prefix_up_to underscore_not_mem_decimal underscore_not_mem_decimal h)

/-- **It starts in no other placeholder**, whatever follows: an `S` is in one place
only, and there the other number stands. -/
theorem noStart_placeholder (hne : marker ≠ other) :
    NoStart (placeholderWord cueIndex marker) (formatPlaceholder cueIndex other) t := by
  have hprefix : ¬ placeholderWord cueIndex marker <+: placeholderWord cueIndex other ++ t :=
    fun h => hne (eq_of_prefix_word h)
  obtain ⟨rest, hrest, -⟩ := exists_word_eq_cons cueIndex marker
  obtain ⟨rest', hrest', hmem⟩ := exists_word_eq_cons cueIndex other
  rw [formatPlaceholder_eq]
  rw [hrest, hrest'] at hprefix ⊢
  exact .append (noStart_of_not_mem (by decide)) (noStart_of_head hmem hprefix)

/-! ## One placeholder -/

/-- What is shown of a marker, to the eye of another: its placeholder or its tag. -/
def IsShown (cueIndex marker : ℕ) (s : Text) : Prop :=
  IsTag s ∨ ∃ other ≠ marker, s = formatPlaceholder cueIndex other

theorem IsShown.noStart {s : Text} (h : IsShown cueIndex marker s) :
    NoStart (placeholderWord cueIndex marker) s t := by
  rcases h with htag | ⟨other, hne, rfl⟩
  · exact noStart_tag htag
  · exact noStart_placeholder hne.symm

theorem IsShown.isBoundary {s : Text} (h : IsShown cueIndex marker s) : IsBoundary (s ++ t) := by
  rcases h with htag | ⟨other, -, rfl⟩
  · refine .inr (.inr ?_)
    rcases s with - | ⟨c, s⟩
    · rcases htag.opens with h | h <;> cases h
    · exact htag.opens
  · rw [formatPlaceholder_eq, List.append_assoc]
    exact .inr (.inl (List.prefix_append _ _))

/-- **It starts nowhere in a text without it.** -/
theorem noStart_render (hlead : ¬ placeholderMark <:+: lead)
    (hslots : ∀ slot ∈ slots, IsShown cueIndex marker (shown slot.1) ∧
      ¬ placeholderMark <:+: slot.2) (ht : IsBoundary t) :
    NoStart (placeholderWord cueIndex marker) (render shown lead slots) t := by
  induction slots generalizing lead with
  | nil => exact noStart_literal hlead ht
  | cons slot slots ih =>
    rw [List.forall_mem_cons] at hslots
    obtain ⟨⟨hshown, hlit⟩, hslots⟩ := hslots
    refine .append (noStart_literal hlead ?_) (.append hshown.noStart (ih hlit hslots))
    rw [List.append_assoc]
    exact hshown.isBoundary

theorem word_ne_nil : placeholderWord cueIndex marker ≠ [] := by
  obtain ⟨rest, hrest, -⟩ := exists_word_eq_cons cueIndex marker
  rw [hrest]
  exact List.cons_ne_nil _ _

/-- An occurrence of a placeholder is one of its word, two characters on. -/
theorem noStart_formatPlaceholder {a : Text}
    (h : NoStart (placeholderWord cueIndex marker) a (formatPlaceholder cueIndex marker ++ t)) :
    NoStart (formatPlaceholder cueIndex marker) a (formatPlaceholder cueIndex marker ++ t) := by
  have hword : NoStart (placeholderWord cueIndex marker) (a ++ "__".toList)
      (placeholderWord cueIndex marker ++ t) := by
    rw [formatPlaceholder_eq, List.append_assoc] at h
    refine .append h ?_
    obtain ⟨rest, hrest, -⟩ := exists_word_eq_cons cueIndex marker
    rw [hrest]
    exact noStart_of_not_mem (by decide)
  intro k hk hpre
  have hdrop := hpre.drop 2
  rw [formatPlaceholder_eq, List.append_assoc, ← List.append_assoc, List.drop_drop] at hdrop
  refine hword (k + 2) ?_ hdrop
  rw [List.length_append]
  exact Nat.add_lt_add_right hk 2

/-- **A placeholder that is there once is put back**, and nothing else changes. -/
theorem restoreMarker_render {before after : List ((Text × Text) × Text)} {token : Text}
    (hlead : ¬ placeholderMark <:+: lead) (hlit : ¬ placeholderMark <:+: lit)
    (hbefore : ∀ slot ∈ before, IsShown cueIndex marker (shown slot.1) ∧
      ¬ placeholderMark <:+: slot.2)
    (hafter : ∀ slot ∈ after, IsShown cueIndex marker (shown slot.1) ∧
      ¬ placeholderMark <:+: slot.2) :
    restoreMarker (render shown lead before ++
        (formatPlaceholder cueIndex marker ++ render shown lit after))
      (formatPlaceholder cueIndex marker, token) =
      .ok (render shown lead before ++ (token ++ render shown lit after)) := by
  have hplaceholder : formatPlaceholder cueIndex marker ≠ [] := by
    rw [formatPlaceholder_eq]
    exact List.append_ne_nil_of_right_ne_nil _ word_ne_nil
  have hboundary : IsBoundary (formatPlaceholder cueIndex marker ++ render shown lit after) := by
    rw [formatPlaceholder_eq, List.append_assoc]
    exact .inr (.inl (List.prefix_append _ _))
  have hstart := noStart_formatPlaceholder (noStart_render hlead hbefore hboundary)
  have hrest : ¬ formatPlaceholder cueIndex marker <:+: render shown lit after := by
    intro h
    refine (noStart_render hlit hafter (.inl rfl)).absent word_ne_nil (List.IsInfix.trans ?_ h)
    rw [formatPlaceholder_eq]
    exact (List.suffix_append _ _).isInfix
  rw [restoreMarker]
  dsimp only
  rw [if_pos (countStr_once hplaceholder hstart hrest), replaceStr_once hplaceholder hstart hrest]

/-! ## The placeholders of a cue -/

/-- A bracketed start of a text. -/
theorem take_bracketEnd {start close : Char} (h : bracketEnd start close text = some n) :
    0 < n ∧ (text.take n).head? = some start ∧ (text.take n).getLast? = some close := by
  unfold bracketEnd at h
  split at h
  · next hhead =>
    obtain ⟨i, hi, rfl⟩ := Option.map_eq_some_iff.1 h
    obtain ⟨hlt, hclose, -⟩ := List.findIdx?_eq_some_iff_getElem.1 hi
    refine ⟨i.succ_pos, ?_, ?_⟩
    · rw [List.head?_take, if_neg (Nat.succ_ne_zero i), hhead]
    · rw [List.take_succ_eq_append_getElem hlt, List.getLast?_concat]
      exact congrArg some (by simpa using hclose)
  · cases h

theorem isToken_of_tagEnd {c : Char} {s : Text}
    (h : (htmlLikeTagEnd (c :: s)).or (assOverrideTagEnd (c :: s)) = some n) :
    0 < n ∧ IsToken ((c :: s).take n) := by
  rcases Option.or_eq_some_iff.1 h with h | ⟨-, h⟩
  · obtain ⟨hpos, hopens, hcloses⟩ := take_bracketEnd (Option.filter_eq_some_iff.1 h).1
    exact ⟨hpos, .inl hopens, .inl hcloses⟩
  · obtain ⟨hpos, hopens, hcloses⟩ := take_bracketEnd (Option.filter_eq_some_iff.1 h).1
    exact ⟨hpos, .inr hopens, .inr hcloses⟩

/-- **What protecting a text makes of it**: literals and tokens of the text in turn,
the tokens under placeholders numbered as they come. -/
theorem exists_slots_protectFrom (cueIndex : ℕ) : ∀ (skip : ℕ) (s : Text) (cue : ProtectedCueText),
    ∃ lead slots,
      (protectFrom cueIndex skip s cue).markers = cue.markers ++ slots.map Prod.fst ∧
      (protectFrom cueIndex skip s cue).promptText =
        cue.promptText ++ render Prod.fst lead slots ∧
      s.drop skip = render Prod.snd lead slots ∧
      (∀ slot ∈ slots, IsToken slot.1.2) ∧
      slots.map (fun slot => slot.1.1) =
        (List.range' cue.markers.length slots.length).map (formatPlaceholder cueIndex) := by
  intro skip s
  induction s generalizing skip with
  | nil =>
    intro cue
    refine ⟨[], [], ?_⟩
    simp [protectFrom, render]
  | cons c s ih =>
    intro cue
    cases skip with
    | succ skip =>
      obtain ⟨lead, slots, h⟩ := ih skip cue
      exact ⟨lead, slots, h⟩
    | zero =>
      rcases htag : (htmlLikeTagEnd (c :: s)).or (assOverrideTagEnd (c :: s)) with - | tagEnd
      · obtain ⟨lead, slots, hmarkers, hprompt, htext, htokens, hnumbers⟩ := ih 0
          { cue with promptText := cue.promptText ++ [c], visibleText := cue.visibleText ++ [c] }
        refine ⟨[c] ++ lead, slots, ?_, ?_, ?_, htokens, hnumbers⟩
        · rw [protectFrom, htag, hmarkers]
        · rw [protectFrom, htag, hprompt, render_append_lead, List.append_assoc]
        · rw [render_append_lead, ← htext]
          rfl
      · obtain ⟨hpos, htoken⟩ := isToken_of_tagEnd htag
        obtain ⟨lead, slots, hmarkers, hprompt, htext, htokens, hnumbers⟩ := ih (tagEnd - 1)
          (pushFormatMarker cueIndex ((c :: s).take tagEnd) cue)
        refine ⟨[], ((formatPlaceholder cueIndex cue.markers.length, (c :: s).take tagEnd), lead) ::
          slots, ?_, ?_, ?_, ?_, ?_⟩
        · rw [protectFrom, htag, hmarkers, pushFormatMarker, List.append_assoc]
          rfl
        · rw [protectFrom, htag, hprompt, pushFormatMarker, render, List.append_assoc]
          rfl
        · obtain ⟨k, rfl⟩ : ∃ k, tagEnd = k + 1 := ⟨tagEnd - 1, by omega⟩
          rw [render, ← htext]
          exact (List.take_append_drop (k + 1) (c :: s)).symm
        · exact List.forall_mem_cons.2 ⟨htoken, htokens⟩
        · rw [List.map_cons, hnumbers, pushFormatMarker, List.length_append]
          rfl

/-! ## The placeholders of a translation -/

theorem formatPlaceholder_injective : Function.Injective (formatPlaceholder cueIndex) := by
  intro i j h
  rw [formatPlaceholder_eq, formatPlaceholder_eq, List.append_right_inj] at h
  have hprefix : placeholderWord cueIndex i <+: placeholderWord cueIndex j ++ [] := by
    rw [h, List.append_nil]
  exact eq_of_prefix_word hprefix

/-- Markers numbered as they come, each for a tag. -/
structure IsMarkers (cueIndex : ℕ) (markers : List (Text × Text)) : Prop where
  numbers : markers.map Prod.fst =
    (List.range' 0 markers.length).map (formatPlaceholder cueIndex)
  tags : ∀ m ∈ markers, IsTag m.2

variable {markers : List (Text × Text)} {m x : Text × Text}

theorem IsMarkers.nodup_placeholders (h : IsMarkers cueIndex markers) :
    (markers.map Prod.fst).Nodup := by
  rw [h.numbers]
  exact (List.nodup_range' (h := Nat.one_pos)).map formatPlaceholder_injective

/-- A marker has its number, and the others have others. -/
theorem IsMarkers.exists_number (h : IsMarkers cueIndex markers) (hm : m ∈ markers) :
    ∃ marker, m.1 = formatPlaceholder cueIndex marker ∧
      ∀ x ∈ markers, x ≠ m → ∃ other ≠ marker, x.1 = formatPlaceholder cueIndex other := by
  have hnumber : ∀ x ∈ markers, ∃ i, x.1 = formatPlaceholder cueIndex i := fun x hx => by
    have hmem : x.1 ∈ markers.map Prod.fst := List.mem_map_of_mem hx
    rw [h.numbers] at hmem
    obtain ⟨i, -, hi⟩ := List.mem_map.1 hmem
    exact ⟨i, hi.symm⟩
  obtain ⟨marker, hmarker⟩ := hnumber m hm
  refine ⟨marker, hmarker, fun x hx hne => ?_⟩
  obtain ⟨other, hother⟩ := hnumber x hx
  refine ⟨other, ?_, hother⟩
  rintro rfl
  exact hne (List.inj_on_of_nodup_map h.nodup_placeholders hx hm (hother.trans hmarker.symm))

/-- What is shown of a marker once some have been put back. -/
def putBack (done : List (Text × Text)) (m : Text × Text) : Text := if m ∈ done then m.2 else m.1

/-- The slots around a slot are of other markers, where each marker has one. -/
theorem ne_of_nodup_slots {before after : List ((Text × Text) × Text)}
    (h : (before.map Prod.fst ++ m :: after.map Prod.fst).Nodup) :
    ∀ slot, slot ∈ before ∨ slot ∈ after → slot.1 ≠ m := by
  have hsplit := List.nodup_append.1 h
  rintro slot (hslot | hslot)
  · exact hsplit.2.2 _ (List.mem_map_of_mem hslot) m List.mem_cons_self
  · exact fun heq => (List.nodup_cons.1 hsplit.2.1).1 (heq ▸ List.mem_map_of_mem hslot)

/-- **One step of the way back**: a marker that is next is put back. -/
theorem restoreMarker_putBack {done : List (Text × Text)} (h : IsMarkers cueIndex markers)
    (hm : m ∈ markers) (hdone : m ∉ done) (hslots : (slots.map Prod.fst).Perm markers)
    (hlead : ¬ placeholderMark <:+: lead) (hlits : ∀ slot ∈ slots, ¬ placeholderMark <:+: slot.2) :
    restoreMarker (render (putBack done) lead slots) m =
      .ok (render (putBack (done ++ [m])) lead slots) := by
  obtain ⟨⟨m, lit⟩, hslot, rfl⟩ := List.mem_map.1 (hslots.mem_iff.2 hm)
  obtain ⟨before, after, rfl⟩ := List.append_of_mem hslot
  obtain ⟨marker, hmarker, hothers⟩ := h.exists_number hm
  have hnodup : (before.map Prod.fst ++ m :: after.map Prod.fst).Nodup := by
    have hall := hslots.nodup_iff.2 h.nodup_placeholders.of_map
    rwa [List.map_append, List.map_cons] at hall
  have hne := ne_of_nodup_slots hnodup
  have hmem : ∀ slot, slot ∈ before ∨ slot ∈ after → slot.1 ∈ markers := fun slot hslot => by
    refine hslots.mem_iff.1 (List.mem_map_of_mem (f := Prod.fst) (List.mem_append.2 ?_))
    exact hslot.imp_right (List.mem_cons_of_mem _)
  have hshown : ∀ slot, slot ∈ before ∨ slot ∈ after →
      IsShown cueIndex marker (putBack done slot.1) := fun slot hslot => by
    rw [putBack]
    split
    · exact .inl (h.tags _ (hmem slot hslot))
    · exact .inr (hothers _ (hmem slot hslot) (hne slot hslot))
  have hsame : ∀ slot, slot ∈ before ∨ slot ∈ after →
      putBack done slot.1 = putBack (done ++ [m]) slot.1 := fun slot hslot => by
    simp only [putBack, List.mem_append, List.mem_singleton, hne slot hslot, or_false]
  have hput : putBack done m = formatPlaceholder cueIndex marker := (if_neg hdone).trans hmarker
  have hnow : putBack (done ++ [m]) m = m.2 :=
    if_pos (List.mem_append_right done List.mem_cons_self)
  rw [render_append, render_append, hput, hnow,
    ← render_congr fun slot hslot => hsame slot (.inl hslot),
    ← render_congr fun slot hslot => hsame slot (.inr hslot)]
  have hmpair : m = (formatPlaceholder cueIndex marker, m.2) := Prod.ext hmarker rfl
  rw [hmpair]
  refine restoreMarker_render hlead (hlits _ hslot) (fun slot hslot => ?_) fun slot hslot => ?_
  · exact ⟨hshown slot (.inl hslot), hlits _ (List.mem_append_left _ hslot)⟩
  · exact ⟨hshown slot (.inr hslot),
      hlits _ (List.mem_append_right _ (List.mem_cons_of_mem _ hslot))⟩

/-- **Every placeholder is put back**, in whatever order they stand. -/
theorem foldlM_restoreMarker_render (h : IsMarkers cueIndex markers)
    (hslots : (slots.map Prod.fst).Perm markers) (hlead : ¬ placeholderMark <:+: lead)
    (hlits : ∀ slot ∈ slots, ¬ placeholderMark <:+: slot.2) :
    markers.foldlM restoreMarker (render Prod.fst lead slots) =
      .ok (render Prod.snd lead slots) := by
  -- the markers are put back in the order of the list, wherever they stand
  have hrun : ∀ todo done, done ++ todo = markers →
      todo.foldlM restoreMarker (render (putBack done) lead slots) =
        .ok (render Prod.snd lead slots) := by
    intro todo
    induction todo with
    | nil =>
      rintro done rfl
      have hall : render (putBack (done ++ [])) lead slots = render Prod.snd lead slots :=
        render_congr fun slot hslot =>
          if_pos (hslots.mem_iff.1 (List.mem_map_of_mem (f := Prod.fst) hslot))
      rw [List.append_nil] at hall
      rw [hall]
      rfl
    | cons m todo ih =>
      intro done hmarkers
      have hm : m ∈ markers := hmarkers ▸ List.mem_append_right done List.mem_cons_self
      have hdone : m ∉ done := by
        have hnodup := h.nodup_placeholders.of_map
        rw [← hmarkers] at hnodup
        exact fun hmem => (List.nodup_append.1 hnodup).2.2 m hmem m List.mem_cons_self rfl
      rw [Run.foldlM_cons_of_ok (restoreMarker_putBack h hm hdone hslots hlead hlits)]
      exact ih (done ++ [m]) (by rw [List.append_assoc]; exact hmarkers)
  have hfirst : render Prod.fst lead slots = render (putBack []) lead slots :=
    render_congr fun slot _ => (if_neg List.not_mem_nil).symm
  rw [hfirst]
  exact hrun markers [] rfl

/-- The markers of a text, which is put together from literals and their tags. -/
theorem exists_slots_protectInlineFormatting (cueIndex : ℕ) (h : ¬ placeholderMark <:+: text) :
    IsMarkers cueIndex (protectInlineFormatting text cueIndex).markers ∧
      ∃ lead slots, (protectInlineFormatting text cueIndex).markers = slots.map Prod.fst ∧
        (protectInlineFormatting text cueIndex).promptText = render Prod.fst lead slots ∧
        text = render Prod.snd lead slots := by
  obtain ⟨lead, slots, hmarkers, hprompt, htext, htokens, hnumbers⟩ :=
    exists_slots_protectFrom cueIndex 0 text ⟨[], [], []⟩
  rw [← protectInlineFormatting, List.nil_append] at hmarkers hprompt
  rw [List.drop_zero] at htext
  refine ⟨⟨?_, fun m hm => ?_⟩, lead, slots, hmarkers, hprompt, htext⟩
  · rw [hmarkers, List.map_map, List.length_map]
    exact hnumbers
  · rw [hmarkers] at hm
    obtain ⟨slot, hslot, rfl⟩ := List.mem_map.1 hm
    refine ⟨htokens slot hslot, fun hmark => h ?_⟩
    have htag : slot.1.2 <:+: render Prod.snd lead slots := (infix_render hslot).1
    rw [← htext] at htag
    exact hmark.trans htag

/-- **Tags come back where their placeholders are.** For a text without the mark, any
translation that has each placeholder once, in any order and with any texts without
the mark around them, is restored to the same with each tag in its place; and
what was sent is restored to the text. -/
theorem restoreInlineFormatting_rearranged (text : Text) (cueIndex : ℕ)
    (h : ¬ "SUBX_FMT_".toList <:+: text) :
    (∀ lead (slots : List ((Text × Text) × Text)),
      (slots.map Prod.fst).Perm (protectInlineFormatting text cueIndex).markers →
      ¬ "SUBX_FMT_".toList <:+: lead → (∀ slot ∈ slots, ¬ "SUBX_FMT_".toList <:+: slot.2) →
        restoreInlineFormatting (render Prod.fst lead slots)
          (protectInlineFormatting text cueIndex) = .ok (render Prod.snd lead slots)) ∧
    restoreInlineFormatting (protectInlineFormatting text cueIndex).promptText
      (protectInlineFormatting text cueIndex) = .ok text := by
  obtain ⟨hmarkers, lead, slots, hslots, hprompt, htext⟩ :=
    exists_slots_protectInlineFormatting cueIndex h
  refine ⟨fun lead slots hperm hlead hlits =>
    foldlM_restoreMarker_render hmarkers hperm hlead hlits, ?_⟩
  -- the literals of what was sent are parts of the text
  have hunmarked : ∀ part : Text, part <:+: render Prod.snd lead slots →
      ¬ placeholderMark <:+: part :=
    fun part hpart hmark => h (htext ▸ hmark.trans hpart)
  rw [hprompt, restoreInlineFormatting,
    foldlM_restoreMarker_render hmarkers (.of_eq hslots.symm)
      (hunmarked _ lead_prefix_render.isInfix) fun slot hslot => hunmarked _ (infix_render hslot).2,
    ← htext]

/-- Two tags brought in the other order, next to text that is part of the mark. -/
theorem restoreInlineFormatting_rearranged_swapped :
    restoreInlineFormatting "SUBX_FMT__SUBX_FMT_3_1__SUBX__SUBX_FMT_3_0__".toList
      (protectInlineFormatting "<i>Hi</i>".toList 3) = .ok "SUBX_FMT</i>SUBX<i>".toList := by
  have hslots := (restoreInlineFormatting_rearranged "<i>Hi</i>".toList 3 (by decide)).1
    "SUBX_FMT".toList
    [(("__SUBX_FMT_3_1__".toList, "</i>".toList), "SUBX".toList),
      (("__SUBX_FMT_3_0__".toList, "<i>".toList), [])]
  exact hslots (by decide +kernel) (by decide) (by decide)

end SubxCore
