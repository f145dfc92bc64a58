import SubxCore.Common.Matches
import SubxCore.Common.Occurrences
import SubxCore.Formats.Transform
/-!
# Nested tags

A text with bold, italic and underline tags, nested to any depth, turns into ASS
tag by tag, and the ASS tags strip off again. The way back is three passes, for
bold, italic and underline in turn, and each finds a pair of tags only where no
brace is left between them. So a pair comes back exactly when the tags inside it
have come back in an earlier pass.
-/

namespace SubxCore

open Text Regex

/-- The tags that SRT and ASS share. -/
inductive Tag
  | b
  | i
  | u
  deriving DecidableEq, Repr

namespace Tag

def letter : Tag → Char
  | b => 'b'
  | i => 'i'
  | u => 'u'

/-- When the tag is turned back: bold, italic, underline. -/
def rank : Tag → ℕ
  | b => 0
  | i => 1
  | u => 2

def srtOpening (tag : Tag) : Text := ['<', tag.letter, '>']

def srtClosing (tag : Tag) : Text := ['<', '/', tag.letter, '>']

def assOpening (tag : Tag) : Text := ['{', '\\', tag.letter, '1', '}']

def assClosing (tag : Tag) : Text := ['{', '\\', tag.letter, '0', '}']

theorem letter_injective : Function.Injective letter := by
  intro x t h
  revert h
  cases x <;> cases t <;> decide

theorem rank_injective : Function.Injective rank := by
  intro x t h
  revert h
  cases x <;> cases t <;> decide

theorem brace_not_mem_srtOpening (t : Tag) : '{' ∉ t.srtOpening := by cases t <;> decide

theorem brace_not_mem_srtClosing (t : Tag) : '{' ∉ t.srtClosing := by cases t <;> decide

end Tag

/-- A text without brackets and braces. -/
abbrev Segment := { s : Text // ∀ c ∈ s, c ≠ '<' ∧ c ≠ '>' ∧ c ≠ '{' ∧ c ≠ '}' }

theorem brace_not_mem_segment (s : Segment) : '{' ∉ s.1 := fun h => (s.2 _ h).2.2.1 rfl

/-- **A well-nested text**: segments and paired tags. -/
inductive StyledText
  | nil
  | segment (segment : Segment) (rest : StyledText)
  | tag (tag : Tag) (inner rest : StyledText)

namespace StyledText

/-- The text, with each tag in some form. -/
def shown (opening closing : Tag → Text) : StyledText → Text
  | nil => []
  | segment s rest => s.1 ++ rest.shown opening closing
  | tag t inner rest =>
    opening t ++ (inner.shown opening closing ++ (closing t ++ rest.shown opening closing))

/-- The text in SRT. -/
def srt (d : StyledText) : Text := d.shown Tag.srtOpening Tag.srtClosing

/-- The text in ASS. -/
def ass (d : StyledText) : Text := d.shown Tag.assOpening Tag.assClosing

/-- The text without its tags. -/
def plain (d : StyledText) : Text := d.shown (fun _ => []) fun _ => []

/-- The tags in the text, at any depth. -/
def tags : StyledText → List Tag
  | nil => []
  | segment _ rest => rest.tags
  | tag t inner rest => t :: (inner.tags ++ rest.tags)

/-- Inside a tag are earlier ones only: nothing in bold, bold in italic, bold and italic
in underline. -/
def Ordered : StyledText → Prop
  | nil => True
  | segment _ rest => rest.Ordered
  | tag t inner rest => ((∀ t' ∈ inner.tags, t'.rank < t.rank) ∧ inner.Ordered) ∧ rest.Ordered

def decidableOrdered : (d : StyledText) → Decidable d.Ordered
  | nil => .isTrue trivial
  | segment _ rest => rest.decidableOrdered
  | tag t inner rest =>
    have := inner.decidableOrdered
    have := rest.decidableOrdered
    inferInstanceAs
      (Decidable (((∀ t' ∈ inner.tags, t'.rank < t.rank) ∧ inner.Ordered) ∧ rest.Ordered))

instance : DecidablePred Ordered := decidableOrdered

end StyledText

variable {d : StyledText} {x t : Tag} {n : ℕ} {tail : Text}

/-! ## To ASS -/

/-- A form for the tags, in which a word is replaced or does not start. -/
def Replaces (w r : Text) (f f' : Tag → Text) : Prop :=
  ∀ t, (f t = w ∧ f' t = r) ∨ (f' t = f t ∧ ∀ s, NoStart w (f t) s)

theorem Replaces.replaceStr_append {w r : Text} {f f' : Tag → Text} (h : Replaces w r f f')
    (hw : w ≠ []) (t : Tag) (s : Text) :
    replaceStr w r (f t ++ s) = f' t ++ replaceStr w r s := by
  rcases h t with ⟨hform, hform'⟩ | ⟨hform, hstart⟩
  · rw [hform, hform', replaceStr_pattern hw]
  · rw [hform, Text.replaceStr_append (hstart s)]

/-- **Replacing in a styled text** is replacing in its tags, for a word that starts with
a bracket. -/
theorem replaceStr_shown {w r : Text} {f f' g g' : Tag → Text} (hf : Replaces ('<' :: w) r f f')
    (hg : Replaces ('<' :: w) r g g') (d : StyledText) (s : Text) :
    replaceStr ('<' :: w) r (d.shown f g ++ s) = d.shown f' g' ++ replaceStr ('<' :: w) r s := by
  have hw : '<' :: w ≠ [] := List.cons_ne_nil _ _
  induction d generalizing s with
  | nil => rfl
  | segment seg rest ih =>
    have hseg : '<' ∉ seg.1 := fun h => (seg.2 _ h).1 rfl
    rw [StyledText.shown, StyledText.shown, List.append_assoc,
      replaceStr_append (noStart_of_not_mem hseg), ih, List.append_assoc]
  | tag t inner rest ihInner ihRest =>
    simp only [StyledText.shown, List.append_assoc]
    rw [hf.replaceStr_append hw, ihInner, hg.replaceStr_append hw, ihRest]

/-- One tag turned into ASS, the opening and then the closing. -/
def convertSrtTagToAss (t : Tag) (text : Text) : Text :=
  replaceStr t.srtClosing t.assClosing (replaceStr t.srtOpening t.assOpening text)

/-- A tag of another letter is not found. -/
theorem noStart_srtOpening (hne : x ≠ t) (s : Text) : NoStart x.srtOpening t.srtOpening s := by
  refine noStart_of_head (by cases t <;> decide) fun h => hne (Tag.letter_injective ?_)
  exact (List.cons_prefix_cons.1 (List.cons_prefix_cons.1 h).2).1

theorem noStart_srtClosing (hne : x ≠ t) (s : Text) : NoStart x.srtClosing t.srtClosing s := by
  refine noStart_of_head (by cases t <;> decide) fun h => hne (Tag.letter_injective ?_)
  exact (List.cons_prefix_cons.1 (List.cons_prefix_cons.1 (List.cons_prefix_cons.1 h).2).2).1

/-- Nor is an opening tag where one closes, and the other way round. -/
theorem noStart_srtOpening_closing (x t : Tag) (s : Text) :
    NoStart x.srtOpening t.srtClosing s := by
  refine noStart_of_head (by cases t <;> decide) fun h => ?_
  have hslash := (List.cons_prefix_cons.1 (List.cons_prefix_cons.1 h).2).1
  revert hslash
  cases x <;> decide

theorem noStart_srtClosing_opening (x t : Tag) (s : Text) :
    NoStart x.srtClosing t.srtOpening s := by
  refine noStart_of_head (by cases t <;> decide) fun h => ?_
  have hslash := (List.cons_prefix_cons.1 (List.cons_prefix_cons.1 h).2).1
  revert hslash
  cases t <;> decide

/-- No bracket is in an ASS tag. -/
theorem bracket_not_mem_assOpening (t : Tag) : '<' ∉ t.assOpening := by cases t <;> decide

theorem bracket_not_mem_assClosing (t : Tag) : '<' ∉ t.assClosing := by cases t <;> decide

/-- A form of the tags in which some letters are in ASS. -/
def formOf (srtForm assForm : Tag → Text) (done : List Tag) (t : Tag) : Text :=
  if t ∈ done then assForm t else srtForm t

/-- One more letter. -/
theorem replaces_formOf {srtForm assForm : Tag → Text} {done : List Tag} {w : Text}
    (hw : srtForm x = '<' :: w) (hass : ∀ t, '<' ∉ assForm t) (hx : x ∉ done)
    (hother : ∀ t, x ≠ t → ∀ s, NoStart (srtForm x) (srtForm t) s) :
    Replaces (srtForm x) (assForm x) (formOf srtForm assForm done)
      (formOf srtForm assForm (x :: done)) := by
  intro t
  by_cases htx : t = x
  · subst htx
    exact .inl ⟨if_neg hx, if_pos List.mem_cons_self⟩
  · refine .inr ⟨if_congr (List.mem_cons.trans (or_iff_right htx)) rfl rfl, fun s => ?_⟩
    rw [formOf]
    split
    · rw [hw]
      exact noStart_of_not_mem (hass t)
    · exact hother t (Ne.symm htx) s

/-- A word that is of the other form changes nothing. -/
theorem replaces_same {srtForm assForm : Tag → Text} {w r : Text} (done : List Tag)
    (hass : ∀ t, '<' ∉ assForm t) (hother : ∀ t s, NoStart ('<' :: w) (srtForm t) s) :
    Replaces ('<' :: w) r (formOf srtForm assForm done) (formOf srtForm assForm done) := by
  intro t
  refine .inr ⟨rfl, fun s => ?_⟩
  rw [formOf]
  split
  · exact noStart_of_not_mem (hass t)
  · exact hother t s

/-- **The tags of one letter** turn into ASS, opening and closing. -/
theorem convertSrtTagToAss_shown {done : List Tag} (hx : x ∉ done) (d : StyledText) :
    convertSrtTagToAss x
        (d.shown (formOf Tag.srtOpening Tag.assOpening done)
          (formOf Tag.srtClosing Tag.assClosing done)) =
      d.shown (formOf Tag.srtOpening Tag.assOpening (x :: done))
        (formOf Tag.srtClosing Tag.assClosing (x :: done)) := by
  have hopening := replaceStr_shown
    (replaces_formOf rfl bracket_not_mem_assOpening hx fun t hne => noStart_srtOpening hne)
    (replaces_same done bracket_not_mem_assClosing (noStart_srtOpening_closing x)) d []
  have hclosing := replaceStr_shown
    (replaces_same (x :: done) bracket_not_mem_assOpening (noStart_srtClosing_opening x))
    (replaces_formOf rfl bracket_not_mem_assClosing hx fun t hne => noStart_srtClosing hne) d []
  rw [replaceStr_nil, List.append_nil, List.append_nil] at hopening hclosing
  rw [convertSrtTagToAss]
  exact (congrArg _ hopening).trans hclosing

/-- What is in a styled text is in a tag or in a segment. -/
theorem forall_mem_shown {f g : Tag → Text} {p : Char → Prop} (hf : ∀ t, ∀ c ∈ f t, p c)
    (hg : ∀ t, ∀ c ∈ g t, p c)
    (hseg : ∀ c, c ≠ '<' ∧ c ≠ '>' ∧ c ≠ '{' ∧ c ≠ '}' → p c) (d : StyledText) :
    ∀ c ∈ d.shown f g, p c := by
  induction d with
  | nil => simp [StyledText.shown]
  | segment seg rest ih =>
    intro c hc
    rcases List.mem_append.1 hc with hc | hc
    · exact hseg c (seg.2 c hc)
    · exact ih c hc
  | tag t inner rest ihInner ihRest =>
    intro c hc
    rw [StyledText.shown, List.mem_append, List.mem_append, List.mem_append] at hc
    rcases hc with hc | hc | hc | hc
    · exact hf t c hc
    · exact ihInner c hc
    · exact hg t c hc
    · exact ihRest c hc

theorem anchorFree_fontColorRegex : fontColorRegex.AnchorFree :=
  ⟨anchorFree_lit _, ⟨trivial, trivial⟩, anchorFree_lit _, trivial⟩

theorem formOf_all {srtForm assForm : Tag → Text} : formOf srtForm assForm [.u, .i, .b] = assForm :=
  funext fun t => if_pos (by cases t <;> decide)

/-- **To ASS and no further**: the tags are the three, and there is no color. -/
theorem convertSrtTagsToAss_srt (d : StyledText) : convertSrtTagsToAss d.srt = d.ass := by
  have hbracket : ∀ c ∈ d.ass, c ≠ '<' :=
    forall_mem_shown (p := (· ≠ '<')) (fun t c hc heq => bracket_not_mem_assOpening t (heq ▸ hc))
      (fun t c hc heq => bracket_not_mem_assClosing t (heq ▸ hc)) (fun c hc => hc.1) d
  have htags : convertSrtTagToAss .u (convertSrtTagToAss .i (convertSrtTagToAss .b d.srt)) =
      d.ass := by
    have hsrt : d.srt = d.shown (formOf Tag.srtOpening Tag.assOpening [])
        (formOf Tag.srtClosing Tag.assClosing []) := rfl
    rw [hsrt, convertSrtTagToAss_shown (by decide), convertSrtTagToAss_shown (by decide),
      convertSrtTagToAss_shown (by decide), formOf_all, formOf_all, StyledText.ass]
  -- no bracket is left for the patterns of the color
  have hcolor : ∀ f, fontColorRegex.replaceAll f d.ass = d.ass := fun f => by
    have hall := replaceAll_append (f := f) anchorFree_fontColorRegex (a := d.ass)
      (fun c hc s => run_seq_eq_nil (run_seq_eq_nil (run_one_eq_nil fun e he =>
        beq_false_of_ne (Option.some.inj he ▸ hbracket c hc)))) []
    rwa [replaceAll_nil, List.append_nil] at hall
  have hfont : ¬ "</font>".toList <:+: d.ass := fun h =>
    hbracket '<' (h.subset (by decide)) rfl
  have hconvert : convertSrtTagsToAss d.srt = replaceStr "</font>".toList "\x7b\\c\x7d".toList
      (fontColorRegex.replaceAll (fun h =>
        "\x7b\\c&H".toList ++ convertColorToAss (h.groups.getD 0 []) ++ "&\x7d".toList)
        (convertSrtTagToAss .u (convertSrtTagToAss .i (convertSrtTagToAss .b d.srt)))) := rfl
  rw [hconvert, htags, hcolor, replaceStr_of_absent hfont]

/-! ## Stripped -/

theorem anchorFree_braces : (seqs [chr '{', many (· != '}'), chr '}']).AnchorFree :=
  ⟨trivial, trivial, trivial, trivial⟩

/-- What is in braces is stripped. -/
theorem stripAssTags_braces {a : Text} (h : ∀ c ∈ a, c ≠ '}') (s : Text) :
    stripAssTags (['{'] ++ (a ++ (['}'] ++ [])) ++ s) = stripAssTags s := by
  have hprefers : Prefers (seqs [chr '{', many (· != '}'), chr '}'])
      (['{'] ++ (a ++ (['}'] ++ []))) ([] ++ ([] ++ ([] ++ []))) s :=
    takes_chr.prefers.cons ((prefers_many (fun c hc => bne_iff_ne.2 (h c hc))
      fun c hc => by rw [← Option.some.inj hc]; rfl).cons
        (takes_chr.prefers.cons takes_empty.prefers))
  exact hprefers.replaceAll anchorFree_braces (List.cons_ne_nil _ _)

/-- What has no brace stays. -/
theorem stripAssTags_append {a : Text} (h : ∀ c ∈ a, c ≠ '{') (s : Text) :
    stripAssTags (a ++ s) = a ++ stripAssTags s :=
  replaceAll_append anchorFree_braces (fun c hc _ =>
    run_seq_eq_nil (run_one_eq_nil fun _ he =>
      beq_false_of_ne (Option.some.inj he ▸ h c hc))) s

/-- **The tags strip off.** -/
theorem stripAssTags_ass_append (d : StyledText) (s : Text) :
    stripAssTags (d.ass ++ s) = d.plain ++ stripAssTags s := by
  induction d generalizing s with
  | nil => rfl
  | segment seg rest ih =>
    rw [StyledText.ass, StyledText.shown, List.append_assoc,
      stripAssTags_append fun c hc => (seg.2 c hc).2.2.1]
    exact (congrArg (seg.1 ++ ·) (ih s)).trans (List.append_assoc _ _ _).symm
  | tag t inner rest ihInner ihRest =>
    have hbraces : ∀ (n : Char) (s : Text), n ≠ '}' →
        stripAssTags (['{', '\\', t.letter, n, '}'] ++ s) = stripAssTags s := fun n s hn =>
      stripAssTags_braces (a := ['\\', t.letter, n]) (by
        simp only [List.mem_cons, List.not_mem_nil, or_false, forall_eq_or_imp, forall_eq]
        exact ⟨by decide, by cases t <;> decide, hn⟩) s
    simp only [StyledText.ass, StyledText.plain, StyledText.shown, List.append_assoc,
      List.nil_append] at ihInner ihRest ⊢
    rw [Tag.assOpening, hbraces '1' _ (by decide), ihInner, Tag.assClosing,
      hbraces '0' _ (by decide), ihRest]

/-! ## The way back -/

namespace StyledText

/-- A text that a tag around it comes back with: its own tags have come back before. -/
def Nestable (t : Tag) (inner : StyledText) : Prop :=
  (∀ t' ∈ inner.tags, t'.rank < t.rank) ∧ inner.Ordered

instance (t : Tag) (inner : StyledText) : Decidable (Nestable t inner) :=
  inferInstanceAs (Decidable ((∀ t' ∈ inner.tags, t'.rank < t.rank) ∧ inner.Ordered))

/-- The text after some passes: the tags that have come back in SRT, the others in ASS. -/
def mixed (n : ℕ) : StyledText → Text
  | nil => []
  | segment s rest => s.1 ++ rest.mixed n
  | tag t inner rest =>
    if t.rank < n ∧ Nestable t inner then
      t.srtOpening ++ (inner.mixed n ++ (t.srtClosing ++ rest.mixed n))
    else t.assOpening ++ (inner.mixed n ++ (t.assClosing ++ rest.mixed n))

end StyledText

/-- A brace is left unless every tag has come back. -/
theorem brace_not_mem_mixed : '{' ∉ d.mixed n ↔ (∀ t ∈ d.tags, t.rank < n) ∧ d.Ordered := by
  induction d with
  | nil => simp [StyledText.mixed, StyledText.tags, StyledText.Ordered]
  | segment seg rest ih =>
    rw [StyledText.mixed, List.mem_append, not_or, ih, and_iff_right (brace_not_mem_segment seg)]
    rfl
  | tag t inner rest ihInner ihRest =>
    have hright : ((∀ t' ∈ (StyledText.tag t inner rest).tags, t'.rank < n) ∧
        (StyledText.tag t inner rest).Ordered) ↔
          (t.rank < n ∧ StyledText.Nestable t inner) ∧
            (∀ t' ∈ rest.tags, t'.rank < n) ∧ rest.Ordered := by
      simp only [StyledText.tags, StyledText.Ordered, StyledText.Nestable, List.forall_mem_cons,
        List.forall_mem_append]
      constructor
      · rintro ⟨⟨hrank, -, hrest⟩, hnest, hordered⟩
        exact ⟨⟨hrank, hnest⟩, hrest, hordered⟩
      · rintro ⟨⟨hrank, hnest⟩, hrest, hordered⟩
        exact ⟨⟨hrank, fun t' ht' => (hnest.1 t' ht').trans hrank, hrest⟩, hnest, hordered⟩
    rw [hright, StyledText.mixed]
    -- a tag that has come back has nothing left in it; one that has not is a brace
    by_cases h : t.rank < n ∧ StyledText.Nestable t inner
    · have hinner : '{' ∉ inner.mixed n :=
        ihInner.2 ⟨fun t' ht' => (h.2.1 t' ht').trans h.1, h.2.2⟩
      rw [if_pos h, and_iff_right h, ← ihRest]
      simp only [List.mem_append, t.brace_not_mem_srtOpening, hinner, t.brace_not_mem_srtClosing,
        false_or]
    · rw [if_neg h]
      exact iff_of_false (fun hbrace => hbrace (List.mem_append_left _ List.mem_cons_self))
        fun hall => h hall.1

/-- The first brace that is left opens a tag. -/
theorem exists_assOpening_of_brace_mem (h : '{' ∈ d.mixed n) :
    ∃ (u : Text) (t : Tag) (s : Text), d.mixed n = u ++ (t.assOpening ++ s) ∧ '{' ∉ u := by
  induction d with
  | nil => simp [StyledText.mixed] at h
  | segment seg rest ih =>
    have hseg := brace_not_mem_segment seg
    obtain ⟨u, t, s, hrest, hu⟩ := ih ((List.mem_append.1 h).resolve_left hseg)
    refine ⟨seg.1 ++ u, t, s, ?_, List.not_mem_append hseg hu⟩
    rw [StyledText.mixed, hrest, List.append_assoc]
  | tag t inner rest ihInner ihRest =>
    rw [StyledText.mixed] at h ⊢
    split
    · next hback =>
      rw [if_pos hback] at h
      have hinner : '{' ∉ inner.mixed n :=
        brace_not_mem_mixed.2 ⟨fun t' ht' => (hback.2.1 t' ht').trans hback.1, hback.2.2⟩
      have hopening := t.brace_not_mem_srtOpening
      have hclosing := t.brace_not_mem_srtClosing
      simp only [List.mem_append, hopening, hinner, hclosing, false_or] at h
      obtain ⟨u, t', s, hrest, hu⟩ := ihRest h
      refine ⟨t.srtOpening ++ (inner.mixed n ++ (t.srtClosing ++ u)), t', s, ?_, ?_⟩
      · rw [hrest]
        simp only [List.append_assoc]
      · simp only [List.mem_append, hopening, hinner, hclosing, hu, or_false, not_false_eq_true]
    · exact ⟨[], t, _, rfl, List.not_mem_nil⟩

/-! ### One pass -/

theorem anchorFree_pair (x : Tag) :
    (seqs [lit x.assOpening, group (many (· != '{')), lit x.assClosing]).AnchorFree :=
  ⟨anchorFree_lit _, trivial, anchorFree_lit _, trivial⟩

/-- A pair of tags with no brace between them comes back. -/
theorem convertAssTagToSrt_pair {u : Text} (hu : '{' ∉ u) (s : Text) :
    convertAssTagToSrt x.letter (x.assOpening ++ (u ++ (x.assClosing ++ s))) =
      x.srtOpening ++ (u ++ (x.srtClosing ++ convertAssTagToSrt x.letter s)) := by
  have hprefers : Prefers (seqs [lit x.assOpening, group (many (· != '{')), lit x.assClosing])
      (x.assOpening ++ (u ++ (x.assClosing ++ []))) ([] ++ ([u] ++ ([] ++ []))) s := by
    refine (takes_lit _).prefers.cons (Prefers.cons (Prefers.group (prefers_many ?_ ?_))
      ((takes_lit _).prefers.cons takes_empty.prefers))
    · exact fun c hc => bne_iff_ne.2 fun heq => hu (heq ▸ hc)
    · intro c hc
      rw [← Option.some.inj hc]
      rfl
  have hreplace := hprefers.replaceAll (anchorFree_pair x) (List.cons_ne_nil _ _)
    (f := fun h => ['<', x.letter, '>'] ++ h.groups.getD 0 [] ++ ['<', '/', x.letter, '>'])
  simp only [List.append_nil, List.append_assoc] at hreplace
  exact hreplace

/-- Text without a brace stays. -/
theorem convertAssTagToSrt_append {a : Text} (ha : '{' ∉ a) (s : Text) :
    convertAssTagToSrt x.letter (a ++ s) = a ++ convertAssTagToSrt x.letter s :=
  replaceAll_append (anchorFree_pair x) (fun _ hc _ =>
    run_seq_eq_nil (run_seq_eq_nil (run_one_eq_nil fun _ he =>
      beq_false_of_ne (Option.some.inj he ▸ fun heq => ha (heq ▸ hc))))) s

/-- So does a tag where no pair starts. -/
theorem convertAssTagToSrt_of_no_pair {a : Text} (ha : '{' ∉ a) {s : Text}
    (h : ∀ u, '{' ∉ u → ¬ x.assOpening ++ (u ++ x.assClosing) <+: '{' :: a ++ s) :
    convertAssTagToSrt x.letter ('{' :: a ++ s) =
      '{' :: a ++ convertAssTagToSrt x.letter s := by
  have hrun : (seqs [lit x.assOpening, group (many (· != '{')), lit x.assClosing]).run none
      ('{' :: (a ++ s)) = [] := by
    by_contra hne
    obtain ⟨l, hl, hlang⟩ := (run_ne_nil_iff (anchorFree_pair x)).1 hne
    obtain ⟨o, _, rfl, ho, u, _, rfl, hu, c, e, rfl, hc, he⟩ := hlang
    obtain rfl := language_lit.1 ho
    obtain rfl := language_lit.1 hc
    obtain rfl : e = [] := he
    rw [List.append_nil] at hl
    exact h u (fun hmem => absurd (hu '{' hmem) (by decide)) hl
  exact (replaceAll_cons (anchorFree_pair x) hrun).trans
    (congrArg _ (convertAssTagToSrt_append ha s))

/-- Where one ASS tag stands, no other does. -/
theorem eq_of_starts_assTag {a b n m : Char} {u s : Text}
    (h : ['{', '\\', a, n, '}'] ++ u <+: ['{', '\\', b, m, '}'] ++ s) : a = b ∧ n = m := by
  simp only [List.cons_append, List.cons_prefix_cons] at h
  exact ⟨h.2.2.1, h.2.2.2.1⟩

/-- No pair starts at a tag that is of another letter or has a tag in it that is left. -/
theorem not_pair_of_not_nestable {inner : StyledText} {u s : Text}
    (h : ¬ (t.rank < x.rank + 1 ∧ StyledText.Nestable t inner)) (hu : '{' ∉ u) :
    ¬ x.assOpening ++ (u ++ x.assClosing) <+: t.assOpening ++ (inner.mixed x.rank ++ s) := by
  intro hpair
  obtain rfl : x = t := Tag.letter_injective (eq_of_starts_assTag hpair).1
  have hbrace : '{' ∈ inner.mixed x.rank := by
    by_contra hbrace
    exact h ⟨Nat.lt_succ_self _, brace_not_mem_mixed.1 hbrace⟩
  -- the next brace opens a tag, where the pair would have to close
  obtain ⟨v, t, s', hv, hbefore⟩ := exists_assOpening_of_brace_mem hbrace
  rw [List.prefix_append_right_inj, hv, List.append_assoc, List.append_assoc] at hpair
  obtain rfl := eq_of_prefix_up_to hu hbefore hpair
  rw [List.prefix_append_right_inj, ← List.append_nil x.assClosing] at hpair
  exact absurd (eq_of_starts_assTag hpair).2 (by decide)

/-- So such a tag stays, and so does a tag that closes. -/
theorem convertAssTagToSrt_assOpening {inner : StyledText}
    (h : ¬ (t.rank < x.rank + 1 ∧ StyledText.Nestable t inner)) (s : Text) :
    convertAssTagToSrt x.letter (t.assOpening ++ (inner.mixed x.rank ++ s)) =
      t.assOpening ++ convertAssTagToSrt x.letter (inner.mixed x.rank ++ s) :=
  convertAssTagToSrt_of_no_pair (a := ['\\', t.letter, '1', '}']) (by cases t <;> decide)
    fun _ hu => not_pair_of_not_nestable h hu

theorem convertAssTagToSrt_assClosing (x t : Tag) (s : Text) :
    convertAssTagToSrt x.letter (t.assClosing ++ s) =
      t.assClosing ++ convertAssTagToSrt x.letter s :=
  convertAssTagToSrt_of_no_pair (a := ['\\', t.letter, '0', '}']) (by cases t <;> decide)
    fun _ _ hpair => absurd (eq_of_starts_assTag hpair).2 (by decide)

/-- **One pass**: the tags of its letter come back where nothing in braces is left in
them. -/
theorem convertAssTagToSrt_mixed (x : Tag) (d : StyledText) (s : Text) :
    convertAssTagToSrt x.letter (d.mixed x.rank ++ s) =
      d.mixed (x.rank + 1) ++ convertAssTagToSrt x.letter s := by
  induction d generalizing s with
  | nil => rfl
  | segment seg rest ih =>
    rw [StyledText.mixed, StyledText.mixed, List.append_assoc,
      convertAssTagToSrt_append (brace_not_mem_segment seg), ih, List.append_assoc]
  | tag t inner rest ihInner ihRest =>
    rw [StyledText.mixed, StyledText.mixed]
    by_cases hbefore : t.rank < x.rank ∧ StyledText.Nestable t inner
    · -- the tag is back already
      rw [if_pos hbefore, if_pos ⟨hbefore.1.trans (Nat.lt_succ_self _), hbefore.2⟩]
      simp only [List.append_assoc]
      rw [convertAssTagToSrt_append t.brace_not_mem_srtOpening, ihInner,
        convertAssTagToSrt_append t.brace_not_mem_srtClosing, ihRest]
    rw [if_neg hbefore]
    by_cases hnow : t.rank < x.rank + 1 ∧ StyledText.Nestable t inner
    · -- the tag is of this letter, and nothing is left in it
      obtain rfl : t = x := Tag.rank_injective
        (Nat.le_antisymm (Nat.le_of_lt_succ hnow.1) (not_lt.1 fun h => hbefore ⟨h, hnow.2⟩))
      have hbrace : '{' ∉ inner.mixed t.rank := brace_not_mem_mixed.2 hnow.2
      have hinner : inner.mixed (t.rank + 1) = inner.mixed t.rank := by
        have hih := ihInner []
        rw [convertAssTagToSrt_append hbrace] at hih
        exact (List.append_cancel_right hih).symm
      rw [if_pos hnow, hinner]
      simp only [List.append_assoc]
      rw [convertAssTagToSrt_pair hbrace, ihRest]
    · -- the tag stays: it is of another letter, or a tag is left in it
      rw [if_neg hnow]
      simp only [List.append_assoc]
      rw [convertAssTagToSrt_assOpening hnow, ihInner, convertAssTagToSrt_assClosing, ihRest]

/-! ### All three -/

/-- Before the first pass every tag is in ASS. -/
theorem mixed_zero (d : StyledText) : d.mixed 0 = d.ass := by
  induction d with
  | nil => rfl
  | segment seg rest ih =>
    rw [StyledText.mixed, ih]
    rfl
  | tag t inner rest ihInner ihRest =>
    rw [StyledText.mixed, if_neg fun h => absurd h.1 (Nat.not_lt_zero _), ihInner, ihRest]
    rfl

theorem convertAssTagsToSrt_ass (d : StyledText) : convertAssTagsToSrt d.ass = d.mixed 3 := by
  have hpass : ∀ x : Tag, convertAssTagToSrt x.letter (d.mixed x.rank) = d.mixed (x.rank + 1) :=
    fun x => by
      have hmixed := convertAssTagToSrt_mixed x d []
      rw [List.append_nil] at hmixed
      exact hmixed.trans (List.append_nil _)
  rw [convertAssTagsToSrt, ← mixed_zero]
  exact (congrArg (convertAssTagToSrt 'u' ∘ convertAssTagToSrt 'i') (hpass .b)).trans
    ((congrArg (convertAssTagToSrt 'u') (hpass .i)).trans (hpass .u))

/-- With nothing left in ASS, the text is in SRT. -/
theorem mixed_of_ordered (hd : d.Ordered) : d.mixed 3 = d.srt := by
  induction d with
  | nil => rfl
  | segment seg rest ih =>
    rw [StyledText.mixed, ih hd]
    rfl
  | tag t inner rest ihInner ihRest =>
    have hrank : t.rank < 3 := by cases t <;> decide
    rw [StyledText.mixed, if_pos ⟨hrank, hd.1⟩, ihInner hd.1.2, ihRest hd.2]
    rfl

/-- **Tags make the way to ASS and back**: the text comes back as it was, and what strips
off of its ASS form are its tags. -/
structure TagsRoundTrip (d : StyledText) : Prop where
  back : convertAssTagsToSrt (convertSrtTagsToAss d.srt) = d.srt
  strip : stripAssTags (convertSrtTagsToAss d.srt) = d.plain

/-- **They do exactly when each tag has only tags of earlier passes in it.** -/
theorem tagsRoundTrip_iff (d : StyledText) : TagsRoundTrip d ↔ d.Ordered := by
  have hbrace : '{' ∉ d.srt := fun h =>
    forall_mem_shown (p := (· ≠ '{')) (fun t c hc heq => t.brace_not_mem_srtOpening (heq ▸ hc))
      (fun t c hc heq => t.brace_not_mem_srtClosing (heq ▸ hc)) (fun c hc => hc.2.2.1) d '{' h rfl
  have hstrip : stripAssTags d.ass = d.plain := by
    have happend := stripAssTags_ass_append d []
    rw [List.append_nil] at happend
    exact happend.trans (List.append_nil _)
  constructor
  · intro h
    have hback := h.back
    rw [convertSrtTagsToAss_srt, convertAssTagsToSrt_ass] at hback
    exact (brace_not_mem_mixed.1 (hback ▸ hbrace)).2
  · intro hd
    refine ⟨?_, ?_⟩
    · rw [convertSrtTagsToAss_srt, convertAssTagsToSrt_ass, mixed_of_ordered hd]
    · rw [convertSrtTagsToAss_srt, hstrip]

/-- Italic in bold: `<b><i>x</i></b>`. -/
def italicInBold : StyledText :=
  .tag .b (.tag .i (.segment ⟨['x'], by decide⟩ .nil) .nil) .nil

/-- The italic tags come back, and the bold ones stay in ASS. -/
theorem not_tagsRoundTrip_italicInBold :
    convertAssTagsToSrt (convertSrtTagsToAss italicInBold.srt) =
      "\x7b\\b1\x7d<i>x</i>\x7b\\b0\x7d".toList ∧ ¬ TagsRoundTrip italicInBold := by
  have hback : convertAssTagsToSrt (convertSrtTagsToAss italicInBold.srt) =
      "\x7b\\b1\x7d<i>x</i>\x7b\\b0\x7d".toList := by decide +kernel
  refine ⟨hback, fun h => ?_⟩
  have hsame := hback.symm.trans h.back
  exact absurd hsame (by decide)

end SubxCore
