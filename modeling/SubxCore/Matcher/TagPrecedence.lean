import SubxCore.Matcher.SubtitleNames
/-!
# Which tag a subtitle gets

The documented precedence: the suffix of the provider, brought to its normal
form; else the language of the provider, brought to its normal form; else what
the path says. The language is normalized in fact, and lower-casing its ASCII
letters first makes no difference (`normalizeAiLanguage_eq`). The suffix is
taken as it is, so it is the documented tag only where it is its own normal
form, and synonyms come to one name only then.
-/

namespace SubxCore

open Text

variable {video subtitle : MediaFile} {aiMatch aiMatch' : FileMatch} {tag code label raw s : Text}

/-! ## Normal forms -/

/-- The labels of the table are in lower case. -/
theorem toLowercase_of_languageCode (h : languageCode label = some code) :
    toLowercase label = label := by
  have hlabels : ∀ entry ∈ languageCodes, toLowercase entry.1 = entry.1 := by decide
  exact hlabels _ (mem_languageCodes h)

/-- The code that a label stands for, in any case and with blanks around. -/
def synonymCode (label : Text) : Option Text := languageCode (toLowercase (trim label))

/-- **The normal form of a label** is its code, or itself in lower case. -/
theorem normalizeLanguage_eq (h : trim raw ≠ []) :
    normalizeLanguage raw = some ((synonymCode raw).getD (toLowercase (trim raw))) := by
  unfold normalizeLanguage synonymCode
  dsimp only
  rw [if_neg h]
  cases hlower : languageCode (toLowercase (trim raw)) with
  | some code => rfl
  | none =>
    -- the second lookup finds nothing that the first has not
    cases htrimmed : languageCode (trim raw) with
    | none => rfl
    | some code =>
      rw [toLowercase_of_languageCode htrimmed, htrimmed] at hlower
      cases hlower

/-- A label of the table is not blank. -/
theorem trim_ne_nil_of_synonymCode (h : synonymCode raw = some code) : trim raw ≠ [] := by
  intro hnil
  rw [synonymCode, hnil, (by decide : languageCode (toLowercase []) = none)] at h
  cases h

/-- Synonyms have one normal form. -/
theorem normalizeLanguage_of_synonymCode (h : synonymCode raw = some code) :
    normalizeLanguage raw = some code := by
  rw [normalizeLanguage_eq (trim_ne_nil_of_synonymCode h), h]
  rfl

/-- Lower-casing the ASCII letters of a trimmed label first makes no difference. -/
theorem normalizeLanguage_map_toLower (raw : Text) :
    normalizeLanguage ((trim raw).map Char.toLower) = normalizeLanguage raw := by
  by_cases hnil : trim raw = []
  · rw [hnil, List.map_nil]
    unfold normalizeLanguage
    dsimp only
    rw [if_pos hnil]
    rfl
  · have hne : trim ((trim raw).map Char.toLower) ≠ [] := by
      rw [trim_map_toLower_trim]
      exact fun h => hnil (List.map_eq_nil_iff.1 h)
    rw [normalizeLanguage_eq hne, normalizeLanguage_eq hnil]
    unfold synonymCode
    rw [trim_map_toLower_trim, toLowercase_map_toLower]

/-! ## The documented precedence -/

/-- The tag a language gives: none where it is empty or `und`, and its normal
form where that passes `sanitize_suffix`. -/
def documentedLanguage (raw : Text) : Option Text :=
  if trim raw = [] ∨ eqIgnoreAsciiCase (trim raw) "und".toList then none
  else (normalizeLanguage raw).bind sanitizeSuffix

/-- **The documented tag** of a subtitle. -/
def documentedTag (subtitle : MediaFile) (aiMatch : FileMatch) : Option Text :=
  match aiMatch.targetFilenameSuffix.bind sanitizeSuffix with
  | some suffix => normalizeLanguage suffix
  | none => (aiMatch.language.bind documentedLanguage).or (getPrimaryLanguage subtitle.path)

/-- The language is normalized as documented. -/
theorem normalizeAiLanguage_eq (raw : Text) : normalizeAiLanguage raw = documentedLanguage raw := by
  unfold normalizeAiLanguage documentedLanguage
  dsimp only
  rw [normalizeLanguage_map_toLower]

/-- **A suffix that passes is its own normal form.** -/
def NormalSuffix (aiMatch : FileMatch) : Prop :=
  ∀ suffix, aiMatch.targetFilenameSuffix = some suffix → sanitizeSuffix suffix = some suffix →
    normalizeLanguage suffix = some suffix

theorem sanitizeSuffix_eq_some (h : sanitizeSuffix raw = some s) : s = raw := by
  unfold sanitizeSuffix at h
  split at h
  · cases h
  · split at h
    · exact (Option.some.inj h).symm
    · cases h

/-- The tag is the documented one exactly where a suffix that passes is normal. -/
theorem languageTag_eq_documentedTag_iff :
    languageTag subtitle aiMatch = documentedTag subtitle aiMatch ↔ NormalSuffix aiMatch := by
  have hlanguage : aiMatch.language.bind normalizeAiLanguage =
      aiMatch.language.bind documentedLanguage := by
    rw [funext normalizeAiLanguage_eq]
  unfold languageTag documentedTag NormalSuffix
  rw [hlanguage]
  cases hsuffix : aiMatch.targetFilenameSuffix with
  | none =>
    rw [Option.bind_none, Option.none_or]
    exact iff_of_true rfl fun _ h => (nomatch h)
  | some suffix =>
    rw [Option.bind_some]
    cases hsanitized : sanitizeSuffix suffix with
    | none =>
      rw [Option.none_or]
      refine iff_of_true rfl fun suffix' h h' => ?_
      cases h
      rw [hsanitized] at h'
      cases h'
    | some s =>
      obtain rfl := sanitizeSuffix_eq_some hsanitized
      rw [Option.some_or, Option.some_or]
      constructor
      · intro h suffix' hsome _
        cases hsome
        exact h.symm
      · exact fun h => (h _ rfl hsanitized).symm

/-! ## Synonyms -/

/-- The label that the precedence takes from a reply: its suffix if that passes,
else its language. -/
def aiLabel (aiMatch : FileMatch) : Option Text :=
  (aiMatch.targetFilenameSuffix.bind sanitizeSuffix).or aiMatch.language

/-- **Two replies are labelled by synonyms**, in whichever field. -/
def Synonymous (aiMatch aiMatch' : FileMatch) : Prop :=
  ∃ label label' code, aiLabel aiMatch = some label ∧ aiLabel aiMatch' = some label' ∧
    synonymCode label = some code ∧ synonymCode label' = some code

/-- A code of the table passes `sanitize_suffix`. -/
theorem sanitizeSuffix_languageCode (h : languageCode label = some code) :
    sanitizeSuffix code = some code := by
  have hcodes : ∀ entry ∈ languageCodes, sanitizeSuffix entry.2 = some entry.2 := by decide
  exact hcodes _ (mem_languageCodes h)

/-- The sentinel is not in the table. -/
theorem not_und_of_synonymCode (h : synonymCode label = some code) :
    ¬ eqIgnoreAsciiCase (trim label) "und".toList = true := by
  intro hund
  have hlower : (trim label).map Char.toLower = "und".toList := by
    have := beq_iff_eq.1 hund
    rwa [show ("und".toList).map Char.toLower = "und".toList from by decide] at this
  rw [synonymCode, ← toLowercase_map_toLower, hlower,
    (by decide : languageCode (toLowercase "und".toList) = none)] at h
  cases h

/-- **The documented tag of a label of the table is its code**, in whichever
field. -/
theorem documentedTag_of_synonymCode (hlabel : aiLabel aiMatch = some label)
    (hcode : synonymCode label = some code) : documentedTag subtitle aiMatch = some code := by
  unfold aiLabel at hlabel
  unfold documentedTag
  cases hsuffix : aiMatch.targetFilenameSuffix.bind sanitizeSuffix with
  | some suffix =>
    rw [hsuffix, Option.some_or] at hlabel
    cases hlabel
    exact normalizeLanguage_of_synonymCode hcode
  | none =>
    rw [hsuffix, Option.none_or] at hlabel
    dsimp only
    have hne : ¬ (trim label = [] ∨ eqIgnoreAsciiCase (trim label) "und".toList = true) :=
      not_or.2 ⟨trim_ne_nil_of_synonymCode hcode, not_und_of_synonymCode hcode⟩
    rw [hlabel, Option.bind_some, documentedLanguage, if_neg hne,
      normalizeLanguage_of_synonymCode hcode, Option.bind_some,
      sanitizeSuffix_languageCode hcode, Option.some_or]

/-- **The tags of two replies are the documented ones, and synonyms give one
name**, exactly where a suffix that passes is its own normal form, in both. -/
theorem languageTag_precedence (video subtitle : MediaFile) (aiMatch aiMatch' : FileMatch) :
    (languageTag subtitle aiMatch = documentedTag subtitle aiMatch ∧
      languageTag subtitle aiMatch' = documentedTag subtitle aiMatch' ∧
      (Synonymous aiMatch aiMatch' → generateSubtitleName video subtitle aiMatch =
        generateSubtitleName video subtitle aiMatch')) ↔
    NormalSuffix aiMatch ∧ NormalSuffix aiMatch' := by
  rw [languageTag_eq_documentedTag_iff, languageTag_eq_documentedTag_iff]
  constructor
  · exact fun h => ⟨h.1, h.2.1⟩
  · rintro ⟨hnormal, hnormal'⟩
    refine ⟨hnormal, hnormal', ?_⟩
    rintro ⟨label, label', code, hlabel, hlabel', hcode, hcode'⟩
    have htag : languageTag subtitle aiMatch = _ := languageTag_eq_documentedTag_iff.2 hnormal
    have htag' : languageTag subtitle aiMatch' = _ := languageTag_eq_documentedTag_iff.2 hnormal'
    rw [documentedTag_of_synonymCode hlabel hcode] at htag
    rw [documentedTag_of_synonymCode hlabel' hcode'] at htag'
    rw [generateSubtitleName, generateSubtitleName, htag, htag']

/-- The suffix `cht` stays, the language `cht` becomes `tc`. -/
theorem cht_not_normalized :
    Synonymous { plainMatch with targetFilenameSuffix := some "cht".toList }
        { plainMatch with language := some "cht".toList } ∧
      generateSubtitleName movieVideo plainSubtitle
          { plainMatch with targetFilenameSuffix := some "cht".toList } ≠
        generateSubtitleName movieVideo plainSubtitle
          { plainMatch with language := some "cht".toList } ∧
      languageTag plainSubtitle { plainMatch with targetFilenameSuffix := some "cht".toList } =
        some "cht".toList ∧
      documentedTag plainSubtitle { plainMatch with targetFilenameSuffix := some "cht".toList } =
        some "tc".toList :=
  ⟨⟨"cht".toList, "cht".toList, "tc".toList, by decide, by decide, by decide, by decide⟩,
    by decide, by decide, by decide⟩

end SubxCore
