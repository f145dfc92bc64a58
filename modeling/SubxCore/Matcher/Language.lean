import SubxCore.Common.Path
import SubxCore.Common.Regex
import Mathlib.Data.List.Sort
import Mathlib.Data.List.Destutter
import Mathlib.Data.Rat.Init
import Mathlib.Algebra.Order.Ring.Rat
/-!
# Languages

The language tags of subtitle names: the table of synonyms, what a path
says of the language of a file, and the two ways a label of the model is
made into a tag. Whatever its source, a tag has no path separator.
-/

namespace SubxCore

open Text Regex

/-- The synonyms of `LanguageDetector::new`, with the code each stands for. -/
def languageCodes : List (Text × Text) :=
  [("tc", "tc"), ("繁中", "tc"), ("繁體", "tc"), ("cht", "tc"),
    ("sc", "sc"), ("简中", "sc"), ("简体", "sc"), ("chs", "sc"),
    ("traditional-chinese", "tc"), ("traditional_chinese", "tc"), ("zh-hant", "tc"),
    ("zh_hant", "tc"), ("simplified-chinese", "sc"), ("simplified_chinese", "sc"),
    ("zh-hans", "sc"), ("zh_hans", "sc"),
    ("en", "en"), ("英文", "en"), ("english", "en"), ("eng", "en"),
    ("ja", "ja"), ("jpn", "ja"), ("japanese", "ja"),
    ("ko", "ko"), ("kor", "ko"), ("korean", "ko"),
    ("fr", "fr"), ("fra", "fr"), ("fre", "fr"), ("french", "fr"),
    ("de", "de"), ("deu", "de"), ("ger", "de"), ("german", "de"),
    ("es", "es"), ("spa", "es"), ("spanish", "es"),
    ("pt", "pt"), ("por", "pt"), ("portuguese", "pt"),
    ("ru", "ru"), ("rus", "ru"), ("russian", "ru")].map fun (synonym, code) =>
      (synonym.toList, code.toList)

/-- The code a synonym stands for. -/
def languageCode (label : Text) : Option Text := languageCodes.lookup label

/-- Where a language was found. -/
inductive LanguageSource
  | directory
  | filename
  | extension
  deriving DecidableEq, Repr

/-- A language that was found. -/
structure LanguageInfo where
  code : Text
  source : LanguageSource
  confidence : ℚ
  deriving DecidableEq, Repr

/-- `detect_from_directory`: the first component that is a synonym. -/
def detectFromDirectory (path : Path) : Option LanguageInfo :=
  (path.findSome? fun comp => languageCode (toLowercase comp.text)).map fun code =>
    ⟨code, .directory, 9 / 10⟩

/-- The pattern `([a-z]{2,3})\.` after a separator. -/
def languagePattern (sep : Char) : Regex :=
  let letter := one fun c => 'a' ≤ c && c ≤ 'z'
  seqs [chr sep, group (seqs [letter, letter, alt letter empty]), chr '.']

/-- `filename_patterns`. -/
def filenamePatterns : List Regex := ['.', '_', '-'].map languagePattern

/-- `detect_from_filename`: the first pattern whose leftmost match is a
synonym. -/
def detectFromFilename (path : Path) : Option LanguageInfo := do
  let name ← path.fileName
  let code ← filenamePatterns.findSome? fun re =>
    (re.captures name.text).bind fun cap => cap.head?.bind languageCode
  return ⟨code, .filename, 8 / 10⟩

/-- `detect_all_languages`. -/
def detectAllLanguages (path : Path) : List LanguageInfo :=
  let langs := (detectFromDirectory path).toList ++ (detectFromFilename path).toList
  (langs.insertionSort fun a b => b.confidence ≤ a.confidence).destutter fun a b =>
    a.code ≠ b.code

/-- `get_primary_language`. -/
def getPrimaryLanguage (path : Path) : Option Text :=
  (detectAllLanguages path).head?.map LanguageInfo.code

/-- `LanguageDetector::normalize`. -/
def normalizeLanguage (raw : Text) : Option Text :=
  let trimmed := trim raw
  if trimmed = [] then none
  else
    let lower := toLowercase trimmed
    ((languageCode lower).or (languageCode trimmed)).or (some lower)

/-- `sanitize_suffix`. -/
def sanitizeSuffix (raw : Text) : Option Text :=
  if raw = [] ∨ 16 < byteLen raw then none
  else if ∀ c ∈ raw, c.isAlphanum ∨ c = '_' ∨ c = '-' then some raw
  else none

/-- `normalize_ai_language`. -/
def normalizeAiLanguage (raw : Text) : Option Text :=
  let trimmed := trim raw
  if trimmed = [] ∨ eqIgnoreAsciiCase trimmed "und".toList then none
  else (normalizeLanguage (trimmed.map Char.toLower)).bind sanitizeSuffix

/-! ## Tags have no separator -/

variable {path : Path} {raw tag : Text}

/-- A code is an entry of the table, so what holds of all entries holds of it. -/
theorem mem_languageCodes (h : languageCode raw = some tag) : (raw, tag) ∈ languageCodes := by
  obtain ⟨before, after, heq, -⟩ := List.lookup_eq_some_iff.1 h
  rw [heq]
  exact List.mem_append_right before List.mem_cons_self

theorem slash_not_mem_of_languageCode (h : languageCode raw = some tag) : '/' ∉ tag := by
  have hcodes : ∀ entry ∈ languageCodes, '/' ∉ entry.2 := by decide
  exact hcodes _ (mem_languageCodes h)

theorem slash_not_mem_of_sanitizeSuffix (h : sanitizeSuffix raw = some tag) : '/' ∉ tag := by
  unfold sanitizeSuffix at h
  split at h
  · cases h
  · split at h
    · next hall =>
      obtain rfl := Option.some.inj h
      exact fun hmem => absurd (hall '/' hmem) (by decide)
    · cases h

theorem slash_not_mem_of_normalizeAiLanguage (h : normalizeAiLanguage raw = some tag) :
    '/' ∉ tag := by
  unfold normalizeAiLanguage at h
  dsimp only at h
  split at h
  · cases h
  · obtain ⟨label, -, hlabel⟩ := Option.bind_eq_some_iff.1 h
    exact slash_not_mem_of_sanitizeSuffix hlabel

/-- A language that is found is one of the table. -/
theorem exists_languageCode_of_mem_detectAllLanguages {info : LanguageInfo}
    (h : info ∈ detectAllLanguages path) : ∃ label, languageCode label = some info.code := by
  unfold detectAllLanguages at h
  have hmem := (List.mem_insertionSort _).1 ((List.destutter_sublist _ _).subset h)
  rcases List.mem_append.1 hmem with hdir | hname
  · obtain ⟨code, hcode, rfl⟩ := Option.map_eq_some_iff.1 (Option.mem_toList.1 hdir)
    obtain ⟨comp, -, hcomp⟩ := List.exists_of_findSome?_eq_some hcode
    exact ⟨_, hcomp⟩
  · obtain ⟨name, -, hfound⟩ := Option.bind_eq_some_iff.1 (Option.mem_toList.1 hname)
    obtain ⟨code, hcode, hinfo⟩ := Option.bind_eq_some_iff.1 hfound
    obtain rfl := Option.some.inj hinfo
    obtain ⟨re, -, hre⟩ := List.exists_of_findSome?_eq_some hcode
    obtain ⟨cap, -, hcap⟩ := Option.bind_eq_some_iff.1 hre
    obtain ⟨label, -, hlabel⟩ := Option.bind_eq_some_iff.1 hcap
    exact ⟨label, hlabel⟩

theorem exists_languageCode_of_getPrimaryLanguage (h : getPrimaryLanguage path = some tag) :
    ∃ label, languageCode label = some tag := by
  obtain ⟨info, hinfo, rfl⟩ := Option.map_eq_some_iff.1 h
  exact exists_languageCode_of_mem_detectAllLanguages (List.mem_of_head? hinfo)

theorem slash_not_mem_of_getPrimaryLanguage (h : getPrimaryLanguage path = some tag) :
    '/' ∉ tag := by
  obtain ⟨label, hlabel⟩ := exists_languageCode_of_getPrimaryLanguage h
  exact slash_not_mem_of_languageCode hlabel

end SubxCore
