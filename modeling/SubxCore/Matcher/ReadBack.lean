import SubxCore.Matcher.TagPrecedence
/-!
# Reading a tag back

A tag stands between the last two dots of a name. Who reads it takes the first
short word before a dot, for each of the separators in turn, and that may stand in
the stem (`detectFromFilename_generated`). Where it does, the tag is not read,
or not as what it is, and a second run gives another name.
-/

namespace SubxCore

open Text Regex

variable {sep : Char} {s t stem rest : Text} {prev : Option Char}

/-! ## Short words -/

/-- A letter of a short word. -/
def isSmall (c : Char) : Bool := 'a' ≤ c && c ≤ 'z'

/-- The word at the start of a text: two or three letters before a dot. -/
def shortWord : Text → Option Text
  | a :: b :: c :: s =>
    if isSmall a && isSmall b then
      if c = '.' then some [a, b]
      else if isSmall c && s.head? == some '.' then some [a, b, c] else none
    else none
  | _ => none

/-- The first short word after a separator. -/
def firstWord (sep : Char) : Text → Option Text
  | [] => none
  | d :: s => (if d = sep then shortWord s else none).or (firstWord sep s)

/-- Where no separator stands, the pattern does not match. -/
theorem run_languagePattern_of_ne {d : Char} (h : d ≠ sep) :
    (languagePattern sep).run prev (d :: s) = [] :=
  run_seq_eq_nil (run_one_eq_nil fun e he => by
    obtain rfl : d = e := Option.some.inj he
    exact beq_eq_false_iff_ne.2 h)

/-- Where one does, the pattern matches a short word after it. -/
theorem run_languagePattern_self (s : Text) :
    ((languagePattern sep).run prev (sep :: s)).head?.map Hit.groups =
      (shortWord s).map ([·]) := by
  have hnotdot : isSmall '.' = false := by decide
  have hclass : ∀ c : Char, (decide ('a' ≤ c) && decide (c ≤ 'z')) = isSmall c := fun _ => rfl
  rcases s with - | ⟨a, - | ⟨b, - | ⟨c, s⟩⟩⟩
  · simp [languagePattern, seqs, chr, run, shortWord]
  · cases ha : isSmall a <;>
      simp [languagePattern, seqs, chr, run, shortWord, hclass, ha]
  · cases ha : isSmall a <;> cases hb : isSmall b <;>
      simp [languagePattern, seqs, chr, run, shortWord, hclass, ha, hb]
  cases ha : isSmall a with
  | false => simp [languagePattern, seqs, chr, run, shortWord, hclass, ha]
  | true =>
    cases hb : isSmall b with
    | false => simp [languagePattern, seqs, chr, run, shortWord, hclass, ha, hb]
    | true =>
      cases hc : isSmall c with
      | false =>
        -- two letters, and whether a dot comes next
        by_cases hd : c = '.' <;>
          simp [languagePattern, seqs, chr, run, shortWord, hclass, ha, hb, hc, hd, hnotdot]
      | true =>
        -- three letters: a dot comes next, or the word is no word
        have hne : c ≠ '.' := by
          rintro rfl
          rw [hnotdot] at hc
          cases hc
        rcases s with - | ⟨d, s⟩
        · simp [languagePattern, seqs, chr, run, shortWord, hclass, ha, hb, hc, hne]
        · by_cases hd : d = '.' <;>
            simp [languagePattern, seqs, chr, run, shortWord, hclass, ha, hb, hc, hne, hd]

/-- **The pattern captures the first short word.** -/
theorem captures_languagePattern (s : Text) :
    (languagePattern sep).captures s = (firstWord sep s).map ([·]) := by
  suffices ∀ prev, ((languagePattern sep).find prev s).map Hit.groups =
      (firstWord sep s).map ([·]) from this none
  induction s with
  | nil => exact fun _ => rfl
  | cons d s ih =>
    intro prev
    rw [Regex.find, firstWord, Option.map_or, Option.map_or, ih]
    split
    · next h => rw [h, run_languagePattern_self]
    · next h => rw [run_languagePattern_of_ne h]; rfl

/-! ## Short words of a name -/

theorem firstWord_of_not_mem (h : sep ∉ s) : firstWord sep s = none := by
  induction s with
  | nil => rfl
  | cons d s ih =>
    rw [List.mem_cons, not_or] at h
    rw [firstWord, if_neg fun heq => h.1 heq.symm, ih h.2, Option.none_or]

/-- A word before a dot does not reach beyond it. -/
theorem shortWord_append (t rest : Text) :
    shortWord (t ++ '.' :: rest) = shortWord (t ++ ['.']) := by
  have hdot : isSmall '.' = false := by decide
  rcases t with - | ⟨a, - | ⟨b, - | ⟨c, - | ⟨d, t⟩⟩⟩⟩
  · rcases rest with - | ⟨x, - | ⟨y, rest⟩⟩ <;> simp [shortWord, hdot]
  · rcases rest with - | ⟨x, rest⟩ <;> simp [shortWord, hdot]
  · simp [shortWord]
  · simp [shortWord]
  · simp [shortWord]

/-- **The words of a name** are those of the stem with a dot after it, and then
those of the rest. -/
theorem firstWord_append (stem rest : Text) :
    firstWord sep (stem ++ '.' :: rest) =
      (firstWord sep (stem ++ ['.'])).or (firstWord sep ('.' :: rest)) := by
  induction stem with
  | nil =>
    rw [List.nil_append, List.nil_append, firstWord, firstWord, firstWord]
    split <;> rfl
  | cons d stem ih =>
    rw [List.cons_append, List.cons_append, firstWord, firstWord, ih, shortWord_append,
      Option.or_assoc]

/-! ## The language of a name -/

/-- What the patterns find in a stem with a dot after it: the language of the first
short word after a `.`, else after a `_`, else after a `-`. -/
def stemLanguage (stem : Text) : Option Text :=
  ['.', '_', '-'].findSome? fun sep => (firstWord sep (stem ++ ['.'])).bind languageCode

/-- **A stem lets a code be read**: nothing in it looks like a code between dots, or
what is found in it is the code. -/
def LetsRead (stem code : Text) : Prop :=
  firstWord '.' (stem ++ ['.']) = none ∨ stemLanguage stem = some code

variable {code ext : Text} {dir : Path} {file : FileName}

/-- What is read off a file name. -/
theorem detectFromFilename_eq : detectFromFilename (dir ++ [.normal file]) =
    (['.', '_', '-'].findSome? fun sep => (firstWord sep file.text).bind languageCode).map
      fun code => ⟨code, .filename, 8 / 10⟩ := by
  have hpattern : ∀ re : Regex, ∀ sep, re = languagePattern sep →
      ((re.captures file.text).bind fun cap => cap.head?.bind languageCode) =
        (firstWord sep file.text).bind languageCode := by
    rintro re sep rfl
    rw [captures_languagePattern, Option.bind_map]
    rfl
  unfold detectFromFilename filenamePatterns
  rw [Path.fileName_concat]
  simp only [Option.bind_eq_bind, Option.bind_some, List.findSome?_map, Function.comp_def,
    hpattern _ _ rfl]
  cases ['.', '_', '-'].findSome? fun sep => (firstWord sep file.text).bind languageCode <;> rfl

/-- A code of the table is two small letters, and its own code. -/
theorem languageCode_shape {label : Text} (h : languageCode label = some code) :
    (∃ a b, code = [a, b] ∧ isSmall a = true ∧ isSmall b = true) ∧
      languageCode code = some code := by
  have hcodes : ∀ entry ∈ languageCodes, entry.2.length = 2 ∧
      (∀ c ∈ entry.2, isSmall c = true) ∧ languageCode entry.2 = some entry.2 := by decide
  obtain ⟨hlength, hsmall, hself⟩ := hcodes _ (mem_languageCodes h)
  obtain ⟨a, b, hab⟩ := List.length_eq_two.1 hlength
  obtain rfl : code = [a, b] := hab
  exact ⟨⟨a, b, rfl, hsmall a (by simp), hsmall b (by simp)⟩, hself⟩

/-- The three separators in turn. -/
theorem findSome?_separators {α : Type} (f : Char → Option α) :
    ['.', '_', '-'].findSome? f = (f '.').or ((f '_').or (f '-')) := by
  simp only [List.findSome?_cons, List.findSome?_nil]
  cases f '.' <;> cases f '_' <;> cases f '-' <;> rfl

/-- **What is read off a name with a tag**: the tag where nothing in the stem looks
like a code between dots, and else what is found in the stem. -/
theorem detectFromFilename_generated {label : Text} (hcode : languageCode label = some code)
    (hext : ext ∈ subtitleExtensions) (hfile : file.text = stem ++ '.' :: code ++ '.' :: ext) :
    detectFromFilename (dir ++ [.normal file]) =
      (if firstWord '.' (stem ++ ['.']) = none then some code else stemLanguage stem).map
        fun code => ⟨code, .filename, 8 / 10⟩ := by
  obtain ⟨⟨a, b, rfl, ha, hb⟩, hself⟩ := languageCode_shape hcode
  have hextensions : ∀ e ∈ subtitleExtensions, '_' ∉ e ∧ '-' ∉ e := by decide
  have hsplit : ∀ sep, firstWord sep file.text = (firstWord sep (stem ++ ['.'])).or
      (firstWord sep ('.' :: ([a, b] ++ '.' :: ext))) := by
    intro sep
    rw [hfile, List.append_assoc, List.cons_append, firstWord_append]
  -- behind the stem there is the tag between dots, and neither of the other separators
  have hdot : firstWord '.' ('.' :: ([a, b] ++ '.' :: ext)) = some [a, b] := by
    rcases ext with - | ⟨x, ext⟩ <;> simp [firstWord, shortWord, ha, hb]
  have hother : ∀ sep, isSmall sep = false → sep ≠ '.' → sep ∉ ext →
      firstWord sep ('.' :: ([a, b] ++ '.' :: ext)) = none := by
    intro sep hsep hne hmem
    refine firstWord_of_not_mem ?_
    have hletter : ∀ c, isSmall c = true → sep ≠ c := by
      rintro c hc rfl
      rw [hsep] at hc
      cases hc
    simp [hne, hletter a ha, hletter b hb, hmem]
  rw [detectFromFilename_eq, stemLanguage, findSome?_separators, findSome?_separators,
    hsplit, hsplit, hsplit, hdot,
    hother '_' (by decide) (by decide) (hextensions ext hext).1,
    hother '-' (by decide) (by decide) (hextensions ext hext).2, Option.or_none, Option.or_none]
  cases firstWord '.' (stem ++ ['.']) with
  | none => rw [Option.none_or, Option.bind_some, hself, Option.some_or, if_pos rfl]
  | some word => rw [Option.some_or, if_neg (Option.some_ne_none _)]

/-- **A tag is read as itself** exactly where the stem lets it be read. -/
theorem reads_back_iff {label : Text} (hcode : languageCode label = some code)
    (hext : ext ∈ subtitleExtensions) (hfile : file.text = stem ++ '.' :: code ++ '.' :: ext) :
    (detectFromFilename (dir ++ [.normal file])).map LanguageInfo.code = some code ↔
      LetsRead stem code := by
  rw [detectFromFilename_generated hcode hext hfile, Option.map_map, LetsRead]
  change (Option.map id _ = _) ↔ _
  rw [Option.map_id, id]
  split
  · next h => exact iff_of_true rfl (.inl h)
  · next h => rw [or_iff_right h]

/-! ## A second run -/

variable {files : FileSystem} {id : Text} {video subtitle renamed : MediaFile}
variable {aiMatch again : FileMatch}

/-- A name with a dot in it is no label. -/
theorem detectFromDirectory_eq_none (hdir : ∀ comp ∈ dir, languageCode (toLowercase comp.text) = none)
    (hfile : '.' ∈ file.text) : detectFromDirectory (dir ++ [.normal file]) = none := by
  have hlabels : ∀ entry ∈ languageCodes, '.' ∉ entry.1 := by decide
  have hname : languageCode (toLowercase file.text) = none := by
    by_contra hsome
    obtain ⟨code, hcode⟩ := Option.ne_none_iff_exists'.1 hsome
    refine hlabels _ (mem_languageCodes hcode) ?_
    exact List.mem_flatMap.2 ⟨'.', hfile, by decide⟩
  rw [detectFromDirectory, Option.map_eq_none_iff, List.findSome?_eq_none_iff]
  intro comp hcomp
  rcases List.mem_append.1 hcomp with hcomp | hcomp
  · exact hdir comp hcomp
  · obtain rfl := List.mem_singleton.1 hcomp
    exact hname

/-- Where no directory names a language, the name does. -/
theorem getPrimaryLanguage_eq {path : Path} (h : detectFromDirectory path = none) :
    getPrimaryLanguage path = (detectFromFilename path).map LanguageInfo.code := by
  rw [getPrimaryLanguage, detectAllLanguages, h]
  cases detectFromFilename path <;> rfl

theorem path_of_mediaFileAt {path : Path} (h : mediaFileAt files id path = some renamed) :
    renamed.path = path := by
  obtain ⟨content, -, h⟩ := Option.bind_eq_some_iff.1 h
  obtain ⟨extension, -, h⟩ := Option.bind_eq_some_iff.1 h
  obtain ⟨fileType, -, h⟩ := Option.bind_eq_some_iff.1 h
  rw [← Option.some.inj h]

/-- A renamed subtitle keeps its extension. -/
theorem extension_of_renamed (hext : ext ∈ subtitleExtensions)
    (hfile : file.text = stem ++ '.' :: code ++ '.' :: ext)
    (hscan : mediaFileAt files id (dir ++ [.normal file]) = some renamed) :
    renamed.extension = ext := by
  have hextensions : ∀ e ∈ subtitleExtensions, '.' ∉ e ∧ toLowercase e = e := by decide
  obtain ⟨hdot, hlower⟩ := hextensions ext hext
  have hsplit : Path.splitExtension file.text = (stem ++ '.' :: code, some ext) := by
    rw [Path.splitExtension, hfile, rsplitOnce_append hdot]
    dsimp only
    rw [if_neg (List.append_ne_nil_of_right_ne_nil _ (List.cons_ne_nil _ _))]
  have hextension : Path.extension (dir ++ [.normal file]) = some ext := by
    rw [Path.extension, Path.fileName_concat, Option.bind_some, hsplit]
  have hdiscovered := isDiscovered_of_mediaFileAt hscan
  rw [hdiscovered.extension, path_of_mediaFileAt hscan, hextension, Option.getD_some, hlower]

/-- **A code that names a subtitle is read back, and a second run without labels
gives the name again**, exactly where the stem of the video lets it be read. -/
theorem second_run_same_name {label : Text} (htag : languageTag subtitle aiMatch = some code)
    (hcode : languageCode label = some code) (hext : subtitle.extension ∈ subtitleExtensions)
    (hfile : file.text = generateSubtitleName video subtitle aiMatch)
    (hscan : mediaFileAt files id (dir ++ [.normal file]) = some renamed)
    (hdir : ∀ comp ∈ dir, languageCode (toLowercase comp.text) = none)
    (hagain : again.targetFilenameSuffix = none ∧ again.language = none) :
    ((detectFromFilename renamed.path).map LanguageInfo.code = some code ↔
      LetsRead (videoBaseName video) code) ∧
    (generateSubtitleName video renamed again = generateSubtitleName video subtitle aiMatch ↔
      LetsRead (videoBaseName video) code) := by
  have hname : generateSubtitleName video subtitle aiMatch =
      videoBaseName video ++ '.' :: code ++ '.' :: subtitle.extension := by
    rw [generateSubtitleName, htag]
  rw [hname] at hfile
  have hpath := path_of_mediaFileAt hscan
  have hread : (detectFromFilename (dir ++ [.normal file])).map LanguageInfo.code = some code ↔ _ :=
    reads_back_iff hcode hext hfile
  have htag' : languageTag renamed again =
      (detectFromFilename (dir ++ [.normal file])).map LanguageInfo.code := by
    have hdot : '.' ∈ file.text := by
      rw [hfile]
      exact List.mem_append_right _ List.mem_cons_self
    rw [languageTag, hagain.1, hagain.2, hpath,
      getPrimaryLanguage_eq (detectFromDirectory_eq_none hdir hdot)]
    rfl
  rw [hpath, hname]
  refine ⟨hread, Iff.trans ?_ hread⟩
  rw [generateSubtitleName, htag', extension_of_renamed hext hfile hscan]
  cases (detectFromFilename (dir ++ [.normal file])).map LanguageInfo.code with
  | none =>
    -- without a tag the name is shorter
    refine iff_of_false (fun h => ?_) (by rintro ⟨⟩)
    have := congrArg List.length h
    simp only [List.length_append, List.length_cons] at this
    omega
  | some read =>
    rw [Option.some.injEq]
    dsimp only
    rw [List.append_assoc, List.append_assoc, List.append_cancel_left_eq, List.cons_append,
      List.cons_append, List.cons.injEq, List.append_cancel_right_eq]
    exact and_iff_right rfl

/-- A video with a short word at the end of its stem. -/
def webVideo : MediaFile := { movieVideo with name := "movie.web.mkv".toList }

/-- A proposal in English. -/
def englishMatch : FileMatch := { plainMatch with language := some "en".toList }

/-- The subtitle, named after it. -/
def webSubtitle : MediaFile where
  id := ['s']
  path := [.normal ⟨"movie.web.en.srt".toList, by decide⟩]
  fileType := .subtitle
  size := 1
  name := "movie.web.en.srt".toList
  extension := "srt".toList
  relativePath := "movie.web.en.srt".toList

theorem webSubtitle_scanned : mediaFileAt (fun _ => some [0]) ['s']
    ([] ++ [.normal ⟨"movie.web.en.srt".toList, by decide⟩]) = some webSubtitle := by
  decide

theorem webSubtitle_same_name_iff :
    ((detectFromFilename webSubtitle.path).map LanguageInfo.code = some "en".toList ↔
      LetsRead (videoBaseName webVideo) "en".toList) ∧
    (generateSubtitleName webVideo webSubtitle plainMatch =
        generateSubtitleName webVideo plainSubtitle englishMatch ↔
      LetsRead (videoBaseName webVideo) "en".toList) :=
  second_run_same_name (by decide) (by decide : languageCode "en".toList = some "en".toList)
    (by decide) (by decide) webSubtitle_scanned (fun _ h => (nomatch h)) ⟨rfl, rfl⟩

/-- The code `en` is not read off `movie.web.en.srt`, which a second run names
`movie.web.srt`. -/
theorem webSubtitle_not_read :
    generateSubtitleName webVideo plainSubtitle englishMatch = webSubtitle.name ∧
      detectFromFilename webSubtitle.path = none ∧
      generateSubtitleName webVideo webSubtitle plainMatch = "movie.web.srt".toList := by
  decide

end SubxCore
