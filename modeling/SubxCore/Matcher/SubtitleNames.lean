import SubxCore.Matcher.Cache
/-!
# What a subtitle is named after its video

A subtitle takes the stem of its video, a tag if there is one, and keeps its own
extension. The stem is what is left of the video's name without its extension,
and the extension a media file has is in lower case whichever way the file came
to be: scanned, classified or made again from the cache. The name keeps the case
it has on disk, so an extension with a capital is not found at its end and stays
in (`generateSubtitleName_follows_stem`).
-/

namespace SubxCore

open Text

variable {files : FileSystem} {video subtitle : MediaFile} {aiMatch : FileMatch} {tag : Text}

/-! ## Video files -/

/-- `classify_file`. -/
def FileDiscovery.classifyFile (files : FileSystem) (scanRoot : Path) (id : Text) (path : Path) :
    Except SubXError (Option MediaFile) :=
  let extension := toLowercase (path.extension.getD [])
  match mediaFileType extension with
  | none => .ok none
  | some fileType =>
    match files path with
    | none => .error (.io IoError.notFound.display)
    | some content =>
      let relative := if scanRoot <+: path then path.drop scanRoot.length else path
      .ok (some {
        id := id
        path := path
        fileType := fileType
        size := content.length
        name := (path.fileName.map FileName.text).getD []
        extension := extension
        relativePath := replaceChar '\\' ['/'] (Path.display relative) })

/-- **A video file**, as it is scanned from a list of paths, classified in a
directory, or made again from a path in the cache. -/
inductive IsVideoFile (files : FileSystem) : MediaFile → Prop
  | scanned {id : Text} {path : Path} {video : MediaFile} :
      mediaFileAt files id path = some video → video.fileType = .video → IsVideoFile files video
  | classified {scanRoot : Path} {id : Text} {path : Path} {video : MediaFile} :
      FileDiscovery.classifyFile files scanRoot id path = .ok (some video) → video.fileType = .video →
        IsVideoFile files video
  | replayed {id : Text} {path : Path} {name : FileName} :
      path.fileName = some name → toLowercase (path.extension.getD []) ∈ videoExtensions →
        IsVideoFile files (replayedFile files id .video path name.text)

theorem mem_videoExtensions {extension : Text}
    (h : mediaFileType extension = some .video) : extension ∈ videoExtensions := by
  unfold mediaFileType at h
  split at h
  · assumption
  · split at h <;> cases h

/-- What the name and the extension of a video file are. -/
theorem IsVideoFile.name_extension (h : IsVideoFile files video) :
    video.extension ∈ videoExtensions ∧
      video.extension = toLowercase ((Path.splitExtension video.name).2.getD []) := by
  -- whichever way the file came to be, both are read off the last component of its path
  have hpath : ∀ {path : Path} {name : FileName}, path.fileName = some name →
      path.extension.getD [] = (Path.splitExtension name.text).2.getD [] := by
    intro path name hname
    rw [Path.extension, hname, Option.bind_some]
  cases h with
  | scanned hscanned hvideo =>
    have hdiscovered := isDiscovered_of_mediaFileAt hscanned
    obtain ⟨dir, name, hdir, hname⟩ := hdiscovered.exists_name
    have htype := hdiscovered.fileType
    rw [hvideo] at htype
    refine ⟨mem_videoExtensions htype, ?_⟩
    rw [hdiscovered.extension, hname, hdir, hpath (Path.fileName_concat ..)]
  | @classified scanRoot id path _ hclassified hvideo =>
    unfold FileDiscovery.classifyFile at hclassified
    dsimp only at hclassified
    split at hclassified
    · cases hclassified
    · next fileType htype =>
      split at hclassified
      · cases hclassified
      · obtain rfl := Option.some.inj (Except.ok.inj hclassified)
        obtain rfl : fileType = .video := hvideo
        refine ⟨mem_videoExtensions htype, ?_⟩
        dsimp only
        cases hname : path.fileName with
        | none =>
          rw [Path.extension, hname] at htype
          exact absurd htype (by decide)
        | some name => rw [hpath hname, Option.map_some, Option.getD_some]
  | replayed hname hmem => exact ⟨hmem, by rw [replayedFile, hpath hname]⟩

/-! ## The stem -/

/-- The name of a video without its extension, as `Path::file_stem` has it. -/
def MediaFile.stem (file : MediaFile) : Text := (Path.splitExtension file.name).1

/-- Its extension as the name has it. -/
def MediaFile.writtenExtension (file : MediaFile) : Text :=
  (Path.splitExtension file.name).2.getD []

/-- The name of a video file is its stem and its extension as written. -/
theorem IsVideoFile.name_eq (h : IsVideoFile files video) :
    video.name = video.stem ++ '.' :: video.writtenExtension ∧ '.' ∉ video.writtenExtension := by
  obtain ⟨hmem, hextension⟩ := h.name_extension
  have hsome : (Path.splitExtension video.name).2 ≠ none := by
    intro hnone
    rw [hnone] at hextension
    rw [hextension] at hmem
    exact absurd hmem (by decide)
  unfold MediaFile.stem MediaFile.writtenExtension
  unfold Path.splitExtension at hsome ⊢
  cases hsplit : rsplitOnce '.' video.name with
  | none =>
    rw [hsplit] at hsome
    exact absurd rfl hsome
  | some parts =>
    obtain ⟨before, after⟩ := parts
    rw [hsplit] at hsome
    dsimp only at hsome ⊢
    split
    · next hnil =>
      rw [if_pos hnil] at hsome
      exact absurd rfl hsome
    · exact rsplitOnce_eq_some hsplit

theorem stripSuffixOr_append (s ending : Text) : stripSuffixOr ending (s ++ ending) = s := by
  rw [stripSuffixOr, if_pos (List.isSuffixOf_iff_suffix.2 (List.suffix_append s ending)),
    List.length_append, Nat.add_sub_cancel_right, List.take_left]

/-- **The stem is found** exactly where the extension is written in lower case. -/
theorem IsVideoFile.videoBaseName_eq (h : IsVideoFile files video) :
    videoBaseName video = video.stem ↔
      toLowercase video.writtenExtension = video.writtenExtension := by
  obtain ⟨hmem, hextension⟩ := h.name_extension
  obtain ⟨hname, hdot⟩ := h.name_eq
  have hvideos : ∀ e ∈ videoExtensions, e ≠ [] ∧ '.' ∉ e := by decide
  obtain ⟨hne, hdot'⟩ := hvideos _ hmem
  change video.extension = toLowercase video.writtenExtension at hextension
  rw [videoBaseName, if_neg hne, ← hextension]
  constructor
  · intro hstem
    by_cases hsuffix : '.' :: video.extension <:+ video.name
    · obtain ⟨base, hbase⟩ := hsuffix
      have hsplit : rsplitOnce '.' (base ++ '.' :: video.extension) = some (base, video.extension) :=
        rsplitOnce_append hdot'
      rw [hbase, hname, rsplitOnce_append hdot] at hsplit
      exact (Prod.mk.inj (Option.some.inj hsplit)).2.symm
    · -- nothing is stripped, and the whole name is longer than the stem
      rw [stripSuffixOr, if_neg (mt List.isSuffixOf_iff_suffix.1 hsuffix), hname] at hstem
      have := congrArg List.length hstem
      rw [List.length_append, List.length_cons] at this
      omega
  · intro heq
    rw [heq, hname, stripSuffixOr_append]

/-! ## Tags -/

/-- A text of ASCII letters, digits, `_` and `-`, and not empty. -/
def IsFilenameTag (s : Text) : Prop := s ≠ [] ∧ ∀ c ∈ s, c.isAlphanum ∨ c = '_' ∨ c = '-'

theorem IsFilenameTag.no_separator {s : Text} (h : IsFilenameTag s) : '/' ∉ s ∧ '\\' ∉ s :=
  ⟨fun hmem => absurd (h.2 _ hmem) (by decide), fun hmem => absurd (h.2 _ hmem) (by decide)⟩

theorem isFilenameTag_of_languageCode {label : Text} (h : languageCode label = some tag) :
    IsFilenameTag tag := by
  have hcodes : ∀ entry ∈ languageCodes, entry.2 ≠ [] ∧
      ∀ c ∈ entry.2, c.isAlphanum ∨ c = '_' ∨ c = '-' := by decide
  exact hcodes _ (mem_languageCodes h)

theorem isFilenameTag_of_sanitizeSuffix {raw : Text} (h : sanitizeSuffix raw = some tag) :
    IsFilenameTag tag := by
  unfold sanitizeSuffix at h
  split at h
  · cases h
  · next hshort =>
    split at h
    · next hall =>
      obtain rfl := Option.some.inj h
      exact ⟨fun hnil => hshort (.inl hnil), hall⟩
    · cases h

/-- **Every tag is one**, whichever of its sources it comes from. -/
theorem isFilenameTag_of_languageTag (h : languageTag subtitle aiMatch = some tag) :
    IsFilenameTag tag := by
  unfold languageTag at h
  rcases Option.or_eq_some_iff.1 h with h | ⟨-, h⟩
  · rcases Option.or_eq_some_iff.1 h with h | ⟨-, h⟩
    · obtain ⟨raw, -, hraw⟩ := Option.bind_eq_some_iff.1 h
      exact isFilenameTag_of_sanitizeSuffix hraw
    · obtain ⟨raw, -, hraw⟩ := Option.bind_eq_some_iff.1 h
      unfold normalizeAiLanguage at hraw
      dsimp only at hraw
      split at hraw
      · cases hraw
      · obtain ⟨label, -, hlabel⟩ := Option.bind_eq_some_iff.1 hraw
        exact isFilenameTag_of_sanitizeSuffix hlabel
  · obtain ⟨label, hlabel⟩ := exists_languageCode_of_getPrimaryLanguage h
    exact isFilenameTag_of_languageCode hlabel

/-! ## Names -/

/-- **A name follows the stem of the video**: the stem, the tag if there is one,
and the extension of the subtitle. -/
def FollowsStem (video subtitle : MediaFile) (aiMatch : FileMatch) (name : Text) : Prop :=
  (languageTag subtitle aiMatch = none ∧ name = video.stem ++ '.' :: subtitle.extension) ∨
    ∃ tag, languageTag subtitle aiMatch = some tag ∧ tag ≠ [] ∧ '/' ∉ tag ∧ '\\' ∉ tag ∧
      name = video.stem ++ '.' :: tag ++ '.' :: subtitle.extension

/-- **The name of a subtitle follows the stem of its video** exactly where the
extension of the video is written in lower case. -/
theorem generateSubtitleName_follows_stem (h : IsVideoFile files video) (subtitle : MediaFile)
    (aiMatch : FileMatch) :
    FollowsStem video subtitle aiMatch (generateSubtitleName video subtitle aiMatch) ↔
      toLowercase video.writtenExtension = video.writtenExtension := by
  rw [← h.videoBaseName_eq]
  unfold FollowsStem generateSubtitleName
  cases htag : languageTag subtitle aiMatch with
  | none =>
    constructor
    · rintro (⟨-, heq⟩ | ⟨tag, hnone, -⟩)
      · exact List.append_cancel_right heq
      · cases hnone
    · exact fun heq => .inl ⟨rfl, by rw [heq]⟩
  | some tag =>
    obtain ⟨hne, -⟩ := isFilenameTag_of_languageTag htag
    obtain ⟨hslash, hback⟩ := (isFilenameTag_of_languageTag htag).no_separator
    constructor
    · rintro (⟨hsome, -⟩ | ⟨tag', hsome, -, -, -, heq⟩)
      · cases hsome
      · cases hsome
        dsimp only at heq
        rw [List.append_assoc, List.append_assoc] at heq
        exact List.append_cancel_right heq
    · exact fun heq => .inr ⟨tag, rfl, hne, hslash, hback, by rw [heq]⟩

/-- The one file `Movie.MKV`. -/
def movieFile : FileSystem := fun path =>
  if path = [.normal ⟨"Movie.MKV".toList, by decide⟩] then some [0] else none

/-- It, as it is scanned. -/
def movieVideo : MediaFile where
  id := ['v']
  path := [.normal ⟨"Movie.MKV".toList, by decide⟩]
  fileType := .video
  size := 1
  name := "Movie.MKV".toList
  extension := "mkv".toList
  relativePath := "Movie.MKV".toList

/-- A subtitle whose path says nothing of its language. -/
def plainSubtitle : MediaFile where
  id := ['s']
  path := [.normal ⟨"x.srt".toList, by decide⟩]
  fileType := .subtitle
  size := 1
  name := "x.srt".toList
  extension := "srt".toList
  relativePath := "x.srt".toList

/-- A proposal without labels. -/
def plainMatch : FileMatch where
  videoFileId := ['v']
  subtitleFileId := ['s']
  confidence := 1
  matchFactors := []
  language := none
  targetFilenameSuffix := none

theorem movieVideo_scanned : mediaFileAt movieFile ['v'] movieVideo.path = some movieVideo := by
  decide

theorem movieVideo_follows_stem_iff :
    FollowsStem movieVideo plainSubtitle plainMatch
        (generateSubtitleName movieVideo plainSubtitle plainMatch) ↔
      toLowercase movieVideo.writtenExtension = movieVideo.writtenExtension :=
  generateSubtitleName_follows_stem (.scanned movieVideo_scanned rfl) plainSubtitle plainMatch

/-- The subtitle of `Movie.MKV` becomes `Movie.MKV.srt`. -/
theorem movieVideo_keeps_extension :
    IsVideoFile movieFile movieVideo ∧
      generateSubtitleName movieVideo plainSubtitle plainMatch = "Movie.MKV.srt".toList ∧
      ¬FollowsStem movieVideo plainSubtitle plainMatch
        (generateSubtitleName movieVideo plainSubtitle plainMatch) := by
  have htag : languageTag plainSubtitle plainMatch = none := by decide
  have hname : generateSubtitleName movieVideo plainSubtitle plainMatch =
      "Movie.MKV.srt".toList := by decide
  refine ⟨.scanned movieVideo_scanned rfl, hname, ?_⟩
  rw [hname]
  rintro (⟨-, h⟩ | ⟨tag, h, -⟩)
  · exact absurd h (by decide)
  · rw [htag] at h
    cases h

end SubxCore
