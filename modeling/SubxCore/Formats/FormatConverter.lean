import SubxCore.Formats.Detection
import SubxCore.Formats.Encoding
import SubxCore.Formats.Transform
import SubxCore.Matcher.Discovery
import SubxCore.Matcher.NumberedPaths
/-!
# The format converter

What a file is converted to, which files of a directory a batch converts,
and where the output goes: beside the file, with the target format for its
extension. Two files of a directory have the same output when they have the
same stem. An output that is there already is a file of the batch, unless it is
a symbolic link: the walk leaves those out, and the writing goes through them.
-/

namespace SubxCore

open Text Function

/-! ## Symbolic links -/

/-- The symbolic links, and where a path leads through those on it. A file lies
in one place; what is not a link lies where its directory leads. -/
structure SymbolicLinks where
  isLink : Path → Bool
  leads : Path → Path
  leads_child : ∀ dir (name : FileName), isLink (dir ++ [.normal name]) = false →
    leads (dir ++ [.normal name]) = leads dir ++ [.normal name]

/-- No link anywhere. -/
def SymbolicLinks.none : SymbolicLinks := ⟨fun _ => false, id, fun _ _ _ => rfl⟩

/-- The contents of the files that paths lead to. -/
def SymbolicLinks.contents (links : SymbolicLinks) (files : FileSystem) : FileSystem :=
  fun p => files (links.leads p)

/-! ## One file -/

/-- `ConversionConfig`. -/
structure ConversionConfig where
  preserveStyling : Bool
  targetEncoding : Text
  keepOriginal : Bool
  validateOutput : Bool
  deriving DecidableEq, Repr

/-- `ConversionResult` of the format converter. -/
structure ConversionResult where
  success : Bool
  inputFormat : Text
  outputFormat : Text
  originalEntries : ℕ
  convertedEntries : ℕ
  warnings : List Text
  errors : List Text
  deriving DecidableEq, Repr

/-- `format_name`. -/
def SubtitleFormatType.formatName : SubtitleFormatType → Text
  | .srt => "SRT".toList
  | .ass => "ASS".toList
  | .vtt => "VTT".toList
  | .sub => "SUB".toList

/-- `get_format`. -/
def getFormat (name : Text) : Option SubtitleFormatType :=
  let lname := toLowercase name
  managerFormats.find? fun fmt => toLowercase fmt.formatName = lname

/-- `validate_conversion`. -/
def validateConversion (original converted : Subtitle) : ConversionResult :=
  let success := original.entries.length = converted.entries.length
  { success := success
    inputFormat := original.format.asStr
    outputFormat := converted.format.asStr
    originalEntries := original.entries.length
    convertedEntries := converted.entries.length
    warnings := []
    errors :=
      if success then []
      else ["Entry count mismatch: ".toList ++ Decimal.decimal original.entries.length ++
        " -> ".toList ++ Decimal.decimal converted.entries.length] }

/-- `convert_file` between its read and its write: the content to write, and the
result once it is written. -/
def convertContent (config : ConversionConfig) (targetFormat inputContent : Text) :
    Except SubXError (Text × ConversionResult) := do
  let inputSubtitle ← parseAuto inputContent
  let convertedSubtitle ← transformSubtitle config.preserveStyling inputSubtitle targetFormat
  match getFormat targetFormat with
  | none => throw (.subtitleFormat ("Unsupported target format: ".toList ++ targetFormat) [])
  | some targetFormatter =>
    let outputContent := targetFormatter.serialize convertedSubtitle
    return (outputContent,
      if config.validateOutput then validateConversion inputSubtitle convertedSubtitle
      else
        { success := true
          inputFormat := inputSubtitle.format.asStr
          outputFormat := targetFormat
          originalEntries := inputSubtitle.entries.length
          convertedEntries := convertedSubtitle.entries.length
          warnings := []
          errors := [] })

/-- `read_file_with_encoding`, once the bytes are read. -/
def decodeContent (decode : Decoder) (bytes : Bytes) : Except SubXError Text := do
  let info := EncodingDetector.withDefaults.detectEncoding bytes
  let conversion ← convertToUtf8 decode bytes info.charset
  return conversion.convertedText

/-- **The conversion** of the content of a file: the content to write, and the
result. -/
def conversionOf (decode : Decoder) (config : ConversionConfig) (targetFormat : Text)
    (bytes : Bytes) : Except SubXError (Text × ConversionResult) :=
  decodeContent decode bytes >>= convertContent config targetFormat

/-- `convert_file`, where the writing does not fail: its result, and the files then. -/
def convertFile (decode : Decoder) (config : ConversionConfig) (links : SymbolicLinks)
    (files : FileSystem) (inputPath outputPath : Path) (targetFormat : Text) :
    Except SubXError ConversionResult × FileSystem :=
  match readFileWithEncoding decode (links.contents files) inputPath >>=
    convertContent config targetFormat with
  | .ok (outputContent, result) =>
    (.ok result, update files (links.leads outputPath) (some (utf8 outputContent)))
  | .error err => (.error err, files)

/-! ## The files of a directory -/

/-- `strip_prefix`; a path that is not below the root is kept. -/
def Path.stripPrefix (root path : Path) : Path :=
  if root <+: path then path.drop root.length else path

/-- `classify_file`, of a file with some content. -/
def classifyFile (files : FileSystem) (scanRoot : Path) (id : Text) (path : Path) :
    Option MediaFile := do
  let extension := toLowercase (path.extension.getD [])
  let fileType ← mediaFileType extension
  return {
    id := id
    path := path
    fileType := fileType
    size := ((files path).getD []).length
    name := (path.fileName.map FileName.text).getD []
    extension := extension
    relativePath := replaceChar '\\' ['/'] (Path.stripPrefix scanRoot path).display }

/-- `scan_directory`, of the files that a walk comes to, with the identifiers of
the scan from the `n`-th on. -/
def scanDirectory (files : FileSystem) (ids : ℕ → Text) (scanRoot : Path) :
    ℕ → List Path → List MediaFile
  | _, [] => []
  | n, path :: paths =>
    match classifyFile files scanRoot (ids n) path with
    | none => scanDirectory files ids scanRoot n paths
    | some file => file :: scanDirectory files ids scanRoot (n + 1) paths

/-- `discover_subtitle_files`. -/
def discoverSubtitleFiles (files : FileSystem) (ids : ℕ → Text) (inputDir : Path)
    (walked : List Path) : List Path :=
  ((scanDirectory files ids inputDir 0 walked).filter (·.fileType = .subtitle)).map MediaFile.path

/-- Where the conversion of a file goes. -/
def outputPath (targetFormat : Text) (path : Path) : Path := path.withExtension targetFormat

/-- A path below a directory, at any depth or directly in it, that no link is on:
what a walk can come to. -/
def IsBelow (links : SymbolicLinks) (inputDir : Path) (recursive : Bool) (path : Path) : Prop :=
  ∃ names : List FileName, names ≠ [] ∧ (recursive = false → names.length = 1) ∧
    path = inputDir ++ names.map Component.normal ∧
    ∀ before, before ≠ [] → before <+: names →
      links.isLink (inputDir ++ before.map Component.normal) = false

/-- What a walk of a directory comes to that is not a link: each file in it once, at
any depth or only directly in it. Links to directories are not followed. -/
structure IsWalk (links : SymbolicLinks) (files : FileSystem) (inputDir : Path) (recursive : Bool)
    (walked : List Path) : Prop where
  nodup : walked.Nodup
  mem_iff : ∀ path, path ∈ walked ↔
    (links.contents files path).isSome ∧ IsBelow links inputDir recursive path

variable {links : SymbolicLinks} {files : FileSystem} {ids : ℕ → Text} {inputDir p q : Path}
variable {walked : List Path} {recursive : Bool} {decode : Decoder} {config : ConversionConfig} {targetFormat : Text}
variable {bytes : Bytes} {output : Text} {result : ConversionResult} {fmt : SubtitleFormatType}

/-! ## Converting one file -/

theorem convertFile_of_size_error {outputPath : Path} {err : SubXError}
    (h : checkFileSize (links.contents files) p 52428800 "Subtitle".toList = .error err) :
    convertFile decode config links files p outputPath targetFormat = (.error err, files) := by
  unfold convertFile readFileWithEncoding
  rw [h]
  rfl

/-- A file that is not too large is read, and then converted. -/
theorem read_then_convert (h : checkFileSize files p 52428800 "Subtitle".toList = .ok ()) :
    readFileWithEncoding decode files p >>= convertContent config targetFormat =
      conversionOf decode config targetFormat ((files p).getD []) := by
  unfold readFileWithEncoding
  rw [h]
  rfl

theorem convertFile_of_error {outputPath : Path} {err : SubXError}
    (hsize : checkFileSize (links.contents files) p 52428800 "Subtitle".toList = .ok ())
    (h : conversionOf decode config targetFormat ((links.contents files p).getD []) =
      .error err) :
    convertFile decode config links files p outputPath targetFormat = (.error err, files) := by
  unfold convertFile
  rw [read_then_convert hsize, h]

theorem convertFile_of_ok {outputPath : Path}
    (hsize : checkFileSize (links.contents files) p 52428800 "Subtitle".toList = .ok ())
    (h : conversionOf decode config targetFormat ((links.contents files p).getD []) =
      .ok (output, result)) :
    convertFile decode config links files p outputPath targetFormat =
      (.ok result, update files (links.leads outputPath) (some (utf8 output))) := by
  unfold convertFile
  rw [read_then_convert hsize, h]

/-! ## What is discovered -/

/-- A path with the extension of a subtitle. -/
def IsSubtitlePath (p : Path) : Prop :=
  mediaFileType (toLowercase (p.extension.getD [])) = some .subtitle

instance : DecidablePred IsSubtitlePath := fun p =>
  inferInstanceAs (Decidable (mediaFileType (toLowercase (p.extension.getD [])) = some .subtitle))

theorem classifyFile_eq_none {id : Text} (h : classifyFile files inputDir id p = none) :
    ¬ IsSubtitlePath p := by
  intro hsubtitle
  unfold IsSubtitlePath at hsubtitle
  unfold classifyFile at h
  dsimp only at h
  rw [hsubtitle] at h
  cases h

theorem classifyFile_eq_some {id : Text} {file : MediaFile}
    (h : classifyFile files inputDir id p = some file) :
    file.path = p ∧ (file.fileType = .subtitle ↔ IsSubtitlePath p) := by
  obtain ⟨fileType, htype, h⟩ := Option.bind_eq_some_iff.1 h
  cases h
  refine ⟨rfl, ?_⟩
  unfold IsSubtitlePath
  rw [htype, Option.some_inj]

theorem map_scanDirectory : ∀ (walked : List Path) (n : ℕ),
    ((scanDirectory files ids inputDir n walked).filter (·.fileType = .subtitle)).map
      MediaFile.path = walked.filter IsSubtitlePath
  | [], _ => rfl
  | p :: walked, n => by
    rw [scanDirectory]
    rcases hfile : classifyFile files inputDir (ids n) p with - | file
    · rw [List.filter_cons_of_neg (by simpa using classifyFile_eq_none hfile)]
      exact map_scanDirectory walked n
    · obtain ⟨rfl, hsubtitle⟩ := classifyFile_eq_some hfile
      by_cases h : IsSubtitlePath file.path
      · rw [List.filter_cons_of_pos (by simpa using hsubtitle.2 h),
          List.filter_cons_of_pos (by simpa using h), List.map_cons,
          map_scanDirectory walked (n + 1)]
      · rw [List.filter_cons_of_neg (by simpa using mt hsubtitle.1 h),
          List.filter_cons_of_neg (by simpa using h), map_scanDirectory walked (n + 1)]

/-- **The files discovered** are the subtitles that the walk comes to. -/
theorem discoverSubtitleFiles_eq :
    discoverSubtitleFiles files ids inputDir walked = walked.filter IsSubtitlePath :=
  map_scanDirectory walked 0

/-! ## Where the output goes -/

/-- A transformation that goes through is to one of the formats. -/
theorem exists_format_of_transformSubtitle {preserveStyling : Bool} {subtitle converted : Subtitle}
    (h : transformSubtitle preserveStyling subtitle targetFormat = .ok converted) :
    ∃ fmt : SubtitleFormatType, targetFormat = fmt.asStr := by
  by_contra hnone
  have hne : ∀ fmt : SubtitleFormatType, targetFormat ≠ fmt.asStr := fun fmt heq =>
    hnone ⟨fmt, heq⟩
  have hsrt : targetFormat ≠ "srt".toList := hne .srt
  have hass : targetFormat ≠ "ass".toList := hne .ass
  have hvtt : targetFormat ≠ "vtt".toList := hne .vtt
  unfold transformSubtitle at h
  dsimp only at h
  simp only [hsrt, hass, hvtt, and_false, if_false, (hne subtitle.format).symm] at h
  cases h

/-- A conversion that goes through is to one of the formats. -/
theorem exists_format_of_conversionOf
    (h : conversionOf decode config targetFormat bytes = .ok (output, result)) :
    ∃ fmt : SubtitleFormatType, targetFormat = fmt.asStr := by
  obtain ⟨inputContent, -, hconvert⟩ := Run.bind_eq_ok.1 h
  obtain ⟨inputSubtitle, -, hconvert⟩ := Run.bind_eq_ok.1 hconvert
  obtain ⟨convertedSubtitle, htransform, -⟩ := Run.bind_eq_ok.1 hconvert
  exact exists_format_of_transformSubtitle htransform

/-- A file of a batch: its directory and its name, which has a stem. -/
theorem exists_of_isSubtitlePath (h : IsSubtitlePath p) : ∃ dir name, p = dir ++ [.normal name] ∧
    (Path.splitExtension name.text).1 ≠ [] := by
  unfold IsSubtitlePath at h
  rcases hext : p.extension with - | ext
  · rw [hext] at h
    cases h
  obtain ⟨name, hname, hsplit⟩ := Option.bind_eq_some_iff.1 hext
  refine ⟨p.dropLast, name, Path.eq_concat_of_fileName hname, fun hstem => ?_⟩
  rcases hr : rsplitOnce '.' name.text with - | ⟨before, after⟩
  · rw [Path.splitExtension, hr] at hsplit
    cases hsplit
  · rw [Path.splitExtension, hr] at hsplit hstem
    dsimp only at hsplit hstem
    by_cases hbefore : before = []
    · rw [if_pos hbefore] at hsplit
      cases hsplit
    · rw [if_neg hbefore] at hstem
      exact hbefore hstem

/-- The name of an output. -/
def outputName (fmt : SubtitleFormatType) (name : FileName) : Text :=
  (Path.splitExtension name.text).1 ++ '.' :: fmt.asStr

theorem isFileName_outputName (fmt : SubtitleFormatType) (name : FileName) :
    IsFileName (outputName fmt name) := by
  have hslash : '/' ∉ (Path.splitExtension name.text).1 :=
    fun h => name.isFileName.2.2.2 (mem_of_mem_splitExtension_fst h)
  have hnoslash : '/' ∉ fmt.asStr := by cases fmt <;> decide
  obtain ⟨c, hc, hdot⟩ : ∃ c ∈ fmt.asStr, c ≠ '.' := by cases fmt <;> decide
  unfold outputName
  refine isFileName_of_mem (List.mem_append_right _ (List.mem_cons_of_mem _ hc)) hdot ?_
  simp [hslash, hnoslash]

/-- An output is beside its file. -/
theorem outputPath_concat (dir : Path) (name : FileName) (fmt : SubtitleFormatType) :
    outputPath fmt.asStr (dir ++ [.normal name]) =
      dir ++ [.normal ⟨outputName fmt name, isFileName_outputName fmt name⟩] := by
  have hne : fmt.asStr ≠ [] := by cases fmt <;> decide
  rw [outputPath, Path.withExtension, Path.fileStem, Path.fileName_concat]
  dsimp only [Option.map_some]
  rw [if_neg hne, List.dropLast_concat]
  exact Path.join_of_isFileName dir (isFileName_outputName fmt name)

/-- The output of an output is itself. -/
theorem outputPath_outputPath (h : IsSubtitlePath p) :
    outputPath fmt.asStr (outputPath fmt.asStr p) = outputPath fmt.asStr p := by
  obtain ⟨dir, name, rfl, hstem⟩ := exists_of_isSubtitlePath h
  have hdot : '.' ∉ fmt.asStr := by cases fmt <;> decide
  rw [outputPath_concat, outputPath_concat]
  congr 3
  rw [FileName.mk.injEq]
  unfold outputName
  rw [splitExtension_append hstem hdot]

/-- An output has the extension of a subtitle. -/
theorem isSubtitlePath_outputPath (h : IsSubtitlePath p) :
    IsSubtitlePath (outputPath fmt.asStr p) := by
  obtain ⟨dir, name, rfl, hstem⟩ := exists_of_isSubtitlePath h
  have hdot : '.' ∉ fmt.asStr := by cases fmt <;> decide
  rw [outputPath_concat, IsSubtitlePath, Path.extension, Path.fileName_concat]
  dsimp only [Option.bind_some]
  rw [outputName, splitExtension_append hstem hdot]
  dsimp only [Option.getD_some]
  cases fmt <;> decide

/-- **Two files have the same output** when they are in one directory and have one
stem. -/
theorem outputPath_eq_iff (hp : IsSubtitlePath p) (hq : IsSubtitlePath q) :
    outputPath fmt.asStr p = outputPath fmt.asStr q ↔
      p.parent = q.parent ∧ p.fileStem = q.fileStem := by
  obtain ⟨dir, name, rfl, -⟩ := exists_of_isSubtitlePath hp
  obtain ⟨dir', name', rfl, -⟩ := exists_of_isSubtitlePath hq
  rw [outputPath_concat, outputPath_concat, Path.parent_concat, Path.parent_concat, Path.fileStem,
    Path.fileStem, Path.fileName_concat, Path.fileName_concat]
  constructor
  · intro h
    obtain ⟨hdir, hname⟩ := List.append_inj' h rfl
    obtain htext := congrArg FileName.text (Component.normal.inj (List.cons.inj hname).1)
    exact ⟨congrArg some hdir, congrArg some (List.append_cancel_right htext)⟩
  · rintro ⟨hdir, hstem⟩
    have hname : outputName fmt name = outputName fmt name' := by
      unfold outputName
      exact congrArg (· ++ '.' :: fmt.asStr) (Option.some.inj hstem)
    simp only [Option.some.inj hdir, hname]

/-! ## Below the directory -/

/-- Without links on it, a path leads below where its directory does. -/
theorem leads_of_isBelow {path : Path} (h : IsBelow links inputDir recursive path) :
    ∃ names : List FileName, path = inputDir ++ names.map Component.normal ∧
      links.leads path = links.leads inputDir ++ names.map Component.normal := by
  obtain ⟨names, -, -, rfl, hlinks⟩ := h
  refine ⟨names, rfl, ?_⟩
  induction names using List.reverseRecOn with
  | nil => rw [List.map_nil, List.append_nil, List.append_nil]
  | append_singleton before name ih =>
    have hname : links.isLink ((inputDir ++ before.map Component.normal) ++
        [Component.normal name]) = false := by
      have := hlinks (before ++ [name]) (by simp) (List.prefix_refl _)
      simpa using this
    have hbefore : links.leads (inputDir ++ before.map Component.normal) =
        links.leads inputDir ++ before.map Component.normal :=
      ih fun names hne hle => hlinks names hne (hle.trans (List.prefix_append before [name]))
    rw [List.map_append, List.map_singleton, ← List.append_assoc, links.leads_child _ _ hname,
      hbefore, List.append_assoc]

/-- And two of them do not lead to one place. -/
theorem eq_of_leads_eq (hp : IsBelow links inputDir recursive p)
    (hq : IsBelow links inputDir recursive q) (h : links.leads p = links.leads q) : p = q := by
  obtain ⟨names, rfl, hleads⟩ := leads_of_isBelow hp
  obtain ⟨names', rfl, hleads'⟩ := leads_of_isBelow hq
  rw [hleads, hleads'] at h
  rw [List.append_cancel_left h]

/-- An output that is not a link has none on it. -/
theorem isBelow_outputPath (hsubtitle : IsSubtitlePath p)
    (hp : IsBelow links inputDir recursive p)
    (hlink : links.isLink (outputPath fmt.asStr p) = false) :
    IsBelow links inputDir recursive (outputPath fmt.asStr p) := by
  obtain ⟨names, hne, hlength, rfl, hlinks⟩ := hp
  rcases List.eq_nil_or_concat names with rfl | ⟨before, name, rfl⟩
  · exact (hne rfl).elim
  rw [List.concat_eq_append] at hlength hlinks hlink hsubtitle ⊢
  have hpath : inputDir ++ (before ++ [name]).map Component.normal =
      (inputDir ++ before.map Component.normal) ++ [Component.normal name] := by simp
  rw [hpath, outputPath_concat] at hlink ⊢
  refine ⟨before ++ [⟨outputName fmt name, isFileName_outputName fmt name⟩], by simp, ?_, by simp,
    fun names hne hle => ?_⟩
  · simpa using hlength
  · -- the directories are those of the file, and the output is no link
    rcases List.prefix_concat_iff.1 hle with rfl | hle
    · simpa using hlink
    · exact hlinks names hne (hle.trans (List.prefix_append before [name]))

/-- **An output that is there already** is a file of the batch, unless it is a link. -/
theorem output_mem_of_exists (hwalk : IsWalk links files inputDir recursive walked)
    (hp : p ∈ walked.filter IsSubtitlePath)
    (hlink : links.isLink (outputPath fmt.asStr p) = false)
    (hexists : (links.contents files (outputPath fmt.asStr p)).isSome) :
    outputPath fmt.asStr p ∈ walked.filter IsSubtitlePath := by
  obtain ⟨hmem, hsubtitle⟩ := List.mem_filter.1 hp
  have hsubtitle := of_decide_eq_true hsubtitle
  exact List.mem_filter.2 ⟨(hwalk.mem_iff _).2 ⟨hexists,
    isBelow_outputPath hsubtitle ((hwalk.mem_iff p).1 hmem).2 hlink⟩,
    decide_eq_true (isSubtitlePath_outputPath hsubtitle)⟩

end SubxCore
