import SubxCore.Matcher.Discovery
import SubxCore.Matcher.Execution
import SubxCore.Matcher.Language
import SubxCore.Matcher.UniqueTargets
/-!
# Planning

What the engine makes of the files of a scan and the reply of the provider:
the request, the new name of every subtitle, where it goes, and the
operations after the allocator has gone over them. A confidence is a finite
number here, and compared exactly.
-/

namespace SubxCore

open Text

/-- `MatchConfig`, with the part that planning looks at. -/
structure PlanConfig extends MatchConfig where
  confidenceThreshold : ℚ
  maxSampleLength : ℕ
  enableContentAnalysis : Bool
  aiModel : Text
  maxSubtitleBytes : ℕ
  deriving DecidableEq, Repr

/-! ## The provider -/

/-- A content sample. -/
structure ContentSample where
  filename : Text
  subtitleFileId : Text
  contentPreview : Text
  fileSize : ℕ
  deriving DecidableEq, Repr

/-- What the provider is asked. -/
structure AnalysisRequest where
  videoFiles : List Text
  subtitleFiles : List Text
  contentSamples : List ContentSample
  deriving DecidableEq, Repr

/-- A pair the provider proposes. -/
structure FileMatch where
  videoFileId : Text
  subtitleFileId : Text
  confidence : ℚ
  matchFactors : List Text
  language : Option Text
  targetFilenameSuffix : Option Text
  deriving DecidableEq, Repr

/-- The reply of the provider. -/
structure MatchResult where
  fileMatches : List FileMatch
  deriving DecidableEq, Repr

/-- The text of a file, if it is UTF-8. -/
def decodeUtf8 (content : Bytes) : Option Text :=
  (String.fromUTF8? ⟨content.toArray⟩).map String.toList

/-- The first bytes of a text. A cut inside a character panics. -/
def takeBytes : ℕ → Text → Except Panic Text
  | 0, _ => .ok []
  | _ + 1, [] => .ok []
  | n + 1, c :: s =>
    if n + 1 < c.utf8Size then .error .charBoundary
    else (takeBytes (n + 1 - c.utf8Size) s).map (c :: ·)

/-- `create_content_preview`. -/
def createContentPreview (config : PlanConfig) (content : Text) : Except Panic Text :=
  let preview := join ['\n'] ((lines content).take 20)
  if config.maxSampleLength < byteLen preview then
    (takeBytes config.maxSampleLength preview).map (· ++ "...".toList)
  else .ok preview

/-- `check_file_size`. -/
def checkFileSize (files : FileSystem) (path : Path) (maxBytes : ℕ) (label : Text) :
    Except SubXError Unit :=
  match files path with
  | none => .error (.io IoError.notFound.display)
  | some content =>
    if maxBytes < content.length then
      .error (.io (label ++ " file too large: ".toList ++ Decimal.decimal content.length ++
        " bytes (limit: ".toList ++ Decimal.decimal maxBytes ++ " bytes): ".toList ++ path.display))
    else .ok ()

/-- The sample of a subtitle. -/
def contentSample (config : PlanConfig) (files : FileSystem) (subtitle : MediaFile) :
    Except Stop ContentSample := do
  (checkFileSize files subtitle.path config.maxSubtitleBytes "Subtitle".toList).mapError .failed
  match decodeUtf8 ((files subtitle.path).getD []) with
  | none => throw (.failed (.io "stream did not contain valid UTF-8".toList))
  | some content =>
    let preview ← (createContentPreview config content).mapError Stop.panicked
    return ⟨subtitle.name, subtitle.id, preview, subtitle.size⟩

/-- `extract_content_samples`. -/
def extractContentSamples (config : PlanConfig) (files : FileSystem) (subtitles : List MediaFile) :
    Except Stop (List ContentSample) := subtitles.mapM (contentSample config files)

/-- A file in the inventory of a request. -/
def inventoryLine (file : MediaFile) : Text :=
  "ID:".toList ++ file.id ++ " | Name:".toList ++ file.name ++ " | Path:".toList ++
    file.relativePath

/-- The request for some files. -/
def analysisRequest (config : PlanConfig) (files : FileSystem) (videos subtitles : List MediaFile) :
    Except Stop AnalysisRequest := do
  let samples ← if config.enableContentAnalysis then extractContentSamples config files subtitles
    else .ok []
  return ⟨videos.map inventoryLine, subtitles.map inventoryLine, samples⟩

/-! ## One operation -/

/-- A text without a suffix, or the whole text. -/
def stripSuffixOr (ending s : Text) : Text :=
  if ending.isSuffixOf s then s.take (s.length - ending.length) else s

/-- The name of a video without its extension. -/
def videoBaseName (video : MediaFile) : Text :=
  if video.extension = [] then video.name else stripSuffixOr ('.' :: video.extension) video.name

/-- The language tag of a subtitle: the provider's suffix, the provider's
language, or what the path says. -/
def languageTag (subtitle : MediaFile) (aiMatch : FileMatch) : Option Text :=
  ((aiMatch.targetFilenameSuffix.bind sanitizeSuffix).or
    (aiMatch.language.bind normalizeAiLanguage)).or (getPrimaryLanguage subtitle.path)

/-- `generate_subtitle_name`. -/
def generateSubtitleName (video subtitle : MediaFile) (aiMatch : FileMatch) : Text :=
  match languageTag subtitle aiMatch with
  | some code => videoBaseName video ++ '.' :: code ++ '.' :: subtitle.extension
  | none => videoBaseName video ++ '.' :: subtitle.extension

/-- Whether a subtitle goes to another directory. -/
def requiresRelocation (mode : FileRelocationMode) (video subtitle : Path) : Bool :=
  mode ≠ .none && subtitle.parent ≠ video.parent

/-- The target of a subtitle that does, beside its video. -/
def relocationTarget (mode : FileRelocationMode) (video subtitle : Path) (newName : Text) :
    Except Panic (Option Path) :=
  if requiresRelocation mode video subtitle then
    match video.parent with
    | none => .error .unwrapNone
    | some videoDir => .ok (some (videoDir.join newName))
  else .ok none

/-- The operation for a pair of files. -/
def planOperation (mode : FileRelocationMode) (video subtitle : MediaFile) (newName : Text)
    (confidence : ℚ) (reasoning : List Text) : Except Panic MatchOperation := do
  let target ← relocationTarget mode video.path subtitle.path newName
  return {
    videoFile := video
    subtitleFile := subtitle
    newSubtitleName := newName
    confidence := confidence
    reasoning := reasoning
    relocationMode := mode
    relocationTargetPath := target
    requiresRelocation := requiresRelocation mode video.path subtitle.path }

/-! ## All operations -/

/-- A proposal that makes no operation. -/
structure RejectedCandidate where
  videoPath : Text
  subtitlePath : Text
  confidence : ℚ
  reason : Text
  deriving DecidableEq, Repr

/-- What matching comes to. -/
structure MatchAudit where
  operations : List MatchOperation
  rejected : List RejectedCandidate
  deriving DecidableEq, Repr

/-- `find_media_file_by_id_or_path`, without a fallback. -/
def findMediaFileById (files : List MediaFile) (fileId : Text) : Option MediaFile :=
  files.find? fun f => f.id = fileId

/-- The path of a file that may be missing, as it is shown. -/
def displayPath (file : Option MediaFile) : Text := (file.map fun f => f.path.display).getD []

/-- What one proposal makes. -/
def assembleMatch (config : PlanConfig) (videos subtitles : List MediaFile) (aiMatch : FileMatch) :
    Except Panic (MatchOperation ⊕ RejectedCandidate) :=
  let video := findMediaFileById videos aiMatch.videoFileId
  let subtitle := findMediaFileById subtitles aiMatch.subtitleFileId
  let rejected := fun reason =>
    .ok (.inr ⟨displayPath video, displayPath subtitle, aiMatch.confidence, reason⟩)
  if aiMatch.confidence < config.confidenceThreshold then rejected "below_threshold".toList
  else
    match video, subtitle with
    | some video, some subtitle =>
      (planOperation config.relocationMode video subtitle
        (generateSubtitleName video subtitle aiMatch) aiMatch.confidence aiMatch.matchFactors).map
          .inl
    | _, _ => rejected "id_not_found".toList

/-- The operations and the rejected proposals, in the order of the reply. -/
def assemble (config : PlanConfig) (videos subtitles : List MediaFile) :
    List FileMatch → Except Panic MatchAudit
  | [] => .ok ⟨[], []⟩
  | aiMatch :: more => do
    let made ← assembleMatch config videos subtitles aiMatch
    let audit ← assemble config videos subtitles more
    return match made with
      | .inl op => { audit with operations := op :: audit.operations }
      | .inr candidate => { audit with rejected := candidate :: audit.rejected }

/-- The plan: the operations after the allocator. -/
def planOperations (config : PlanConfig) (files : FileSystem) (videos subtitles : List MediaFile)
    (reply : MatchResult) : Except Panic MatchAudit := do
  let audit ← assemble config videos subtitles reply.fileMatches
  let operations ← applyUniqueTargetPaths (fun p => (files p).isSome) audit.operations
  return { audit with operations := operations }

variable {config : PlanConfig} {files : FileSystem} {video subtitle : MediaFile}
variable {videos subtitles : List MediaFile} {aiMatch : FileMatch} {op : MatchOperation}
variable {mode : FileRelocationMode} {tag : Text} {audit : MatchAudit}

/-! ## Names are file names -/

theorem slash_not_mem_of_languageTag (h : languageTag subtitle aiMatch = some tag) :
    '/' ∉ tag := by
  unfold languageTag at h
  rcases Option.or_eq_some_iff.1 h with h | ⟨-, h⟩
  · rcases Option.or_eq_some_iff.1 h with h | ⟨-, h⟩
    · obtain ⟨raw, -, hraw⟩ := Option.bind_eq_some_iff.1 h
      exact slash_not_mem_of_sanitizeSuffix hraw
    · obtain ⟨raw, -, hraw⟩ := Option.bind_eq_some_iff.1 h
      exact slash_not_mem_of_normalizeAiLanguage hraw
  · exact slash_not_mem_of_getPrimaryLanguage h

theorem slash_not_mem_videoBaseName (h : '/' ∉ video.name) : '/' ∉ videoBaseName video := by
  unfold videoBaseName stripSuffixOr
  split
  · exact h
  · split
    · exact fun hmem => h (List.mem_of_mem_take hmem)
    · exact h

/-- A video that was discovered has more of a name than its extension. -/
theorem videoBaseName_ne_nil (h : IsDiscovered files video) : videoBaseName video ≠ [] := by
  obtain ⟨dir, name, hpath, hname⟩ := h.exists_name
  have hne : video.name ≠ [] := hname ▸ name.isFileName.1
  unfold videoBaseName stripSuffixOr
  split
  · exact hne
  split
  · next hsuffix =>
    -- what is cut off is the extension, which does not start the name
    obtain ⟨base, hbase⟩ := List.isSuffixOf_iff_suffix.1 hsuffix
    have hdots : ∀ e ∈ videoExtensions ++ subtitleExtensions, '.' ∉ e := by decide
    have hsplit : rsplitOnce '.' video.name = some (base, video.extension) := by
      rw [← hbase]
      exact rsplitOnce_append (hdots _ (mem_extensions h.fileType))
    have hextension : video.extension ≠ [] := by assumption
    rw [← hbase, List.length_append, Nat.add_sub_cancel_right, List.take_left]
    rintro rfl
    refine hextension ?_
    rw [h.extension, hpath, Path.extension, Path.fileName_concat, Option.bind_some, ← hname,
      Path.splitExtension, hsplit]
    rfl
  · exact hne

/-- The name of a subtitle: a base, and an extension of subtitles. -/
def IsSubtitleName (s : Text) : Prop :=
  ∃ base ≠ [], ∃ extension ∈ subtitleExtensions, s = base ++ '.' :: extension

/-- A counter leaves it one. -/
theorem IsSubtitleName.withCounter {s : Text} (h : IsSubtitleName s) (n : ℕ) :
    IsSubtitleName ((NumberedName.ofText s).withCounter n) := by
  obtain ⟨base, hbase, extension, hextension, rfl⟩ := h
  have hdots : ∀ e ∈ subtitleExtensions, '.' ∉ e := by decide
  have hsplit : splitFilename (base ++ '.' :: extension) = (base, '.' :: extension) := by
    rw [splitFilename, rsplitOnce_append (hdots extension hextension)]
    dsimp only
    rw [if_neg hbase]
  refine ⟨(splitNumericTail base).1 ++ '.' :: Decimal.decimal n, by simp, extension, hextension, ?_⟩
  unfold NumberedName.ofText NumberedName.withCounter
  rw [hsplit]

/-- **A new name is the name of a subtitle.** -/
theorem isSubtitleName_generateSubtitleName (hvideo : IsDiscovered files video)
    (hsubtitle : subtitle.extension ∈ subtitleExtensions) :
    IsSubtitleName (generateSubtitleName video subtitle aiMatch) := by
  unfold generateSubtitleName
  split
  · next code _ =>
    exact ⟨videoBaseName video ++ '.' :: code, by simp, subtitle.extension, hsubtitle, rfl⟩
  · exact ⟨videoBaseName video, videoBaseName_ne_nil hvideo, subtitle.extension, hsubtitle, rfl⟩

/-- **And a file name.** -/
theorem isFileName_generateSubtitleName (hvideo : '/' ∉ video.name)
    (hsubtitle : subtitle.extension ∈ subtitleExtensions) :
    IsFileName (generateSubtitleName video subtitle aiMatch) := by
  have hextensions : ∀ e ∈ subtitleExtensions, '/' ∉ e ∧ ∃ c ∈ e, c ≠ '.' := by decide
  obtain ⟨hslash, c, hc, hdot⟩ := hextensions subtitle.extension hsubtitle
  have hbase := slash_not_mem_videoBaseName hvideo
  unfold generateSubtitleName
  split
  · next code hcode =>
    have htag := slash_not_mem_of_languageTag hcode
    refine isFileName_of_mem (List.mem_append_right _ (List.mem_cons_of_mem _ hc)) hdot ?_
    simp [hbase, htag, hslash]
  · refine isFileName_of_mem (List.mem_append_right _ (List.mem_cons_of_mem _ hc)) hdot ?_
    simp [hbase, hslash]

/-! ## What a plan is -/

/-- **An operation as it is planned**: for two files of the scan, confident
enough, with a file name, and with a target beside the video exactly when
the mode and the directories ask for one. -/
structure IsPlanned (config : PlanConfig) (files : FileSystem) (op : MatchOperation) : Prop where
  video : IsDiscovered files op.videoFile
  videoType : op.videoFile.fileType = .video
  subtitle : IsDiscovered files op.subtitleFile
  subtitleType : op.subtitleFile.fileType = .subtitle
  confidence : config.confidenceThreshold ≤ op.confidence
  newSubtitleName : IsFileName op.newSubtitleName
  subtitleName : IsSubtitleName op.newSubtitleName
  relocationMode : op.relocationMode = config.relocationMode
  requires : op.requiresRelocation =
    requiresRelocation config.relocationMode op.videoFile.path op.subtitleFile.path
  target : relocationTarget config.relocationMode op.videoFile.path op.subtitleFile.path
    op.newSubtitleName = .ok op.relocationTargetPath

theorem relocationTarget_eq_none {newName : Text}
    (h : requiresRelocation mode video.path subtitle.path = false) :
    relocationTarget mode video.path subtitle.path newName = .ok none := by
  rw [relocationTarget, h, if_neg Bool.false_ne_true]

/-- The target of a subtitle that is relocated is a file beside its video. -/
theorem relocationTarget_eq_some {newName : Text} {dir : Path} {name : FileName}
    (hvideo : video.path = dir ++ [.normal name])
    (h : requiresRelocation mode video.path subtitle.path = true) :
    relocationTarget mode video.path subtitle.path newName = .ok (some (dir.join newName)) := by
  rw [relocationTarget, h, if_pos rfl, hvideo, Path.parent_concat]

/-- An operation that is planned goes to its directory, or beside its video. -/
theorem IsPlanned.relocationTargetPath_eq (h : IsPlanned config files op) :
    (op.requiresRelocation = false ∧ op.relocationTargetPath = none) ∨
      ∃ (dir : Path) (name : FileName), op.videoFile.path = dir ++ [.normal name] ∧
        op.requiresRelocation = true ∧
        op.relocationTargetPath = some (dir.join op.newSubtitleName) := by
  obtain ⟨dir, name, hpath, -⟩ := h.video.exists_name
  have htarget := h.target
  rw [h.requires]
  rcases hrequires : requiresRelocation config.relocationMode op.videoFile.path
    op.subtitleFile.path with - | -
  · rw [relocationTarget_eq_none hrequires] at htarget
    exact Or.inl ⟨rfl, (Except.ok.inj htarget).symm⟩
  · rw [relocationTarget_eq_some hpath hrequires] at htarget
    exact Or.inr ⟨dir, name, hpath, rfl, (Except.ok.inj htarget).symm⟩

theorem IsPlanned.wellNamed (h : IsPlanned config files op) : op.WellNamed := by
  refine ⟨h.newSubtitleName, fun p hp => ?_⟩
  rcases h.relocationTargetPath_eq with ⟨-, hnone⟩ | ⟨dir, name, -, -, hsome⟩
  · rw [hnone] at hp
    cases hp
  · rw [hsome, Path.join_of_isFileName dir h.newSubtitleName] at hp
    rw [← Option.some.inj hp, Path.fileName_concat]
    rfl

/-- The file name of its target is the new name. -/
theorem IsPlanned.fileName_finalTarget (h : IsPlanned config files op) :
    op.finalTarget.fileName = some ⟨op.newSubtitleName, h.newSubtitleName⟩ := by
  unfold MatchOperation.finalTarget
  rcases h.relocationTargetPath_eq with ⟨-, hnone⟩ | ⟨dir, name, -, -, hsome⟩
  · rw [hnone]
    dsimp only
    rw [Path.join_of_isFileName _ h.newSubtitleName, Path.fileName_concat]
  · rw [hsome]
    dsimp only
    rw [Path.join_of_isFileName _ h.newSubtitleName, Path.fileName_concat]

/-- **The allocator leaves a plan a plan.** -/
theorem IsPlanned.withTarget (h : IsPlanned config files op) (filename name : FileName)
    (hfile : op.finalTarget.fileName = some filename) (hcounted : Counted filename name) :
    IsPlanned config files
      (withTarget op (op.finalTarget.parent.getD [] ++ [.normal name]) name.text) := by
  have hsubtitle : IsSubtitleName name.text := by
    rw [h.fileName_finalTarget] at hfile
    obtain rfl := Option.some.inj hfile
    rcases hcounted with rfl | ⟨n, hn⟩
    · exact h.subtitleName
    · exact hn ▸ h.subtitleName.withCounter n
  refine ⟨h.video, h.videoType, h.subtitle, h.subtitleType, h.confidence, name.isFileName, hsubtitle,
    h.relocationMode, h.requires, ?_⟩
  unfold SubxCore.withTarget
  dsimp only
  have hrequires := h.requires
  rcases h.relocationTargetPath_eq with ⟨hfalse, hnone⟩ | ⟨dir, video, hpath, htrue, hsome⟩
  · rw [hnone, Option.map_none]
    exact relocationTarget_eq_none (hrequires ▸ hfalse)
  · have hdir : op.finalTarget.parent.getD [] = dir := by
      rw [MatchOperation.finalTarget, hsome]
      dsimp only
      rw [Path.join_of_isFileName dir h.newSubtitleName, Path.parent_concat, Option.getD_some]
    rw [hsome, Option.map_some, hdir, relocationTarget_eq_some hpath (hrequires ▸ htrue),
      Path.join_name]

/-! ## The plan of a reply -/

theorem mem_of_findMediaFileById {media : List MediaFile} {file : MediaFile} {id : Text}
    (h : findMediaFileById media id = some file) : file ∈ media := List.mem_of_find?_eq_some h

/-- What the files of a plan are: discovered, and of their types. -/
structure IsInventory (files : FileSystem) (videos subtitles : List MediaFile) : Prop where
  video : ∀ file ∈ videos, IsDiscovered files file ∧ file.fileType = .video
  subtitle : ∀ file ∈ subtitles, IsDiscovered files file ∧ file.fileType = .subtitle

theorem planOperation_eq_ok {newName : Text} {confidence : ℚ} {reasoning : List Text}
    (h : planOperation mode video subtitle newName confidence reasoning = .ok op) :
    ∃ target, relocationTarget mode video.path subtitle.path newName = .ok target ∧
      op = ⟨video, subtitle, newName, confidence, reasoning, mode, target,
        requiresRelocation mode video.path subtitle.path⟩ := by
  obtain ⟨target, htarget, h⟩ := Run.bind_eq_ok.1 h
  exact ⟨target, htarget, (Except.ok.inj h).symm⟩

/-- What a proposal makes is made of the two files it names. -/
theorem assembleMatch_eq_inl (h : assembleMatch config videos subtitles aiMatch = .ok (.inl op)) :
    config.confidenceThreshold ≤ aiMatch.confidence ∧
      ∃ video subtitle, findMediaFileById videos aiMatch.videoFileId = some video ∧
        findMediaFileById subtitles aiMatch.subtitleFileId = some subtitle ∧
        planOperation config.relocationMode video subtitle
          (generateSubtitleName video subtitle aiMatch) aiMatch.confidence aiMatch.matchFactors =
            .ok op := by
  unfold assembleMatch at h
  dsimp only at h
  split at h
  · cases h
  · next hconfidence =>
    refine ⟨not_lt.1 hconfidence, ?_⟩
    split at h
    · next video subtitle hvideo hsubtitle =>
      refine ⟨video, subtitle, hvideo, hsubtitle, ?_⟩
      rcases hplan : planOperation config.relocationMode video subtitle
        (generateSubtitleName video subtitle aiMatch) aiMatch.confidence aiMatch.matchFactors
        with err | op'
      · rw [hplan] at h
        cases h
      · rw [hplan] at h
        cases h
        rfl
    · cases h

/-- What a proposal makes is planned. -/
theorem isPlanned_of_assembleMatch (hfiles : IsInventory files videos subtitles)
    (h : assembleMatch config videos subtitles aiMatch = .ok (.inl op)) :
    IsPlanned config files op := by
  obtain ⟨hconfidence, video, subtitle, hvideo, hsubtitle, hplan⟩ := assembleMatch_eq_inl h
  obtain ⟨target, htarget, rfl⟩ := planOperation_eq_ok hplan
  obtain ⟨hv, hvtype⟩ := hfiles.video video (mem_of_findMediaFileById hvideo)
  obtain ⟨hs, htype⟩ := hfiles.subtitle subtitle (mem_of_findMediaFileById hsubtitle)
  have hextension := mem_subtitleExtensions (htype ▸ hs.fileType)
  obtain ⟨dir, name, -, hname⟩ := hv.exists_name
  exact ⟨hv, hvtype, hs, htype, hconfidence,
    isFileName_generateSubtitleName (hname ▸ name.isFileName.2.2.2)
    hextension, isSubtitleName_generateSubtitleName hv hextension, rfl, rfl, htarget⟩

theorem isPlanned_of_assemble (hfiles : IsInventory files videos subtitles) :
    ∀ {reply : List FileMatch} {audit : MatchAudit},
      assemble config videos subtitles reply = .ok audit →
        ∀ op ∈ audit.operations, IsPlanned config files op
  | [], _, h, op, hop => by
    cases h
    cases hop
  | aiMatch :: reply, _, h, op, hop => by
    obtain ⟨made, hmade, h⟩ := Run.bind_eq_ok.1 h
    obtain ⟨audit, hassemble, h⟩ := Run.bind_eq_ok.1 h
    have ih := isPlanned_of_assemble hfiles hassemble
    rcases made with op' | candidate
    · cases h
      rcases List.mem_cons.1 hop with rfl | hop
      · exact isPlanned_of_assembleMatch hfiles hmade
      · exact ih op hop
    · cases h
      exact ih op hop

/-- **Every operation of a plan is planned.** -/
theorem isPlanned_of_planOperations {reply : MatchResult} (hfiles : IsInventory files videos subtitles)
    (h : planOperations config files videos subtitles reply = .ok audit) :
    ∀ op ∈ audit.operations, IsPlanned config files op := by
  obtain ⟨assembled, hassemble, h⟩ := Run.bind_eq_ok.1 h
  obtain ⟨operations, happly, h⟩ := Run.bind_eq_ok.1 h
  cases h
  exact applyUniqueTargetPaths_forall (fun _ => IsPlanned.wellNamed) (fun _ => IsPlanned.withTarget)
    (isPlanned_of_assemble hfiles hassemble) happly

/-! ## The two kinds of files of a scan -/

/-- The files of a type. -/
def filesOfType (fileType : MediaFileType) (media : List MediaFile) : List MediaFile :=
  media.filter fun f => f.fileType = fileType

/-- The videos of a scan. -/
def videosOf (media : List MediaFile) : List MediaFile := filesOfType .video media

/-- The subtitles of a scan. -/
def subtitlesOf (media : List MediaFile) : List MediaFile := filesOfType .subtitle media

theorem filesOfType_eq_nil_congr {media media' : List MediaFile}
    (h : media'.map MediaFile.fileType = media.map MediaFile.fileType) (fileType : MediaFileType) :
    filesOfType fileType media' = [] ↔ filesOfType fileType media = [] := by
  have hnil : ∀ media : List MediaFile,
      filesOfType fileType media = [] ↔ fileType ∉ media.map MediaFile.fileType := by
    intro media
    unfold filesOfType
    simp only [List.filter_eq_nil_iff, decide_eq_true_eq, List.mem_map, not_exists, not_and]
  rw [hnil, hnil, h]

theorem isInventory_scanFileList (files : FileSystem) (ids : ℕ → Text) (filePaths : List Path) :
    IsInventory files (videosOf (scanFileList files ids filePaths))
      (subtitlesOf (scanFileList files ids filePaths)) := by
  have hall : ∀ fileType, ∀ file ∈ filesOfType fileType (scanFileList files ids filePaths),
      IsDiscovered files file ∧ file.fileType = fileType := by
    intro fileType file hfile
    obtain ⟨hmem, htype⟩ := List.mem_filter.1 hfile
    exact ⟨isDiscovered_of_mem_scanFileList hmem, of_decide_eq_true htype⟩
  exact ⟨hall .video, hall .subtitle⟩

end SubxCore
