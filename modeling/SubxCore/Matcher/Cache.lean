import SubxCore.Matcher.Planning
/-!
# The match cache

The cache file of the matcher, and matching as it goes through it: a call
whose key is that of the cache is answered from the cache, any other asks
the provider and stores its plan. The cache file lies apart from the media
files, keeps what is written to it, and holds one plan at a time. What a
key is a hash of is kept (`ConfigInput`, `FileListInput`); the hash
functions are parameters.
-/

namespace SubxCore

open Text MatchOperation

/-! ## The cache file -/

/-- `SnapshotItem`. -/
structure SnapshotItem where
  path : Path
  name : Text
  size : ℕ
  mtime : ℕ
  fileType : Text
  deriving DecidableEq, Repr

/-- `OpItem`. -/
structure OpItem where
  videoFile : Path
  subtitleFile : Path
  newSubtitleName : Text
  confidence : ℚ
  reasoning : List Text
  deriving DecidableEq, Repr

/-- `CacheData`. -/
structure CacheData where
  cacheVersion : Text
  directory : Text
  fileSnapshot : List SnapshotItem
  matchOperations : List OpItem
  createdAt : ℕ
  aiModelUsed : Text
  configHash : Text
  originalRelocationMode : Text
  originalBackupEnabled : Bool
  deriving DecidableEq, Repr

/-- `CURRENT_CACHE_VERSION`. -/
def currentCacheVersion : Text := "2.0".toList

/-- `is_cache_version_current`. -/
def isCacheVersionCurrent (version : Text) : Bool := version = currentCacheVersion

/-! ## What a call finds -/

/-- The files as a call finds them, with the identifiers that its two
generators hand out. Times are in nanoseconds since 1970, `now` in seconds. -/
structure World where
  files : FileSystem
  modified : Path → Option ℤ
  canonicalize : Path → Option Path
  configDir : Option Path
  scanIds : ℕ → Text
  cacheIds : ℕ → Text
  now : ℕ

/-- `canonicalize`, or the path itself. -/
def World.canonical (world : World) (path : Path) : Path := (world.canonicalize path).getD path

/-- `get_cache_file_path`. -/
def getCacheFilePath (world : World) : Except SubXError Path :=
  match world.configDir with
  | some dir => .ok ((dir.join "subx".toList).join "match_cache.json".toList)
  | none => .error (.config "Unable to determine cache directory".toList)

/-! ## Keys -/

/-- What the hash of a configuration is taken of. -/
structure ConfigInput where
  relocationMode : Text
  backupEnabled : Bool
  promptSchema : Text
  deriving DecidableEq, Repr

/-- What the hash of a file list is taken of. -/
structure FileListInput where
  pathMetadata : List (Text × ℕ × Option ℤ)
  configHash : Text
  deriving DecidableEq, Repr

/-- The hash functions, with their results as they are written. -/
structure Hasher where
  config : ConfigInput → Text
  fileList : FileListInput → Text

/-- A relocation mode as it is debugged. -/
def FileRelocationMode.debug : FileRelocationMode → Text
  | .none => "None".toList
  | .copy => "Copy".toList
  | .move => "Move".toList

/-- An entry of a sorted table, in place of one with its key. -/
def insertSorted {α : Type} (key : Text) (value : α) : List (Text × α) → List (Text × α)
  | [] => [(key, value)]
  | entry :: entries =>
    if key.map Char.toNat < entry.1.map Char.toNat then (key, value) :: entry :: entries
    else if key = entry.1 then (key, value) :: entries
    else entry :: insertSorted key value entries

/-- The files of a list, with size and time. -/
def pathMetadata (world : World) : List Path → List (Text × ℕ × Option ℤ) → List (Text × ℕ × Option ℤ)
  | [], table => table
  | path :: paths, table =>
    pathMetadata world paths <|
      match world.files path with
      | some content =>
        insertSorted (world.canonical path).display (content.length, world.modified path) table
      | none => table

/-- `calculate_config_hash`. -/
def calculateConfigHash (hasher : Hasher) (config : PlanConfig) : Text :=
  hasher.config ⟨config.relocationMode.debug, config.backupEnabled, "prompt_v2".toList⟩

/-- `calculate_file_list_cache_key`. -/
def calculateFileListCacheKey (hasher : Hasher) (config : PlanConfig) (world : World)
    (filePaths : List Path) : Text :=
  "filelist_".toList ++
    hasher.fileList ⟨pathMetadata world filePaths [], calculateConfigHash hasher config⟩

/-! ## Reading the cache -/

/-- A media file made again from its path. -/
def replayedFile (files : FileSystem) (id : Text) (fileType : MediaFileType) (path : Path)
    (name : Text) : MediaFile where
  id := id
  path := path
  fileType := fileType
  size := ((files path).map List.length).getD 0
  name := name
  extension := toLowercase (path.extension.getD [])
  relativePath := name

/-- `unwrap` of an option. -/
def unwrapSome {α : Type} : Option α → Except Panic α
  | some a => .ok a
  | none => .error .unwrapNone

/-- An operation of `check_file_list_cache`, which unwraps the file names. -/
def rebuildOperation (mode : FileRelocationMode) (world : World) (n : ℕ) (item : OpItem) :
    Except Panic MatchOperation := do
  let videoName ← unwrapSome item.videoFile.fileName
  let subtitleName ← unwrapSome item.subtitleFile.fileName
  planOperation mode
    (replayedFile world.files (world.cacheIds n) .video item.videoFile videoName.text)
    (replayedFile world.files (world.cacheIds (n + 1)) .subtitle item.subtitleFile subtitleName.text)
    item.newSubtitleName item.confidence item.reasoning

/-- Whether both files of an item are on disk. -/
def OpItem.present (files : FileSystem) (item : OpItem) : Bool :=
  (files item.videoFile).isSome && (files item.subtitleFile).isSome

/-- The operations of `check_file_list_cache`, with the identifiers from the
`n`-th on. -/
def rebuildFrom (mode : FileRelocationMode) (world : World) :
    ℕ → List OpItem → Except Panic (List MatchOperation)
  | _, [] => .ok []
  | n, item :: items =>
    if item.present world.files then do
      let op ← rebuildOperation mode world n item
      let ops ← rebuildFrom mode world (n + 2) items
      return op :: ops
    else rebuildFrom mode world n items

/-- `check_file_list_cache`. -/
def checkFileListCache (config : PlanConfig) (world : World) (cache : Option CacheData)
    (cacheKey : Text) : Except Stop (Option (List MatchOperation)) := do
  let _ ← (getCacheFilePath world).mapError Stop.failed
  match cache with
  | none => return none
  | some data =>
    if !isCacheVersionCurrent data.cacheVersion then return none
    else if data.directory = cacheKey then
      let ops ← (rebuildFrom config.relocationMode world 0 data.matchOperations).mapError
        Stop.panicked
      return some ops
    else return none

/-- An operation of `reconstruct_operations_from_cache`, which unwraps
nothing. -/
def reconstructOperation (mode : FileRelocationMode) (world : World) (n : ℕ) (item : OpItem) :
    MatchOperation where
  videoFile := replayedFile world.files (world.cacheIds n) .video item.videoFile
    ((item.videoFile.fileName.map FileName.text).getD [])
  subtitleFile := replayedFile world.files (world.cacheIds (n + 1)) .subtitle item.subtitleFile
    ((item.subtitleFile.fileName.map FileName.text).getD [])
  newSubtitleName := item.newSubtitleName
  confidence := item.confidence
  reasoning := item.reasoning
  relocationMode := mode
  relocationTargetPath :=
    if requiresRelocation mode item.videoFile item.subtitleFile then
      item.videoFile.parent.map fun dir => dir.join item.newSubtitleName
    else none
  requiresRelocation := requiresRelocation mode item.videoFile item.subtitleFile

/-- The operations of `reconstruct_operations_from_cache`, with the identifiers
from the `n`-th on. -/
def reconstructFrom (mode : FileRelocationMode) (world : World) :
    ℕ → List OpItem → List MatchOperation
  | _, [] => []
  | n, item :: items =>
    if item.present world.files then
      reconstructOperation mode world n item :: reconstructFrom mode world (n + 2) items
    else reconstructFrom mode world n items

/-- `reconstruct_operations_from_cache`. -/
def reconstructOperationsFromCache (config : PlanConfig) (world : World) (data : CacheData) :
    List MatchOperation := reconstructFrom config.relocationMode world 0 data.matchOperations

/-! ## Writing the cache -/

/-- The item of an operation. -/
def OpItem.ofOperation (op : MatchOperation) : OpItem :=
  ⟨op.videoFile.path, op.subtitleFile.path, op.newSubtitleName, op.confidence, op.reasoning⟩

/-- The snapshot of a file. -/
def snapshotItem (world : World) (canonical : Path) : Option SnapshotItem := do
  let content ← world.files canonical
  let subtitle := ["srt", "ass", "ssa", "vtt", "sub"].map String.toList
  return {
    path := canonical
    name := (canonical.fileName.map FileName.text).getD []
    size := content.length
    mtime := ((world.modified canonical).map fun t => (t / 10 ^ 9).toNat).getD 0
    fileType :=
      if ∃ e ∈ canonical.extension, toLowercase e ∈ subtitle then "subtitle".toList
      else "video".toList }

/-- The snapshot of the files of some operations, each once. -/
def fileSnapshot (world : World) (ops : List MatchOperation) : List SnapshotItem :=
  (((ops.flatMap fun op => [op.videoFile.path, op.subtitleFile.path]).map
    world.canonical).eraseDups).filterMap (snapshotItem world)

/-- The cache of a plan. -/
def cacheDataOf (hasher : Hasher) (config : PlanConfig) (world : World) (cacheKey : Text)
    (ops : List MatchOperation) : CacheData where
  cacheVersion := currentCacheVersion
  directory := cacheKey
  fileSnapshot := fileSnapshot world ops
  matchOperations := ops.map OpItem.ofOperation
  createdAt := world.now
  aiModelUsed := config.aiModel
  configHash := calculateConfigHash hasher config
  originalRelocationMode := config.relocationMode.debug
  originalBackupEnabled := config.backupEnabled

/-- How the cache file fares: it is written, or left as it is, or left as
something that is no cache. -/
inductive CacheWrite
  | written
  | refused (message : Text)
  | broken (message : Text)
  deriving DecidableEq, Repr

/-! ## A call -/

/-- The cache, and the requests made so far. -/
structure Session where
  cache : Option CacheData
  requests : List AnalysisRequest
  deriving DecidableEq, Repr

/-- A call of `match_file_list`: the engine, the file list, what it finds, what
the provider answers, and how the cache file fares. -/
structure Call where
  config : PlanConfig
  filePaths : List Path
  world : World
  provider : AnalysisRequest → Except SubXError MatchResult
  cacheWrite : CacheWrite

/-- The key of a call. -/
def Call.key (hasher : Hasher) (call : Call) : Text :=
  calculateFileListCacheKey hasher call.config call.world call.filePaths

/-- The videos of a call. -/
def Call.videos (call : Call) : List MediaFile :=
  videosOf (scanFileList call.world.files call.world.scanIds call.filePaths)

/-- The subtitles of a call. -/
def Call.subtitles (call : Call) : List MediaFile :=
  subtitlesOf (scanFileList call.world.files call.world.scanIds call.filePaths)

/-- `analyze_content`. -/
def analyzeContent (call : Call) (request : AnalysisRequest) : Program Session Stop MatchResult :=
  Program.step fun session =>
    ((call.provider request).mapError .failed,
      { session with requests := session.requests ++ [request] })

/-- `save_file_list_cache`. -/
def saveFileListCache (hasher : Hasher) (call : Call) (cacheKey : Text)
    (ops : List MatchOperation) : Program Session Stop Unit := do
  let _ ← Program.ofExcept ((getCacheFilePath call.world).mapError Stop.failed)
  Program.step fun session =>
    match call.cacheWrite with
    | .written =>
      (.ok (), { session with cache := some (cacheDataOf hasher call.config call.world cacheKey ops) })
    | .refused message => (.error (.failed (.io message)), session)
    | .broken message => (.error (.failed (.io message)), { session with cache := none })

/-- The part of a call after its look into the cache. -/
def matchAfresh (hasher : Hasher) (call : Call) (cacheKey : Text) :
    Program Session Stop MatchAudit := do
  let request ← Program.ofExcept
    (analysisRequest call.config call.world.files call.videos call.subtitles)
  let reply ← analyzeContent call request
  let audit ← Program.ofExcept
    ((planOperations call.config call.world.files call.videos call.subtitles reply).mapError
      Stop.panicked)
  saveFileListCache hasher call cacheKey audit.operations
  return audit

/-- `match_file_list_with_audit`. -/
def matchFileListWithAudit (hasher : Hasher) (call : Call) : Program Session Stop MatchAudit :=
  if call.videos = [] ∨ call.subtitles = [] then return ⟨[], []⟩
  else do
    let session ← Program.step fun session => (.ok session, session)
    let cached ← Program.ofExcept
      (checkFileListCache call.config call.world session.cache (call.key hasher))
    match cached with
    | some ops => return ⟨ops, []⟩
    | none => matchAfresh hasher call (call.key hasher)

variable {hasher : Hasher} {call : Call} {config : PlanConfig} {world : World}
variable {mode : FileRelocationMode} {session session' : Session} {cache : Option CacheData}
variable {cacheKey : Text} {data : CacheData} {item : OpItem} {items : List OpItem}
variable {op : MatchOperation} {ops : List MatchOperation} {audit : MatchAudit} {n : ℕ}

/-! ## What the cache answers -/

/-- Whether a cache answers a call with some key. -/
def CacheData.Answers (data : CacheData) (cacheKey : Text) : Prop :=
  data.cacheVersion = currentCacheVersion ∧ data.directory = cacheKey

instance (data : CacheData) (cacheKey : Text) : Decidable (data.Answers cacheKey) :=
  inferInstanceAs (Decidable (_ ∧ _))

/-- **What a look into the cache finds.** -/
theorem checkFileListCache_eq_ok {found : Option (List MatchOperation)}
    (h : checkFileListCache config world cache cacheKey = .ok found) :
    (∃ path, getCacheFilePath world = .ok path) ∧
      ((found = none ∧ ∀ data ∈ cache, ¬ data.Answers cacheKey) ∨
        ∃ data ops, cache = some data ∧ data.Answers cacheKey ∧ found = some ops ∧
          rebuildFrom config.relocationMode world 0 data.matchOperations = .ok ops) := by
  obtain ⟨path, hpath, h⟩ := Run.bind_eq_ok.1 h
  refine ⟨⟨path, Run.mapError_eq_ok.1 hpath⟩, ?_⟩
  rcases cache with - | data
  · cases h
    exact Or.inl ⟨rfl, fun data hdata => by cases hdata⟩
  dsimp only at h
  by_cases hversion : isCacheVersionCurrent data.cacheVersion = true
  · rw [hversion, Bool.not_true, if_neg Bool.false_ne_true] at h
    have hcurrent : data.cacheVersion = currentCacheVersion := of_decide_eq_true hversion
    by_cases hkey : data.directory = cacheKey
    · rw [if_pos hkey] at h
      obtain ⟨ops, hops, h⟩ := Run.bind_eq_ok.1 h
      cases h
      exact Or.inr ⟨data, ops, rfl, ⟨hcurrent, hkey⟩, rfl, Run.mapError_eq_ok.1 hops⟩
    · rw [if_neg hkey] at h
      cases h
      refine Or.inl ⟨rfl, fun data' hdata' hanswers => ?_⟩
      cases hdata'
      exact hkey hanswers.2
  · rw [Bool.not_eq_true] at hversion
    rw [hversion, Bool.not_false, if_pos rfl] at h
    cases h
    refine Or.inl ⟨rfl, fun data' hdata' hanswers => ?_⟩
    cases hdata'
    exact of_decide_eq_false hversion hanswers.1

/-- A cache that answers is rebuilt. -/
theorem checkFileListCache_of_answers {path : Path} (hpath : getCacheFilePath world = .ok path)
    (hanswers : data.Answers cacheKey)
    (hrebuild : rebuildFrom config.relocationMode world 0 data.matchOperations = .ok ops) :
    checkFileListCache config world (some data) cacheKey = .ok (some ops) := by
  have hversion : isCacheVersionCurrent data.cacheVersion = true := decide_eq_true hanswers.1
  unfold checkFileListCache
  rw [hpath]
  dsimp only [Except.mapError, bind, Except.bind]
  rw [hversion, Bool.not_true, if_neg Bool.false_ne_true, if_pos hanswers.2, hrebuild]
  rfl

theorem rebuildOperation_eq_ok (h : rebuildOperation mode world n item = .ok op) :
    ∃ videoName subtitleName : FileName, item.videoFile.fileName = some videoName ∧
      item.subtitleFile.fileName = some subtitleName ∧
      planOperation mode
        (replayedFile world.files (world.cacheIds n) .video item.videoFile videoName.text)
        (replayedFile world.files (world.cacheIds (n + 1)) .subtitle item.subtitleFile
          subtitleName.text)
        item.newSubtitleName item.confidence item.reasoning = .ok op := by
  have hunwrap : ∀ {name? : Option FileName} {name : FileName},
      unwrapSome name? = .ok name → name? = some name := by
    intro name? name hname
    rcases name? with - | name'
    · cases hname
    · exact congrArg _ (Except.ok.inj hname)
  obtain ⟨videoName, hvideo, h⟩ := Run.bind_eq_ok.1 h
  obtain ⟨subtitleName, hsubtitle, h⟩ := Run.bind_eq_ok.1 h
  exact ⟨videoName, subtitleName, hunwrap hvideo, hunwrap hsubtitle, h⟩

/-- **What is rebuilt comes from an item whose files are there.** -/
theorem exists_of_mem_rebuildFrom : ∀ {items : List OpItem} {n : ℕ} {ops : List MatchOperation},
    rebuildFrom mode world n items = .ok ops → ∀ op ∈ ops, ∃ item ∈ items,
      item.present world.files ∧ ∃ k, rebuildOperation mode world k item = .ok op
  | [], _, _, h, op, hop => by
    cases h
    cases hop
  | item :: items, n, _, h, op, hop => by
    unfold rebuildFrom at h
    split at h
    · next hpresent =>
      obtain ⟨op', hop', h⟩ := Run.bind_eq_ok.1 h
      obtain ⟨ops, hops, h⟩ := Run.bind_eq_ok.1 h
      cases h
      rcases List.mem_cons.1 hop with rfl | hop
      · exact ⟨item, List.mem_cons_self, hpresent, n, hop'⟩
      · obtain ⟨item', hitem', hfrom⟩ := exists_of_mem_rebuildFrom hops op hop
        exact ⟨item', List.mem_cons_of_mem _ hitem', hfrom⟩
    · obtain ⟨item', hitem', hfrom⟩ := exists_of_mem_rebuildFrom h op hop
      exact ⟨item', List.mem_cons_of_mem _ hitem', hfrom⟩

/-! ## What a call comes to -/

/-- A call without videos or subtitles. -/
theorem exec_of_empty (h : call.videos = [] ∨ call.subtitles = []) :
    (matchFileListWithAudit hasher call).exec session = (.ok ⟨[], []⟩, session) := by
  rw [matchFileListWithAudit, if_pos h]
  rfl

/-- A call with both looks into the cache. -/
theorem exec_of_files (h : ¬ (call.videos = [] ∨ call.subtitles = [])) :
    (matchFileListWithAudit hasher call).exec session =
      match checkFileListCache call.config call.world session.cache (call.key hasher) with
      | .error stop => (.error stop, session)
      | .ok (some ops) => (.ok ⟨ops, []⟩, session)
      | .ok none => (matchAfresh hasher call (call.key hasher)).exec session := by
  rw [matchFileListWithAudit, if_neg h, Program.exec_bind, Program.exec_step]
  dsimp only
  rw [Program.exec_bind, Program.exec_ofExcept]
  rcases checkFileListCache call.config call.world session.cache (call.key hasher)
    with stop | (- | ops)
  · rfl
  · rfl
  · rfl

/-- **A call that returns** had nothing to match, was answered from the cache,
or matched afresh. -/
theorem exec_eq_ok (h : (matchFileListWithAudit hasher call).exec session = (.ok audit, session')) :
    ((call.videos = [] ∨ call.subtitles = []) ∧ audit = ⟨[], []⟩ ∧ session' = session) ∨
      ¬ (call.videos = [] ∨ call.subtitles = []) ∧
        ((∃ ops, checkFileListCache call.config call.world session.cache (call.key hasher) =
          .ok (some ops) ∧ audit = ⟨ops, []⟩ ∧ session' = session) ∨
        (checkFileListCache call.config call.world session.cache (call.key hasher) = .ok none ∧
          (matchAfresh hasher call (call.key hasher)).exec session = (.ok audit, session'))) := by
  by_cases hfiles : call.videos = [] ∨ call.subtitles = []
  · rw [exec_of_empty hfiles] at h
    cases h
    exact Or.inl ⟨hfiles, rfl, rfl⟩
  rw [exec_of_files hfiles] at h
  refine Or.inr ⟨hfiles, ?_⟩
  rcases hcheck : checkFileListCache call.config call.world session.cache (call.key hasher)
    with stop | (- | ops)
  · rw [hcheck] at h
    cases h
  · rw [hcheck] at h
    exact Or.inr ⟨rfl, h⟩
  · rw [hcheck] at h
    cases h
    exact Or.inl ⟨ops, rfl, rfl, rfl⟩

/-- The cache is saved when the cache file is written. -/
theorem saveFileListCache_eq_ok {u : Unit}
    (h : (saveFileListCache hasher call cacheKey ops).exec session = (.ok u, session')) :
    (∃ path, getCacheFilePath call.world = .ok path) ∧ call.cacheWrite = .written ∧
      session' = { session with
        cache := some (cacheDataOf hasher call.config call.world cacheKey ops) } := by
  unfold saveFileListCache at h
  rw [Program.exec_bind, Program.exec_ofExcept] at h
  rcases hpath : getCacheFilePath call.world with err | path
  · rw [hpath] at h
    cases h
  rw [hpath] at h
  refine ⟨⟨path, rfl⟩, ?_⟩
  dsimp only [Except.mapError] at h
  rw [Program.exec_step] at h
  rcases hwrite : call.cacheWrite with - | message | message
  · rw [hwrite] at h
    cases h
    exact ⟨rfl, rfl⟩
  · rw [hwrite] at h
    cases h
  · rw [hwrite] at h
    cases h

/-- **What matching afresh comes to**: one request, a plan of its reply, and
the plan in the cache. -/
theorem matchAfresh_eq_ok
    (h : (matchAfresh hasher call cacheKey).exec session = (.ok audit, session')) :
    ∃ request reply,
      analysisRequest call.config call.world.files call.videos call.subtitles = .ok request ∧
      call.provider request = .ok reply ∧
      planOperations call.config call.world.files call.videos call.subtitles reply = .ok audit ∧
      (∃ path, getCacheFilePath call.world = .ok path) ∧ call.cacheWrite = .written ∧
      session' = ⟨some (cacheDataOf hasher call.config call.world cacheKey audit.operations),
        session.requests ++ [request]⟩ := by
  unfold matchAfresh at h
  obtain ⟨request, session₁, hrequest, h⟩ := Program.bind_eq_ok.1 h
  rw [Program.exec_ofExcept] at hrequest
  obtain ⟨hrequested, rfl⟩ := Prod.mk.inj hrequest
  obtain ⟨reply, session₂, hreply, h⟩ := Program.bind_eq_ok.1 h
  obtain ⟨audit', session₃, haudit, h⟩ := Program.bind_eq_ok.1 h
  rw [Program.exec_ofExcept] at haudit
  obtain ⟨hplanned, rfl⟩ := Prod.mk.inj haudit
  obtain ⟨u, session₄, hsave, h⟩ := Program.bind_eq_ok.1 h
  cases h
  unfold analyzeContent at hreply
  rw [Program.exec_step] at hreply
  obtain ⟨hreplied, rfl⟩ := Prod.mk.inj hreply
  obtain ⟨hpath, hwrite, rfl⟩ := saveFileListCache_eq_ok hsave
  exact ⟨request, reply, hrequested, Run.mapError_eq_ok.1 hreplied, Run.mapError_eq_ok.1 hplanned,
    hpath, hwrite, rfl⟩

/-! ## A small world -/

/-- A video with one subtitle beside it and two in another directory. -/
def filmWorld : World where
  files := fun p =>
    if p = Path.ofText "/films/movie.mkv".toList then some [0]
    else if p = Path.ofText "/subs/a.srt".toList then some [1]
    else if p = Path.ofText "/subs/b.srt".toList then some [2]
    else if p = Path.ofText "/films/c.srt".toList then some [3]
    else none
  modified := fun _ => none
  canonicalize := some
  configDir := some (Path.ofText "/config".toList)
  scanIds := Decimal.decimal
  cacheIds := Decimal.decimal
  now := 0

/-- A call in it, whose provider pairs the files with some identifiers. -/
def filmCall (relocationMode : FileRelocationMode) (confidenceThreshold : ℚ) (filePaths : List Path)
    (pairs : List (Text × Text × ℚ)) : Call where
  config := {
    backupEnabled := false
    relocationMode := relocationMode
    conflictResolution := .skip
    confidenceThreshold := confidenceThreshold
    maxSampleLength := 0
    enableContentAnalysis := false
    aiModel := []
    maxSubtitleBytes := 0 }
  filePaths := filePaths
  world := filmWorld
  provider := fun _ => .ok ⟨pairs.map fun (video, subtitle, confidence) =>
    ⟨video, subtitle, confidence, [], none, none⟩⟩
  cacheWrite := .written

/-- The video and the subtitles that are not beside it. -/
def filmPaths : List Path :=
  ["/films/movie.mkv", "/subs/a.srt", "/subs/b.srt"].map fun p => Path.ofText p.toList

/-- A hash that keeps what it is taken of. -/
def plainHasher : Hasher where
  config := fun input => input.relocationMode ++ if input.backupEnabled then ['1'] else ['0']
  fileList := fun input => (input.pathMetadata.map Prod.fst).flatten ++ input.configHash

end SubxCore
