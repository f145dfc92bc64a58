import SubxCore.Input.Provenance
import SubxCore.Matcher.Frame
import SubxCore.Matcher.Planning
/-!
# Subtitles from archives

A subtitle that was extracted from an archive lies in a directory that is about to be
deleted, so its operation is made a copy to the directory of its video, before the
allocator makes the targets unique. Then no target is inside a temporary directory, and
carrying the operations out leaves every extracted file where it is.
-/

namespace SubxCore

open Text MatchOperation CollectedFiles
open InputPathHandler (Extracts Direct TempRoots)

/-- One operation of `apply_archive_origin_relocation`. -/
def relocateFromArchive (origins : List (Path × Path)) (op : MatchOperation) : MatchOperation :=
  if (archiveOrigin origins op.source).isSome ∧ op.requiresRelocation = false then
    match op.videoFile.path.parent with
    | some videoDir =>
      { op with
        relocationTargetPath := some (videoDir.join op.newSubtitleName)
        requiresRelocation := true
        relocationMode := .copy }
    | none => op
  else op

/-- `apply_archive_origin_relocation`, for the entries of the map of the collected
files. -/
def applyArchiveOriginRelocation (origins : List (Path × Path)) (ops : List MatchOperation) :
    List MatchOperation :=
  ops.map (relocateFromArchive origins)

/-! ## Operations as they are planned -/

/-- An operation that stays in its directory or goes beside its video, which is a file
in a directory. -/
structure MatchOperation.Beside (op : MatchOperation) : Prop where
  video : op.videoFile.path.fileName.isSome
  newSubtitleName : IsFileName op.newSubtitleName
  target : op.relocationTargetPath =
    if op.requiresRelocation then op.videoFile.path.parent.map (·.join op.newSubtitleName) else none

/-- The operations of a plan are of this kind. -/
theorem IsPlanned.beside {config : PlanConfig} {files : FileSystem} {op : MatchOperation}
    (h : IsPlanned config files op) : op.Beside := by
  obtain ⟨dir, name, hvideo, -⟩ := h.video.exists_name
  refine ⟨by rw [hvideo, Path.fileName_concat]; rfl, h.newSubtitleName, ?_⟩
  rcases h.relocationTargetPath_eq with ⟨hstays, htarget⟩ | ⟨dir', name', hvideo', hgoes, htarget⟩
  · rw [hstays, htarget, if_neg Bool.false_ne_true]
  · rw [hgoes, htarget, if_pos rfl, hvideo', Path.parent_concat]
    rfl

/-- The directory an operation puts its subtitle in. -/
def MatchOperation.directory (op : MatchOperation) : Path :=
  if op.requiresRelocation then op.videoFile.path.parent.getD [] else op.source.parent.getD [.curDir]

namespace MatchOperation.Beside

variable {op : MatchOperation} (h : op.Beside)
include h

/-- The target is the new name in the directory. -/
theorem finalTarget_eq : op.finalTarget = op.directory ++ [.normal ⟨_, h.newSubtitleName⟩] := by
  obtain ⟨dir, name, hvideo⟩ := Path.exists_concat_of_fileName h.video
  have htarget := h.target
  rw [finalTarget, directory]
  cases hgoes : op.requiresRelocation with
  | true =>
    rw [hgoes, hvideo, Path.parent_concat] at htarget
    rw [htarget, hvideo, Path.parent_concat]
    exact Path.join_of_isFileName dir h.newSubtitleName
  | false =>
    rw [hgoes, if_neg Bool.false_ne_true] at htarget
    rw [htarget]
    exact Path.join_of_isFileName _ h.newSubtitleName

theorem wellNamed : op.WellNamed := by
  refine ⟨h.newSubtitleName, fun p hp => ?_⟩
  have hfinal : op.finalTarget = p := by rw [finalTarget, hp]
  rw [← hfinal, h.finalTarget_eq, Path.fileName_concat]
  rfl

/-- The allocator keeps it so. -/
theorem withTarget (name : FileName) :
    (withTarget op (op.finalTarget.parent.getD [] ++ [.normal name]) name.text).Beside := by
  obtain ⟨dir, video, hvideo⟩ := Path.exists_concat_of_fileName h.video
  refine ⟨h.video, name.isFileName, ?_⟩
  have htarget := h.target
  rw [SubxCore.withTarget]
  dsimp only
  rw [h.finalTarget_eq, Path.parent_concat, Option.getD_some, directory]
  cases hgoes : op.requiresRelocation with
  | true =>
    rw [hgoes, hvideo, Path.parent_concat] at htarget
    rw [htarget, hvideo, Path.parent_concat]
    exact congrArg some (Path.join_name dir name).symm
  | false =>
    rw [hgoes, if_neg Bool.false_ne_true] at htarget
    rw [htarget]
    rfl

/-- And so does the relocation. -/
theorem relocateFromArchive (origins : List (Path × Path)) :
    (relocateFromArchive origins op).Beside := by
  rw [SubxCore.relocateFromArchive]
  split
  · split
    · next videoDir hparent => exact ⟨h.video, h.newSubtitleName, by rw [hparent]; rfl⟩
    · exact h
  · exact h

end MatchOperation.Beside

/-! ## The relocation and the allocator -/

/-- **What becomes of an operation**: a subtitle that was extracted goes beside its
video, as a copy unless it was to go there anyway, and any other one keeps its mode and
its directory. -/
structure Rehomed (extracted : Prop) (op op' : MatchOperation) : Prop where
  videoFile : op'.videoFile = op.videoFile
  subtitleFile : op'.subtitleFile = op.subtitleFile
  copies : extracted → op.requiresRelocation = false → op'.relocationMode = .copy
  mode : ¬ extracted ∨ op.requiresRelocation = true → op'.relocationMode = op.relocationMode
  beside : extracted → op'.finalTarget.parent = op.videoFile.path.parent
  stays : ¬ extracted → op'.finalTarget.parent = op.finalTarget.parent

variable {onDisk : Path → Bool} {origins : List (Path × Path)} {ops result : List MatchOperation}
variable {op op' : MatchOperation}

/-- The relocation by itself. -/
theorem rehomed_relocateFromArchive (h : op.Beside) :
    Rehomed ((archiveOrigin origins op.source).isSome = true) op (relocateFromArchive origins op) := by
  obtain ⟨dir, video, hvideo⟩ := Path.exists_concat_of_fileName h.video
  have hjoin : (Path.join dir op.newSubtitleName).parent = some dir := by
    rw [Path.join_of_isFileName dir h.newSubtitleName, Path.parent_concat]
  unfold relocateFromArchive
  split
  · next hmoves =>
    rw [hvideo, Path.parent_concat]
    dsimp only
    refine ⟨rfl, rfl, fun _ _ => rfl, fun hnot => ?_, fun _ => ?_, fun hnot => absurd hmoves.1 hnot⟩
    · rcases hnot with hnot | hrequires
      · exact absurd hmoves.1 hnot
      · rw [hmoves.2] at hrequires
        cases hrequires
    · rw [hvideo, Path.parent_concat]
      exact hjoin
  · next hstays =>
    refine ⟨rfl, rfl, fun hextracted hrequires => absurd ⟨hextracted, hrequires⟩ hstays,
      fun _ => rfl, fun hextracted => ?_, fun _ => rfl⟩
    have hrequires : op.requiresRelocation = true := by
      by_contra hfalse
      exact hstays ⟨hextracted, Bool.eq_false_iff.2 hfalse⟩
    rw [h.finalTarget_eq, Path.parent_concat, directory, if_pos hrequires, hvideo,
      Path.parent_concat]
    rfl

/-- What the allocator does not change of an operation. -/
def allocationFrame (op : MatchOperation) : MediaFile × MediaFile × FileRelocationMode × Bool :=
  (op.videoFile, op.subtitleFile, op.relocationMode, op.requiresRelocation)

/-- Another target in the same directory makes no difference. -/
theorem Rehomed.of_frame {extracted : Prop} {moved : MatchOperation} (h : Rehomed extracted op moved)
    (hmoved : moved.Beside) (hop' : op'.Beside) (hframe : allocationFrame op' = allocationFrame moved) :
    Rehomed extracted op op' := by
  obtain ⟨hvideo, hsubtitle, hmode, hrequires⟩ : op'.videoFile = moved.videoFile ∧
      op'.subtitleFile = moved.subtitleFile ∧ op'.relocationMode = moved.relocationMode ∧
      op'.requiresRelocation = moved.requiresRelocation := by
    simpa [allocationFrame] using hframe
  have hparent : op'.finalTarget.parent = moved.finalTarget.parent := by
    rw [hop'.finalTarget_eq, hmoved.finalTarget_eq, Path.parent_concat, Path.parent_concat, directory,
      directory, source, source, hvideo, hsubtitle, hrequires]
  refine ⟨hvideo.trans h.videoFile, hsubtitle.trans h.subtitleFile, ?_, ?_, ?_, ?_⟩
  · rw [hmode]
    exact h.copies
  · rw [hmode]
    exact h.mode
  · rw [hparent]
    exact h.beside
  · rw [hparent]
    exact h.stays

/-- **The relocation and then the allocator**, operation by operation. -/
theorem rehomed_applyUniqueTargetPaths (hops : ∀ op ∈ ops, op.Beside)
    (happly : applyUniqueTargetPaths onDisk (applyArchiveOriginRelocation origins ops) =
      .ok result) :
    List.Forall₂ (fun op op' => Rehomed ((archiveOrigin origins op.source).isSome = true) op op')
      ops result := by
  have hmoved : ∀ op ∈ applyArchiveOriginRelocation origins ops, op.Beside := by
    intro op hop
    obtain ⟨planned, hplanned, rfl⟩ := List.mem_map.1 hop
    exact (hops planned hplanned).relocateFromArchive origins
  have hbeside : ∀ op ∈ result, op.Beside :=
    applyUniqueTargetPaths_forall (fun _ h => h.wellNamed)
      (fun _ h _ name _ _ => h.withTarget name) hmoved happly
  have hframe := applyUniqueTargetPaths_map (f := allocationFrame) (fun _ _ _ => rfl) happly
  have hlength : ops.length = result.length := by
    have := congrArg List.length hframe
    rwa [List.length_map, List.length_map, applyArchiveOriginRelocation, List.length_map,
      eq_comm] at this
  refine List.forall₂_iff_get.2 ⟨hlength, fun i hi hi' => ?_⟩
  have hop := hops _ (List.get_mem ops ⟨i, hi⟩)
  have hop' := hbeside _ (List.get_mem result ⟨i, hi'⟩)
  refine (rehomed_relocateFromArchive hop).of_frame (hop.relocateFromArchive origins) hop' ?_
  have hget := congrArg (·[i]?) hframe
  simpa [applyArchiveOriginRelocation, hi, hi'] using hget

/-! ## Targets of collected files -/

variable {v : Volume} {h : InputPathHandler} {base dir root p : Path} {c : CollectedFiles}
variable {extract : Path → Except SubXError ExtractedArchive} {archive : ExtractedArchive}
variable {crates : Archive.Crates}

/-- A file that was extracted from some archive. -/
def InputPathHandler.FromArchive (v : Volume) (h : InputPathHandler)
    (extract : Path → Except SubXError ExtractedArchive) (p : Path) : Prop :=
  ∃ base archive, h.Extracts v extract base archive ∧ p ∈ archive.extracted

open InputPathHandler (FromArchive)

/-- Operations on collected files, with videos that were not extracted. -/
structure OnCollected (v : Volume) (h : InputPathHandler) (c : CollectedFiles)
    (op : MatchOperation) : Prop where
  beside : op.Beside
  source : op.source ∈ c.paths
  video : ∃ dir ∈ h.paths, Direct v dir op.videoFile.path

/-- What `archive_origin` says of a collected file. -/
theorem isSome_archiveOrigin_iff (hroots : TempRoots crates v h extract)
    (hcollect : h.collectFiles v extract = .ok c)
    (horigins : ∀ origin, origin ∈ origins ↔ origin ∈ c.archiveOrigins) (hp : p ∈ c.paths) :
    (archiveOrigin origins p).isSome = true ↔ FromArchive v h extract p := by
  rw [Option.isSome_iff_exists]
  refine exists_congr fun base => ⟨fun hbase => ?_, fun ⟨archive, hextracts, hmem⟩ => ?_⟩
  · exact InputPathHandler.extracts_of_archiveOrigin hroots hcollect horigins hp hbase
  · exact InputPathHandler.archiveOrigin_of_extracts hroots hcollect horigins hp hextracts hmem

/-- A file in a directory that is not below another one is not inside that one. -/
theorem not_inside_of_parent (hparent : p.parent = some dir) (hdir : ¬ root <+: dir) :
    ¬ (root <+: p ∧ root ≠ p) := by
  rintro ⟨hbegins, hne⟩
  unfold Path.parent at hparent
  split at hparent
  · cases hparent
  · cases hparent
  · next step hroot hlast =>
    cases hparent
    obtain ⟨before, rfl⟩ := List.getLast?_eq_some_iff.1 hlast
    rw [List.dropLast_concat] at hdir
    exact hdir ((List.prefix_concat_iff.1 hbegins).resolve_left hne)

/-- The directory of a video that was not extracted. -/
theorem not_begins_parent_of_direct (hroots : TempRoots crates v h extract)
    (hextracts : h.Extracts v extract base archive)
    (hdirect : ∃ dir ∈ h.paths, Direct v dir p) (hparent : p.parent = some dir) :
    ¬ archive.tempRoot <+: dir := by
  obtain ⟨source, hsource, hdirect⟩ := hdirect
  intro hbegins
  exact InputPathHandler.not_begins_of_direct hroots hextracts hsource hdirect
    (hbegins.trans (InputPathHandler.begins_of_parent hparent))

/-- What an operation comes to is not inside a temporary directory. -/
theorem Rehomed.outside (hroots : TempRoots crates v h extract)
    (hcollect : h.collectFiles v extract = .ok c) (hop : OnCollected v h c op)
    (hrehomed : Rehomed (FromArchive v h extract op.source) op op')
    (hextracts : h.Extracts v extract base archive) :
    ¬ (archive.tempRoot <+: op'.finalTarget ∧ archive.tempRoot ≠ op'.finalTarget) := by
  obtain ⟨videoDir, video, hvideo⟩ := Path.exists_concat_of_fileName hop.beside.video
  have hvideoParent : op.videoFile.path.parent = some videoDir := by
    rw [hvideo, Path.parent_concat]
  have hvideoDir := not_begins_parent_of_direct hroots hextracts hop.video hvideoParent
  by_cases hextracted : FromArchive v h extract op.source
  · refine not_inside_of_parent ?_ hvideoDir
    rw [hrehomed.beside hextracted, hvideoParent]
  have hparent := hrehomed.stays hextracted
  rw [hop.beside.finalTarget_eq, Path.parent_concat, directory] at hparent
  split at hparent
  · rw [hvideoParent, Option.getD_some] at hparent
    exact not_inside_of_parent hparent hvideoDir
  · refine not_inside_of_parent hparent ?_
    cases hsource : op.source.parent with
    | none =>
      exact fun hbegins => InputPathHandler.metadata_curDir_ne_none
        (metadata_eq_none_of_begins (hroots.new base archive hextracts) hbegins)
    | some sourceDir =>
      refine not_begins_parent_of_direct hroots hextracts ?_ hsource
      exact (InputPathHandler.extracted_or_direct hcollect hop.source).resolve_left hextracted

/-- **No target is inside a temporary directory.** After the relocation and the
allocator, a subtitle that was extracted goes beside its video, as a copy unless it was
to go there anyway, and any other one keeps its mode and its directory. -/
theorem archive_subtitles_rehomed (hroots : TempRoots crates v h extract)
    (hcollect : h.collectFiles v extract = .ok c)
    (horigins : ∀ origin, origin ∈ origins ↔ origin ∈ c.archiveOrigins)
    (hops : ∀ op ∈ ops, OnCollected v h c op)
    (happly : applyUniqueTargetPaths onDisk (applyArchiveOriginRelocation origins ops) =
      .ok result) :
    List.Forall₂ (fun op op' => Rehomed (FromArchive v h extract op.source) op op' ∧
      ∀ base archive, h.Extracts v extract base archive →
        ¬ (archive.tempRoot <+: op'.finalTarget ∧ archive.tempRoot ≠ op'.finalTarget))
      ops result := by
  have hrehomed := rehomed_applyUniqueTargetPaths (fun op hop => (hops op hop).beside) happly
  rw [List.forall₂_iff_get] at hrehomed ⊢
  refine ⟨hrehomed.1, fun i hi hi' => ?_⟩
  have hop := hops _ (List.get_mem ops ⟨i, hi⟩)
  have hsame := hrehomed.2 i hi hi'
  rw [isSome_archiveOrigin_iff hroots hcollect horigins hop.source] at hsame
  exact ⟨hsame, fun base archive hextracts => hsame.outside hroots hcollect hop hextracts⟩

/-- **The extracted files stay where they are** when the operations are carried out,
whichever calls fail, unless the operation was to move one before the relocation. -/
theorem execute_keeps_extracted (hroots : TempRoots crates v h extract)
    (hcollect : h.collectFiles v extract = .ok c)
    (horigins : ∀ origin, origin ∈ origins ↔ origin ∈ c.archiveOrigins)
    (hops : ∀ op ∈ ops, OnCollected v h c op)
    (happly : applyUniqueTargetPaths onDisk (applyArchiveOriginRelocation origins ops) =
      .ok result)
    (hextracts : h.Extracts v extract base archive) (hp : p ∈ archive.extracted)
    (hfile : p ≠ archive.tempRoot)
    (hcopies : ∀ op ∈ ops, op.source = p → op.requiresRelocation = true →
      op.relocationMode = .copy)
    (config : MatchConfig) (hasJournal : Bool) (cancelled : ℕ → Bool) (disk : Disk)
    (content : Bytes) (hcontent : disk.files p = some content) :
    (executeOperations config hasJournal result false disk).disk.files p = some content ∧
      (executeOperationsAudit config hasJournal cancelled result false disk).disk.files p =
        some content := by
  have hlost : ¬ BatchMayLose config result p := by
    rintro ⟨op', hop', hlose⟩
    obtain ⟨hlength, hrehomed⟩ := List.forall₂_iff_get.1
      (rehomed_applyUniqueTargetPaths (fun op hop => (hops op hop).beside) happly)
    obtain ⟨⟨i, hi'⟩, rfl⟩ := List.mem_iff_get.1 hop'
    have hi : i < ops.length := hlength ▸ hi'
    have hmem := List.get_mem ops ⟨i, hi⟩
    have hop := hops _ hmem
    have hsame := hrehomed i hi hi'
    rw [isSome_archiveOrigin_iff hroots hcollect horigins hop.source] at hsame
    rcases hlose with ⟨hmode, hsource⟩ | ⟨-, -, htarget⟩
    · -- its own operation is a copy
      refine hmode ?_
      rw [source, hsame.subtitleFile] at hsource
      cases hrequires : (ops.get ⟨i, hi⟩).requiresRelocation with
      | true => exact (hsame.mode (.inr hrequires)).trans (hcopies _ hmem hsource.symm hrequires)
      | false =>
        subst hsource
        exact hsame.copies ⟨base, archive, hextracts, hp⟩ hrequires
    · -- no copy goes over it
      have hfinal : (result.get ⟨i, hi'⟩).finalTarget = p := by rw [finalTarget, htarget]
      refine hsame.outside hroots hcollect hop hextracts ?_
      rw [hfinal]
      exact ⟨hroots.below hextracts hp, hfile.symm⟩
  exact ⟨executeOperations_kept config hasJournal result false disk p content hcontent hlost,
    executeOperationsAudit_kept config hasJournal cancelled result false disk p content hcontent
      hlost⟩

/-! ## A subtitle from an archive -/

open InputPathHandler (archiveVolume archiveHandler subsExtracted subsOrigins pilotVideo subsArchive)

/-- A media file with some path. -/
def mediaFile (path : Path) (fileType : MediaFileType) : MediaFile :=
  ⟨[], path, fileType, 0, [], [], []⟩

/-- The operation for the video and the subtitle, in place. -/
def pilotOperation : MatchOperation where
  videoFile := mediaFile pilotVideo .video
  subtitleFile := mediaFile (Path.ofText "/d/a".toList) .subtitle
  newSubtitleName := "pilot.srt".toList
  confidence := 1
  reasoning := []
  relocationMode := .none
  relocationTargetPath := none
  requiresRelocation := false

/-- The operation that is carried out. -/
def pilotRehomed : MatchOperation :=
  relocateFromArchive subsOrigins pilotOperation

theorem onCollected_pilot : OnCollected archiveVolume archiveHandler
    ⟨[Path.ofText "/d/a".toList, pilotVideo], subsOrigins⟩ pilotOperation where
  beside := ⟨by decide, by decide, rfl⟩
  source := List.mem_cons_self
  video := ⟨pilotVideo, by decide, .inl ⟨by decide, rfl⟩⟩

theorem applyUniqueTargetPaths_pilot : applyUniqueTargetPaths (fun _ => false)
    (applyArchiveOriginRelocation subsOrigins [pilotOperation]) = .ok [pilotRehomed] := by
  decide

theorem archive_subtitles_rehomed_pilot :
    ¬ (subsExtracted.tempRoot <+: pilotRehomed.finalTarget ∧
      subsExtracted.tempRoot ≠ pilotRehomed.finalTarget) := by
  have hrehomed := archive_subtitles_rehomed InputPathHandler.tempRoots_subs
    InputPathHandler.collectFiles_subs (fun _ => Iff.rfl)
    (fun _ hop => List.mem_singleton.1 hop ▸ onCollected_pilot) applyUniqueTargetPaths_pilot
  exact (List.forall₂_cons.1 hrehomed).1.2 subsArchive subsExtracted InputPathHandler.extracts_subs

/-- The extracted file. -/
def extractedFile : FileSystem := fun p =>
  if p = Path.ofText "/d/a".toList then some [0] else none

theorem execute_keeps_extracted_pilot :
    (executeOperations ⟨false, .none, .skip⟩ false [pilotRehomed] false
      (.healthy extractedFile none)).disk.files (Path.ofText "/d/a".toList) = some [0] :=
  (execute_keeps_extracted InputPathHandler.tempRoots_subs InputPathHandler.collectFiles_subs
    (fun _ => Iff.rfl) (fun _ hop => List.mem_singleton.1 hop ▸ onCollected_pilot)
    applyUniqueTargetPaths_pilot InputPathHandler.extracts_subs (List.mem_singleton_self _)
    (by decide) (fun _ hop _ hrequires => by rw [List.mem_singleton.1 hop] at hrequires; cases hrequires)
    _ _ (fun _ => false) _ _ rfl).1

end SubxCore
