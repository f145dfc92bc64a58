import SubxCore.Matcher.Disk
/-!
# Discovery

The media files among a list of paths. A path counts when it is a file with
the extension of a video or a subtitle, in any case; the file keeps the
extension in lower case and gets the next identifier of the scan.
-/

namespace SubxCore

open Text

/-- The extensions of videos. -/
def videoExtensions : List Text :=
  ["mp4", "mkv", "avi", "mov", "wmv", "flv", "m4v", "webm"].map String.toList

/-- The extensions of subtitles. -/
def subtitleExtensions : List Text := ["srt", "ass", "vtt", "sub", "ssa", "idx"].map String.toList

/-- The type of a file by its extension in lower case. -/
def mediaFileType (extension : Text) : Option MediaFileType :=
  if extension ∈ videoExtensions then some .video
  else if extension ∈ subtitleExtensions then some .subtitle
  else none

/-- A path as a media file. -/
def mediaFileAt (files : FileSystem) (id : Text) (path : Path) : Option MediaFile := do
  let content ← files path
  let extension ← path.extension
  let fileType ← mediaFileType (toLowercase extension)
  let name := (path.fileName.map FileName.text).getD []
  return {
    id := id
    path := path
    fileType := fileType
    size := content.length
    name := name
    extension := toLowercase extension
    relativePath := name }

/-- `scan_file_list`, with the identifiers of the scan from the `n`-th on. -/
def scanFrom (files : FileSystem) (ids : ℕ → Text) : ℕ → List Path → List MediaFile
  | _, [] => []
  | n, path :: paths =>
    match mediaFileAt files (ids n) path with
    | none => scanFrom files ids n paths
    | some file => file :: scanFrom files ids (n + 1) paths

/-- `scan_file_list`. -/
def scanFileList (files : FileSystem) (ids : ℕ → Text) (filePaths : List Path) : List MediaFile :=
  scanFrom files ids 0 filePaths

theorem mem_extensions {extension : Text} {fileType : MediaFileType}
    (h : mediaFileType extension = some fileType) :
    extension ∈ videoExtensions ++ subtitleExtensions := by
  unfold mediaFileType at h
  split at h
  · next hmem => exact List.mem_append_left _ hmem
  · split at h
    · next hmem => exact List.mem_append_right _ hmem
    · cases h

theorem mem_subtitleExtensions {extension : Text}
    (h : mediaFileType extension = some .subtitle) : extension ∈ subtitleExtensions := by
  unfold mediaFileType at h
  split at h
  · cases h
  · split at h
    · assumption
    · cases h

variable {files : FileSystem} {ids : ℕ → Text} {id : Text} {path : Path} {file : MediaFile}

/-! ## What is discovered -/

/-- A discovered file is a file on disk with a name and an extension. -/
structure IsDiscovered (files : FileSystem) (file : MediaFile) : Prop where
  exists_content : ∃ content, files file.path = some content ∧ file.size = content.length
  exists_name : ∃ dir name, file.path = dir ++ [Component.normal name] ∧ file.name = name.text
  fileType : mediaFileType file.extension = some file.fileType
  extension : file.extension = toLowercase (file.path.extension.getD [])

theorem isDiscovered_of_mediaFileAt (h : mediaFileAt files id path = some file) :
    IsDiscovered files file := by
  obtain ⟨content, hcontent, h⟩ := Option.bind_eq_some_iff.1 h
  obtain ⟨extension, hext, h⟩ := Option.bind_eq_some_iff.1 h
  obtain ⟨fileType, htype, h⟩ := Option.bind_eq_some_iff.1 h
  obtain ⟨name, hname, -⟩ := Option.bind_eq_some_iff.1 hext
  rw [← Option.some.inj h]
  refine ⟨⟨content, hcontent, rfl⟩, ⟨path.dropLast, name, Path.eq_concat_of_fileName hname, ?_⟩,
    htype, ?_⟩
  · rw [hname]
    rfl
  · rw [hext]
    rfl

theorem exists_of_mem_scanFrom : ∀ {paths : List Path} {n : ℕ}, file ∈ scanFrom files ids n paths →
    ∃ i, ∃ path ∈ paths, mediaFileAt files (ids i) path = some file
  | [], _, h => (List.not_mem_nil h).elim
  | path :: paths, n, h => by
    rw [scanFrom] at h
    split at h
    · obtain ⟨i, p, hp, hfile⟩ := exists_of_mem_scanFrom h
      exact ⟨i, p, List.mem_cons_of_mem path hp, hfile⟩
    · next file' hfile' =>
      rcases List.mem_cons.1 h with rfl | h
      · exact ⟨n, path, List.mem_cons_self, hfile'⟩
      · obtain ⟨i, p, hp, hfile⟩ := exists_of_mem_scanFrom h
        exact ⟨i, p, List.mem_cons_of_mem path hp, hfile⟩

/-- What does not look at the identifiers is the same for all of them. -/
theorem map_scanFrom {β : Type} {f : MediaFile → β} (hf : ∀ file id, f { file with id := id } = f file)
    (ids' : ℕ → Text) : ∀ (paths : List Path) (n n' : ℕ),
      (scanFrom files ids' n' paths).map f = (scanFrom files ids n paths).map f
  | [], _, _ => rfl
  | path :: paths, n, n' => by
    have hsame : (mediaFileAt files (ids' n') path).map f = (mediaFileAt files (ids n) path).map f := by
      unfold mediaFileAt
      rcases files path with - | content
      · rfl
      rcases path.extension with - | extension
      · rfl
      rcases htype : mediaFileType (toLowercase extension) with - | fileType
      · simp only [Option.bind_eq_bind, Option.bind_some, htype, Option.bind_none]
      · simp only [Option.bind_eq_bind, Option.bind_some, htype, Option.pure_def, Option.map_some]
        exact congrArg some (hf ⟨ids n, path, fileType, content.length, _, _, _⟩ (ids' n'))
    unfold scanFrom
    rcases hold : mediaFileAt files (ids n) path with - | file
    · rw [hold, Option.map_none, Option.map_eq_none_iff] at hsame
      rw [hsame]
      exact map_scanFrom hf ids' paths n n'
    · rw [hold, Option.map_some, Option.map_eq_some_iff] at hsame
      obtain ⟨file', hfile', hsame⟩ := hsame
      rw [hfile']
      dsimp only
      rw [List.map_cons, List.map_cons, hsame, map_scanFrom hf ids' paths (n + 1) (n' + 1)]

/-- **Every file of a scan is on disk**, with its name and type. -/
theorem isDiscovered_of_mem_scanFileList {paths : List Path}
    (h : file ∈ scanFileList files ids paths) : IsDiscovered files file := by
  obtain ⟨i, path, -, hfile⟩ := exists_of_mem_scanFrom h
  exact isDiscovered_of_mediaFileAt hfile

end SubxCore
