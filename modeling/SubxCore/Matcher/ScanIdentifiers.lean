import SubxCore.Matcher.SubtitleNames
import SubxCore.Uuidv7
/-!
# The identifiers of a scan

Both scans of `FileDiscovery` give every file they take up the next UUID of one
generator. Whatever the clock shows, the identifiers are in the order of time and
no two files of a scan have the same one (`identified_of_scanItems`), so a file is
found again by its identifier, and by no other text. The walk over a directory and
the text of a UUID are parameters.
-/

namespace SubxCore

open Text Increasing Program

/-! ## Scans -/

/-- What a scan takes its identifiers from: the generator, and what is left of the
clock. -/
structure IdSource where
  generator : Uuidv7Generator
  clock : List Uuid
  deriving DecidableEq, Repr

/-- Why a scan gives no files. -/
inductive ScanStop
  /-- The clock does not get later. -/
  | waiting
  | failed (error : SubXError)
  deriving DecidableEq, Repr

/-- A scan, or a part of it. -/
abbrev Scanning (α : Type) := Program IdSource ScanStop α

variable (hyphenated : Uuid → Text)

/-- The identifier of a file, with the UUID it is made of. -/
def fileIdOf (id : Uuid) : Text := "file_".toList ++ hyphenated id

/-- `generate_file_id`. -/
def generateFileId : Scanning Text :=
  Program.step fun s =>
    match s.generator.nextId s.clock with
    | some (id, generator, clock) => (.ok (fileIdOf hyphenated id), ⟨generator, clock⟩)
    | none => (.error .waiting, ⟨s.generator, []⟩)

/-- The loop of a scan. What is no media file is passed over; what is one gets an
identifier in the place of the one it is described with. -/
def scanItems {ι : Type} (describe : ι → Except ScanStop (Option MediaFile)) :
    List ι → Scanning (List MediaFile)
  | [] => pure []
  | item :: items => do
    match ← Program.ofExcept (describe item) with
    | none => scanItems describe items
    | some file =>
      let id ← generateFileId hyphenated
      let files ← scanItems describe items
      return { file with id := id } :: files

/-- What an entry of a directory is. -/
inductive EntryType
  | file
  | directory
  | symlink
  | other
  deriving DecidableEq, Repr

/-- `walkdir::DirEntry`. -/
structure DirEntry where
  path : Path
  fileType : EntryType
  deriving DecidableEq, Repr

namespace FileDiscovery

/-- What `scan_directory` makes of an entry. -/
def describeEntry (files : FileSystem) (rootPath : Path) :
    Except Text DirEntry → Except ScanStop (Option MediaFile)
  | .error message => .error (.failed (.fileMatching message))
  | .ok ⟨path, .file⟩ => (classifyFile files rootPath [] path).mapError .failed
  | .ok _ => .ok none

/-- `FileDiscovery::scan_directory`, where `walkDir` goes through a directory, down to
a depth if one is given. -/
def scanDirectory (walkDir : Path → Option ℕ → List (Except Text DirEntry)) (files : FileSystem)
    (rootPath : Path) (recursive : Bool) (clock : List Uuid) : Except ScanStop (List MediaFile) :=
  ((scanItems hyphenated (describeEntry files rootPath)
    (walkDir rootPath (if recursive then none else some 1))).exec ⟨.new, clock⟩).1

/-- `FileDiscovery::scan_file_list`. -/
def scanFileList (files : FileSystem) (filePaths : List Path) (clock : List Uuid) :
    Except ScanStop (List MediaFile) :=
  ((scanItems hyphenated (fun path => .ok (mediaFileAt files [] path)) filePaths).exec
    ⟨.new, clock⟩).1

end FileDiscovery

/-- `find_media_file_by_id_or_path`. -/
def findMediaFileByIdOrPath (files : List MediaFile) (fileId : Text) (fallbackPath : Option Text) :
    Option MediaFile :=
  match files.find? fun f => f.id = fileId with
  | some file => some file
  | none =>
    fallbackPath.bind fun path =>
      match files.find? fun f => f.relativePath = path with
      | some file => some file
      | none => files.find? fun f => f.name = path

/-- Without a fallback it looks at identifiers only. -/
theorem findMediaFileByIdOrPath_none (files : List MediaFile) (fileId : Text) :
    findMediaFileByIdOrPath files fileId none = findMediaFileById files fileId := by
  unfold findMediaFileByIdOrPath findMediaFileById
  split
  · next file hfound => exact hfound.symm
  · next hnone => exact hnone.symm

/-! ## What is issued -/

/-- Identifiers taken from a source in the order of time. -/
def Issued (s : IdSource) (texts : List Text) (s' : IdSource) : Prop :=
  ∃ ids : List Uuid, texts = ids.map (fileIdOf hyphenated) ∧
    Issues unixTimeMs s.generator.lastUnixTsMs ids s'.generator.lastUnixTsMs ∧
    (ids ++ s'.clock).Sublist s.clock

variable {hyphenated} {s s' s'' : IdSource} {texts texts' : List Text} {text : Text}

theorem Issued.nil (s : IdSource) : Issued hyphenated s [] s :=
  ⟨[], rfl, .nil _, List.Sublist.refl _⟩

theorem Issued.append (h : Issued hyphenated s texts s') (h' : Issued hyphenated s' texts' s'') :
    Issued hyphenated s (texts ++ texts') s'' := by
  obtain ⟨ids, rfl, hissues, hclock⟩ := h
  obtain ⟨ids', rfl, hissues', hclock'⟩ := h'
  refine ⟨ids ++ ids', List.map_append.symm, hissues.append hissues', ?_⟩
  rw [List.append_assoc]
  exact ((List.Sublist.refl ids).append hclock').trans hclock

theorem issued_generateFileId (h : (generateFileId hyphenated).exec s = (.ok text, s')) :
    Issued hyphenated s [text] s' := by
  rw [generateFileId, exec_step] at h
  split at h
  · next id generator clock hnext =>
    cases h
    obtain ⟨hissues, hclock⟩ := Uuidv7Generator.issues_nextId hnext
    exact ⟨[id], rfl, hissues, hclock⟩
  · cases h

variable {ι : Type} {describe : ι → Except ScanStop (Option MediaFile)} {items : List ι}
variable {found : List MediaFile}

/-- **A scan issues an identifier for each file it finds.** -/
theorem issued_scanItems (h : (scanItems hyphenated describe items).exec s = (.ok found, s')) :
    Issued hyphenated s (found.map (·.id)) s' := by
  induction items generalizing s found with
  | nil =>
    cases h
    exact .nil _
  | cons item items ih =>
    rw [scanItems] at h
    obtain ⟨described, s₁, hdescribe, h⟩ := bind_eq_ok.1 h
    obtain rfl := (Prod.mk.inj hdescribe).2
    rcases described with - | file
    · exact ih h
    · obtain ⟨id, s₂, hid, h⟩ := bind_eq_ok.1 h
      obtain ⟨files, s₃, hfiles, h⟩ := bind_eq_ok.1 h
      cases h
      exact (issued_generateFileId hid).append (ih hfiles)

/-! ## The files of a scan -/

/-- A path is described the same with any identifier. -/
theorem mediaFileAt_eq (files : FileSystem) (id : Text) (path : Path) :
    mediaFileAt files id path =
      (mediaFileAt files [] path).map fun file => { file with id := id } := by
  unfold mediaFileAt
  rcases files path with - | content
  · rfl
  rcases path.extension with - | extension
  · rfl
  rcases htype : mediaFileType (toLowercase extension) with - | fileType
  · simp only [Option.bind_eq_bind, Option.bind_some, htype, Option.bind_none, Option.map_none]
  · simp only [Option.bind_eq_bind, Option.bind_some, htype, Option.pure_def, Option.map_some]

theorem scanItems_eq_scanFrom {files : FileSystem} {paths : List Path}
    (h : (scanItems hyphenated (fun path => .ok (mediaFileAt files [] path)) paths).exec s =
      (.ok found, s')) {ids : ℕ → Text} {n : ℕ}
    (hids : ∀ i (hi : i < found.length), ids (n + i) = found[i].id) :
    found = scanFrom files ids n paths := by
  induction paths generalizing s found n with
  | nil =>
    cases h
    rfl
  | cons path paths ih =>
    -- the next identifier is the `n`-th exactly where the path is taken up
    rw [scanItems] at h
    obtain ⟨described, s₁, hdescribe, h⟩ := bind_eq_ok.1 h
    obtain ⟨hdescribed, rfl⟩ := Prod.mk.inj hdescribe
    have hdescribed := Except.ok.inj hdescribed
    rw [scanFrom, mediaFileAt_eq, hdescribed]
    rcases described with - | file
    · exact ih h hids
    · obtain ⟨id, s₂, -, h⟩ := bind_eq_ok.1 h
      obtain ⟨more, s₃, hmore, h⟩ := bind_eq_ok.1 h
      cases h
      have hid : ids n = id := hids 0 (Nat.zero_lt_succ _)
      have hrest : more = scanFrom files ids (n + 1) paths := by
        refine ih hmore fun i hi => ?_
        rw [Nat.add_right_comm]
        exact hids (i + 1) (Nat.succ_lt_succ hi)
      rw [Option.map_some, hid, ← hrest]

/-- **A scan finds the files of its list**, as a scan does that is given the
identifiers. -/
theorem FileDiscovery.scanFileList_eq_ok {files : FileSystem} {filePaths : List Path}
    {clock : List Uuid}
    (h : FileDiscovery.scanFileList hyphenated files filePaths clock = .ok found) :
    found = SubxCore.scanFileList files (fun n => (found[n]?.map (·.id)).getD []) filePaths := by
  refine scanItems_eq_scanFrom (Prod.ext h rfl) fun i hi => ?_
  rw [Nat.zero_add, List.getElem?_eq_getElem hi]
  rfl

/-! ## What a file is found by -/

variable {clock : List Uuid}

/-- **The files of a scan, told apart by their identifiers**: these are in the order of
time, and in whatever part of the files one of them is looked for, its file is found,
or none. -/
structure Identified (hyphenated : Uuid → Text) (clock : List Uuid) (found : List MediaFile) :
    Prop where
  issued : ∃ ids : List Uuid, found.map (·.id) = ids.map (fileIdOf hyphenated) ∧
    ids.Sublist clock ∧ ids.Pairwise fun a b => unixTimeMs a < unixTimeMs b
  distinct : (found.map (·.id)).Nodup
  finds : ∀ searched, searched ⊆ found → ∀ fileId file,
    findMediaFileByIdOrPath searched fileId none = some file ↔ file ∈ searched ∧ file.id = fileId
  findsNothing : ∀ (searched : List MediaFile) (fileId : Text), fileId ∉ searched.map (·.id) →
    findMediaFileByIdOrPath searched fileId none = none

theorem fileIdOf_injective (hinj : Function.Injective hyphenated) :
    Function.Injective (fileIdOf hyphenated) :=
  fun _ _ h => hinj (List.append_cancel_left h)

/-- What a new generator issues identifies the files it is issued for. -/
theorem Issued.identified (hinj : Function.Injective hyphenated)
    (h : Issued hyphenated ⟨.new, clock⟩ (found.map (·.id)) s') :
    Identified hyphenated clock found := by
  obtain ⟨ids, htexts, hissues, hclock⟩ := h
  have hdistinct : (found.map (·.id)).Nodup := by
    rw [htexts]
    exact (List.Nodup.of_map unixTimeMs hissues.nodup).map (fileIdOf_injective hinj)
  refine ⟨⟨ids, htexts, (List.sublist_append_left ids _).trans hclock, hissues.increasing⟩,
    hdistinct, fun searched hsearched fileId file => ?_, fun searched fileId hnot => ?_⟩
  · rw [findMediaFileByIdOrPath_none]
    exact find?_eq_some_iff hdistinct hsearched
  · rw [findMediaFileByIdOrPath_none]
    exact find?_eq_none_iff.2 hnot

/-- **Every scan tells its files apart**, whatever the clock shows. -/
theorem scans_identify (hinj : Function.Injective hyphenated) (files : FileSystem)
    (clock : List Uuid) :
    (∀ filePaths found,
      FileDiscovery.scanFileList hyphenated files filePaths clock = .ok found →
        Identified hyphenated clock found) ∧
    ∀ walkDir rootPath recursive found,
      FileDiscovery.scanDirectory hyphenated walkDir files rootPath recursive clock = .ok found →
        Identified hyphenated clock found := by
  have hscan : ∀ {ι : Type} {describe : ι → Except ScanStop (Option MediaFile)} {items : List ι}
      {found : List MediaFile},
      ((scanItems hyphenated describe items).exec ⟨.new, clock⟩).1 = .ok found →
        Identified hyphenated clock found := by
    intro ι describe items found h
    exact (issued_scanItems (Prod.ext h rfl)).identified hinj
  exact ⟨fun _ _ h => hscan h, fun _ _ _ _ h => hscan h⟩

/-! ## A clock that goes back -/

/-- A UUID of some millisecond. -/
def uuidAt (ms : UInt8) : Uuid := ⟨#v[0, 0, 0, 0, 0, ms, 0x70, 0, 0x80, 0, 0, 0, 0, 0, 0, 0]⟩

/-- A clock that stands still, goes back, and gets on. -/
def unsteadyClock : List Uuid := [5, 5, 3, 5, 7, 9].map uuidAt

/-- The files of a film, with the directory they are in, as a walk comes to them. -/
def filmEntries : List (Except Text DirEntry) :=
  .ok ⟨Path.ofText "/films".toList, .directory⟩ ::
    filmPaths.map fun path => .ok ⟨path, .file⟩

theorem scans_identify_film :
    ∃ listed walked,
      FileDiscovery.scanFileList hyphenatedForm filmWorld.files filmPaths unsteadyClock =
        .ok listed ∧
      FileDiscovery.scanDirectory hyphenatedForm (fun _ _ => filmEntries) filmWorld.files
        (Path.ofText "/films".toList) true unsteadyClock = .ok walked ∧
      listed.map (·.id) = ([5, 7, 9].map fun ms => fileIdOf hyphenatedForm (uuidAt ms)) ∧
      Identified hyphenatedForm unsteadyClock listed ∧
      Identified hyphenatedForm unsteadyClock walked := by
  obtain ⟨hlisted, hwalked⟩ :=
    scans_identify hyphenatedForm_injective filmWorld.files unsteadyClock
  refine ⟨_, _, rfl, rfl, ?_, hlisted filmPaths _ rfl,
    hwalked (fun _ _ => filmEntries) (Path.ofText "/films".toList) true _ rfl⟩
  decide +kernel

end SubxCore
