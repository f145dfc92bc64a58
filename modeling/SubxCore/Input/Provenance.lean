import SubxCore.Archive.ExtractArchive
import SubxCore.Common.Run
import SubxCore.Input.Collecting
import SubxCore.Matcher.NumberedPaths
/-!
# Where collected files come from

A file that is collected is one of the inputs or below one of them, or it was
extracted from an input that is an archive, into a temporary directory of its own.
`archive_origin` tells the two apart by the directory alone. It is right for every
collected file, whichever order the map is gone through in, as long as the temporary
directories are new and no input directory holds one (`archiveOrigin_eq_some_iff`);
and so no default output goes into a directory that is about to be deleted.
-/

namespace SubxCore

open Text DirTree
open Archive (Location steps steps_append)
open Listing (entryAt)

namespace CollectedFiles

/-- `CollectedFiles::archive_origin`, for the entries of the map in the order it is
gone through. -/
def archiveOrigin (origins : List (Path × Path)) (path : Path) : Option Path :=
  (origins.find? fun origin => origin.1 <+: path).map Prod.snd

/-- `CollectedFiles::default_output_dir`. -/
def defaultOutputDir (origins : List (Path × Path)) (input : Path) : Path :=
  (((archiveOrigin origins input).bind Path.parent).or input.parent).getD [.curDir]

/-- `CollectedFiles::default_output_path`. -/
def defaultOutputPath (origins : List (Path × Path)) (input : Path) (extension : Text) : Path :=
  match archiveOrigin origins input with
  | some archive =>
    (archive.parent.getD [.curDir]).join
      (input.fileStem.getD "output".toList ++ '.' :: extension)
  | none => input.withExtension extension

/-- What is found is an entry of the map. -/
theorem mem_of_archiveOrigin {origins : List (Path × Path)} {path archive : Path}
    (h : archiveOrigin origins path = some archive) :
    ∃ root, (root, archive) ∈ origins ∧ root <+: path := by
  obtain ⟨⟨root, archive'⟩, hfind, rfl⟩ := Option.map_eq_some_iff.1 h
  exact ⟨root, List.mem_of_find?_eq_some hfind, by simpa using List.find?_some hfind⟩

/-- And something is, below any directory of the map. -/
theorem archiveOrigin_isSome {origins : List (Path × Path)} {path root archive : Path}
    (hmem : (root, archive) ∈ origins) (hroot : root <+: path) :
    ∃ archive', archiveOrigin origins path = some archive' := by
  refine Option.isSome_iff_exists.1 ?_
  rw [archiveOrigin, Option.isSome_map, List.find?_isSome]
  exact ⟨_, hmem, decide_eq_true hroot⟩

end CollectedFiles

open CollectedFiles

/-! ## What is below a place where nothing is -/

/-- Nothing is below a path that does not exist. -/
theorem metadata_eq_none_of_begins {v : Volume} {root p : Path} (hroot : v.metadata root = none)
    (hbegins : root <+: p) : v.metadata p = none := by
  obtain ⟨rest, rfl⟩ := hbegins
  by_contra hp
  obtain ⟨entry, hentry⟩ := Option.ne_none_iff_exists'.1 hp
  obtain ⟨there, hwalk, -⟩ := Option.bind_eq_some_iff.1 hentry
  rw [steps_append] at hwalk
  obtain ⟨middle, hfirst, hrest⟩ := walk_append_eq_some hwalk
  rw [Volume.metadata, hfirst, Option.bind_some] at hroot
  cases rest with
  | nil =>
    rw [Volume.metadata, List.append_nil, hfirst, Option.bind_some, hroot] at hentry
    cases hentry
  | cons c rest =>
    -- a step further is made from a directory, which would be there
    have hdirectory := (walk_cons_eq_some hrest).1
    rw [Volume.tree, hroot] at hdirectory
    cases hdirectory

namespace InputPathHandler

variable {v : Volume} {h : InputPathHandler} {base dir p root : Path} {c : CollectedFiles}
variable {extract : Path → Except SubXError ExtractedArchive} {archive : ExtractedArchive}
variable {entries : Listing FileName} {origins : List (Path × Path)} {crates : Archive.Crates}

/-! ## Inputs and what they give -/

/-- An input that is an archive, and has been extracted. -/
structure Extracts (v : Volume) (h : InputPathHandler)
    (extract : Path → Except SubXError ExtractedArchive) (base : Path)
    (archive : ExtractedArchive) : Prop where
  mem : base ∈ h.paths
  isFile : v.metadata base = some .file
  enabled : h.noExtract = false
  isArchive : (Archive.detectFormat base).isSome
  extracted : extract base = .ok archive

/-- A file that is an input, or below one. -/
def Direct (v : Volume) (base p : Path) : Prop :=
  (v.metadata base = some .file ∧ p = base) ∨
    ∃ entries, v.metadata base = some (.directory entries) ∧ Inside base p

/-- **What temporary directories promise**: an archive is extracted to a directory that
is there, is new and is apart from the others, and no input directory holds it. -/
structure TempRoots (crates : Archive.Crates) (v : Volume) (h : InputPathHandler)
    (extract : Path → Except SubXError ExtractedArchive) : Prop where
  ran : ∀ base archive, h.Extracts v extract base archive → ∃ file root s s',
    Archive.Ready archive.tempRoot root s ∧ s.history = [] ∧
      (Archive.extractArchive crates base file archive.tempRoot).exec s = (.ok archive.extracted, s')
  new : ∀ base archive, h.Extracts v extract base archive → v.metadata archive.tempRoot = none
  outside : ∀ base archive, h.Extracts v extract base archive → ∀ dir ∈ h.paths,
    (∃ entries, v.metadata dir = some (.directory entries)) → ¬ dir <+: archive.tempRoot
  apart : ∀ base archive base' archive', h.Extracts v extract base archive →
    h.Extracts v extract base' archive' → archive.tempRoot <+: archive'.tempRoot → base = base'

/-- The extracted files are below the directory. -/
theorem TempRoots.below (hroots : TempRoots crates v h extract)
    (hextracts : h.Extracts v extract base archive) (hp : p ∈ archive.extracted) :
    archive.tempRoot <+: p := by
  obtain ⟨file, root, s, s', hready, hstart, hrun⟩ := hroots.ran base archive hextracts
  exact Archive.extractArchive_paths crates base file hready hstart (congrArg Prod.fst hrun) p hp

theorem inside_of_mem_scanFlat (hp : p ∈ h.scanFlat dir entries) : Inside dir p := by
  rw [scanFlat_eq] at hp
  obtain ⟨name, -, rfl⟩ := List.mem_map.1 (List.mem_filter.1 hp).1
  exact ⟨[name], List.cons_ne_nil name [], rfl⟩

theorem inside_of_mem_scanRecursive {files : List Path}
    (hscan : h.scanRecursive v dir entries = .ok files) (hp : p ∈ files) : Inside dir p := by
  have hname : ∀ (dir : Path) (name : FileName), Inside dir (dir.join name.text) := fun dir name =>
    ⟨[name], List.cons_ne_nil name [], by rw [Path.join_name]; rfl⟩
  induction entries generalizing dir files with
  | nil =>
    cases hscan
    cases hp
  | file name rest ih =>
    obtain ⟨result, hrest, hfiles⟩ := Run.bind_eq_ok.1 hscan
    cases hfiles
    split at hp
    · rcases List.mem_cons.1 hp with rfl | hp
      · exact hname dir name
      · exact ih hrest hp
    · exact ih hrest hp
  | directory name inner rest ihInner ih =>
    obtain ⟨-, -, hscan⟩ := Run.bind_eq_ok.1 hscan
    obtain ⟨below, hbelow, hscan⟩ := Run.bind_eq_ok.1 hscan
    obtain ⟨result, hrest, hfiles⟩ := Run.bind_eq_ok.1 hscan
    cases hfiles
    rcases List.mem_append.1 hp with hp | hp
    · exact (hname dir name).trans (ihInner hbelow hp)
    · exact ih hrest hp

/-- **What one input gives**: files that are direct, or those of an archive with the
entry of the map that says so. -/
theorem collectPath_cases (hmem : base ∈ h.paths) (hcollect : h.collectPath v extract base = .ok c) :
    (∃ archive, h.Extracts v extract base archive ∧
      c = ⟨archive.extracted.filter h.matchesExtension, [(archive.tempRoot, base)]⟩) ∨
    c.archiveOrigins = [] ∧ ∀ p ∈ c.paths, Direct v base p := by
  unfold collectPath at hcollect
  rcases hbase : v.metadata base with - | - | entries
  · rw [hbase] at hcollect
    cases hcollect
  · rw [hbase] at hcollect
    dsimp only at hcollect
    split at hcollect
    · next hextracts =>
      split at hcollect
      · next archive hextract =>
        cases hcollect
        exact .inl ⟨archive, ⟨hmem, hbase, hextracts.1, hextracts.2, hextract⟩, rfl⟩
      · cases hcollect
        exact .inr ⟨rfl, fun p hp => absurd hp List.not_mem_nil⟩
    · cases hcollect
      refine .inr ⟨rfl, fun p hp => .inl ⟨hbase, ?_⟩⟩
      dsimp only at hp
      split at hp
      · exact List.mem_singleton.1 hp
      · cases hp
  · rw [hbase] at hcollect
    obtain ⟨-, -, hcollect⟩ := Run.bind_eq_ok.1 hcollect
    dsimp only at hcollect
    split at hcollect
    · obtain ⟨files, hfiles, hcollect⟩ := Run.bind_eq_ok.1 hcollect
      cases hcollect
      exact .inr ⟨rfl, fun p hp => .inr ⟨entries, hbase, inside_of_mem_scanRecursive hfiles hp⟩⟩
    · cases hcollect
      exact .inr ⟨rfl, fun p hp => .inr ⟨entries, hbase, inside_of_mem_scanFlat hp⟩⟩

/-- What is collected is what each input gives, one after the other. -/
theorem collectFiles_eq_ok (hcollect : h.collectFiles v extract = .ok c) :
    (∀ p ∈ c.paths, ∃ base ∈ h.paths, ∃ given, h.collectPath v extract base = .ok given ∧
      p ∈ given.paths) ∧
    ∀ origin, origin ∈ c.archiveOrigins ↔ ∃ base ∈ h.paths, ∃ given,
      h.collectPath v extract base = .ok given ∧ origin ∈ given.archiveOrigins := by
  have hfold : ∀ (paths : List Path) (c c' : CollectedFiles),
      paths.foldlM (fun files base => files.extend <$> h.collectPath v extract base) c = .ok c' →
      (∀ p ∈ c'.paths, p ∈ c.paths ∨ ∃ base ∈ paths, ∃ given,
        h.collectPath v extract base = .ok given ∧ p ∈ given.paths) ∧
      ∀ origin, origin ∈ c'.archiveOrigins ↔ origin ∈ c.archiveOrigins ∨ ∃ base ∈ paths, ∃ given,
        h.collectPath v extract base = .ok given ∧ origin ∈ given.archiveOrigins := by
    intro paths
    induction paths with
    | nil =>
      intro c c' hrun
      obtain rfl := Run.foldlM_ok_nil.1 hrun
      simp
    | cons base paths ih =>
      intro c c' hrun
      obtain ⟨c₁, hstep, hrest⟩ := Run.foldlM_ok_cons.1 hrun
      obtain ⟨given, hgiven, rfl⟩ := Run.map_eq_ok.1 hstep
      obtain ⟨hpaths, horigins⟩ := ih _ _ hrest
      constructor
      · intro p hp
        rcases hpaths p hp with hp | ⟨base', hbase', hlater⟩
        · rcases List.mem_append.1 hp with hp | hp
          · exact .inl hp
          · exact .inr ⟨base, List.mem_cons_self, given, hgiven, hp⟩
        · exact .inr ⟨base', List.mem_cons_of_mem base hbase', hlater⟩
      · intro origin
        rw [horigins, extend, List.mem_append, or_assoc]
        refine or_congr_right ?_
        simp only [List.exists_mem_cons_iff, hgiven, Except.ok.injEq, exists_eq_left']
  obtain ⟨hpaths, horigins⟩ := hfold h.paths ⟨[], []⟩ c hcollect
  refine ⟨fun p hp => (hpaths p hp).resolve_left List.not_mem_nil, fun origin => ?_⟩
  rw [horigins, or_iff_right List.not_mem_nil]

/-- The map has an entry for each archive that was extracted. -/
theorem mem_archiveOrigins_iff (hcollect : h.collectFiles v extract = .ok c) :
    (root, base) ∈ c.archiveOrigins ↔
      ∃ archive, h.Extracts v extract base archive ∧ archive.tempRoot = root := by
  rw [(collectFiles_eq_ok hcollect).2]
  constructor
  · rintro ⟨base', hbase', given, hgiven, hmem⟩
    rcases collectPath_cases hbase' hgiven with ⟨archive, hextracts, rfl⟩ | ⟨hnil, -⟩
    · cases List.mem_singleton.1 hmem
      exact ⟨archive, hextracts, rfl⟩
    · rw [hnil] at hmem
      cases hmem
  · rintro ⟨archive, hextracts, rfl⟩
    refine ⟨base, hextracts.mem, ⟨archive.extracted.filter h.matchesExtension,
      [(archive.tempRoot, base)]⟩, ?_, List.mem_singleton_self _⟩
    rw [collectPath, hextracts.isFile]
    dsimp only
    rw [if_pos ⟨hextracts.enabled, hextracts.isArchive⟩, hextracts.extracted]

/-! ## Which files were extracted -/

/-- A direct file is below no temporary directory. -/
theorem not_begins_of_direct {dir : Path} (hroots : TempRoots crates v h extract)
    (hextracts : h.Extracts v extract base archive) (hdir : dir ∈ h.paths)
    (hdirect : Direct v dir p) : ¬ archive.tempRoot <+: p := by
  intro hbegins
  have hnew := hroots.new base archive hextracts
  rcases hdirect with ⟨hfile, rfl⟩ | ⟨entries, hentries, names, -, rfl⟩
  · rw [metadata_eq_none_of_begins hnew hbegins] at hfile
    cases hfile
  · rcases List.prefix_or_prefix_of_prefix hbegins (List.prefix_append dir _) with habove | hwithin
    · rw [metadata_eq_none_of_begins hnew habove] at hentries
      cases hentries
    · exact hroots.outside base archive hextracts dir hdir ⟨entries, hentries⟩ hwithin

/-- A collected file is direct, or one of an archive and below its directory. -/
theorem extracted_or_direct (hcollect : h.collectFiles v extract = .ok c) (hp : p ∈ c.paths) :
    (∃ base archive, h.Extracts v extract base archive ∧ p ∈ archive.extracted) ∨
      ∃ base ∈ h.paths, Direct v base p := by
  obtain ⟨base, hbase, given, hgiven, hmem⟩ := (collectFiles_eq_ok hcollect).1 p hp
  rcases collectPath_cases hbase hgiven with ⟨archive, hextracts, rfl⟩ | ⟨-, hdirect⟩
  · exact .inl ⟨base, archive, hextracts, (List.mem_filter.1 hmem).1⟩
  · exact .inr ⟨base, hbase, hdirect p hmem⟩

/-- What `archive_origin` gives is the archive that the file was extracted from. -/
theorem extracts_of_archiveOrigin (hroots : TempRoots crates v h extract)
    (hcollect : h.collectFiles v extract = .ok c)
    (horigins : ∀ origin, origin ∈ origins ↔ origin ∈ c.archiveOrigins) (hp : p ∈ c.paths)
    (hbase : archiveOrigin origins p = some base) :
    ∃ archive, h.Extracts v extract base archive ∧ p ∈ archive.extracted := by
  obtain ⟨root, hmem, hbegins⟩ := mem_of_archiveOrigin hbase
  obtain ⟨archive, hextracts, rfl⟩ := (mem_archiveOrigins_iff hcollect).1 ((horigins _).1 hmem)
  -- the directory that the file is below is that of its archive
  rcases extracted_or_direct hcollect hp with ⟨base', archive', hextracts', hmem'⟩ |
    ⟨dir, hdir, hdirect⟩
  · have heq : base = base' := by
      rcases List.prefix_or_prefix_of_prefix hbegins
        (hroots.below hextracts' hmem') with hroot | hroot
      · exact hroots.apart _ _ _ _ hextracts hextracts' hroot
      · exact (hroots.apart _ _ _ _ hextracts' hextracts hroot).symm
    subst heq
    exact ⟨archive', hextracts', hmem'⟩
  · exact absurd hbegins (not_begins_of_direct hroots hextracts hdir hdirect)

/-- And there is something for every file that was. -/
theorem archiveOrigin_of_extracts (hroots : TempRoots crates v h extract)
    (hcollect : h.collectFiles v extract = .ok c)
    (horigins : ∀ origin, origin ∈ origins ↔ origin ∈ c.archiveOrigins) (hp : p ∈ c.paths)
    (hextracts : h.Extracts v extract base archive) (hmem : p ∈ archive.extracted) :
    archiveOrigin origins p = some base := by
  have hbegins := hroots.below hextracts hmem
  have horigin : (archive.tempRoot, base) ∈ origins :=
    (horigins _).2 ((mem_archiveOrigins_iff hcollect).2 ⟨archive, hextracts, rfl⟩)
  obtain ⟨base', hbase'⟩ := archiveOrigin_isSome horigin hbegins
  obtain ⟨archive', hextracts', hmem'⟩ :=
    extracts_of_archiveOrigin hroots hcollect horigins hp hbase'
  rcases List.prefix_or_prefix_of_prefix hbegins
    (hroots.below hextracts' hmem') with hroot | hroot
  · rw [hbase', hroots.apart _ _ _ _ hextracts hextracts' hroot]
  · rw [hbase', hroots.apart _ _ _ _ hextracts' hextracts hroot]

/-- A direct file was extracted from none. -/
theorem archiveOrigin_of_direct {dir : Path} (hroots : TempRoots crates v h extract)
    (hcollect : h.collectFiles v extract = .ok c)
    (horigins : ∀ origin, origin ∈ origins ↔ origin ∈ c.archiveOrigins) (hp : p ∈ c.paths)
    (hdir : dir ∈ h.paths) (hdirect : Direct v dir p) : archiveOrigin origins p = none := by
  by_contra hsome
  obtain ⟨base, hbase⟩ := Option.ne_none_iff_exists'.1 hsome
  obtain ⟨archive, hextracts, hmem⟩ :=
    extracts_of_archiveOrigin hroots hcollect horigins hp hbase
  exact not_begins_of_direct hroots hextracts hdir hdirect (hroots.below hextracts hmem)

/-- **`archive_origin` is right**: for every collected file, it gives the archive that
the file was extracted from, and nothing for a file that was not extracted, whichever
order the map is gone through in. -/
theorem archiveOrigin_eq_some_iff (hroots : TempRoots crates v h extract)
    (hcollect : h.collectFiles v extract = .ok c)
    (horigins : ∀ origin, origin ∈ origins ↔ origin ∈ c.archiveOrigins) (hp : p ∈ c.paths) :
    archiveOrigin origins p = some base ↔
      ∃ archive, h.Extracts v extract base archive ∧ p ∈ archive.extracted :=
  ⟨extracts_of_archiveOrigin hroots hcollect horigins hp, fun ⟨_, hextracts, hmem⟩ =>
    archiveOrigin_of_extracts hroots hcollect horigins hp hextracts hmem⟩

/-! ## Where outputs go -/

/-- An archive has a file name. -/
theorem exists_fileName_of_detectFormat (h : (Archive.detectFormat p).isSome) :
    p.fileName.isSome := by
  by_contra hname
  rw [Option.not_isSome_iff_eq_none] at hname
  rw [Archive.detectFormat, Path.extension, hname] at h
  simp at h

/-- The name of an output. -/
theorem isFileName_output {stem ext : Text} (hstem : '/' ∉ stem) (hslash : '/' ∉ ext)
    (hext : ∃ ch ∈ ext, ch ≠ '.') : IsFileName (stem ++ '.' :: ext) := by
  obtain ⟨ch, hmem, hdot⟩ := hext
  refine isFileName_of_mem (List.mem_append_right _ (List.mem_cons_of_mem '.' hmem)) hdot ?_
  simp only [List.mem_append, List.mem_cons, not_or]
  exact ⟨hstem, by decide, hslash⟩

theorem slash_notMem_fileStem {stem : Text} (h : p.fileStem = some stem) : '/' ∉ stem := by
  obtain ⟨name, -, rfl⟩ := Option.map_eq_some_iff.1 h
  exact fun hslash => name.isFileName.2.2.2 (mem_of_mem_splitExtension_fst hslash)

/-- What is strictly inside a directory has its own directory inside. -/
theorem begins_of_strictly {name : FileName} (hbegins : root <+: dir ++ [.normal name])
    (hne : root ≠ dir ++ [.normal name]) : root <+: dir :=
  (List.prefix_concat_iff.1 hbegins).resolve_left hne

theorem begins_of_parent (h : p.parent = some dir) : dir <+: p := by
  unfold Path.parent at h
  split at h
  · cases h
  · cases h
  · cases h
    exact List.dropLast_prefix p

/-- The working directory is there. -/
theorem metadata_curDir_ne_none : v.metadata [.curDir] ≠ none := by
  obtain ⟨inner, hcwd⟩ := v.cwd_isDirectory
  have hdirectory : v.tree v.cwd = some .directory := by
    rw [Volume.tree, hcwd]
    rfl
  have hwalk : walk v.tree v.cwd (steps [.curDir]) = some v.cwd :=
    walk_cons_of_directory hdirectory
  rw [Volume.metadata, hwalk, Option.bind_some, hcwd]
  intro hnone
  cases hnone

/-- **No default output goes into a temporary directory.** An output of a file that was
extracted goes beside its archive, in the archive's own directory, that of any other
file beside the file; and neither is inside a directory that archives were extracted
to. -/
theorem outputs_outside (hroots : TempRoots crates v h extract)
    (hcollect : h.collectFiles v extract = .ok c)
    (horigins : ∀ origin, origin ∈ origins ↔ origin ∈ c.archiveOrigins) (hp : p ∈ c.paths)
    {ext : Text} (hslash : '/' ∉ ext) (hext : ∃ ch ∈ ext, ch ≠ '.') :
    (∀ base archive, h.Extracts v extract base archive → p ∈ archive.extracted →
      base.parent = some (defaultOutputDir origins p) ∧
        ∃ name, defaultOutputPath origins p ext = defaultOutputDir origins p ++ [.normal name]) ∧
    ∀ base archive, h.Extracts v extract base archive →
      ¬ archive.tempRoot <+: defaultOutputDir origins p ∧
      ¬ (archive.tempRoot <+: defaultOutputPath origins p ext ∧
        archive.tempRoot ≠ defaultOutputPath origins p ext) := by
  have hbeside : ∀ base archive, h.Extracts v extract base archive → p ∈ archive.extracted →
      ∃ dir file name, base = dir ++ [.normal file] ∧ defaultOutputDir origins p = dir ∧
        defaultOutputPath origins p ext = dir ++ [.normal name] := by
    intro base archive hextracts hmem
    have horigin := archiveOrigin_of_extracts hroots hcollect horigins hp hextracts hmem
    obtain ⟨dir, file, rfl⟩ :=
      Path.exists_concat_of_fileName (exists_fileName_of_detectFormat hextracts.isArchive)
    have hstem : '/' ∉ p.fileStem.getD "output".toList := by
      cases hstem : p.fileStem with
      | none => decide
      | some stem => exact slash_notMem_fileStem hstem
    refine ⟨dir, file, ⟨_, isFileName_output hstem hslash hext⟩, rfl, ?_, ?_⟩
    · rw [defaultOutputDir, horigin, Option.bind_some, Path.parent_concat]
      rfl
    · rw [defaultOutputPath, horigin]
      dsimp only
      rw [Path.parent_concat, Option.getD_some]
      exact Path.join_of_isFileName dir _
  refine ⟨fun base archive hextracts hmem => ?_, fun root archive hroot => ?_⟩
  · obtain ⟨dir, file, name, rfl, hdir, hpath⟩ := hbeside base archive hextracts hmem
    exact ⟨by rw [Path.parent_concat, hdir], name, by rw [hdir, hpath]⟩
  have hnew := hroots.new root archive hroot
  rcases extracted_or_direct hcollect hp with ⟨base, archive', hextracts, hmem⟩ |
    ⟨base, hbase, hdirect⟩
  · -- beside the archive, which was there before
    obtain ⟨dir, file, name, rfl, hdir, hpath⟩ := hbeside base archive' hextracts hmem
    have houtside : ¬ archive.tempRoot <+: dir := by
      intro hbegins
      have hnone := metadata_eq_none_of_begins hnew
        (hbegins.trans (List.prefix_append dir [.normal file]))
      rw [hextracts.isFile] at hnone
      cases hnone
    rw [hdir, hpath]
    exact ⟨houtside, fun ⟨hbegins, hne⟩ => houtside (begins_of_strictly hbegins hne)⟩
  · -- beside the file itself
    have hnot := not_begins_of_direct hroots hroot hbase hdirect
    have hnone := archiveOrigin_of_direct hroots hcollect horigins hp hbase hdirect
    rw [defaultOutputDir, defaultOutputPath, hnone]
    constructor
    · rw [Option.bind_none, Option.none_or]
      cases hparent : p.parent with
      | none => exact fun hbegins => metadata_curDir_ne_none (metadata_eq_none_of_begins hnew hbegins)
      | some dir => exact fun hbegins => hnot (hbegins.trans (begins_of_parent hparent))
    · rintro ⟨hbegins, hne⟩
      cases hstem : p.fileStem with
      | none =>
        rw [Path.withExtension, hstem] at hbegins
        exact hnot hbegins
      | some stem =>
        obtain ⟨name, hname, -⟩ := Option.map_eq_some_iff.1 hstem
        have hfile := isFileName_output (slash_notMem_fileStem hstem) hslash hext
        have hne' : ext ≠ [] := by
          rintro rfl
          obtain ⟨ch, hmem, -⟩ := hext
          cases hmem
        have hpath : p.withExtension ext = p.dropLast ++ [.normal ⟨_, hfile⟩] := by
          rw [Path.withExtension, hstem]
          dsimp only
          rw [if_neg hne']
          exact Path.join_of_isFileName _ hfile
        dsimp only at hbegins hne
        rw [hpath] at hbegins hne
        exact hnot ((begins_of_strictly hbegins hne).trans (List.dropLast_prefix p))

/-! ## An archive that is collected -/

/-- A directory with a video and an archive. -/
def archiveVolume : Volume where
  root := .directory ⟨"shows".toList, by decide⟩
    (.file ⟨"pilot.mkv".toList, by decide⟩ (.file ⟨"subs.tar.gz".toList, by decide⟩ .nil)) .nil
  distinct := by decide
  cwd := []
  cwd_isDirectory := ⟨_, rfl⟩
  unreadable := fun _ => none

/-- The archive, as it is given. -/
def subsArchive : Path := Path.ofText "/shows/subs.tar.gz".toList

/-- The video, as it is given. -/
def pilotVideo : Path := Path.ofText "/shows/pilot.mkv".toList

/-- The handler that is given both. -/
def archiveHandler : InputPathHandler := ⟨[subsArchive, pilotVideo], false, [], false⟩

/-- A zip crate that refuses every name. -/
def plainCrates : Archive.Crates :=
  ⟨fun _ => none, nofun, Archive.sampleExtractTo, id, false⟩

/-- What the archive holds: one file. -/
def subsFile : Archive.ArchiveFile where
  zip := .ok []
  rarListing := .ok []
  rarProcessing := .ok []
  sevenZip := .ok []
  tarGz := .ok [Archive.sampleEntry ['a'] 1 [0]]

/-- The directory it is extracted to, and the file. -/
def subsExtracted : ExtractedArchive :=
  ⟨Archive.canonicalPath [Archive.sampleDir], [Path.ofText "/d/a".toList]⟩

/-- The map of the collected files. -/
def subsOrigins : List (Path × Path) := [(subsExtracted.tempRoot, subsArchive)]

/-- The archive is the only one. -/
theorem eq_subsArchive
    (hextracts : archiveHandler.Extracts archiveVolume (fun _ => .ok subsExtracted) base archive) :
    base = subsArchive ∧ archive = subsExtracted := by
  have hvideo : ¬ (Archive.detectFormat pilotVideo).isSome := by decide
  refine ⟨?_, (Except.ok.inj hextracts.extracted).symm⟩
  rcases List.mem_pair.1 hextracts.mem with rfl | rfl
  · rfl
  · exact absurd hextracts.isArchive hvideo

theorem tempRoots_subs :
    TempRoots plainCrates archiveVolume archiveHandler fun _ => .ok subsExtracted where
  ran base archive hextracts := by
    obtain ⟨rfl, rfl⟩ := eq_subsArchive hextracts
    have hrun : ((Archive.extractArchive plainCrates subsArchive subsFile
        subsExtracted.tempRoot).exec Archive.sampleStorage).1 = .ok subsExtracted.extracted := rfl
    exact ⟨subsFile, [Archive.sampleDir], Archive.sampleStorage, _, ⟨rfl, rfl⟩, rfl,
      Prod.ext hrun rfl⟩
  new base archive hextracts := by
    obtain ⟨-, rfl⟩ := eq_subsArchive hextracts
    decide
  outside base archive hextracts dir hdir hdirectory := by
    have hfiles : ∀ dir ∈ archiveHandler.paths, archiveVolume.metadata dir = some .file := by decide
    obtain ⟨entries, hentries⟩ := hdirectory
    rw [hfiles dir hdir] at hentries
    cases hentries
  apart base archive base' archive' hextracts hextracts' _ :=
    (eq_subsArchive hextracts).1.trans (eq_subsArchive hextracts').1.symm

theorem collectFiles_subs : archiveHandler.collectFiles archiveVolume
    (fun _ => .ok subsExtracted) =
      .ok ⟨[Path.ofText "/d/a".toList, pilotVideo], subsOrigins⟩ := by
  decide

theorem extracts_subs :
    archiveHandler.Extracts archiveVolume (fun _ => .ok subsExtracted) subsArchive subsExtracted :=
  ⟨by decide, by decide, rfl, by decide, rfl⟩

theorem archiveOrigin_subs :
    archiveOrigin subsOrigins (Path.ofText "/d/a".toList) = some subsArchive :=
  (archiveOrigin_eq_some_iff tempRoots_subs collectFiles_subs (fun _ => Iff.rfl)
    List.mem_cons_self).2 ⟨subsExtracted, extracts_subs, List.mem_singleton_self _⟩

theorem outputs_outside_subs :
    subsArchive.parent = some (defaultOutputDir subsOrigins (Path.ofText "/d/a".toList)) :=
  ((outputs_outside tempRoots_subs collectFiles_subs (fun _ => Iff.rfl)
    List.mem_cons_self (by decide : '/' ∉ "vtt".toList) ⟨'v', by decide, by decide⟩).1
    subsArchive subsExtracted extracts_subs (List.mem_singleton_self _)).1

end InputPathHandler

end SubxCore
