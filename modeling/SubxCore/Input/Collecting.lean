import SubxCore.Input.InputPaths
import Mathlib.Data.List.Pairwise
/-!
# What is collected

The paths given to a command are meant to be merged without repetition, and each
matching file under them to be collected once. Merging keeps repetitions, and
collecting lists a file once for every input it is under. The inputs a file is under
are comparable (`overlaps_of_lists`), so it is listed once when no input overlaps
another one.
-/

namespace SubxCore

open Text DirTree
open Archive (Location steps canonicalPath componentStep)
open Listing (entryAt entryAt_append entryAt_singleton distinct_of_entryAt mem_files mem_ownFiles
  nodup_files nodup_ownFiles ne_nil_of_mem_files)

/-! ## Lists without repetition -/

theorem nodup_eraseDups {α : Type} [BEq α] [LawfulBEq α] : ∀ l : List α, l.eraseDups.Nodup
  | [] => List.nodup_nil
  | a :: l => by
    rw [List.eraseDups_cons, List.nodup_cons, List.mem_eraseDups]
    refine ⟨fun h => ?_, nodup_eraseDups (l.filter fun b => !b == a)⟩
    simpa using (List.mem_filter.1 h).2
termination_by l => l.length
decreasing_by exact Nat.lt_succ_of_le (List.length_filter_le _ l)

theorem eraseDups_eq_self_iff {α : Type} [BEq α] [LawfulBEq α] {l : List α} :
    l.eraseDups = l ↔ l.Nodup := by
  refine ⟨fun h => h ▸ nodup_eraseDups l, fun h => ?_⟩
  induction l with
  | nil => rfl
  | cons a l ih =>
    obtain ⟨ha, hl⟩ := List.nodup_cons.1 h
    have hfilter : (l.filter fun b => !b == a) = l :=
      List.filter_eq_self.2 fun b hb => by simpa using ne_of_mem_of_not_mem hb ha
    rw [List.eraseDups_cons, hfilter, ih hl]

/-! ## What an input reaches -/

/-- A path inside a directory. -/
def Inside (dir path : Path) : Prop :=
  ∃ names : List FileName, names ≠ [] ∧ path = dir ++ names.map .normal

/-- A path directly in a directory. -/
def DirectlyIn (dir path : Path) : Prop := ∃ name : FileName, path = dir ++ [.normal name]

theorem Inside.trans {a b c : Path} (hab : Inside a b) (hbc : Inside b c) : Inside a c := by
  obtain ⟨names, hne, rfl⟩ := hab
  obtain ⟨names', -, rfl⟩ := hbc
  refine ⟨names ++ names', fun h => hne (List.append_eq_nil_iff.1 h).1, ?_⟩
  rw [List.map_append, List.append_assoc]

theorem Inside.ne {a b : Path} (h : Inside a b) : a ≠ b := by
  obtain ⟨names, hne, rfl⟩ := h
  intro heq
  exact hne (List.map_eq_nil_iff.1 (List.self_eq_append_right.1 heq))

theorem DirectlyIn.inside {a b : Path} (h : DirectlyIn a b) : Inside a b := by
  obtain ⟨name, rfl⟩ := h
  exact ⟨[name], List.cons_ne_nil name [], rfl⟩

/-- A path inside two directories has them inside each other, or twice the same. -/
theorem Inside.comparable {a b p : Path} (ha : Inside a p) (hb : Inside b p) :
    a = b ∨ Inside a b ∨ Inside b a := by
  obtain ⟨names, -, rfl⟩ := ha
  obtain ⟨names', -, heq⟩ := hb
  have hinside : ∀ {a b : Path} {names names' : List FileName} {between : List Component},
      b = a ++ between → names.map .normal = between ++ names'.map .normal →
        a = b ∨ Inside a b := by
    intro a b names names' between hb hnames
    obtain ⟨names₁, -, -, rfl, -⟩ := List.map_eq_append_iff.1 hnames
    rcases eq_or_ne names₁ [] with rfl | hne
    · exact .inl (by rw [hb, List.map_nil, List.append_nil])
    · exact .inr ⟨names₁, hne, hb⟩
  rcases List.append_eq_append_iff.1 heq with ⟨between, hb, hnames⟩ | ⟨between, ha, hnames⟩
  · exact (hinside hb hnames).imp_right .inl
  · exact (hinside ha hnames).imp Eq.symm .inr

namespace InputPathHandler

variable {v : Volume} {h : InputPathHandler} {base dir p : Path} {entries : Listing FileName}
variable {extract : Path → Except SubXError ExtractedArchive} {location : Location}

/-- The files an input may stand for: itself, and what is in it. -/
def Reaches (h : InputPathHandler) (base p : Path) : Prop :=
  p = base ∨ if h.recursive then Inside base p else DirectlyIn base p

/-- A file that an input gives. -/
def Lists (v : Volume) (h : InputPathHandler) (base p : Path) : Prop :=
  h.matchesExtension p = true ∧ v.metadata p = some .file ∧ h.Reaches base p

/-- Every matching file under the inputs, each once. -/
def Complete (v : Volume) (h : InputPathHandler) (files : List Path) : Prop :=
  files.Nodup ∧ ∀ p, p ∈ files ↔ ∃ base ∈ h.paths, h.Lists v base p

/-- Two inputs that overlap: where directories are gone through, one is inside the
other with a matching file at or below it; otherwise it is itself a matching file
directly in the other. -/
def Overlap (v : Volume) (h : InputPathHandler) (dir base : Path) : Prop :=
  if h.recursive then Inside dir base ∧ ∃ p, h.Lists v base p
  else DirectlyIn dir base ∧ h.matchesExtension base = true ∧ v.metadata base = some .file

/-! ## The volume at canonical paths -/

theorem walk_down (v : Volume) (here names : Location) :
    (walk v.tree here (names.map .down)).bind (entryAt · v.root) =
      entryAt (here ++ names) v.root := by
  induction names generalizing here with
  | nil => simp [walk]
  | cons name names ih =>
    rw [List.map_cons, walk, entryAt_append]
    rcases hhere : entryAt here v.root with - | - | inner
    · simp [Volume.tree, hhere]
    · simp [Volume.tree, hhere, entryNode, Listing.Entry.below]
    · have htree : v.tree here = some .directory := by
        rw [Volume.tree, hhere]
        rfl
      rw [htree, Step.lead, ih, List.append_assoc, entryAt_append, hhere]
      rfl

/-- **What is at a canonical path is what is at its location.** -/
theorem metadata_canonicalPath (v : Volume) (location : Location) :
    v.metadata (canonicalPath location) = entryAt location v.root := by
  obtain ⟨inner, hcwd⟩ := v.cwd_isDirectory
  have hsteps : steps (canonicalPath location) = .top :: location.map .down := by
    simp [steps, canonicalPath, componentStep, Function.comp_def]
  have hdirectory : v.tree v.cwd = some .directory := by
    rw [Volume.tree, hcwd]
    rfl
  rw [Volume.metadata, hsteps, walk_cons_of_directory hdirectory]
  exact walk_down v [] location

theorem canonicalPath_append (location names : Location) :
    canonicalPath location ++ names.map .normal = canonicalPath (location ++ names) := by
  rw [canonicalPath, canonicalPath, List.map_append, List.cons_append]

theorem metadata_below (hdir : v.metadata (canonicalPath location) = some (.directory entries))
    (names : Location) :
    v.metadata (canonicalPath location ++ names.map .normal) = entryAt names entries := by
  rw [metadata_canonicalPath] at hdir
  rw [canonicalPath_append, metadata_canonicalPath, entryAt_append, hdir]
  rfl

/-- A file has nothing below it. -/
theorem not_inside_of_file (hbase : v.metadata (canonicalPath location) = some .file)
    (hp : v.metadata p = some .file) : ¬ Inside (canonicalPath location) p := by
  rintro ⟨names, hne, rfl⟩
  rw [metadata_canonicalPath] at hbase
  rw [canonicalPath_append, metadata_canonicalPath, entryAt_append, hbase, Option.bind_some,
    Listing.Entry.below, if_neg hne] at hp
  cases hp

/-! ## One input -/

theorem scanFlat_eq (entries : Listing FileName) : h.scanFlat dir entries =
    (entries.ownFiles.map fun name => dir ++ [.normal name]).filter h.matchesExtension := by
  induction entries with
  | nil => rfl
  | file name rest ih =>
    rw [scanFlat, Listing.ownFiles, List.map_cons, List.filter_cons, ih, Path.join_name]
  | directory _ _ rest _ ih => rw [scanFlat, Listing.ownFiles, ih]

theorem readDir_eq_ok (hreadable : ∀ p, v.unreadable p = none) : v.readDir dir = .ok () := by
  rw [Volume.readDir, hreadable]

/-- **A recursive scan gives the matching ones of all files below.** -/
theorem scanRecursive_eq (hreadable : ∀ p, v.unreadable p = none) (entries : Listing FileName) :
    h.scanRecursive v dir entries =
      .ok ((entries.files.map fun names => dir ++ names.map .normal).filter
        h.matchesExtension) := by
  induction entries generalizing dir with
  | nil => rfl
  | file name rest ih =>
    rw [scanRecursive, ih, Listing.files, List.map_cons, List.filter_cons, Path.join_name]
    rfl
  | directory name inner rest ihInner ih =>
    have hbelow : (inner.files.map (name :: ·)).map (fun names => dir ++ names.map .normal) =
        inner.files.map fun names => dir.join name.text ++ names.map .normal := by
      rw [List.map_map]
      refine List.map_congr_left fun names _ => ?_
      rw [Path.join_name, List.append_assoc]
      rfl
    rw [scanRecursive, readDir_eq_ok hreadable, ihInner, ih, Listing.files, List.map_append,
      List.filter_append, hbelow]
    rfl

/-- What is in a directory, by names. -/
theorem inside_file_iff (hdir : v.metadata (canonicalPath location) = some (.directory entries)) :
    (v.metadata p = some .file ∧ Inside (canonicalPath location) p) ↔
      ∃ names ∈ entries.files, canonicalPath location ++ names.map .normal = p := by
  have hentries : entries.Distinct :=
    distinct_of_entryAt v.distinct ((metadata_canonicalPath v location).symm.trans hdir)
  constructor
  · rintro ⟨hp, names, -, rfl⟩
    exact ⟨names, (mem_files hentries).2 ((metadata_below hdir names).symm.trans hp), rfl⟩
  · rintro ⟨names, hnames, rfl⟩
    exact ⟨(metadata_below hdir names).trans ((mem_files hentries).1 hnames), names,
      ne_nil_of_mem_files hnames, rfl⟩

theorem directlyIn_file_iff
    (hdir : v.metadata (canonicalPath location) = some (.directory entries)) :
    (v.metadata p = some .file ∧ DirectlyIn (canonicalPath location) p) ↔
      ∃ name ∈ entries.ownFiles, canonicalPath location ++ [.normal name] = p := by
  have hentries : entries.Distinct :=
    distinct_of_entryAt v.distinct ((metadata_canonicalPath v location).symm.trans hdir)
  have hname : ∀ name : FileName, name ∈ entries.ownFiles ↔
      v.metadata (canonicalPath location ++ [.normal name]) = some .file := by
    intro name
    rw [mem_ownFiles hentries, ← entryAt_singleton, ← metadata_below hdir [name]]
    rfl
  constructor
  · rintro ⟨hp, name, rfl⟩
    exact ⟨name, (hname name).2 hp, rfl⟩
  · rintro ⟨name, hown, rfl⟩
    exact ⟨(hname name).1 hown, name, rfl⟩

/-- A file that is given stands for itself. -/
theorem lists_file_iff (hbase : v.metadata (canonicalPath location) = some .file) :
    h.Lists v (canonicalPath location) p ↔
      p = canonicalPath location ∧ h.matchesExtension (canonicalPath location) = true := by
  constructor
  · rintro ⟨hmatches, hp, rfl | hin⟩
    · exact ⟨rfl, hmatches⟩
    · refine absurd ?_ (not_inside_of_file hbase hp)
      split at hin
      · exact hin
      · exact hin.inside
  · rintro ⟨rfl, hmatches⟩
    exact ⟨hmatches, hbase, .inl rfl⟩

/-- A directory that is given stands for what is in it. -/
theorem lists_directory_iff
    (hbase : v.metadata (canonicalPath location) = some (.directory entries)) :
    h.Lists v (canonicalPath location) p ↔ h.matchesExtension p = true ∧ v.metadata p = some .file ∧
      if h.recursive then Inside (canonicalPath location) p
      else DirectlyIn (canonicalPath location) p := by
  refine and_congr_right fun _ => and_congr_right fun hp => or_iff_right ?_
  rintro rfl
  rw [hbase] at hp
  cases hp

/-- **An input gives the files it lists, each once.** -/
theorem exists_collectPath (hreadable : ∀ p, v.unreadable p = none)
    (hextract : h.noExtract = true) (hexists : (v.metadata (canonicalPath location)).isSome) :
    ∃ files, h.collectPath v extract (canonicalPath location) = .ok ⟨files, []⟩ ∧ files.Nodup ∧
      ∀ p, p ∈ files ↔ h.Lists v (canonicalPath location) p := by
  obtain ⟨entry, hentry⟩ := Option.isSome_iff_exists.1 hexists
  rcases entry with - | entries
  · refine ⟨[canonicalPath location].filter h.matchesExtension, ?_,
      (List.nodup_singleton _).filter _, fun p => ?_⟩
    · simp [collectPath, hentry, hextract, List.filter_cons]
    · rw [List.mem_filter, List.mem_singleton, lists_file_iff hentry]
      exact and_congr_right fun hp => by rw [hp]
  have hdistinct : entries.Distinct :=
    distinct_of_entryAt v.distinct ((metadata_canonicalPath v location).symm.trans hentry)
  by_cases hrecursive : h.recursive = true
  · refine ⟨_, by rw [collectPath, hentry]; simp [readDir_eq_ok hreadable, hrecursive,
      scanRecursive_eq hreadable]; rfl, ((nodup_files hdistinct).map ?_).filter _, fun p => ?_⟩
    · intro names names' heq
      exact List.map_injective_iff.2 (fun _ _ => Component.normal.inj) (List.append_cancel_left heq)
    · rw [List.mem_filter, List.mem_map, ← inside_file_iff hentry, lists_directory_iff hentry,
        if_pos hrecursive, and_comm]
  · refine ⟨_, by rw [collectPath, hentry]; simp [readDir_eq_ok hreadable, hrecursive,
      scanFlat_eq]; rfl, ((nodup_ownFiles hdistinct).map ?_).filter _, fun p => ?_⟩
    · intro name name' heq
      exact Component.normal.inj (List.cons.inj (List.append_cancel_left heq)).1
    · rw [List.mem_filter, List.mem_map, ← directlyIn_file_iff hentry, lists_directory_iff hentry,
        if_neg hrecursive, and_comm]

/-! ## All inputs -/

/-- What is collected is what the inputs are expanded to, one after the other. -/
theorem collectFiles_eq {expansion : Path → List Path}
    (hpaths : ∀ base ∈ h.paths, h.collectPath v extract base = .ok ⟨expansion base, []⟩) :
    h.collectFiles v extract = .ok ⟨h.paths.flatMap expansion, []⟩ := by
  have hfold : ∀ (paths : List Path) (files : List Path),
      (∀ base ∈ paths, h.collectPath v extract base = .ok ⟨expansion base, []⟩) →
        paths.foldlM (fun files base => files.extend <$> h.collectPath v extract base)
          (⟨files, []⟩ : CollectedFiles) = .ok ⟨files ++ paths.flatMap expansion, []⟩ := by
    intro paths
    induction paths with
    | nil => intro files _; rw [List.foldlM_nil, List.flatMap_nil, List.append_nil]; rfl
    | cons base paths ih =>
      intro files hpaths
      rw [List.foldlM_cons, hpaths base List.mem_cons_self, List.flatMap_cons, ← List.append_assoc]
      exact ih (files ++ expansion base) fun base hbase =>
        hpaths base (List.mem_cons_of_mem _ hbase)
  exact hfold h.paths [] hpaths

/-- Two different inputs with a file in common overlap. -/
theorem overlap_of_lists {a b : Path} (hne : a ≠ b) (ha : h.Lists v a p) (hb : h.Lists v b p) :
    h.Overlap v a b ∨ h.Overlap v b a := by
  obtain ⟨hmatches, hp, hreaches⟩ := id ha
  obtain ⟨-, -, hreaches'⟩ := id hb
  by_cases hrecursive : h.recursive = true
  · simp only [Overlap, Reaches, if_pos hrecursive] at hreaches hreaches' ⊢
    rcases hreaches with rfl | hin
    · exact .inr ⟨hreaches'.resolve_left hne, p, ha⟩
    rcases hreaches' with rfl | hin'
    · exact .inl ⟨hin, p, hb⟩
    rcases hin.comparable hin' with heq | hin | hin
    · exact absurd heq hne
    · exact .inl ⟨hin, p, hb⟩
    · exact .inr ⟨hin, p, ha⟩
  · simp only [Overlap, Reaches, if_neg hrecursive] at hreaches hreaches' ⊢
    rcases hreaches with rfl | hin
    · exact .inr ⟨hreaches'.resolve_left hne, hmatches, hp⟩
    rcases hreaches' with rfl | hin'
    · exact .inl ⟨hin, hmatches, hp⟩
    obtain ⟨name, rfl⟩ := hin
    obtain ⟨name', heq⟩ := hin'
    exact absurd (List.append_inj_left' heq rfl) hne

/-- And inputs that overlap are different and have a file in common. -/
theorem Overlap.common {a b : Path} (hover : h.Overlap v a b) :
    a ≠ b ∧ ∃ p, h.Lists v a p ∧ h.Lists v b p := by
  unfold Overlap at hover
  split at hover
  · next hrecursive =>
    obtain ⟨hin, p, hmatches, hp, hreaches⟩ := hover
    refine ⟨hin.ne, p, ⟨hmatches, hp, .inr ?_⟩, hmatches, hp, hreaches⟩
    rw [if_pos hrecursive]
    rw [Reaches, if_pos hrecursive] at hreaches
    rcases hreaches with rfl | hin'
    · exact hin
    · exact hin.trans hin'
  · next hrecursive =>
    obtain ⟨hin, hmatches, hp⟩ := hover
    refine ⟨hin.inside.ne, b, ⟨hmatches, hp, .inr ?_⟩, hmatches, hp, .inl rfl⟩
    rw [if_neg hrecursive]
    exact hin

/-- **Inputs none of which is given twice are collected completely exactly when no two
of them overlap.** -/
theorem complete_iff (extract : Path → Except SubXError ExtractedArchive)
    (hreadable : ∀ p, v.unreadable p = none) (hextract : h.noExtract = true)
    (hpaths : ∀ base ∈ h.paths, (∃ location, base = canonicalPath location) ∧
      (v.metadata base).isSome) (hnodup : h.paths.Nodup) :
    (∃ files, h.collectFiles v extract = .ok ⟨files, []⟩ ∧ h.Complete v files) ↔
      ∀ dir ∈ h.paths, ∀ base ∈ h.paths, ¬ h.Overlap v dir base := by
  have hexpansion : ∀ base ∈ h.paths, ∃ files, h.collectPath v extract base = .ok ⟨files, []⟩ ∧
      files.Nodup ∧ ∀ p, p ∈ files ↔ h.Lists v base p := by
    intro base hbase
    obtain ⟨⟨location, rfl⟩, hexists⟩ := hpaths base hbase
    exact exists_collectPath hreadable hextract hexists
  choose! expansion hcollect hexpanded hmem using hexpansion
  have hcomplete : h.Complete v (h.paths.flatMap expansion) ↔
      h.paths.Pairwise (Function.onFun List.Disjoint expansion) := by
    have hfiles : ∀ p, p ∈ h.paths.flatMap expansion ↔ ∃ base ∈ h.paths, h.Lists v base p := by
      intro p
      rw [List.mem_flatMap]
      exact exists_congr fun base => and_congr_right fun hbase => hmem base hbase p
    rw [Complete, and_iff_left hfiles, List.nodup_flatMap, and_iff_right hexpanded]
  rw [collectFiles_eq hcollect]
  have hok : (∃ files,
      (Except.ok ⟨h.paths.flatMap expansion, []⟩ : Except SubXError CollectedFiles) =
        .ok ⟨files, []⟩ ∧ h.Complete v files) ↔ h.Complete v (h.paths.flatMap expansion) :=
    ⟨fun ⟨files, heq, hfiles⟩ => by cases heq; exact hfiles, fun hfiles => ⟨_, rfl, hfiles⟩⟩
  rw [hok, hcomplete]
  constructor
  · intro hdisjoint dir hdir base hbase hover
    obtain ⟨hne, p, hp, hp'⟩ := hover.common
    have hsymm : Std.Symm (Function.onFun List.Disjoint expansion) :=
      ⟨fun _ _ => List.disjoint_symm⟩
    exact hdisjoint.forall hdir hbase hne ((hmem dir hdir p).2 hp) ((hmem base hbase p).2 hp')
  · intro hover
    refine hnodup.pairwise_of_forall_ne fun a ha b hb hne p hpa hpb => ?_
    rcases overlap_of_lists hne ((hmem a ha p).1 hpa) ((hmem b hb p).1 hpb) with hab | hba
    · exact hover a ha b hb hab
    · exact hover b hb a ha hba

/-! ## Merged and collected -/

/-- What a handler is made with. -/
theorem fromArgs_eq_ok_iff {paths : List Path} {recursive : Bool} :
    fromArgs v.pathExists paths recursive = .ok h ↔
      (∀ base ∈ paths, (v.metadata base).isSome) ∧ h = ⟨paths, recursive, [], false⟩ := by
  have hfind : paths.find? (!v.pathExists ·) = none ↔
      ∀ base ∈ paths, (v.metadata base).isSome := by
    simp [List.find?_eq_none, Volume.pathExists, Option.isSome_iff_ne_none]
  rw [← hfind, fromArgs, validate]
  rcases paths.find? (!v.pathExists ·) with - | path
  · exact ⟨fun heq => ⟨rfl, (Except.ok.inj heq).symm⟩, fun heq => heq.2 ▸ rfl⟩
  · exact iff_of_false (fun heq => by cases heq) fun heq => by cases heq.1

/-- The handler of a command for some inputs, which leaves archives alone. -/
def forCommand (paths : List Path) (recursive : Bool) (extensions : List Text) :
    InputPathHandler :=
  (withExtensions ⟨paths, recursive, [], false⟩ extensions).withNoExtract true

/-- What is promised of the paths of a command: they are merged without repetition, in
the order they first occur in, and where all of them are absolute, exist and can be read
the files are collected completely. -/
def MergedAndCollected (v : Volume) (optionalPaths : List (Option Path))
    (multiplePaths : List Path) (stringPaths : List Text) (recursive : Bool)
    (extensions : List Text) (extract : Path → Except SubXError ExtractedArchive) : Prop :=
  let given := givenPaths optionalPaths multiplePaths stringPaths
  mergePathsFromMultipleSources optionalPaths multiplePaths stringPaths =
      (if given = [] then .error .noInputSpecified else .ok given.eraseDups) ∧
    ∀ merged handler,
      mergePathsFromMultipleSources optionalPaths multiplePaths stringPaths = .ok merged →
      fromArgs v.pathExists merged recursive = .ok handler →
      (∀ base ∈ merged, ∃ location, base = canonicalPath location) →
      (∀ p, v.unreadable p = none) →
        let handler := (handler.withExtensions extensions).withNoExtract true
        ∃ files, handler.collectFiles v extract = .ok ⟨files, []⟩ ∧ handler.Complete v files

/-- **Paths are merged and their files collected as promised exactly when none is given
twice and, where all are absolute, exist and can be read, no two overlap.** -/
theorem mergedAndCollected_iff (v : Volume) (optionalPaths : List (Option Path))
    (multiplePaths : List Path) (stringPaths : List Text) (recursive : Bool)
    (extensions : List Text) (extract : Path → Except SubXError ExtractedArchive) :
    MergedAndCollected v optionalPaths multiplePaths stringPaths recursive extensions extract ↔
      (givenPaths optionalPaths multiplePaths stringPaths).Nodup ∧
      ((∀ base ∈ givenPaths optionalPaths multiplePaths stringPaths,
          (∃ location, base = canonicalPath location) ∧ (v.metadata base).isSome) →
        (∀ p, v.unreadable p = none) →
        ∀ dir ∈ givenPaths optionalPaths multiplePaths stringPaths,
          ∀ base ∈ givenPaths optionalPaths multiplePaths stringPaths,
            ¬ (forCommand (givenPaths optionalPaths multiplePaths stringPaths) recursive
              extensions).Overlap v dir base) := by
  unfold MergedAndCollected mergePathsFromMultipleSources
  generalize givenPaths optionalPaths multiplePaths stringPaths = given
  rcases eq_or_ne given [] with rfl | hne
  · refine iff_of_true ⟨rfl, fun merged handler hmerged => by cases hmerged⟩ ⟨List.nodup_nil, ?_⟩
    exact fun _ _ dir hdir => absurd hdir List.not_mem_nil
  simp only [if_neg hne]
  have hmerged : (Except.ok given : Except SubXError (List Path)) = .ok given.eraseDups ↔
      given.Nodup := by
    rw [← eraseDups_eq_self_iff]
    exact ⟨fun heq => (Except.ok.inj heq).symm, fun heq => congrArg Except.ok heq.symm⟩
  rw [hmerged]
  refine and_congr_right fun hnodup => ?_
  constructor
  · intro hcollected hpaths hreadable
    refine (complete_iff (h := forCommand given recursive extensions) extract hreadable rfl
      hpaths hnodup).1 ?_
    exact hcollected given ⟨given, recursive, [], false⟩ rfl
      (fromArgs_eq_ok_iff.2 ⟨fun base hbase => (hpaths base hbase).2, rfl⟩)
      (fun base hbase => (hpaths base hbase).1) hreadable
  · intro hover merged handler hgiven hhandler hcanonical hreadable
    obtain rfl := Except.ok.inj hgiven
    obtain ⟨hexists, rfl⟩ := fromArgs_eq_ok_iff.1 hhandler
    have hpaths := fun base hbase => And.intro (hcanonical base hbase) (hexists base hbase)
    exact (complete_iff (h := forCommand given recursive extensions) extract hreadable rfl
      hpaths hnodup).2 (hover hpaths hreadable)

end InputPathHandler

/-- A directory with one subtitle. -/
def oneSubtitle : Volume where
  root := .directory ⟨"media".toList, by decide⟩
    (.file ⟨"movie.srt".toList, by decide⟩ .nil) .nil
  distinct := by decide
  cwd := []
  cwd_isDirectory := ⟨_, rfl⟩
  unreadable := fun _ => none

/-- The subtitle given twice is merged into two paths, and given beside its own directory it
is collected twice. -/
theorem subtitle_collected_twice :
    (¬ InputPathHandler.MergedAndCollected oneSubtitle
      [some (Path.ofText "/media/movie.srt".toList)] [Path.ofText "/media/movie.srt".toList] []
      false ["srt".toList] fun _ => .error (.other [])) ∧
    ¬ InputPathHandler.MergedAndCollected oneSubtitle [some (Path.ofText "/media".toList)]
      [Path.ofText "/media/movie.srt".toList] [] false ["srt".toList]
      fun _ => .error (.other []) := by
  constructor
  · rintro ⟨hmerged, -⟩
    revert hmerged
    decide
  · rintro ⟨-, hcollected⟩
    obtain ⟨files, hfiles, hnodup, -⟩ := hcollected
      [Path.ofText "/media".toList, Path.ofText "/media/movie.srt".toList] _ rfl rfl
      (by
        intro base hbase
        rcases List.mem_cons.1 hbase with rfl | hbase
        · exact ⟨[⟨"media".toList, by decide⟩], by decide⟩
        · obtain rfl := List.mem_singleton.1 hbase
          exact ⟨[⟨"media".toList, by decide⟩, ⟨"movie.srt".toList, by decide⟩], by decide⟩)
      fun _ => rfl
    obtain rfl : [Path.ofText "/media/movie.srt".toList, Path.ofText "/media/movie.srt".toList] =
        files := congrArg CollectedFiles.paths (Except.ok.inj hfiles)
    exact List.not_nodup_pair _ hnodup

end SubxCore
