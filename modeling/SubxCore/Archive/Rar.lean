import SubxCore.Archive.Limits
import Mathlib.Algebra.Order.BigOperators.Group.List
/-!
# Extracting RAR archives

`extract_rar` goes through an archive twice. The first pass counts every file and
checks its name, and writes nothing; the second one reads the archive again and
writes the files whose names the first has let through. Nothing says that the
archive is still the same, so the second pass is one over entries of its own here:
whatever it yields, it keeps to the destination, since it is by name that entries are
let through. What it writes is bounded by the limits only where the archive has not
changed.

What `extract_to` does with an entry is the crate's affair. All that is relied on is
that a plain file is written where it is told to and nowhere else; an entry of which
that cannot be said, such as a link, is one the results say nothing about.
-/

namespace SubxCore

namespace Archive

open DirTree Text Program

/-- An entry of a RAR archive, with what is packed in it and the error that skipping it
ends with. -/
structure RarEntry where
  filename : Text
  isDirectory : Bool
  unpackedSize : UInt64
  data : Bytes
  skipping : Option IoError
  deriving DecidableEq, Repr

/-- What a pass yields. -/
abbrev RarItem := Except IoError RarEntry

/-- The name is one that was let through; paths are compared by their components. -/
def IsListed (entriesToExtract : List Text) (filename : Text) : Prop :=
  ∃ name ∈ entriesToExtract, Path.ofText name = Path.ofText filename

instance (entriesToExtract : List Text) (filename : Text) :
    Decidable (IsListed entriesToExtract filename) :=
  inferInstanceAs (Decidable (∃ name ∈ entriesToExtract, Path.ofText name = Path.ofText filename))

/-- The error of a pass. -/
def rarError (text : Text) (error : IoError) : Stop := .failed (.other (text ++ error.display))

/-- The first pass, from an entry on. -/
def listEntries (overflowChecks : Bool) (dest : Path) :
    List RarItem → ExtractionLimits → List Text → Extraction (List Text)
  | [], _, entriesToExtract => pure entriesToExtract
  | .error error :: _, _, _ => throw (rarError "Failed to read rar entry: ".toList error)
  | .ok entry :: items, limits, entriesToExtract =>
    if entry.isDirectory then listEntries overflowChecks dest items limits entriesToExtract
    else do
      let limits ← Program.ofExcept (limits.checkEntry overflowChecks entry.unpackedSize)
      match ← look (validateEntryPath dest entry.filename) with
      | none => listEntries overflowChecks dest items limits entriesToExtract
      | some _ =>
        listEntries overflowChecks dest items limits (entriesToExtract ++ [entry.filename])

/-- What `extract_to` of the crate does for an entry and the path it is given. -/
abbrev ExtractTo := RarEntry → PathBuf → Call Unit

/-- **An entry is extracted as a plain file**: what is packed in it is written to the path
that is given, or some directories on the way and the beginning of it when that fails,
and nothing else is touched. -/
def WritesFile (extractTo : ExtractTo) (entry : RarEntry) : Prop :=
  ∀ target s, Triple (· = s) (extractTo entry target)
    (fun _ s' => Written s target.path entry.data s')
    fun _ s' => MadeDirectories s target.path s' ∨
      ∃ n, Written s target.path (entry.data.take n) s'

/-- The directories a file lies in. -/
def createRarParents (target : PathBuf) : Extraction Unit :=
  match target.path.parent with
  | none => pure ()
  | some parent => (createDirAll parent).mapError .failed

/-- A file of the second pass. -/
def writeRarEntry (extractTo : ExtractTo) (target : PathBuf) (entry : RarEntry) :
    Extraction Unit := do
  createRarParents target
  (extractTo entry target).mapError
    (rarError ("Failed to extract rar entry ".toList ++ entry.filename ++ ": ".toList))

/-- The second pass, from an entry on. -/
def processEntries (extractTo : ExtractTo) (dest : Path) (entriesToExtract : List Text) :
    List RarItem → List Path → Extraction (List Path)
  | [], extractedPaths => pure extractedPaths
  | .error error :: _, _ => throw (rarError "Failed to read rar header: ".toList error)
  | .ok entry :: items, extractedPaths =>
    if entry.isDirectory ∨ ¬ IsListed entriesToExtract entry.filename then
      match entry.skipping with
      | some error => throw (rarError "Failed to skip rar entry: ".toList error)
      | none => processEntries extractTo dest entriesToExtract items extractedPaths
    else do
      writeRarEntry extractTo (joined dest entry.filename) entry
      processEntries extractTo dest entriesToExtract items
        (extractedPaths ++ [dest.join entry.filename])

/-- An archive opened for a pass. -/
def opened {α : Type} (text : Text) (archive : Path) (items : Except IoError α) : Extraction α :=
  Program.ofExcept (items.mapError (rarError (text ++ archive.display ++ ": ".toList)))

/-- The first pass. -/
def listRar (overflowChecks : Bool) (archive dest : Path) (listing : Except IoError (List RarItem)) :
    Extraction (List Text) := do
  let items ← opened "Failed to open rar archive ".toList archive listing
  listEntries overflowChecks dest items .new []

/-- `extract_rar`, of an archive as it is for either pass. -/
def extractRar (extractTo : ExtractTo) (overflowChecks : Bool) (archive dest : Path)
    (listing processing : Except IoError (List RarItem)) : Extraction (List Path) := do
  let entriesToExtract ← listRar overflowChecks archive dest listing
  let items ← opened "Failed to open rar archive for extraction ".toList archive processing
  processEntries extractTo dest entriesToExtract items []

variable {extractTo : ExtractTo} {dest archive : Path} {root : Location} {s s' : Storage}
variable {overflowChecks : Bool} {items : List RarItem} {entry : RarEntry} {names : List Text} {name : Text}
variable {listing processing : Except IoError (List RarItem)} {tree : Tree FileName Bytes}

/-! ## The first pass -/

/-- An entry that is a file. -/
def rarFile : RarItem → Option RarEntry
  | .ok entry => if entry.isDirectory then none else some entry
  | .error _ => none

/-- The files of an archive, as the first pass counts them. -/
def rarFiles (items : List RarItem) : List RarEntry := items.filterMap rarFile

theorem rarFiles_cons_of_directory (h : entry.isDirectory = true) :
    rarFiles (.ok entry :: items) = rarFiles items := by
  have hfile : rarFile (.ok entry) = none := if_pos h
  exact List.filterMap_cons_none hfile

theorem rarFiles_cons_of_file (h : entry.isDirectory = false) :
    rarFiles (.ok entry :: items) = entry :: rarFiles items := by
  have hfile : rarFile (.ok entry) = some entry := by
    rw [rarFile, h]
    rfl
  exact List.filterMap_cons_some hfile

/-- The exact sum of the sizes that are claimed. -/
def claimedSizes (items : List RarItem) : ℕ :=
  ((rarFiles items).map fun entry => entry.unpackedSize.toNat).sum

/-- The sums are exact: they are checked, or do not get too large for the type. -/
def SumsExactly (overflowChecks : Bool) (total : ℕ) (items : List RarItem) : Prop :=
  overflowChecks = true ∨ total + claimedSizes items < 2 ^ 64

/-- What an entry and the entries after it come to, from what the rest comes to once it
is counted. -/
theorem within_of_rest {limits limits' : ExtractionLimits} (hfile : entry.isDirectory = false)
    (hlimits : limits.checkEntry overflowChecks entry.unpackedSize = .ok limits')
    (hcount : limits'.entryCount + (rarFiles items).length ≤ maxEntryCount)
    (hsize : SumsExactly overflowChecks limits'.totalSize.toNat items →
      limits'.totalSize.toNat + claimedSizes items ≤ maxExpandedSize.toNat) :
    limits.entryCount + (rarFiles (.ok entry :: items)).length ≤ maxEntryCount ∧
      (SumsExactly overflowChecks limits.totalSize.toNat (.ok entry :: items) →
        limits.totalSize.toNat + claimedSizes (.ok entry :: items) ≤ maxExpandedSize.toNat) := by
  obtain ⟨rfl, -, -, hchecked⟩ := checkEntry_eq_ok hlimits
  have hfiles : rarFiles (.ok entry :: items) = entry :: rarFiles items :=
    rarFiles_cons_of_file hfile
  have hclaimed : claimedSizes (.ok entry :: items) =
      entry.unpackedSize.toNat + claimedSizes items := by
    rw [claimedSizes, hfiles, List.map_cons, List.sum_cons]
    rfl
  dsimp only at hcount hsize
  refine ⟨?_, fun hexact => ?_⟩
  · rw [hfiles, List.length_cons]
    omega
  · rw [SumsExactly, hclaimed] at hexact
    have hsum : limits.totalSize.toNat + entry.unpackedSize.toNat < 2 ^ 64 :=
      hexact.elim hchecked fun hsmall => by omega
    have hadd : (limits.totalSize + entry.unpackedSize).toNat =
        limits.totalSize.toNat + entry.unpackedSize.toNat := by
      rw [UInt64.toNat_add, Nat.mod_eq_of_lt hsum]
    rw [hadd] at hsize
    have hrest := hsize (hexact.imp_right fun hsmall => by omega)
    rw [hclaimed]
    omega

/-- **What the first pass finds**: names that lead below the destination, of no more
files, and with no larger claims, than are allowed. The storage is only looked at. -/
theorem triple_listEntries (s : Storage) : ∀ (items : List RarItem) (limits : ExtractionLimits)
    (names : List Text), (∀ name ∈ names, IsRelative name) →
    limits.entryCount ≤ maxEntryCount → limits.totalSize ≤ maxExpandedSize →
    Triple (· = s) (listEntries overflowChecks dest items limits names)
      (fun names' s' => s' = s ∧ (∀ name ∈ names', IsRelative name) ∧
        limits.entryCount + (rarFiles items).length ≤ maxEntryCount ∧
        (SumsExactly overflowChecks limits.totalSize.toNat items →
          limits.totalSize.toNat + claimedSizes items ≤ maxExpandedSize.toNat))
      fun _ s' => s' = s
  | [], limits, names, hnames, hcount, htotal =>
    .pure fun s' hs => ⟨hs, hnames, hcount, fun _ => UInt64.le_iff_toNat_le.1 htotal⟩
  | .error error :: items, limits, names, hnames, hcount, htotal => .throw fun s' hs => hs
  | .ok entry :: items, limits, names, hnames, hcount, htotal => by
    rw [listEntries]
    split
    · next hdirectory =>
      rw [SumsExactly, claimedSizes, rarFiles_cons_of_directory hdirectory]
      exact triple_listEntries s items limits names hnames hcount htotal
    · next hfile =>
      refine .bind (Q := fun limits' s' => s' = s ∧
        limits.checkEntry overflowChecks entry.unpackedSize = .ok limits') ?_ fun limits' => .each ?_
      · exact .ofExcept (fun limits' s' hok hs => ⟨hs, hok⟩) fun _ s' _ hs => hs
      rintro s' ⟨rfl, hlimits⟩
      obtain ⟨rfl, hcount', htotal', -⟩ := checkEntry_eq_ok hlimits
      -- what the rest of the pass finds, said of the pass from here
      have hrest : ∀ names', (∀ name ∈ names', IsRelative name) →
          Triple (· = s') (listEntries overflowChecks dest items
              ⟨limits.totalSize + entry.unpackedSize, limits.entryCount + 1⟩ names')
            (fun names'' s'' => s'' = s' ∧ (∀ name ∈ names'', IsRelative name) ∧
              limits.entryCount + (rarFiles (.ok entry :: items)).length ≤ maxEntryCount ∧
              (SumsExactly overflowChecks limits.totalSize.toNat (.ok entry :: items) →
                limits.totalSize.toNat + claimedSizes (.ok entry :: items) ≤
                  maxExpandedSize.toNat))
            fun _ s'' => s'' = s' := by
        intro names' hnames'
        refine (triple_listEntries s' items _ names' hnames' hcount' htotal').weaken
          (fun _ h => h) ?_ fun _ _ h => h
        rintro names'' s'' ⟨hs'', hrelative, hcounted, hsized⟩
        exact ⟨hs'', hrelative,
          within_of_rest (Bool.eq_false_iff.2 hfile) hlimits hcounted hsized⟩
      refine .bind triple_look fun target => .each ?_
      rintro s'' ⟨htarget, rfl⟩
      cases target with
      | none => exact hrest names hnames
      | some target =>
        refine hrest _ fun name hname => ?_
        rcases List.mem_append.1 hname with hname | hname
        · exact hnames name hname
        · rw [List.mem_singleton.1 hname]
          unfold validateEntryPath at htarget
          split at htarget
          · next hrelative => exact hrelative
          · cases htarget

/-! ## The second pass -/

theorem triple_createRarParents (target : PathBuf) (s : Storage) :
    Triple (· = s) (createRarParents target) (fun _ s' => MadeDirectories s target.path s')
      fun _ s' => MadeDirectories s target.path s' := by
  unfold createRarParents
  split
  · exact .pure fun s' hs => hs ▸ .refl s' _
  · next parent hparent =>
    have hmore : ∀ {s'}, MadeDirectories s parent s' → MadeDirectories s target.path s' :=
      fun ⟨ls, hls, hs'⟩ => ⟨ls, missing_of_parent hparent hls, hs'⟩
    exact .mapError ((triple_createDirAll s parent).weaken (fun _ h => h) (fun _ _ h => hmore h)
      fun _ _ h => hmore h)

/-- The content that the files of an archive give. -/
def contentOf (items : List RarItem) : ℕ := ((rarFiles items).map fun entry => entry.data.length).sum

/-- What is written stays below the destination, and within the files and the content
that are still to come. -/
structure Bounded (dest : Path) (root : Location) (tree : Tree FileName Bytes) (files content : ℕ)
    (items : List RarItem) (s : Storage) : Prop where
  confined : Confined dest root tree s
  files : filesCreated s + (rarFiles items).length ≤ files
  content : contentWritten s + contentOf items ≤ content

variable {files content : ℕ}

/-- An item that writes nothing. -/
theorem Bounded.skip (h : Bounded dest root tree files content (.ok entry :: items) s) :
    Bounded dest root tree files content items s := by
  obtain ⟨hconfined, hfiles, hcontent⟩ := h
  rw [contentOf] at hcontent
  cases hdirectory : entry.isDirectory with
  | true =>
    rw [rarFiles_cons_of_directory hdirectory] at hfiles hcontent
    exact ⟨hconfined, hfiles, hcontent⟩
  | false =>
    rw [rarFiles_cons_of_file hdirectory] at hfiles hcontent
    rw [List.length_cons] at hfiles
    rw [List.map_cons, List.sum_cons] at hcontent
    exact ⟨hconfined, by omega, by rw [contentOf]; omega⟩

/-- A file that is written, or the beginning of one. -/
theorem Bounded.written {rest : Path} {bytes : Bytes}
    (h : Bounded dest root tree files content (.ok entry :: items) s)
    (hfile : entry.isDirectory = false) (hrest : (descend [] (steps rest)).isSome)
    (hbytes : bytes.length ≤ entry.data.length) (hs' : Written s (dest ++ rest) bytes s') :
    Bounded dest root tree files content items s' := by
  obtain ⟨hconfined, hfiles, hcontent⟩ := h
  rw [contentOf, rarFiles_cons_of_file hfile] at hcontent
  rw [rarFiles_cons_of_file hfile, List.length_cons] at hfiles
  rw [List.map_cons, List.sum_cons] at hcontent
  refine ⟨hconfined.written hrest hs', ?_, ?_⟩
  · rw [hs'.filesCreated]
    omega
  · rw [hs'.contentWritten, contentOf]
    omega

/-- Directories that are made. -/
theorem Bounded.made {rest : Path} (h : Bounded dest root tree files content items s)
    (hrest : (descend [] (steps rest)).isSome) (hs' : MadeDirectories s (dest ++ rest) s') :
    Bounded dest root tree files content items s' :=
  ⟨h.confined.made hrest hs', hs'.filesCreated ▸ h.files, hs'.contentWritten ▸ h.content⟩

/-- A name with the components of a relative one is relative. -/
theorem isRelative_of_isListed (hnames : ∀ name ∈ names, IsRelative name)
    (h : IsListed names name) : IsRelative name := by
  obtain ⟨listed, hmem, heq⟩ := h
  obtain ⟨hroot, hparent⟩ := hnames listed hmem
  have hhead : ∀ name : Text, (name.head? = some '/' ↔ Component.rootDir ∈ Path.ofText name) := by
    intro name
    unfold Path.ofText
    by_cases hslash : name.head? = some '/'
    · simp [hslash]
    · refine iff_of_false hslash fun hmem => ?_
      rw [if_neg hslash] at hmem
      rcases List.mem_append.1 hmem with hmem | hmem
      · split at hmem
        · cases List.mem_singleton.1 hmem
        · cases hmem
      · exact top_notMem_pieces (List.mem_map_of_mem (f := componentStep) hmem)
  refine ⟨fun hslash => hroot ((hhead listed).2 ?_), fun hmem => hparent ?_⟩
  · rw [heq]
    exact (hhead name).1 hslash
  · rwa [heq]

/-- **A file of the second pass keeps to the destination and to what is there to be
written.** -/
theorem triple_writeRarEntry {rest : Path} {target : PathBuf}
    (hcrate : WritesFile extractTo entry) (hfile : entry.isDirectory = false)
    (hrest : (descend [] (steps rest)).isSome) (hpath : target.path = dest ++ rest) :
    Triple (Bounded dest root tree files content (.ok entry :: items))
      (writeRarEntry extractTo target entry)
      (fun _ => Bounded dest root tree files content items)
      fun _ => Bounded dest root tree files content items := by
  refine .bind (Q := fun _ => Bounded dest root tree files content (.ok entry :: items))
    (.each fun s hs => ?_) fun _ => .each fun s hs => .mapError ?_
  · have hmade : ∀ s', MadeDirectories s target.path s' →
        Bounded dest root tree files content (.ok entry :: items) s' :=
      fun s' hs' => hs.made hrest (hpath ▸ hs')
    exact (triple_createRarParents target s).weaken (fun _ h => h) (fun _ s' hs' => hmade s' hs')
      fun _ s' hs' => (hmade s' hs').skip
  · refine (hcrate target s).weaken (fun _ h => h) (fun _ s' hs' => ?_) fun _ s' hs' => ?_
    · exact hs.written hfile hrest le_rfl (hpath ▸ hs')
    · rcases hs' with hs' | ⟨n, hs'⟩
      · exact (hs.made hrest (hpath ▸ hs')).skip
      · exact hs.written hfile hrest (List.length_take_le' _ _) (hpath ▸ hs')

/-- What is listed is joined below the destination. -/
theorem join_of_isListed (dest : Path) (hnames : ∀ name ∈ names, IsRelative name)
    (h : IsListed names name) :
    ∃ rest, dest.join name = dest ++ rest ∧ (descend [] (steps rest)).isSome := by
  obtain ⟨ns, hns⟩ := Option.isSome_iff_exists.1
    (within_isSome_of_isRelative (isRelative_of_isListed hnames h))
  obtain ⟨rest, hjoin, hrest⟩ := join_of_within dest hns
  exact ⟨rest, hjoin, Option.isSome_of_eq_some hrest⟩

/-- **The second pass gives paths below the destination**, whatever the crate does. -/
theorem triple_processEntries_paths (hnames : ∀ name ∈ names, IsRelative name) :
    ∀ (items : List RarItem) (paths : List Path), (∀ p ∈ paths, dest <+: p) →
    Triple (fun _ => True) (processEntries extractTo dest names items paths)
      (fun paths' _ => ∀ p ∈ paths', dest <+: p) fun _ _ => True
  | [], paths, hpaths => .pure fun _ _ => hpaths
  | .error error :: items, paths, hpaths => .throw fun _ _ => trivial
  | .ok entry :: items, paths, hpaths => by
    rw [processEntries]
    split
    · cases entry.skipping with
      | some error => exact .throw fun _ _ => trivial
      | none => exact triple_processEntries_paths hnames items paths hpaths
    · next hlisted =>
      rw [not_or, not_not] at hlisted
      obtain ⟨rest, hjoin, -⟩ := join_of_isListed dest hnames hlisted.2
      refine .bind (Q := fun _ _ => True) (fun s _ => ?_)
        fun _ => triple_processEntries_paths hnames items _ fun p hp => ?_
      · rcases (writeRarEntry extractTo (joined dest entry.filename) entry).exec s with
          ⟨stop | ⟨⟩, s'⟩
        · trivial
        · trivial
      · rcases List.mem_append.1 hp with hp | hp
        · exact hpaths p hp
        · rw [List.mem_singleton.1 hp, hjoin]
          exact List.prefix_append dest rest

/-- **The second pass keeps to the destination and to what is there to be written**,
where the crate writes plain files. -/
theorem triple_processEntries (hnames : ∀ name ∈ names, IsRelative name) :
    ∀ (items : List RarItem) (paths : List Path),
    (∀ entry ∈ rarFiles items, WritesFile extractTo entry) →
    Triple (Bounded dest root tree files content items)
      (processEntries extractTo dest names items paths)
      (fun _ s' => Bounded dest root tree files content [] s')
      fun _ s' => Bounded dest root tree files content [] s'
  | [], paths, hcrate => .pure fun s hs => hs
  | .error error :: items, paths, hcrate =>
    .throw fun s hs => ⟨hs.confined, (Nat.le_add_right _ _).trans hs.files,
      (Nat.le_add_right _ _).trans hs.content⟩
  | .ok entry :: items, paths, hcrate => by
    have hdone : ∀ {s}, Bounded dest root tree files content items s →
        Bounded dest root tree files content [] s := fun h =>
      ⟨h.confined, (Nat.le_add_right _ _).trans h.files, (Nat.le_add_right _ _).trans h.content⟩
    have hcrate' : ∀ entry ∈ rarFiles items, WritesFile extractTo entry := by
      intro entry' hentry'
      refine hcrate entry' ?_
      cases hdirectory : entry.isDirectory with
      | true => rwa [rarFiles_cons_of_directory hdirectory]
      | false =>
        rw [rarFiles_cons_of_file hdirectory]
        exact List.mem_cons_of_mem _ hentry'
    rw [processEntries]
    split
    · cases entry.skipping with
      | some error => exact .throw fun s hs => hdone hs.skip
      | none =>
        exact (triple_processEntries hnames items paths hcrate').weaken_pre fun s hs => hs.skip
    · next hlisted =>
      rw [not_or, not_not] at hlisted
      have hfile := Bool.eq_false_iff.2 hlisted.1
      obtain ⟨rest, hjoin, hrest⟩ := join_of_isListed dest hnames hlisted.2
      have hwrites : WritesFile extractTo entry :=
        hcrate entry (by rw [rarFiles_cons_of_file hfile]; exact List.mem_cons_self ..)
      exact .bind ((triple_writeRarEntry hwrites hfile hrest hjoin).weaken_error
        fun _ _ hs => hdone hs) fun _ => triple_processEntries hnames items _ hcrate'

/-! ## The two passes -/

/-- The first pass looks at the storage only. -/
theorem exec_listRar (overflowChecks : Bool) (archive dest : Path)
    (listing : Except IoError (List RarItem)) (s : Storage) :
    (∃ stop, (listRar overflowChecks archive dest listing).exec s = (.error stop, s)) ∨
    ∃ items names, listing = .ok items ∧
      (listRar overflowChecks archive dest listing).exec s = (.ok names, s) ∧
      (∀ name ∈ names, IsRelative name) ∧ (rarFiles items).length ≤ maxEntryCount ∧
      (SumsExactly overflowChecks 0 items → claimedSizes items ≤ maxExpandedSize.toNat) := by
  cases listing with
  | error error => exact .inl ⟨_, rfl⟩
  | ok items =>
    have htriple := @triple_listEntries dest overflowChecks s items .new []
      (fun _ hname => absurd hname List.not_mem_nil) (Nat.zero_le _) UInt64.zero_le
    have hexec : (listRar overflowChecks archive dest (.ok items)).exec s =
        (listEntries overflowChecks dest items .new []).exec s := exec_bind_of_ok rfl
    rcases hrun : (listEntries overflowChecks dest items .new []).exec s with ⟨stop | names, s'⟩
    · obtain rfl := htriple.of_error rfl hrun
      exact .inl ⟨stop, hexec.trans hrun⟩
    · obtain ⟨rfl, hnames, hcount, hsize⟩ := htriple.of_ok rfl hrun
      refine .inr ⟨items, names, rfl, hexec.trans hrun, hnames, ?_, fun hexact => ?_⟩
      · exact (Nat.le_add_left _ _).trans hcount
      · exact (Nat.le_add_left _ _).trans (hsize hexact)

/-- What claims can be relied on bounds what is given. -/
theorem contentOf_le_claimedSizes
    (h : ∀ entry ∈ rarFiles items, entry.data.length ≤ entry.unpackedSize.toNat) :
    contentOf items ≤ claimedSizes items :=
  List.sum_le_sum h

/-- Nothing has been written yet. -/
theorem confined_of_ready (hready : Ready dest root s) (hstart : s.history = []) :
    Confined dest root s.tree s :=
  ⟨hready, fun _ he => absurd he (hstart ▸ List.not_mem_nil), fun _ _ => rfl⟩

/-- **How an extraction goes**: it ends before anything is written, or the first pass
lets some names through and the second one goes over the archive with them. -/
theorem exec_extractRar (extractTo : ExtractTo) (archive dest : Path) (overflowChecks : Bool)
    (listing processing : Except IoError (List RarItem)) (s : Storage) :
    (∃ stop, (extractRar extractTo overflowChecks archive dest listing processing).exec s =
      (.error stop, s)) ∨
    ∃ items items' names, listing = .ok items ∧ processing = .ok items' ∧
      (listRar overflowChecks archive dest listing).exec s = (.ok names, s) ∧
      (∀ name ∈ names, IsRelative name) ∧ (rarFiles items).length ≤ maxEntryCount ∧
      (SumsExactly overflowChecks 0 items → claimedSizes items ≤ maxExpandedSize.toNat) ∧
      (extractRar extractTo overflowChecks archive dest listing processing).exec s =
        (processEntries extractTo dest names items' []).exec s := by
  rcases exec_listRar overflowChecks archive dest listing s with ⟨stop, hrun⟩ |
    ⟨items, names, rfl, hrun, hnames, hcount, hsize⟩
  · exact .inl ⟨stop, exec_bind_of_error hrun⟩
  cases processing with
  | error error =>
    rw [extractRar, exec_bind_of_ok hrun]
    exact .inl ⟨_, rfl⟩
  | ok items' =>
    refine .inr ⟨items, items', names, rfl, rfl, hrun, hnames, hcount, hsize, ?_⟩
    rw [extractRar, exec_bind_of_ok hrun]
    exact exec_bind_of_ok rfl

/-- The files that are given are below the destination, whatever the crate does. -/
theorem paths_extractRar {paths : List Path} (archive : Path) (overflowChecks : Bool)
    (listing processing : Except IoError (List RarItem))
    (h : ((extractRar extractTo overflowChecks archive dest listing processing).exec s).1 =
      .ok paths) : ∀ p ∈ paths, dest <+: p := by
  rcases exec_extractRar extractTo archive dest overflowChecks listing processing s with
    ⟨stop, hrun⟩ | ⟨items, items', names, -, -, -, hnames, -, -, hrun⟩
  · rw [hrun] at h
    cases h
  · rw [hrun] at h
    have hnone : ∀ p ∈ ([] : List Path), dest <+: p := fun _ hp => absurd hp List.not_mem_nil
    have htriple : Triple (fun _ => True) (processEntries extractTo dest names items' []) _ _ :=
      triple_processEntries_paths hnames items' [] hnone
    rcases hrest : (processEntries extractTo dest names items' []).exec s with ⟨stop | paths', s'⟩
    · rw [hrest] at h
      cases h
    · rw [hrest] at h
      cases h
      exact htriple.of_ok trivial hrest

/-- What is done by the end, where the crate writes plain files. -/
theorem bounded_processEntries (hnames : ∀ name ∈ names, IsRelative name)
    (hready : Ready dest root s) (hstart : s.history = [])
    (hcrate : ∀ entry ∈ rarFiles items, WritesFile extractTo entry) :
    Bounded dest root s.tree (rarFiles items).length (contentOf items) []
      ((processEntries extractTo dest names items []).exec s).2 := by
  have hfiles : filesCreated s = 0 := by rw [filesCreated, hstart]; rfl
  have hcontent : contentWritten s = 0 := by rw [contentWritten, hstart]; rfl
  have hbounded : Bounded dest root s.tree (rarFiles items).length (contentOf items) items s :=
    ⟨confined_of_ready hready hstart, by rw [hfiles, Nat.zero_add], by rw [hcontent, Nat.zero_add]⟩
  have htriple : Triple (Bounded dest root s.tree (rarFiles items).length (contentOf items) items)
      _ _ _ := triple_processEntries hnames items [] hcrate
  rcases hrun : (processEntries extractTo dest names items []).exec s with ⟨stop | paths, s'⟩
  · exact htriple.of_error hbounded hrun
  · exact htriple.of_ok hbounded hrun

/-- **A RAR archive is extracted into its destination only**, whatever plain files the
second pass finds in it, and nothing is written when the first pass refuses it. Where
the archive is the same for both, no more files are written than are allowed, and no
more content if the sizes it claims are no smaller than what it gives. -/
theorem extractRar_confined (extractTo : ExtractTo) (archive : Path) (overflowChecks : Bool)
    (listing processing : Except IoError (List RarItem)) (hready : Ready dest root s)
    (hstart : s.history = [])
    (hcrate : ∀ items, processing = .ok items → ∀ entry ∈ rarFiles items,
      WritesFile extractTo entry) :
    let run := (extractRar extractTo overflowChecks archive dest listing processing).exec s
    Confined dest root s.tree run.2 ∧
    (∀ paths, run.1 = .ok paths → ∀ p ∈ paths, dest <+: p) ∧
    ((∃ stop, ((listRar overflowChecks archive dest listing).exec s).1 = .error stop) →
      run.2 = s) ∧
    (processing = listing → filesCreated run.2 ≤ maxEntryCount ∧
      ∀ items, listing = .ok items → SumsExactly overflowChecks 0 items →
        (∀ entry ∈ rarFiles items, entry.data.length ≤ entry.unpackedSize.toNat) →
        contentWritten run.2 ≤ maxExpandedSize.toNat) := by
  dsimp only
  have hpaths : ∀ paths, ((extractRar extractTo overflowChecks archive dest listing
      processing).exec s).1 = .ok paths → ∀ p ∈ paths, dest <+: p :=
    fun paths h => paths_extractRar archive overflowChecks listing processing h
  rcases exec_extractRar extractTo archive dest overflowChecks listing processing s with
    ⟨stop, hrun⟩ | ⟨items, items', names, rfl, rfl, hlist, hnames, hcount, hsize, hrun⟩
  · refine ⟨?_, hpaths, fun _ => ?_, fun _ => ⟨?_, fun _ _ _ _ => ?_⟩⟩
    · rw [hrun]
      exact confined_of_ready hready hstart
    · rw [hrun]
    · rw [hrun, filesCreated, hstart]
      exact Nat.zero_le _
    · rw [hrun, contentWritten, hstart]
      exact Nat.zero_le _
  · have hbounded := bounded_processEntries hnames hready hstart (hcrate items' rfl)
    rw [← hrun] at hbounded
    refine ⟨hbounded.confined, hpaths, fun hstop => ?_, fun heq => ?_⟩
    · obtain ⟨stop, hstop⟩ := hstop
      rw [hlist] at hstop
      cases hstop
    cases heq
    refine ⟨(Nat.le_add_right _ _).trans (hbounded.files.trans hcount),
      fun items' heq hexact hreliable => ?_⟩
    cases heq
    exact (Nat.le_add_right _ _).trans (hbounded.content.trans
      ((contentOf_le_claimedSizes hreliable).trans (hsize hexact)))

/-- A file of a RAR archive that skipping succeeds for. -/
def rarSample (filename : Text) (data : Bytes) : RarItem :=
  .ok ⟨filename, false, 1, data, none⟩

/-- A crate that creates each file and writes it. -/
def sampleExtractTo : ExtractTo := fun entry target => do
  let l ← createFile target
  copyInto l entry.data none

theorem sampleExtractTo_writesFile (entry : RarEntry) : WritesFile sampleExtractTo entry := by
  intro target s
  refine .bind ((triple_createFile s target).weaken_error ?_) fun l => .each ?_
  · intro _ s' hs'
    exact .inl ⟨[], missing_nil, hs'⟩
  · rintro s₁ ⟨hwalk, hnot, hs₁⟩
    have hwritten : ∀ {bytes s'}, Evolves s₁ [.wrote l bytes] s' →
        Written s target.path bytes s' :=
      fun hs' => ⟨[], l, missing_nil, hwalk, hnot, hs₁.trans hs'⟩
    exact (triple_copyInto s₁ l _ _).weaken (fun _ h => h) (fun _ _ h => hwritten h)
      fun _ _ ⟨n, h⟩ => .inr ⟨n, hwritten h⟩

/-- An archive that has changed between the two passes. -/
theorem extractRar_confined_changed :
    Confined (canonicalPath [sampleDir]) [sampleDir] sampleStorage.tree
      ((extractRar sampleExtractTo false [] (canonicalPath [sampleDir])
        (.ok [rarSample ['a'] [0]])
        (.ok [rarSample ['/', 'x'] [0], rarSample ['a'] [0, 1]])).exec sampleStorage).2 :=
  (extractRar_confined sampleExtractTo [] false _ _ ⟨rfl, rfl⟩ rfl
    fun _ _ entry _ => sampleExtractTo_writesFile entry).1

end Archive

end SubxCore
