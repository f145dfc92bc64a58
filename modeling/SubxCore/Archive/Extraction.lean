import SubxCore.Archive.Storage
import SubxCore.Common.Decimal
/-!
# Extracting an archive

The loop over the entries of an archive, as the extractors for zip, tar-gzip
and 7-zip have it: each entry of a kind that is extracted passes the limits
and the check of its name, and its content is copied to a file. The three
differ in the kinds they know, in how they check a name, and in the messages
of their errors. What the crates do is what an archive is here: the entries
they yield, or fail to, with the size the header claims and the bytes the
reader gives.
-/

namespace SubxCore

namespace Archive

open DirTree Text Decimal

/-! ## Entries -/

/-- An entry of an archive: what its header says, and what its reader gives
until it ends or fails. -/
structure Entry (κ : Type) where
  kind : κ
  name : Text
  size : UInt64
  data : Bytes
  ending : Option IoError
  deriving DecidableEq, Repr

/-- What the crate yields for an entry. -/
abbrev Item (κ : Type) := Except IoError (Entry κ)

/-- Why an extraction stops. -/
inductive Stop
  | failed (error : IoError)
  | panicked (panic : Panic)
  deriving DecidableEq, Repr

/-- A program that extracts. -/
abbrev Extraction (α : Type) := Program Storage Stop α

/-! ## The limits -/

/-- `MAX_EXPANDED_SIZE`. -/
def maxExpandedSize : UInt64 := 1024 * 1024 * 1024

/-- `MAX_ENTRY_COUNT`. -/
def maxEntryCount : ℕ := 10000

/-- `ExtractionLimits`. -/
structure ExtractionLimits where
  totalSize : UInt64
  entryCount : ℕ
  deriving DecidableEq, Repr

/-- `ExtractionLimits::new`. -/
def ExtractionLimits.new : ExtractionLimits := ⟨0, 0⟩

/-- `ExtractionLimits::check_entry`. Whether a sum that overflows panics or
wraps is a matter of how the program was built. -/
def ExtractionLimits.checkEntry (overflowChecks : Bool) (limits : ExtractionLimits)
    (uncompressedSize : UInt64) : Except Stop ExtractionLimits :=
  let entryCount := limits.entryCount + 1
  if entryCount > maxEntryCount then
    .error (.failed (.other "Archive exceeds maximum entry count (10000)".toList))
  else if overflowChecks ∧ 2 ^ 64 ≤ limits.totalSize.toNat + uncompressedSize.toNat then
    .error (.panicked .addOverflow)
  else
    let totalSize := limits.totalSize + uncompressedSize
    if totalSize > maxExpandedSize then
      .error (.failed (.other "Archive exceeds maximum expanded size (1 GiB)".toList))
    else .ok ⟨totalSize, entryCount⟩

/-! ## Names -/

/-- Whether a text ends in a separator or a `.`. -/
def namesDirectory (s : Text) : Bool :=
  match (s.splitOn '/').getLast? with
  | some piece => piece = [] ∨ piece = ['.']
  | none => true

/-- `Path::join`, with what its components do not tell. -/
def joined (dest : Path) (name : Text) : PathBuf := ⟨dest.join name, namesDirectory name⟩

/-- The target of a name, unless it is there and lies elsewhere. -/
def joinWithin (dest destCanonical : Path) (name : Text) (s : Storage) : Option PathBuf :=
  match s.canonicalize (joined dest name) with
  | none => some (joined dest name)
  | some l => if destCanonical <+: canonicalPath l then some (joined dest name) else none

/-- Whether a name is neither absolute nor has a parent directory in it. -/
def IsRelative (name : Text) : Prop := name.head? ≠ some '/' ∧ .parentDir ∉ Path.ofText name

instance : DecidablePred IsRelative := fun name =>
  inferInstanceAs (Decidable (name.head? ≠ some '/' ∧ .parentDir ∉ Path.ofText name))

/-- `validate_entry_path`. -/
def validateEntryPath (dest : Path) (name : Text) (s : Storage) : Option PathBuf :=
  if IsRelative name then joinWithin dest (s.canonicalOr dest) name s else none

/-! ## Formats -/

/-- What is done with an entry of some kind. -/
inductive Disposition
  | extract
  | makeDirectory
  | skip
  deriving DecidableEq, Repr

/-- Where an extraction fails. -/
inductive Failure
  | read (index : ℕ)
  | limit
  | parents (name : Text)
  | create (target : Path)
  | write (target : Path)

/-- What tells the extractors apart. -/
structure Format (κ : Type) where
  disposition : κ → Disposition
  /-- The name as it is joined to the destination; none when it is refused. -/
  entryPath : Text → Option Text
  /-- Where a name goes, for a destination and its canonical path at the start. -/
  target : Path → Path → Text → Storage → Option PathBuf
  target_eq : ∀ dest destCanonical name s, ∃ base,
    (base = destCanonical ∨ base = s.canonicalOr dest) ∧
      target dest destCanonical name s = (entryPath name).bind (joinWithin dest base · s)
  describe : Failure → IoError → IoError

variable {κ : Type}

/-- The state of the loop. -/
structure Loop where
  limits : ExtractionLimits
  extractedPaths : List Path
  deriving DecidableEq, Repr

/-- The directories an entry lies in. -/
def createParents (f : Format κ) (entry : Entry κ) (target : PathBuf) : Extraction Unit :=
  match target.path.parent with
  | none => pure ()
  | some parent => (createDirAll parent).mapError (.failed ∘ f.describe (.parents entry.name))

/-- The parents, the file and its content. -/
def writeEntry (f : Format κ) (entry : Entry κ) (target : PathBuf) : Extraction Unit := do
  createParents f entry target
  let l ← (createFile target).mapError (.failed ∘ f.describe (.create target.path))
  (copyInto l entry.data entry.ending).mapError (.failed ∘ f.describe (.write target.path))

/-- A directory, from the target of its entry. -/
def makeEntryDirectory : Option PathBuf → Extraction Unit
  | none => pure ()
  | some target => (createDirAll target.path).mapError .failed

/-- What `describe` makes of the error of a limit. -/
def describeLimit (f : Format κ) : Stop → Stop
  | .failed error => .failed (f.describe .limit error)
  | .panicked panic => .panicked panic

/-- The body of the loop. -/
def extractEntry (f : Format κ) (overflowChecks : Bool) (dest destCanonical : Path) (loop : Loop)
    (entry : Entry κ) : Extraction Loop :=
  match f.disposition entry.kind with
  | .skip => pure loop
  | .makeDirectory => do
    let target ← look (f.target dest destCanonical entry.name)
    makeEntryDirectory target
    pure loop
  | .extract => do
    let limits ← Program.ofExcept
      ((loop.limits.checkEntry overflowChecks entry.size).mapError (describeLimit f))
    match ← look (f.target dest destCanonical entry.name) with
    | none => pure { loop with limits }
    | some target =>
      writeEntry f entry target
      pure ⟨limits, loop.extractedPaths ++ [target.path]⟩

/-- The loop over the entries, from the `i`th on. -/
def extractEntries (f : Format κ) (overflowChecks : Bool) (dest destCanonical : Path) :
    ℕ → List (Item κ) → Loop → Extraction Loop
  | _, [], loop => pure loop
  | i, .error error :: _, _ => throw (.failed (f.describe (.read i) error))
  | i, .ok entry :: items, loop => do
    let loop ← extractEntry f overflowChecks dest destCanonical loop entry
    extractEntries f overflowChecks dest destCanonical (i + 1) items loop

/-- An extractor, once the archive is open. -/
def extract (f : Format κ) (overflowChecks : Bool) (dest : Path) (items : List (Item κ)) :
    Extraction (List Path) := do
  let destCanonical ← look (·.canonicalOr dest)
  let loop ← extractEntries f overflowChecks dest destCanonical 0 items ⟨.new, []⟩
  pure loop.extractedPaths

/-! ## The extractors -/

/-- The kinds of entries of a zip archive. -/
inductive ZipKind
  | directory
  | symlink
  | file
  deriving DecidableEq, Repr

/-- How zip archives are extracted. `enclosedName` is the crate's
`enclosed_name`. -/
def zipFormat (enclosedName : Text → Option Text) : Format ZipKind where
  disposition
    | .directory | .symlink => .skip
    | .file => .extract
  entryPath := enclosedName
  target dest destCanonical name s := (enclosedName name).bind (joinWithin dest destCanonical · s)
  target_eq _ destCanonical _ _ := ⟨destCanonical, .inl rfl, rfl⟩
  describe
    | .read i, error =>
      .other ("Failed to read zip entry ".toList ++ decimal i ++ ": ".toList ++ error.display)
    | _, error => error

/-- `extract_zip`. -/
def extractZip (enclosedName : Text → Option Text) (overflowChecks : Bool) (dest : Path)
    (items : List (Item ZipKind)) : Extraction (List Path) :=
  extract (zipFormat enclosedName) overflowChecks dest items

/-- `tar::EntryType`. -/
inductive EntryType
  | regular
  | continuous
  | directory
  | symlink
  | link
  | other
  deriving DecidableEq, Repr

/-- `validate_entry_path` is the check of the name and the join. -/
theorem validateEntryPath_eq (dest destCanonical : Path) (name : Text) (s : Storage) :
    ∃ base, (base = destCanonical ∨ base = s.canonicalOr dest) ∧
      validateEntryPath dest name s =
        (if IsRelative name then some name else none).bind (joinWithin dest base · s) := by
  refine ⟨s.canonicalOr dest, .inr rfl, ?_⟩
  unfold validateEntryPath
  split
  · rfl
  · rfl

/-- How tar-gzip archives are extracted. -/
def tarGzFormat (archive : Path) : Format EntryType where
  disposition
    | .regular | .continuous => .extract
    | .directory => .makeDirectory
    | .symlink | .link | .other => .skip
  entryPath name := if IsRelative name then some name else none
  target dest _ := validateEntryPath dest
  target_eq := validateEntryPath_eq
  describe
    | .read _, error =>
      .other ("Failed to read tar entry in ".toList ++ archive.display ++ ": ".toList ++
        error.display)
    | _, error => error

/-- `extract_tar_gz`. -/
def extractTarGz (archive : Path) (overflowChecks : Bool) (dest : Path)
    (items : List (Item EntryType)) : Extraction (List Path) :=
  extract (tarGzFormat archive) overflowChecks dest items

/-- What a 7-Zip header says of the kind of an entry. -/
structure SevenZipKind where
  isDirectory : Bool
  isAntiItem : Bool
  hasWindowsAttributes : Bool
  windowsAttributes : UInt32
  deriving DecidableEq, Repr

/-- How 7-Zip archives are extracted. `otherDisplay` is how the crate displays
an error of another kind. -/
def sevenZipFormat (otherDisplay : Text → Text) (archive : Path) : Format SevenZipKind where
  disposition kind :=
    if kind.isDirectory ∨ kind.isAntiItem then .skip
    -- a reparse point
    else if kind.hasWindowsAttributes ∧ kind.windowsAttributes &&& 0x0400 ≠ 0 then .skip
    else .extract
  entryPath name := if IsRelative name then some name else none
  target dest _ := validateEntryPath dest
  target_eq := validateEntryPath_eq
  describe
    | .read _, error => error
    | .limit, error =>
      .other ("Failed to extract 7z archive ".toList ++ archive.display ++ ": ".toList ++
        otherDisplay error.display)
    | .parents name, error =>
      .other ("creating parent dir for ".toList ++ name ++ ": ".toList ++ error.display)
    | .create target, error =>
      .other ("creating ".toList ++ target.display ++ ": ".toList ++ error.display)
    | .write target, error =>
      .other ("writing ".toList ++ target.display ++ ": ".toList ++ error.display)

/-- `extract_7z`. -/
def extract7z (otherDisplay : Text → Text) (archive : Path) (overflowChecks : Bool) (dest : Path)
    (items : List (Item SevenZipKind)) : Extraction (List Path) :=
  extract (sevenZipFormat otherDisplay archive) overflowChecks dest items

end Archive

end SubxCore
