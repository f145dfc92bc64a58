import SubxCore.Archive.Storage
import SubxCore.Common.Listing
import SubxCore.Error
/-!
# Input paths

`InputPathHandler`: the paths of a command merged from the places they are given
in, checked, and expanded to the files with one of the wanted extensions. The
volume has no symbolic links, and a directory of it may be unreadable. What an
archive gives when it is extracted is a parameter.
-/

namespace SubxCore

open Text DirTree
open Archive (Location steps)
open Listing (entryAt)

/-! ## The volume -/

/-- The files a command can be given. -/
structure Volume where
  root : Listing FileName
  distinct : root.Distinct
  cwd : Location
  cwd_isDirectory : ∃ inner, root.entryAt cwd = some (.directory inner)
  /-- The error that reading a directory ends with. -/
  unreadable : Path → Option Text

/-- An entry as a node of a tree. -/
def entryNode : Listing.Entry FileName → Node Unit
  | .file => .file ()
  | .directory _ => .directory

namespace Volume

/-- The volume as a tree. -/
def tree (v : Volume) : Tree FileName Unit := fun l => (v.root.entryAt l).map entryNode

/-- `fs::metadata`. -/
def metadata (v : Volume) (p : Path) : Option (Listing.Entry FileName) :=
  (walk v.tree v.cwd (steps p)).bind (entryAt · v.root)

/-- `Path::exists`. -/
def pathExists (v : Volume) (p : Path) : Bool := (v.metadata p).isSome

/-- The start of `fs::read_dir`. -/
def readDir (v : Volume) (dir : Path) : Except SubXError Unit :=
  match v.unreadable dir with
  | none => .ok ()
  | some source => .error (.directoryReadError dir.display source)

end Volume

/-! ## Archives -/

/-- `ArchiveFormat`. -/
inductive ArchiveFormat
  | zip | rar | sevenZip | tarGz
  deriving DecidableEq, Repr

/-- `archive::detect_format`. -/
def Archive.detectFormat (path : Path) : Option ArchiveFormat :=
  if ∃ name ∈ path.fileName, ".tar.gz".toList <:+ name.text.map Char.toLower then some .tarGz
  else
    path.extension.bind fun ext =>
      match ext.map Char.toLower with
      | ['z', 'i', 'p'] => some .zip
      | ['r', 'a', 'r'] => some .rar
      | ['7', 'z'] => some .sevenZip
      | ['t', 'g', 'z'] => some .tarGz
      | _ => none

/-- An archive extracted: the temporary directory and the paths of the files. -/
structure ExtractedArchive where
  tempRoot : Path
  extracted : List Path

/-! ## The handler -/

/-- `InputPathHandler`. -/
structure InputPathHandler where
  paths : List Path
  recursive : Bool
  fileExtensions : List Text
  noExtract : Bool
  deriving DecidableEq, Repr

/-- `CollectedFiles`. -/
structure CollectedFiles where
  paths : List Path
  archiveOrigins : List (Path × Path)
  deriving DecidableEq, Repr

/-- The files collected so far, and some more. -/
def CollectedFiles.extend (c c' : CollectedFiles) : CollectedFiles where
  paths := c.paths ++ c'.paths
  archiveOrigins := c.archiveOrigins ++ c'.archiveOrigins

namespace InputPathHandler

/-- All paths given, source by source. -/
def givenPaths (optionalPaths : List (Option Path)) (multiplePaths : List Path)
    (stringPaths : List Text) : List Path :=
  optionalPaths.reduceOption ++ multiplePaths ++ stringPaths.map Path.ofText

/-- `InputPathHandler::merge_paths_from_multiple_sources`. -/
def mergePathsFromMultipleSources (optionalPaths : List (Option Path)) (multiplePaths : List Path)
    (stringPaths : List Text) : Except SubXError (List Path) :=
  let allPaths := givenPaths optionalPaths multiplePaths stringPaths
  if allPaths = [] then .error .noInputSpecified else .ok allPaths

/-- `InputPathHandler::validate`, where some paths exist. -/
def validate (pathExists : Path → Bool) (h : InputPathHandler) : Except SubXError Unit :=
  match h.paths.find? (!pathExists ·) with
  | some path => .error (.pathNotFound path.display)
  | none => .ok ()

/-- `InputPathHandler::from_args`. -/
def fromArgs (pathExists : Path → Bool) (inputArgs : List Path) (recursive : Bool) :
    Except SubXError InputPathHandler := do
  let handler : InputPathHandler := ⟨inputArgs, recursive, [], false⟩
  handler.validate pathExists
  return handler

/-- `InputPathHandler::with_extensions`. -/
def withExtensions (h : InputPathHandler) (extensions : List Text) : InputPathHandler :=
  { h with fileExtensions := extensions.map toLowercase }

/-- `InputPathHandler::with_no_extract`. -/
def withNoExtract (h : InputPathHandler) (noExtract : Bool) : InputPathHandler :=
  { h with noExtract := noExtract }

/-- `InputPathHandler::matches_extension`. -/
def matchesExtension (h : InputPathHandler) (path : Path) : Bool :=
  h.fileExtensions.isEmpty ||
    path.extension.any fun s => h.fileExtensions.any (eqIgnoreAsciiCase · s)

variable (v : Volume)

/-- The files of the entries of a directory, as `scan_directory_flat` goes
through them. -/
def scanFlat (h : InputPathHandler) (dir : Path) : Listing FileName → List Path
  | .nil => []
  | .file name rest =>
    if h.matchesExtension (dir.join name.text) then dir.join name.text :: h.scanFlat dir rest
    else h.scanFlat dir rest
  | .directory _ _ rest => h.scanFlat dir rest

/-- And as `scan_directory_recursive` does, which reads each directory it comes to. -/
def scanRecursive (h : InputPathHandler) (dir : Path) :
    Listing FileName → Except SubXError (List Path)
  | .nil => .ok []
  | .file name rest => do
    let result ← h.scanRecursive dir rest
    return if h.matchesExtension (dir.join name.text) then dir.join name.text :: result else result
  | .directory name inner rest => do
    v.readDir (dir.join name.text)
    let below ← h.scanRecursive (dir.join name.text) inner
    let result ← h.scanRecursive dir rest
    return below ++ result

/-- What an input path is expanded to. An archive that cannot be extracted is
skipped with a warning. -/
def collectPath (h : InputPathHandler) (extract : Path → Except SubXError ExtractedArchive)
    (base : Path) : Except SubXError CollectedFiles :=
  match v.metadata base with
  | some .file =>
    if h.noExtract = false ∧ (Archive.detectFormat base).isSome then
      match extract base with
      | .ok archive =>
        .ok ⟨archive.extracted.filter h.matchesExtension, [(archive.tempRoot, base)]⟩
      | .error _ => .ok ⟨[], []⟩
    else .ok ⟨if h.matchesExtension base then [base] else [], []⟩
  | some (.directory entries) => do
    v.readDir base
    let files ←
      if h.recursive then h.scanRecursive v base entries else .ok (h.scanFlat base entries)
    return ⟨files, []⟩
  | none => .error (.invalidPath base.display)

/-- `InputPathHandler::collect_files`. -/
def collectFiles (h : InputPathHandler) (extract : Path → Except SubXError ExtractedArchive) :
    Except SubXError CollectedFiles :=
  h.paths.foldlM (fun files base => files.extend <$> h.collectPath v extract base) ⟨[], []⟩

end InputPathHandler

end SubxCore
