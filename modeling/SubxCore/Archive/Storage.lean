import SubxCore.Common.Tree
import SubxCore.Common.Triple
import SubxCore.Matcher.Disk
/-!
# The storage an archive is extracted to

A tree of directories and files without links, the working directory that
relative paths start from, and the system calls of the extractors. Any call
can fail for reasons of its own; which ones do is part of the storage. Every
directory made, file created or truncated and piece of content written is
kept in the history, and what is where is what the history has left.
-/

namespace SubxCore

namespace Archive

open DirTree Function

/-! ## Locations and effects -/

/-- Where something lies. -/
abbrev Location := List FileName

/-- The step a component of a path stands for. -/
def componentStep : Component → Step FileName
  | .rootDir => .top
  | .curDir => .stay
  | .parentDir => .up
  | .normal name => .down name

/-- The steps of a path. -/
def steps (p : Path) : List (Step FileName) := p.map componentStep

/-- The canonical path of a location. -/
def canonicalPath (l : Location) : Path := .rootDir :: l.map .normal

/-- A path with what its components do not tell: whether its text ends in a
separator or a `.`, as the path of a directory may. -/
structure PathBuf where
  path : Path
  namesDirectory : Bool
  deriving DecidableEq, Repr

/-- Something done to the storage. -/
inductive Effect
  | madeDirectory (location : Location)
  | createdFile (location : Location)
  | wrote (location : Location) (bytes : Bytes)
  deriving DecidableEq, Repr

/-- Where it was done. -/
def Effect.location : Effect → Location
  | .madeDirectory l | .createdFile l | .wrote l _ => l

/-- What it left there. -/
def Effect.node : Effect → Node Bytes
  | .madeDirectory _ => .directory
  | .createdFile _ => .file []
  | .wrote _ bytes => .file bytes

/-- How much content it wrote. -/
def Effect.size : Effect → ℕ
  | .wrote _ bytes => bytes.length
  | _ => 0

/-- Whether it created a file. -/
def Effect.isCreation : Effect → Bool
  | .createdFile _ => true
  | _ => false

/-- The storage. -/
structure Storage where
  tree : Tree FileName Bytes
  cwd : Location
  faults : ℕ → Option Fault
  history : List Effect

/-- The storage after a call that had an effect, or none. -/
def Storage.after (s : Storage) : Option Effect → Storage
  | none => { s with faults := fun n => s.faults (n + 1) }
  | some effect =>
    { s with
      tree := update s.tree effect.location (some effect.node)
      faults := fun n => s.faults (n + 1)
      history := s.history ++ [effect] }

/-! ## The calls -/

/-- A program on the storage. -/
abbrev Call (α : Type) := Program Storage IoError α

/-- `ENOTDIR`. -/
def notADirectory : IoError := .other "Not a directory (os error 20)".toList

/-- `EISDIR`. -/
def isADirectory : IoError := .other "Is a directory (os error 21)".toList

/-- A call: it fails for reasons of its own, or acts. -/
def call {α : Type} (broken : Fault → Option Effect)
    (act : Storage → Except IoError α × Option Effect) : Call α :=
  Program.step fun s =>
    match s.faults 0 with
    | some fault => (.error (.other fault.message), s.after (broken fault))
    | none => ((act s).1, s.after (act s).2)

/-- A look at the storage. -/
def look {ε α : Type} (f : Storage → α) : Program Storage ε α :=
  Program.step fun s => (.ok (f s), s)

/-- `mkdir`, where the parent is a directory. -/
def makeDirectory (l : Location) : Call Unit :=
  call (fun _ => none) fun s =>
    match s.tree l with
    | some _ => (.error .alreadyExists, none)
    | none => (.ok (), some (.madeDirectory l))

/-- A directory, made where it is missing. -/
def ensureDirectory (inTheWay : IoError) (l : Location) : Call Unit := do
  match ← look (·.tree l) with
  | some .directory => pure ()
  | some (.file _) => throw inTheWay
  | none => makeDirectory l

/-- The directories that steps lead through, from the first one on. -/
def makeDirectories : Location → List (Step FileName) → Call Unit
  | _, [] => pure ()
  | here, step :: rest => do
    ensureDirectory (if rest = [] then .alreadyExists else notADirectory) (step.lead here)
    makeDirectories (step.lead here) rest

/-- `create_dir_all`. -/
def createDirAll (p : Path) : Call Unit := do
  let cwd ← look (·.cwd)
  makeDirectories cwd (steps p)

/-- `File::create`, which truncates, and where the file is. -/
def createFile (p : PathBuf) : Call Location :=
  call (fun _ => none) fun s =>
    match walk s.tree s.cwd (steps p.path) with
    | none => (.error .notFound, none)
    | some l =>
      match s.tree l with
      | some .directory => (.error isADirectory, none)
      | _ =>
        if p.namesDirectory then (.error isADirectory, none)
        else (.ok l, some (.createdFile l))

/-- `io::copy` into the file just created: what the reader gives, until it
ends or fails. -/
def copyInto (l : Location) (data : Bytes) (ending : Option IoError) : Call Unit :=
  call (fun fault => some (.wrote l (data.take fault.written))) fun _ =>
    (match ending with
      | none => .ok ()
      | some error => .error error,
    some (.wrote l data))

/-- `Path::canonicalize`. -/
def Storage.canonicalize (s : Storage) (p : PathBuf) : Option Location :=
  (walk s.tree s.cwd (steps p.path)).filter fun l =>
    match s.tree l with
    | none => false
    | some .directory => true
    | some (.file _) => !p.namesDirectory

/-- The canonical path of a directory, or the path itself. -/
def Storage.canonicalOr (s : Storage) (p : Path) : Path :=
  (s.canonicalize ⟨p, false⟩).elim p canonicalPath

end Archive

end SubxCore
