import SubxCore.Archive.Storage
import SubxCore.Common.LinkTree
/-!
# Storage with symbolic links

A volume with directories, files and links, and the system calls of the file tasks on
it: creating a file exclusively stops at a link, creating or opening one follows it,
renaming and removing take the link itself. Any call can fail for reasons of its own;
which ones do is part of the storage. Each write is kept with the entry that its path
names and the file that it reached, which are two when the entry is a link. Asking
whether something exists is exact.
-/

namespace SubxCore

namespace Links

open LinkTree Function
open Archive (Location steps canonicalPath notADirectory isADirectory)

/-! ## What is where -/

/-- A volume before a task. -/
structure Volume where
  tree : Tree FileName Bytes
  cwd : Location
  grown : Grown tree
  cwd_isDirectory : tree cwd = some .directory

/-- A file open for writing: the entry its path names, and the file itself. -/
structure Opened where
  entry : Location
  file : Location
  deriving DecidableEq, Repr

/-- The contents of a volume, with the writes made to it. -/
structure Contents where
  tree : Tree FileName Bytes
  cwd : Location
  writes : List Opened

/-- The contents, and the failures of the calls to come. -/
structure Storage where
  contents : Contents
  faults : ℕ → Option Fault

/-- A volume with nothing written to it yet. -/
def Volume.start (v : Volume) : Contents := ⟨v.tree, v.cwd, []⟩

/-- `ELOOP`. -/
def tooManyLevels : IoError := .other "Too many levels of symbolic links (os error 40)".toList

/-- The error of an obstacle. -/
def obstacleError : Obstacle → IoError
  | .missing => .notFound
  | .notDirectory => notADirectory
  | .tooManyLinks => tooManyLevels

namespace Contents

/-- How many links are followed on one path. -/
def maxLinks : ℕ := 40

/-- Where a path leads, with a link at its end followed or not. The empty path leads
nowhere. -/
def locate (c : Contents) (followLast : Bool) (p : Path) : Except IoError Location :=
  if p = [] then .error .notFound
  else (resolve c.tree followLast maxLinks c.cwd (steps p)).mapError obstacleError

/-- A file, written. -/
def write (c : Contents) (o : Opened) (bytes : Bytes) : Contents where
  tree := update c.tree o.file (some (.file bytes))
  cwd := c.cwd
  writes := c.writes ++ [o]

@[simp] theorem write_tree (c : Contents) (o : Opened) (bytes : Bytes) :
    (c.write o bytes).tree = update c.tree o.file (some (.file bytes)) := rfl

@[simp] theorem write_writes (c : Contents) (o : Opened) (bytes : Bytes) :
    (c.write o bytes).writes = c.writes ++ [o] := rfl

/-- What is at one location, moved to another. -/
def moved (c : Contents) (source goal : Location) : Contents where
  tree := move c.tree source goal
  cwd := c.cwd
  writes := c.writes ++ [⟨goal, goal⟩]

/-- `Path::exists`. -/
def pathExists (c : Contents) (p : Path) : Bool :=
  match c.locate true p with
  | .ok l => (c.tree l).isSome
  | .error _ => false

/-- `Path::is_dir`. -/
def isDir (c : Contents) (p : Path) : Bool :=
  match c.locate true p with
  | .ok l => c.tree l = some .directory
  | .error _ => false

end Contents

/-! ## Calls -/

/-- A program on the storage. -/
abbrev Call (α : Type) := Program Storage IoError α

/-- A call: it fails for reasons of its own, leaving `broken`, or acts, or fails and
changes nothing. -/
def call {α : Type} (broken : Fault → Contents → Contents)
    (act : Contents → Except IoError (α × Contents)) : Call α :=
  Program.step fun s =>
    let after := fun contents => (⟨contents, fun n => s.faults (n + 1)⟩ : Storage)
    match s.faults 0, act s.contents with
    | some fault, _ => (.error (.other fault.message), after (broken fault s.contents))
    | none, .ok (a, contents) => (.ok a, after contents)
    | none, .error err => (.error err, after s.contents)

/-- A call that changes nothing when it fails. -/
def plainCall {α : Type} (act : Contents → Except IoError (α × Contents)) : Call α :=
  call (fun _ c => c) act

/-- A look at the storage, which is exact. -/
def look {α : Type} (f : Contents → α) : Call α := Program.step fun s => (.ok (f s.contents), s)

/-- `mkdir`. -/
def makeDirectory (p : Path) : Call Unit :=
  plainCall fun c => do
    let l ← c.locate false p
    match c.tree l with
    | some _ => .error .alreadyExists
    | none => .ok ((), { c with tree := update c.tree l (some .directory) })

/-- `create_dir_all`, of a path with no more components than are counted. -/
def createDirs : ℕ → Path → Call Unit
  | 0, _ => pure ()
  | n + 1, p => do
    if p = [] then return ()
    else
      match ← Program.attempt (makeDirectory p) with
      | .ok () => return ()
      | .error .notFound =>
        match p.parent with
        | none => throw (.other "failed to create whole tree".toList)
        | some parent =>
          createDirs n parent
          -- once more, now that the parent is there; somebody else may have been faster
          match ← Program.attempt (makeDirectory p) with
          | .ok () => return ()
          | .error err => if ← look (·.isDir p) then return () else throw err
      | .error err => if ← look (·.isDir p) then return () else throw err

/-- `create_dir_all`. -/
def createDirAll (p : Path) : Call Unit := createDirs p.length p

/-- `atomic_create_file`: exclusive, so not through a link. -/
def atomicCreateFile (p : Path) : Call Opened :=
  plainCall fun c => do
    let l ← c.locate false p
    match c.tree l with
    | some _ => .error .alreadyExists
    | none => .ok (⟨l, l⟩, c.write ⟨l, l⟩ [])

/-- The file a path leads to, truncated or made. -/
def Contents.create (c : Contents) (p : Path) : Except IoError (Opened × Contents) := do
  let l ← c.locate true p
  match c.tree l with
  | some .directory => .error isADirectory
  | some (.link _) => .error tooManyLevels
  | _ =>
    let entry ← c.locate false p
    .ok (⟨entry, l⟩, c.write ⟨entry, l⟩ [])

/-- `File::create`, which follows a link and truncates what it leads to. -/
def createFile (p : Path) : Call Opened := plainCall (·.create p)

/-- `File::open`, which opens directories too. -/
def openFile (p : Path) : Call Location :=
  plainCall fun c => do
    let l ← c.locate true p
    match c.tree l with
    | some _ => .ok (l, c)
    | none => .error .notFound

/-- `io::copy`. A copy that fails has written some bytes by then. -/
def ioCopy (source : Location) (o : Opened) : Call Unit :=
  call
    (fun fault c =>
      match c.tree source with
      | some (.file bytes) => c.write o (bytes.take fault.written)
      | _ => c)
    fun c =>
      match c.tree source with
      | some (.file bytes) => .ok ((), c.write o bytes)
      | _ => .error isADirectory

/-- `sync_all`. -/
def syncAll : Call Unit := plainCall fun c => .ok ((), c)

/-- `std::fs::remove_file`, which removes a link itself. -/
def removeFile (p : Path) : Call Unit :=
  plainCall fun c => do
    let l ← c.locate false p
    match c.tree l with
    | none => .error .notFound
    | some .directory => .error isADirectory
    | some _ => .ok ((), { c with tree := update c.tree l none })

/-- What is at one location renamed to another. A directory comes along with what is in
it; it does not get into itself, and takes the place of nothing (of an empty directory
it could, which nobody here asks for). -/
def Contents.rename (c : Contents) (l goal : Location) : Except IoError (Unit × Contents) :=
  match c.tree l, c.tree goal with
  | none, _ => .error .notFound
  | some .directory, none =>
    if l <+: goal then .error (.other "Invalid argument (os error 22)".toList)
    else .ok ((), c.moved l goal)
  | some .directory, some .directory =>
    if l = goal then .ok ((), c) else .error (.other "Directory not empty (os error 39)".toList)
  | some .directory, some _ => .error notADirectory
  | some _, some .directory => .error isADirectory
  | some _, _ => if l = goal then .ok ((), c) else .ok ((), c.moved l goal)

/-- `std::fs::rename`, which takes and replaces links themselves. -/
def renameFile (source target : Path) : Call Unit :=
  plainCall fun c => do
    let l ← c.locate false source
    let goal ← c.locate false target
    -- `..` and the root have no name that could be given or taken
    if source.fileName.isNone || target.fileName.isNone then
      .error (.other "Device or resource busy (os error 16)".toList)
    else c.rename l goal

/-- `Path::canonicalize`. -/
def canonicalize (p : Path) : Call Location :=
  plainCall fun c => do
    let l ← c.locate true p
    if (c.tree l).isSome then .ok (l, c) else .error .notFound

/-- `std::fs::symlink_metadata`: whether it is a link. -/
def isSymlink (p : Path) : Call Bool :=
  plainCall fun c => do
    let l ← c.locate false p
    match c.tree l with
    | none => .error .notFound
    | some (.link _) => .ok (true, c)
    | some _ => .ok (false, c)

/-- `validate_write_target`. -/
def validateWriteTarget (target expectedParent : Path) : Call Unit :=
  match target.parent with
  | none => throw (.other "target has no parent directory".toList)
  | some targetParent => do
    let canonParent ← canonicalize targetParent
    let canonExpected ← canonicalize expectedParent
    if ¬ canonExpected <+: canonParent then
      throw (.other ("target parent ".toList ++ (canonicalPath canonParent).display ++
        " escapes expected parent ".toList ++ (canonicalPath canonExpected).display))
    else
      match ← Program.attempt (isSymlink target) with
      | .ok true =>
        throw (.other ("refusing to operate on symlink target: ".toList ++ target.display))
      | .ok false => return ()
      | .error .notFound => return ()
      | .error err => throw err

end Links

end SubxCore
