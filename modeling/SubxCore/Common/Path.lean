import SubxCore.Common.Text
import Mathlib.Data.List.Lex
/-!
# Paths

The part of `std::path` that the source uses, for Unix paths. A path is the
list of its components, which is also what the source compares paths by: a
doubled separator or a `.` in the middle makes no other path. A normal
component carries the proof that it is one, so the file name of a path is
always a name that joins back as a single component.
-/

namespace SubxCore

/-- What a single component of a path can be called. -/
def IsFileName (s : Text) : Prop := s ≠ [] ∧ s ≠ ['.'] ∧ s ≠ ['.', '.'] ∧ '/' ∉ s

instance : DecidablePred IsFileName := fun s =>
  inferInstanceAs (Decidable (s ≠ [] ∧ s ≠ ['.'] ∧ s ≠ ['.', '.'] ∧ '/' ∉ s))

/-- Any character but a dot makes a text without separators a file name. -/
theorem isFileName_of_mem {s : Text} {c : Char} (hc : c ∈ s) (hdot : c ≠ '.') (hslash : '/' ∉ s) :
    IsFileName s := by
  refine ⟨List.ne_nil_of_mem hc, ?_, ?_, hslash⟩
  · rintro rfl
    exact hdot (List.mem_singleton.1 hc)
  · rintro rfl
    rcases List.mem_cons.1 hc with rfl | hc
    · exact hdot rfl
    · exact hdot (List.mem_singleton.1 hc)

/-- A file name. -/
structure FileName where
  text : Text
  isFileName : IsFileName text
  deriving DecidableEq, Repr

/-- A component of a path. -/
inductive Component
  | rootDir
  | curDir
  | parentDir
  | normal (name : FileName)
  deriving DecidableEq, Repr

/-- A path. -/
abbrev Path := List Component

/-- The text of a component. -/
def Component.text : Component → Text
  | .rootDir => ['/']
  | .curDir => ['.']
  | .parentDir => ['.', '.']
  | .normal name => name.text

namespace Path

open Text

/-- `Path::display`. -/
def display : Path → Text
  | .rootDir :: rest => '/' :: Text.join ['/'] (rest.map Component.text)
  | p => Text.join ['/'] (p.map Component.text)

/-- The component a piece between two separators stands for. -/
def component (piece : Text) : Option Component :=
  if piece = ['.', '.'] then some .parentDir
  else if h : IsFileName piece then some (.normal ⟨piece, h⟩)
  else none

/-- The components of a text. A `.` counts at the start only. -/
def ofText (s : Text) : Path :=
  (if s.head? = some '/' then [.rootDir]
    else if (s.splitOn '/').head? = some ['.'] then [.curDir] else []) ++
  (s.splitOn '/').filterMap component

/-- `Path::join`. -/
def join (p : Path) (s : Text) : Path :=
  if s.head? = some '/' ∨ p = [] then ofText s else p ++ (s.splitOn '/').filterMap component

/-- `Path::parent`. -/
def parent (p : Path) : Option Path :=
  match p.getLast? with
  | none | some .rootDir => none
  | some _ => some p.dropLast

/-- `Path::file_name`. -/
def fileName (p : Path) : Option FileName :=
  match p.getLast? with
  | some (.normal name) => some name
  | _ => none

/-- `Path::with_file_name`. -/
def withFileName (p : Path) (s : Text) : Path :=
  join (if p.fileName.isSome then p.dropLast else p) s

/-- A file name cut at its last dot, unless that is its first character. -/
def splitExtension (name : Text) : Text × Option Text :=
  match rsplitOnce '.' name with
  | some (before, after) => if before = [] then (name, none) else (before, some after)
  | none => (name, none)

/-- `Path::file_stem`. -/
def fileStem (p : Path) : Option Text := p.fileName.map fun name => (splitExtension name.text).1

/-- `Path::extension`. -/
def extension (p : Path) : Option Text := p.fileName.bind fun name => (splitExtension name.text).2

/-- `Path::with_extension`, of an extension without separators. -/
def withExtension (p : Path) (ext : Text) : Path :=
  match p.fileStem with
  | some stem => join p.dropLast (if ext = [] then stem else stem ++ '.' :: ext)
  | none => p

/-! ## The order of paths -/

/-- A component as the source orders it. -/
def Component.key : Component → List ℕ
  | .rootDir => [0]
  | .curDir => [1]
  | .parentDir => [2]
  | .normal name => 3 :: name.text.map Char.toNat

/-- A path as the source orders it. -/
def key (p : Path) : List (List ℕ) := p.map Component.key

/-- Components are told apart by what they are ordered by. -/
theorem Component.key_injective : Function.Injective Component.key := by
  have htexts : ∀ name name' : FileName, name.text.map Char.toNat = name'.text.map Char.toNat →
      name = name' := by
    rintro ⟨s, hs⟩ ⟨t, ht⟩ h
    obtain rfl : s = t := List.map_injective_iff.2 (fun _ _ => Char.toNat_inj.1) h
    rfl
  rintro (- | - | - | name) (- | - | - | name') h
  all_goals first
    | rfl
    | exact congrArg _ (htexts name name' (List.cons.inj h).2)
    | cases h

/-- And so are paths. -/
theorem key_injective : Function.Injective key := List.map_injective_iff.2 Component.key_injective

variable {p dir : Path} {s : Text} {name : FileName}

/-! ## Joining and taking apart -/

/-- A file name joins as one component. -/
theorem join_of_isFileName (p : Path) (h : IsFileName s) : p.join s = p ++ [.normal ⟨s, h⟩] := by
  obtain ⟨-, hdot, hdots, hslash⟩ := id h
  have hcomponent : component s = some (.normal ⟨s, h⟩) := by
    rw [component, if_neg hdots, dif_pos h]
  have hsplit : s.splitOn '/' = [s] := List.splitOn_eq_singleton hslash
  have hhead : s.head? ≠ some '/' := fun hh => hslash (List.mem_of_head? hh)
  rw [join, ofText, hsplit, List.filterMap_cons_some hcomponent, List.filterMap_nil, if_neg hhead]
  split
  · next hp =>
    rw [hp.resolve_left hhead, List.head?_cons, if_neg (fun h => hdot (Option.some.inj h))]
  · rfl

@[simp] theorem join_name (p : Path) (name : FileName) :
    p.join name.text = p ++ [.normal name] := join_of_isFileName p name.isFileName

@[simp] theorem fileName_concat : (dir ++ [Component.normal name]).fileName = some name := by
  rw [fileName, List.getLast?_concat]

@[simp] theorem parent_concat : (dir ++ [Component.normal name]).parent = some dir := by
  rw [parent, List.getLast?_concat, List.dropLast_concat]

/-- A file renamed in its directory. -/
theorem withFileName_concat (h : IsFileName s) :
    (dir ++ [Component.normal name]).withFileName s = dir ++ [.normal ⟨s, h⟩] := by
  rw [withFileName, fileName_concat, Option.isSome_some, if_pos rfl, List.dropLast_concat,
    join_of_isFileName dir h]

/-- A path with a file name is that name in its directory. -/
theorem eq_concat_of_fileName (h : p.fileName = some name) : p = p.dropLast ++ [.normal name] := by
  unfold fileName at h
  split at h
  · next last hlast =>
    cases h
    exact (List.dropLast_append_getLast? _ hlast).symm
  · cases h

theorem exists_concat_of_fileName (h : p.fileName.isSome) :
    ∃ dir name, p = dir ++ [.normal name] := by
  obtain ⟨name, hname⟩ := Option.isSome_iff_exists.1 h
  exact ⟨p.dropLast, name, eq_concat_of_fileName hname⟩

end Path

end SubxCore
