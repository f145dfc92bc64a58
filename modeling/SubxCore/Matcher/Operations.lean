import SubxCore.Common.Path
import SubxCore.Error
import Mathlib.Data.Rat.Init
/-!
# Match operations

What the matcher plans and the executor carries out: a media file as the
discovery describes it, an operation on a subtitle file, and the part of
the configuration the two look at.
-/

namespace SubxCore

open Text

/-- Why a call does not return. -/
inductive Panic
  /-- `attempt to add with overflow`. -/
  | addOverflow
  /-- `unwrap` of a `None`. -/
  | unwrapNone
  /-- `unwrap` of an `Err`. -/
  | unwrapErr (error : SubXError)
  /-- An extension with a path separator. -/
  | extensionSeparator
  /-- A slice that cuts a character. -/
  | charBoundary
  /-- A recursion without end. -/
  | stackOverflow
  deriving DecidableEq, Repr

/-- The media types. -/
inductive MediaFileType
  | video
  | subtitle
  deriving DecidableEq, Repr

/-- A media file. -/
structure MediaFile where
  id : Text
  path : Path
  fileType : MediaFileType
  size : ℕ
  name : Text
  extension : Text
  relativePath : Text
  deriving DecidableEq, Repr

/-- Where a subtitle goes. -/
inductive FileRelocationMode
  | none
  | copy
  | move
  deriving DecidableEq, Repr

/-- What happens when a target exists. -/
inductive ConflictResolution
  | skip
  | autoRename
  | prompt
  deriving DecidableEq, Repr

/-- A planned operation. The confidence is a finite number. -/
structure MatchOperation where
  videoFile : MediaFile
  subtitleFile : MediaFile
  newSubtitleName : Text
  confidence : ℚ
  reasoning : List Text
  relocationMode : FileRelocationMode
  relocationTargetPath : Option Path
  requiresRelocation : Bool
  deriving DecidableEq, Repr

namespace MatchOperation

/-- The subtitle file an operation is about. -/
def source (op : MatchOperation) : Path := op.subtitleFile.path

/-- `final_target`: where an operation puts its subtitle. -/
def finalTarget (op : MatchOperation) : Path :=
  match op.relocationTargetPath with
  | some p => p
  | none => (op.source.parent.getD [.curDir]).join op.newSubtitleName

/-- The names of an operation are file names. -/
structure WellNamed (op : MatchOperation) : Prop where
  newSubtitleName : IsFileName op.newSubtitleName
  relocationTargetPath : ∀ p, op.relocationTargetPath = some p → p.fileName.isSome

instance (op : MatchOperation) : Decidable op.WellNamed :=
  decidable_of_iff
    (IsFileName op.newSubtitleName ∧ ∀ p ∈ op.relocationTargetPath, p.fileName.isSome)
    ⟨fun h => ⟨h.1, h.2⟩, fun h => ⟨h.1, h.2⟩⟩

/-- A well named operation has a file in a directory as its target. -/
theorem WellNamed.exists_target {op : MatchOperation} (h : op.WellNamed) :
    ∃ dir name, op.finalTarget = dir ++ [Component.normal name] := by
  unfold finalTarget
  split
  · next p hp => exact Path.exists_concat_of_fileName (h.relocationTargetPath p hp)
  · exact ⟨_, _, Path.join_of_isFileName _ h.newSubtitleName⟩

end MatchOperation

end SubxCore
