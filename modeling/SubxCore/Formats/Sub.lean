import SubxCore.Formats.Blocks
import SubxCore.Formats.Clock
import Mathlib.Algebra.Order.Round
import Mathlib.Data.Rat.Floor
/-!
# SUB

The MicroDVD parser and serializer. A cue is a line `{start}{end}text`
with its times as frame numbers, at 25 frames a second where nothing else
is known; a bar in the text stands for a line feed. Lines that are no cue
are skipped, and so are cues past 24 hours; a body over the size cap or a
frame number that is no `u64` ends the parse. Frames and times are
converted in exact arithmetic, rounded to the nearest integer.
-/

namespace SubxCore

open Text Decimal Regex

/-- An error of the SUB parser. -/
def subError (message : Text) : SubXError := .subtitleFormat "SUB".toList message

/-- The error for a body over the cap. -/
def subOversized (rawText : Text) : SubXError :=
  subError ("cue body of ".toList ++ decimal (byteLen rawText) ++
    " bytes exceeds per-cue cap of ".toList ++ decimal maxCueBytes ++ " bytes".toList)

/-- `DEFAULT_SUB_FPS`. -/
def defaultSubFps : ℚ := 25

/-- `MAX_DURATION_MS`: 24 hours. -/
def maxDurationMs : ℕ := 86400000

/-- The nearest `u64`. -/
def roundToU64 (q : ℚ) : ℕ := min (round q).toNat u64Max

/-- `frame_to_ms`. -/
def frameToMs (frame : ℕ) (fps : ℚ) : ℕ := roundToU64 (frame * 1000 / fps)

/-- `duration_to_frame`. -/
def durationToFrame (d : Duration) (fps : ℚ) : ℕ := roundToU64 (d.nanos / 1000000000 * fps)

/-- `frame_to_duration`. -/
def frameToDuration (frame : ℕ) (fps : ℚ) : Duration := .fromMillis (frameToMs frame fps)

/-- `{`, a captured number and `}`, followed by another pattern. -/
def frameRegex (next : List Regex) : List Regex :=
  [chr '{', group (some' digit), chr '}'] ++ next

/-- The pattern `^\{(\d+)\}\{(\d+)\}(.*)`. -/
def subLineRegex : Regex :=
  seq textStart (seqs (frameRegex (frameRegex [group (many (· != '\n'))])))

/-- One line of the parser's loop. -/
def subReadLine : BlockReader := fun count line => do
  let l := trim line
  if l = [] then return none
  match subLineRegex.captures l with
  | none => return none
  | some cap =>
    let rawText := cap.getD 2 []
    if maxCueBytes < byteLen rawText then throw (subOversized rawText)
    let startFrame ← parseField (fun e => subError e.message) cap 1
    let endFrame ← parseField (fun e => subError e.message) cap 2
    let startMs := frameToMs startFrame defaultSubFps
    let endMs := frameToMs endFrame defaultSubFps
    if maxDurationMs < startMs ∨ maxDurationMs < endMs then return none
    return some
      { index := count + 1
        startTime := frameToDuration startFrame defaultSubFps
        endTime := frameToDuration endFrame defaultSubFps
        text := replaceChar '|' ['\n'] rawText
        styling := none }

/-- `SubFormat::parse`. -/
def subParse (content : Text) : Except SubXError Subtitle := do
  if content = [] then throw (subError "empty input".toList)
  let entries ← readBlocks subReadLine 0 (lines content)
  return {
    entries := entries
    metadata :=
      { title := none
        language := none
        encoding := "utf-8".toList
        frameRate := some defaultSubFps
        originalFormat := .sub }
    format := .sub }

/-- A cue as a line, without its terminator. -/
def subLine (startFrame endFrame : ℕ) (text : Text) : Text :=
  '{' :: (decimal startFrame ++ '}' :: '{' :: (decimal endFrame ++ '}' :: text))

/-- `SubFormat::serialize`. It does not fail. -/
def subSerialize (subtitle : Subtitle) : Text :=
  let fps := subtitle.metadata.frameRate.getD defaultSubFps
  subtitle.entries.flatMap fun entry =>
    subLine (durationToFrame entry.startTime fps) (durationToFrame entry.endTime fps)
      (replaceChar '\n' ['|'] entry.text) ++ ['\n']

end SubxCore
