import SubxCore.Formats.Blocks
import SubxCore.Formats.Clock
import SubxCore.Formats.LineEndings
/-!
# SRT

The SRT parser and serializer. A file is cut at blank lines; a block of
at least three lines whose first is a number and whose second has a
timing line somewhere in it is a cue, and any other block is skipped. The
only errors are an empty file, a block over the size cap, and a timing
field that is not ASCII digits: the pattern of a timing line takes every
decimal digit of Unicode, the number reader only ASCII.
-/

namespace SubxCore

open Text Decimal Regex

/-- The byte-order mark. -/
def bom : Text := ['\uFEFF']

/-- An error of the SRT parser. -/
def srtError (message : Text) : SubXError := .subtitleFormat "SRT".toList message

/-- The error for a block over the cap. -/
def srtOversized (block : Text) : SubXError :=
  srtError ("Single cue block exceeds ".toList ++ decimal maxCueBytes ++ "-byte cap (got ".toList ++
    decimal (byteLen block) ++ " bytes)".toList)

/-- The pattern `-\d+:\d{2}:\d{2},\d{3}`. -/
def srtNegPattern : Regex :=
  seqs [chr '-', some' digit, chr ':', rep digit 2, chr ':', rep digit 2, chr ',', rep digit 3]

/-- Whether a signed timestamp is on the timing line. -/
def timingLineHasNegative (line : Text) : Bool := srtNegPattern.isMatch line

/-- Four captured groups as a time. -/
def srtParseTime (caps : List Text) (startGroup : ℕ) : Except SubXError Duration :=
  parseClock (fun e => srtError ("Time value parsing failed: ".toList ++ e.message)) caps startGroup

/-- One block of the parser's loop. -/
def srtReadBlock (block : Text) : Except SubXError (Option SubtitleEntry) := do
  if trim block = [] then return none
  if maxCueBytes < byteLen block then throw (srtOversized block)
  match lines block with
  | indexLine :: timing :: line :: more =>
    match parseUnsigned u64Max (trim indexLine) with
    | .error _ => return none
    | .ok index =>
      if timingLineHasNegative timing then return none
      match (timingRegex ',').captures timing with
      | none => return none
      | some caps =>
        let startTime ← srtParseTime caps 1
        let endTime ← srtParseTime caps 5
        return some
          { index := index
            startTime := startTime
            endTime := endTime
            text := join ['\n'] (line :: more)
            styling := none }
  | _ => return none

/-- `SrtFormat::parse`. -/
def srtParse (content : Text) : Except SubXError Subtitle := do
  let content := stripPrefix bom content
  if content = [] then throw (srtError "Input is empty after BOM stripping".toList)
  match firstOversized (rawBlocks content) with
  | some block => throw (srtOversized block)
  | none =>
    let entries ← readBlocks (fun _ => srtReadBlock) 0
      (splitStr ['\n', '\n'] (normalizeLineEndings content))
    return parsedSubtitle .srt entries

/-- The block of a cue, without the blank line after it. -/
def srtBlock (number : ℕ) (entry : SubtitleEntry) : Text :=
  decimal number ++ '\n' :: (timingLine ',' entry.startTime entry.endTime ++ '\n' :: entry.text)

/-- `SrtFormat::serialize`. It does not fail. -/
def srtSerialize (subtitle : Subtitle) : Text :=
  (subtitle.entries.zipIdx 1).flatMap fun (entry, number) => srtBlock number entry ++ ['\n', '\n']

end SubxCore
