import SubxCore.Common.Run
import SubxCore.Formats.Srt
/-!
# VTT

The WebVTT parser and serializer. Blocks are cut as for SRT, but trimmed
before they are read; the header, notes and styles are not cues, a first
line without a timing is an identifier, and the timing has to stand at the
start of its line. The cues are numbered as they come.
-/

namespace SubxCore

open Text Decimal Regex Run

/-- An error of the VTT parser. -/
def vttError (message : Text) : SubXError := .subtitleFormat "VTT".toList message

/-- The error for a block or body over the cap. -/
def vttOversized (what : Text) (size : ℕ) : SubXError :=
  vttError ("cue ".toList ++ what ++ " of ".toList ++ decimal size ++
    " bytes exceeds per-cue cap of ".toList ++ decimal maxCueBytes ++ " bytes".toList)

/-- The pattern of a timing line, at the start of a line. -/
def vttTimeRegex : Regex := seq lineStart (timingRegex '.')

/-- The pattern `(^|\s|>)-\d{1,}:\d{2}:\d{2}\.\d{3}`. -/
def vttNegSignedRegex : Regex :=
  seqs [group (alt textStart (alt (one isWhitespace) (chr '>'))), chr '-', some' digit, chr ':',
    rep digit 2, chr ':', rep digit 2, chr '.', rep digit 3]

/-- Four captured groups as a time. -/
def parseVttTime (caps : List Text) (start : ℕ) : Except SubXError Duration :=
  parseClock (fun e => vttError e.message) caps start

/-- A trimmed block that is no cue. -/
def vttSkips (block : Text) : Bool :=
  block = [] || "WEBVTT".toList.isPrefixOf block || "NOTE".toList.isPrefixOf block ||
    "STYLE".toList.isPrefixOf block

/-- A cue from its marker line and the lines after it. -/
def vttReadCue (count : ℕ) (marker : Text) (body : List Text) :
    Except SubXError (Option SubtitleEntry) := do
  if vttNegSignedRegex.isMatch marker then return none
  match vttTimeRegex.captures marker with
  | none => return none
  | some caps =>
    let start ← parseVttTime caps 1
    let stop ← parseVttTime caps 5
    let text := join ['\n'] body
    if maxCueBytes < byteLen text then throw (vttOversized "body".toList (byteLen text))
    return some
      { index := count + 1
        startTime := start
        endTime := stop
        text := text
        styling := none }

/-- One block of the parser's loop. -/
def vttReadBlock : BlockReader := fun count block => do
  let block := trim block
  if vttSkips block then return none
  if maxCueBytes < byteLen block then throw (vttOversized "block".toList (byteLen block))
  match lines block with
  | [] => return none
  | first :: rest =>
    if vttTimeRegex.isMatch first then vttReadCue count first rest
    else
      match rest with
      | [] => return none
      | marker :: body => vttReadCue count marker body

/-- `VttFormat::parse`. -/
def vttParse (content : Text) : Except SubXError Subtitle := do
  if content = [] then throw (vttError "empty input".toList)
  let content := stripPrefix bom content
  if ¬ "WEBVTT".toList <+: trimStart content then
    throw (vttError "missing WEBVTT signature".toList)
  match firstOversized ((rawBlocks content).filter fun block => ¬ vttSkips (trim block)) with
  | some block => throw (vttOversized "block".toList (byteLen block))
  | none =>
    let entries ← readBlocks vttReadBlock 0 (splitStr ['\n', '\n'] (normalizeLineEndings content))
    return parsedSubtitle .vtt entries

/-- `VttFormat::serialize`. It does not fail. -/
def vttSerialize (subtitle : Subtitle) : Text :=
  "WEBVTT\n\n".toList ++ subtitle.entries.flatMap fun entry =>
    decimal entry.index ++ '\n' :: (timingLine '.' entry.startTime entry.endTime ++
      '\n' :: (entry.text ++ ['\n', '\n']))

end SubxCore
