import SubxCore.Formats.Ass
import SubxCore.Formats.Vtt
/-!
# Converting between formats

The tag rewriting of the converter and its dispatch on source and target
format. A conversion rewrites the texts of the cues, sets the format, and
keeps number, order and times of the cues; the six supported pairs and
the identity go through, any other pair is an error.
-/

namespace SubxCore

open Text Regex

/-! ## Tags -/

/-- No color is read from tags yet. -/
def extractColorFromTags (_text : Text) : Option Text := none

/-- Extract styling information from SRT tags. -/
def extractSrtStyling (text : Text) : StylingInfo where
  fontName := none
  fontSize := none
  color := extractColorFromTags text
  bold := containsStr "<b>".toList text || containsStr "<B>".toList text
  italic := containsStr "<i>".toList text || containsStr "<I>".toList text
  underline := containsStr "<u>".toList text || containsStr "<U>".toList text

/-- `convert_color_to_ass`: the number signs at the start are dropped. -/
def convertColorToAss (color : Text) : Text := color.dropWhile (· == '#')

/-- The pattern `<font color="([^"]+)">`. -/
def fontColorRegex : Regex :=
  seqs [lit "<font color=\"".toList, group (some' (· != '"')), lit "\">".toList]

/-- Convert SRT tags to ASS tags. -/
def convertSrtTagsToAss (text : Text) : Text :=
  let result := replaceStr "</b>".toList "\x7b\\b0\x7d".toList
    (replaceStr "<b>".toList "\x7b\\b1\x7d".toList text)
  let result := replaceStr "</i>".toList "\x7b\\i0\x7d".toList
    (replaceStr "<i>".toList "\x7b\\i1\x7d".toList result)
  let result := replaceStr "</u>".toList "\x7b\\u0\x7d".toList
    (replaceStr "<u>".toList "\x7b\\u1\x7d".toList result)
  let result := fontColorRegex.replaceAll (fun h =>
    "\x7b\\c&H".toList ++ convertColorToAss (h.groups.getD 0 []) ++ "&\x7d".toList) result
  replaceStr "</font>".toList "\x7b\\c\x7d".toList result

/-- Remove ASS tags: every `{…}`. -/
def stripAssTags (text : Text) : Text :=
  (seqs [chr '{', many (· != '}'), chr '}']).replaceAll (fun _ => []) text

/-- One pair of ASS tags to SRT: `{\x1}…{\x0}` to `<x>…</x>`. -/
def convertAssTagToSrt (letter : Char) (text : Text) : Text :=
  (seqs [lit ['{', '\\', letter, '1', '}'], group (many (· != '{')),
      lit ['{', '\\', letter, '0', '}']]).replaceAll
    (fun h => ['<', letter, '>'] ++ h.groups.getD 0 [] ++ ['<', '/', letter, '>']) text

/-- Convert ASS tags to SRT tags. -/
def convertAssTagsToSrt (text : Text) : Text :=
  convertAssTagToSrt 'u' (convertAssTagToSrt 'i' (convertAssTagToSrt 'b' text))

/-- Convert SRT tags to VTT tags: nothing to do. -/
def convertSrtTagsToVtt (text : Text) : Text := text

/-- Convert VTT tags to SRT tags: nothing to do. -/
def convertVttTagsToSrt (text : Text) : Text := text

/-- Remove VTT tags: every `<…>` and `</…>` with something in it. -/
def stripVttTags (text : Text) : Text :=
  (seqs [chr '<', alt (chr '/') empty, some' (· != '>'), chr '>']).replaceAll (fun _ => []) text

/-! ## Conversions -/

/-- SRT to ASS conversion. -/
def srtToAss (preserveStyling : Bool) (subtitle : Subtitle) : Subtitle where
  entries := subtitle.entries.map fun entry =>
    { entry with
      styling := if preserveStyling then some (extractSrtStyling entry.text) else entry.styling
      text := convertSrtTagsToAss entry.text }
  metadata := { subtitle.metadata with originalFormat := .srt }
  format := .ass

/-- The text of an ASS cue in SRT. -/
def assTextToSrt (preserveStyling : Bool) (text : Text) : Text :=
  if preserveStyling then convertAssTagsToSrt (stripAssTags text) else stripAssTags text

/-- ASS to SRT conversion. -/
def assToSrt (preserveStyling : Bool) (subtitle : Subtitle) : Subtitle where
  entries := subtitle.entries.map fun entry =>
    { entry with text := assTextToSrt preserveStyling entry.text, styling := none }
  metadata := subtitle.metadata
  format := .srt

/-- SRT to VTT conversion. -/
def srtToVtt (subtitle : Subtitle) : Subtitle where
  entries := subtitle.entries.map fun entry =>
    { entry with text := convertSrtTagsToVtt entry.text }
  metadata := { subtitle.metadata with title := some "WEBVTT".toList }
  format := .vtt

/-- ASS to VTT conversion: by way of SRT. -/
def assToVtt (preserveStyling : Bool) (subtitle : Subtitle) : Subtitle :=
  srtToVtt (assToSrt preserveStyling subtitle)

/-- The text of a VTT cue in SRT. -/
def vttTextToSrt (preserveStyling : Bool) (text : Text) : Text :=
  if preserveStyling then convertVttTagsToSrt text else stripVttTags text

/-- VTT to SRT conversion. -/
def vttToSrt (preserveStyling : Bool) (subtitle : Subtitle) : Subtitle where
  entries := subtitle.entries.map fun entry =>
    { entry with text := vttTextToSrt preserveStyling entry.text, styling := none }
  metadata := subtitle.metadata
  format := .srt

/-- VTT to ASS conversion: by way of SRT. -/
def vttToAss (preserveStyling : Bool) (subtitle : Subtitle) : Subtitle :=
  srtToAss preserveStyling (vttToSrt preserveStyling subtitle)

/-- `FormatConverter::transform_subtitle`. -/
def transformSubtitle (preserveStyling : Bool) (subtitle : Subtitle) (targetFormat : Text) :
    Except SubXError Subtitle :=
  let source := subtitle.format.asStr
  if source = "srt".toList ∧ targetFormat = "ass".toList then .ok (srtToAss preserveStyling subtitle)
  else if source = "ass".toList ∧ targetFormat = "srt".toList then
    .ok (assToSrt preserveStyling subtitle)
  else if source = "srt".toList ∧ targetFormat = "vtt".toList then .ok (srtToVtt subtitle)
  else if source = "vtt".toList ∧ targetFormat = "srt".toList then
    .ok (vttToSrt preserveStyling subtitle)
  else if source = "ass".toList ∧ targetFormat = "vtt".toList then
    .ok (assToVtt preserveStyling subtitle)
  else if source = "vtt".toList ∧ targetFormat = "ass".toList then
    .ok (vttToAss preserveStyling subtitle)
  else if source = targetFormat then .ok subtitle
  else .error (.subtitleFormat source
    ("Unsupported conversion: ".toList ++ source ++ " -> ".toList ++ targetFormat))

end SubxCore
