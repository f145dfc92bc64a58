import SubxCore.Error
import Mathlib.Data.Rat.Init
/-!
# Subtitles

The format-agnostic subtitle the parsers produce and the serializers
consume, and the durations its cues carry.
-/

namespace SubxCore

/-- `std::time::Duration`, in nanoseconds. -/
structure Duration where
  nanos : ℕ
  deriving DecidableEq, Repr

namespace Duration

/-- `Duration::MAX`. -/
def max : Duration := ⟨(2 ^ 64 - 1) * 1000000000 + 999999999⟩

/-- `Duration::from_millis`. -/
def fromMillis (ms : ℕ) : Duration := ⟨ms * 1000000⟩

/-- `Duration::as_millis`: whole milliseconds, rounded down. -/
def asMillis (d : Duration) : ℕ := d.nanos / 1000000

@[simp] theorem asMillis_fromMillis (ms : ℕ) : (fromMillis ms).asMillis = ms := by
  simp [fromMillis, asMillis]

end Duration

/-- The supported formats. -/
inductive SubtitleFormatType
  | srt
  | ass
  | vtt
  | sub
  deriving DecidableEq, Repr

/-- The identifier of a format. -/
def SubtitleFormatType.asStr : SubtitleFormatType → Text
  | .srt => "srt".toList
  | .ass => "ass".toList
  | .vtt => "vtt".toList
  | .sub => "sub".toList

/-- Styling extracted from a cue. -/
structure StylingInfo where
  fontName : Option Text
  fontSize : Option ℕ
  color : Option Text
  bold : Bool
  italic : Bool
  underline : Bool
  deriving DecidableEq, Repr

/-- One cue. -/
structure SubtitleEntry where
  index : ℕ
  startTime : Duration
  endTime : Duration
  text : Text
  styling : Option StylingInfo
  deriving DecidableEq, Repr

/-- What is known of a subtitle beside its cues. -/
structure SubtitleMetadata where
  title : Option Text
  language : Option Text
  encoding : Text
  frameRate : Option ℚ
  originalFormat : SubtitleFormatType
  deriving DecidableEq, Repr

/-- A parsed subtitle. -/
structure Subtitle where
  entries : List SubtitleEntry
  metadata : SubtitleMetadata
  format : SubtitleFormatType
  deriving DecidableEq, Repr

/-- The subtitle a parser returns for a format without frame timing. -/
def parsedSubtitle (format : SubtitleFormatType) (entries : List SubtitleEntry) : Subtitle where
  entries := entries
  metadata :=
    { title := none
      language := none
      encoding := "utf-8".toList
      frameRate := none
      originalFormat := format }
  format := format

/-- The per-cue cap of the parsers, in bytes. -/
def maxCueBytes : ℕ := 1024 * 1024

/-- The most elements a vector holds. -/
def vecMax : ℕ := 2 ^ 63 - 1

/-- Start and end of a cue. -/
def SubtitleEntry.times (e : SubtitleEntry) : Duration × Duration := (e.startTime, e.endTime)

end SubxCore
