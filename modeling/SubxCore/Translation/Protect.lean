import SubxCore.Common.Decimal
import SubxCore.Error
/-!
# Protected formatting

Tags of a cue's text are hidden from the translation provider: each is
replaced by a placeholder of its own before the text is sent, and put back
into the translation, which has to bring every placeholder exactly once.
-/

namespace SubxCore

open Text Decimal

/-- A cue's text with its tags taken out. -/
structure ProtectedCueText where
  promptText : Text
  visibleText : Text
  markers : List (Text × Text)
  deriving DecidableEq, Repr

/-- The length of the text up to and with the first `close`, if it starts with
`start`. -/
def bracketEnd (start close : Char) (text : Text) : Option ℕ :=
  if text.head? = some start then (text.findIdx? (· == close)).map (· + 1) else none

/-- The length of the HTML-like tag a text starts with. -/
def htmlLikeTagEnd (text : Text) : Option ℕ := (bracketEnd '<' '>' text).filter (2 < ·)

/-- The length of the ASS override tag a text starts with. -/
def assOverrideTagEnd (text : Text) : Option ℕ :=
  (bracketEnd '{' '}' text).filter fun tagEnd => '\\' ∈ text.take tagEnd

/-- The placeholder of a marker. -/
def formatPlaceholder (cueIndex marker : ℕ) : Text :=
  "__SUBX_FMT_".toList ++ decimal cueIndex ++ "_".toList ++ decimal marker ++ "__".toList

/-- A tag becomes a placeholder. -/
def pushFormatMarker (cueIndex : ℕ) (token : Text) (cue : ProtectedCueText) : ProtectedCueText :=
  let placeholder := formatPlaceholder cueIndex cue.markers.length
  { cue with
    promptText := cue.promptText ++ placeholder
    markers := cue.markers ++ [(placeholder, token)] }

/-- The loop over a text; the first number counts the characters of a tag
still to be skipped. -/
def protectFrom (cueIndex : ℕ) : ℕ → Text → ProtectedCueText → ProtectedCueText
  | _, [], cue => cue
  | skip + 1, _ :: s, cue => protectFrom cueIndex skip s cue
  | 0, c :: s, cue =>
    match (htmlLikeTagEnd (c :: s)).or (assOverrideTagEnd (c :: s)) with
    | some tagEnd =>
      protectFrom cueIndex (tagEnd - 1) s (pushFormatMarker cueIndex ((c :: s).take tagEnd) cue)
    | none =>
      protectFrom cueIndex 0 s
        { cue with promptText := cue.promptText ++ [c], visibleText := cue.visibleText ++ [c] }

/-- `protect_inline_formatting`. -/
def protectInlineFormatting (text : Text) (cueIndex : ℕ) : ProtectedCueText :=
  protectFrom cueIndex 0 text ⟨[], [], []⟩

/-- One placeholder is put back. -/
def restoreMarker (restored : Text) (marker : Text × Text) : Except SubXError Text :=
  if countStr marker.1 restored = 1 then .ok (replaceStr marker.1 marker.2 restored)
  else .error (.aiService ("Translation response must preserve formatting placeholder ".toList ++
    marker.1 ++ " exactly once".toList))

/-- `restore_inline_formatting`. -/
def restoreInlineFormatting (translated : Text) (cue : ProtectedCueText) : Except SubXError Text :=
  cue.markers.foldlM restoreMarker translated

example : protectInlineFormatting "<i>Hi</i> \x7b\\an8\x7d<>".toList 3 =
    { promptText := "__SUBX_FMT_3_0__Hi__SUBX_FMT_3_1__ __SUBX_FMT_3_2__<>".toList
      visibleText := "Hi <>".toList
      markers :=
        [("__SUBX_FMT_3_0__".toList, "<i>".toList), ("__SUBX_FMT_3_1__".toList, "</i>".toList),
          ("__SUBX_FMT_3_2__".toList, "\x7b\\an8\x7d".toList)] } := by
  decide +kernel

end SubxCore
