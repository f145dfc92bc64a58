import SubxCore.Common.Run
import SubxCore.Formats.Srt
/-!
# ASS

The ASS parser and serializer. The parser goes through the lines, looks
for an events section, takes the columns from its last `Format:` line,
and reads each `Dialogue:` row against them: the row is cut at as many
commas as there are columns, and everything from the text column on is the
text. A row with fewer columns or a negative time is skipped; a missing
column, a time that is none and an oversized text end the parse.
-/

namespace SubxCore

open Text Decimal

/-- An error of the ASS parser. -/
def assError (message : Text) : SubXError := .subtitleFormat "ASS".toList message

/-! ## Times -/

/-- A field of a timestamp. -/
def assField (s : Text) : Except SubXError ℕ :=
  (parseUnsigned u64Max s).mapError fun e => assError e.message

/-- A checked step of the timestamp arithmetic. -/
def assChecked (time : Text) (value : ℕ) : Except SubXError ℕ :=
  if value ≤ u64Max then .ok value
  else .error (assError ("Timestamp arithmetic overflow: ".toList ++ time))

/-- `parse_ass_time`: `H:MM:SS.cc`, with any number in each field. -/
def parseAssTime (time : Text) : Except SubXError Duration :=
  match time.splitOnP (fun c => c = ':' || c = '.') with
  | [h, m, s, c] => do
    let hours ← assField h
    let minutes ← assField m
    let seconds ← assField s
    let centi ← assField c
    let hoursMs ← assChecked time (hours * 3600000)
    let minutesMs ← assChecked time (minutes * 60000)
    let total ← assChecked time (hoursMs + minutesMs)
    let secondsMs ← assChecked time (seconds * 1000)
    let total ← assChecked time (total + secondsMs)
    let centiMs ← assChecked time (centi * 10)
    let total ← assChecked time (total + centiMs)
    return .fromMillis total
  | _ => .error (assError ("Invalid time format: ".toList ++ time))

/-- `format_ass_time`. -/
def formatAssTime (d : Duration) : Text :=
  let totalMs := d.asMillis
  decimal (totalMs / 3600000) ++ ':' :: (padded 2 (totalMs % 3600000 / 60000) ++
    ':' :: (padded 2 (totalMs % 60000 / 1000) ++ '.' :: padded 2 (totalMs % 1000 / 10)))

/-! ## Parsing -/

/-- What the parser knows between two lines. -/
structure AssState where
  inEvents : Bool
  sawEventsHeader : Bool
  fields : List Text
  entries : List SubtitleEntry
  deriving DecidableEq, Repr

/-- Before the first line. -/
def AssState.init : AssState := ⟨false, false, [], []⟩

/-- The column of a field, in any ASCII case; `label` names it in the error. -/
def assColumn (fields : List Text) (name label : Text) : Except SubXError ℕ :=
  match fields.findIdx? (eqIgnoreAsciiCase · name) with
  | some i => .ok i
  | none =>
    .error (assError ("Missing '".toList ++ label ++ "' field in Format declaration".toList))

/-- A `Dialogue:` row after its keyword, with `count` cues before it. -/
def assReadRow (fields : List Text) (count : ℕ) (row : Text) :
    Except SubXError (Option SubtitleEntry) := do
  if fields = [] then return none
  let parts := splitN ',' fields.length (trim row)
  if parts.length ≠ fields.length then return none
  let startIndex ← assColumn fields "start".toList "Start".toList
  let endIndex ← assColumn fields "end".toList "End".toList
  let textIndex ← assColumn fields "text".toList "Text".toList
  let start := trim (parts.getD startIndex [])
  let stop := trim (parts.getD endIndex [])
  if start.head? = some '-' ∨ stop.head? = some '-' then return none
  let text := replaceStr "\\N".toList ['\n'] (join [','] (parts.drop textIndex))
  if maxCueBytes < byteLen text then
    throw (assError ("Dialogue text exceeds per-cue byte cap (".toList ++ decimal (byteLen text) ++
      " > ".toList ++ decimal maxCueBytes ++ ")".toList))
  let startTime ← parseAssTime start
  let endTime ← parseAssTime stop
  return some
    { index := count + 1
      startTime := startTime
      endTime := endTime
      text := text
      styling := none }

/-- One line of the parser's loop. -/
def assStep (st : AssState) (line : Text) : Except SubXError AssState := do
  let l := trimStart line
  if eqIgnoreAsciiCase l "[events]".toList then
    return { st with inEvents := true, sawEventsHeader := true }
  if ¬ st.inEvents then return st
  if l.head? = some '[' ∧ l.getLast? = some ']' then return { st with inEvents := false }
  if "format:".toList <+: toLowercase l then
    return { st with fields := ((l.drop "Format:".length).splitOn ',').map trim }
  if "dialogue:".toList <+: toLowercase l then
    match ← assReadRow st.fields st.entries.length (l.drop "Dialogue:".length) with
    | none => return st
    | some entry => return { st with entries := st.entries ++ [entry] }
  return st

/-- `AssFormat::parse`. -/
def assParse (content : Text) : Except SubXError Subtitle := do
  let content := stripPrefix bom content
  if trim content = [] then throw (assError "Empty input".toList)
  let st ← (lines content).foldlM assStep .init
  if ¬ st.sawEventsHeader then throw (assError "Missing [Events] section".toList)
  return parsedSubtitle .ass st.entries

/-! ## Serializing -/

/-- The lines before the first row. -/
def assHeader : List Text :=
  ["[Script Info]".toList,
    "; Script generated by SubX".toList,
    "ScriptType: v4.00+".toList,
    [],
    "[V4+ Styles]".toList,
    "Format: Name,Fontname,Fontsize,PrimaryColour,SecondaryColour,OutlineColour,BackColour,".toList ++
      "Bold,Italic,Underline,StrikeOut,ScaleX,ScaleY,Spacing,Angle,BorderStyle,Outline,".toList ++
      "Shadow,Alignment,MarginL,MarginR,MarginV,Encoding".toList,
    "Style: Default,Arial,20,&H00FFFFFF,&H000000FF,&H00000000,&H00000000,0,0,0,0,".toList ++
      "100,100,0,0,1,2,0,2,10,10,10,1".toList,
    [],
    "[Events]".toList,
    "Format: Layer,Start,End,Style,Name,MarginL,MarginR,MarginV,Effect,Text".toList]

/-- The row of a cue. -/
def assRow (entry : SubtitleEntry) : Text :=
  "Dialogue: 0,".toList ++ formatAssTime entry.startTime ++ ",".toList ++
    formatAssTime entry.endTime ++ ",Default,,0000,0000,0000,,".toList ++
    replaceChar '\n' "\\N".toList entry.text

/-- `AssFormat::serialize`. It does not fail. -/
def assSerialize (subtitle : Subtitle) : Text :=
  (assHeader ++ subtitle.entries.map assRow).flatMap (· ++ ['\n'])

end SubxCore
