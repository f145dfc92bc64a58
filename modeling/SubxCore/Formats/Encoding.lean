import SubxCore.Common.Utf8
import SubxCore.Matcher.Planning
/-!
# Detecting and undoing an encoding

The detector scores six encodings by going through the bytes unit by unit
and takes the best one; the converter decodes the file with it. Four of
the scores are the share of well-formed units, three of them with the
same two-byte units. Confidences are exact, and the decoders of the
encodings other than UTF-8 are those of a crate.
-/

namespace SubxCore

open Text Reader

/-- `Charset`. -/
inductive Charset
  | utf8
  | utf16Le
  | utf16Be
  | utf32Le
  | utf32Be
  | gbk
  | shiftJis
  | iso88591
  | windows1252
  | big5
  | euckr
  | unknown
  deriving DecidableEq, Repr

/-- `EncodingInfo`. -/
structure EncodingInfo where
  charset : Charset
  confidence : ℚ
  bomDetected : Bool
  sampleText : Text
  deriving DecidableEq

/-- `EncodingCandidate`. -/
structure EncodingCandidate where
  charset : Charset
  confidence : ℚ
  deriving DecidableEq

/-- `EncodingDetector`. -/
structure EncodingDetector where
  confidenceThreshold : ℚ
  maxSampleSize : ℕ
  supportedCharsets : List Charset
  defaultEncoding : Text

namespace EncodingDetector

/-! ## Scores -/

/-- The share of the valid among some units. -/
def share (units : List Bool) : ℚ :=
  if 0 < units.length then (units.count true : ℚ) / units.length else 0

/-- A unit of `check_utf8_validity`. -/
def utf8Unit : Reader UInt8 Bool
  | [] => none
  | a :: s =>
    if a &&& 0x80 = 0 then some (true, s)
    else if a &&& 0xE0 = 0xC0 then
      match s with
      | b :: s => some (IsTail b, s)
      | _ => some (false, [])
    else if a &&& 0xF0 = 0xE0 then
      match s with
      | b :: c :: s => some (IsTail b ∧ IsTail c, s)
      | _ => some (false, [])
    else if a &&& 0xF8 = 0xF0 then
      match s with
      | b :: c :: d :: s => some (IsTail b ∧ IsTail c ∧ IsTail d, s)
      | _ => some (false, [])
    else some (false, s)

/-- `check_utf8_validity`. -/
def checkUtf8Validity (data : Bytes) : ℚ := share (scan utf8Unit data)

/-- A unit of the encodings with two bytes for what is not ASCII. -/
def pairUnit (valid : UInt8 → UInt8 → Bool) : Reader UInt8 Bool
  | [] => none
  | [a] => some (a < 0x80, [])
  | a :: b :: s => if a < 0x80 then some (true, b :: s) else some (valid a b, s)

/-- The pairs of `check_gbk_patterns`. -/
def gbkPair (byte1 byte2 : UInt8) : Bool :=
  (0x81 ≤ byte1 ∧ byte1 ≤ 0xFE) ∧ ((0x40 ≤ byte2 ∧ byte2 ≤ 0x7E) ∨ (0x80 ≤ byte2 ∧ byte2 ≤ 0xFE))

/-- The pairs of `check_shift_jis_patterns`. -/
def shiftJisPair (byte1 byte2 : UInt8) : Bool :=
  ((0x81 ≤ byte1 ∧ byte1 ≤ 0x9F) ∨ (0xE0 ≤ byte1 ∧ byte1 ≤ 0xEF)) ∧
    (0x40 ≤ byte2 ∧ byte2 ≤ 0xFC) ∧ byte2 ≠ 0x7F

/-- The pairs of `check_big5_patterns`. -/
def big5Pair (byte1 byte2 : UInt8) : Bool :=
  (0xA1 ≤ byte1 ∧ byte1 ≤ 0xFE) ∧ ((0x40 ≤ byte2 ∧ byte2 ≤ 0x7E) ∨ (0xA1 ≤ byte2 ∧ byte2 ≤ 0xFE))

/-- `check_gbk_patterns`. -/
def checkGbkPatterns (data : Bytes) : ℚ := share (scan (pairUnit gbkPair) data)

/-- `check_shift_jis_patterns`. -/
def checkShiftJisPatterns (data : Bytes) : ℚ := share (scan (pairUnit shiftJisPair) data)

/-- `check_big5_patterns`. -/
def checkBig5Patterns (data : Bytes) : ℚ := share (scan (pairUnit big5Pair) data)

/-- `check_iso88591_patterns`. -/
def checkIso88591Patterns (data : Bytes) : ℚ :=
  if ∃ b ∈ data, 0x80 ≤ b then if checkUtf8Validity data < 1 / 2 then 7 / 10 else 1 / 5
  else 1 / 2

/-- `check_windows1252_patterns`. -/
def checkWindows1252Patterns (data : Bytes) : ℚ :=
  if (∃ b ∈ data, 0x80 ≤ b ∧ b ≤ 0x9F) ∨ ∃ b ∈ data, 0xA0 ≤ b then
    if checkUtf8Validity data < 1 / 2 then 3 / 5 else 1 / 10
  else 3 / 10

/-- `calculate_encoding_confidence`, which does not fail. -/
def calculateEncodingConfidence (data : Bytes) : Charset → ℚ
  | .utf8 => checkUtf8Validity data
  | .gbk => checkGbkPatterns data
  | .shiftJis => checkShiftJisPatterns data
  | .big5 => checkBig5Patterns data
  | .iso88591 => checkIso88591Patterns data
  | .windows1252 => checkWindows1252Patterns data
  | _ => 0

/-! ## The detector -/

/-- `default_charsets`. -/
def defaultCharsets : List Charset := [.utf8, .gbk, .shiftJis, .big5, .iso88591, .windows1252]

/-- `with_defaults`. -/
def withDefaults : EncodingDetector where
  confidenceThreshold := 4 / 5
  maxSampleSize := 8192
  supportedCharsets := defaultCharsets
  defaultEncoding := "utf-8".toList

/-- `parse_charset_name`. -/
def parseCharsetName (encodingName : Text) : Charset :=
  let name := toLowercase encodingName
  if name ∈ ["utf-8".toList, "utf8".toList] then .utf8
  else if name ∈ ["utf-16le".toList, "utf16le".toList] then .utf16Le
  else if name ∈ ["utf-16be".toList, "utf16be".toList] then .utf16Be
  else if name ∈ ["utf-32le".toList, "utf32le".toList] then .utf32Le
  else if name ∈ ["utf-32be".toList, "utf32be".toList] then .utf32Be
  else if name ∈ ["gbk".toList, "gb2312".toList] then .gbk
  else if name ∈ ["shift-jis".toList, "shift_jis".toList, "sjis".toList] then .shiftJis
  else if name ∈ ["iso-8859-1".toList, "iso88591".toList, "latin1".toList] then .iso88591
  else if name ∈ ["windows-1252".toList, "windows1252".toList, "cp1252".toList] then .windows1252
  else if name ∈ ["big5".toList] then .big5
  else if name ∈ ["euc-kr".toList, "euckr".toList] then .euckr
  else .utf8

/-- `detect_bom`. -/
def detectBom (data : Bytes) : Option EncodingInfo :=
  match data with
  | 0xEF :: 0xBB :: 0xBF :: _ => some ⟨.utf8, 1, true, "UTF-8 with BOM".toList⟩
  | 0xFF :: 0xFE :: _ :: _ => some ⟨.utf16Le, 1, true, "UTF-16 LE with BOM".toList⟩
  | 0xFE :: 0xFF :: _ :: _ => some ⟨.utf16Be, 1, true, "UTF-16 BE with BOM".toList⟩
  -- the mark of UTF-32 LE starts with that of UTF-16 LE
  | 0x00 :: 0x00 :: 0xFE :: 0xFF :: _ => some ⟨.utf32Be, 1, true, "UTF-32 BE with BOM".toList⟩
  | _ => none

/-- `decode_sample`, which does not fail. -/
def decodeSample (data : Bytes) (charset : Charset) : Text :=
  let sampleData := data.take 200
  match charset with
  | .utf8 => (fromUtf8 sampleData).getD (fromUtf8Lossy sampleData)
  | _ => fromUtf8Lossy sampleData

variable (detector : EncodingDetector)

/-- `analyze_byte_patterns`. -/
def analyzeBytePatterns (data : Bytes) : List EncodingCandidate :=
  let candidates := detector.supportedCharsets.filterMap fun charset =>
    let confidence := calculateEncodingConfidence data charset
    if 1 / 10 < confidence then some ⟨charset, confidence⟩ else none
  candidates.insertionSort fun a b => b.confidence ≤ a.confidence

/-- `select_best_encoding`. -/
def selectBestEncoding (candidates : List EncodingCandidate) (data : Bytes) : EncodingInfo :=
  let defaultCharset := parseCharsetName detector.defaultEncoding
  let sample := (decodeSample data defaultCharset).take 50
  match candidates with
  | [] => ⟨defaultCharset, 1 / 10, false,
      "Unable to detect encoding, using default: ".toList ++ detector.defaultEncoding ++
        " (sample: ".toList ++ sample ++ ")".toList⟩
  | best :: _ =>
    if best.confidence < detector.confidenceThreshold then
      ⟨defaultCharset, 1 / 2, false,
        "Low confidence detection, using default: ".toList ++ detector.defaultEncoding ++
          " (sample: ".toList ++ sample ++ ")".toList⟩
    else ⟨best.charset, best.confidence, false, decodeSample data best.charset⟩

/-- `detect_encoding`, which does not fail. -/
def detectEncoding (data : Bytes) : EncodingInfo :=
  (detectBom data).getD (detector.selectBestEncoding (detector.analyzeBytePatterns data) data)

/-- `detect_file_encoding`. A read fills the buffer as far as the file goes. -/
def detectFileEncoding (files : FileSystem) (filePath : Path) : Except SubXError EncodingInfo := do
  checkFileSize files filePath 52428800 "Subtitle".toList
  let buffer := ((files filePath).getD []).take detector.maxSampleSize
  return detector.detectEncoding buffer

end EncodingDetector

/-! ## The converter -/

/-- The encodings that the converter knows. -/
inductive Encoding
  | utf8
  | gbk
  | shiftJis
  | big5
  | windows1252
  | iso88592
  deriving DecidableEq

/-- What the decoder of an encoding makes of bytes, and whether it met errors. -/
abbrev Decoder := Encoding → Bytes → Text × Bool

/-- `ConversionResult` of the encoding converter. -/
structure EncodingConversion where
  convertedText : Text
  originalEncoding : Charset
  targetEncoding : Charset
  bytesProcessed : ℕ
  hadErrors : Bool
  errorCount : ℕ

/-- The encoding map of the converter. -/
def encodingMap : Charset → Option Encoding
  | .utf8 => some .utf8
  | .gbk => some .gbk
  | .shiftJis => some .shiftJis
  | .big5 => some .big5
  | .windows1252 => some .windows1252
  | .iso88591 => some .iso88592
  | _ => none

/-- The name of a character set in a message. -/
def Charset.debug : Charset → Text
  | .utf8 => "Utf8".toList
  | .utf16Le => "Utf16Le".toList
  | .utf16Be => "Utf16Be".toList
  | .utf32Le => "Utf32Le".toList
  | .utf32Be => "Utf32Be".toList
  | .gbk => "Gbk".toList
  | .shiftJis => "ShiftJis".toList
  | .iso88591 => "Iso88591".toList
  | .windows1252 => "Windows1252".toList
  | .big5 => "Big5".toList
  | .euckr => "Euckr".toList
  | .unknown => "Unknown".toList

variable (decode : Decoder)

/-- `convert_to_utf8`. -/
def convertToUtf8 (data : Bytes) (sourceEncoding : Charset) : Except SubXError EncodingConversion :=
  if sourceEncoding = .utf8 then
    .ok ⟨fromUtf8Lossy data, .utf8, .utf8, data.length, false, 0⟩
  else
    match encodingMap sourceEncoding with
    | none => .error (.other ("Unsupported encoding: ".toList ++ sourceEncoding.debug))
    | some encoding =>
      let (converted, hadErrors) := decode encoding data
      let errorCount := if hadErrors then converted.count '\uFFFD' else 0
      .ok ⟨converted, sourceEncoding, .utf8, data.length, hadErrors, errorCount⟩

/-- `skip_bom`. -/
def skipBom (data : Bytes) (charset : Charset) : Bytes :=
  match charset with
  | .utf8 => (data.dropPrefix? [0xEF, 0xBB, 0xBF]).getD data
  | .utf16Le => (data.dropPrefix? [0xFF, 0xFE]).getD data
  | .utf16Be => (data.dropPrefix? [0xFE, 0xFF]).getD data
  | .utf32Le => (data.dropPrefix? [0xFF, 0xFE, 0x00, 0x00]).getD data
  | .utf32Be => (data.dropPrefix? [0x00, 0x00, 0xFE, 0xFF]).getD data
  | _ => data

/-- `convert_file_to_utf8`. -/
def convertFileToUtf8 (files : FileSystem) (filePath : Path) (encodingInfo : EncodingInfo) :
    Except SubXError EncodingConversion := do
  checkFileSize files filePath 52428800 "Subtitle".toList
  let data := (files filePath).getD []
  let slice := if encodingInfo.bomDetected then skipBom data encodingInfo.charset else data
  convertToUtf8 decode slice encodingInfo.charset

/-! ## Reading a subtitle -/

/-- `read_subtitle_with_encoding_detection`. -/
def readSubtitleWithEncodingDetection (files : FileSystem) (filePath : Path) :
    Except SubXError Text := do
  checkFileSize files filePath 52428800 "Subtitle".toList
  let info ← EncodingDetector.withDefaults.detectFileEncoding files filePath
  let result ← convertFileToUtf8 decode files filePath info
  return result.convertedText

/-- `read_file_with_encoding`. -/
def readFileWithEncoding (files : FileSystem) (path : Path) : Except SubXError Text := do
  checkFileSize files path 52428800 "Subtitle".toList
  let bytes := (files path).getD []
  let info := EncodingDetector.withDefaults.detectEncoding bytes
  let conversion ← convertToUtf8 decode bytes info.charset
  return conversion.convertedText

end SubxCore
