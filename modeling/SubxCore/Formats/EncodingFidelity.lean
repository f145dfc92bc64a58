import SubxCore.Formats.CodePages
/-!
# Converted text and its validation

A conversion is faithful when its text is the decoding of the bytes in the encoding of
the character set, and when it is only validated if the bytes were well formed in it.
UTF-8 has a path of its own that never reports an error, ISO-8859-1 is decoded with the
table of ISO-8859-2, and for all but UTF-8 a byte-order mark overrules the character set.
-/

namespace SubxCore

open Text

/-! ## Validation -/

/-- `ValidationResult`. -/
structure ConversionValidation where
  isValid : Bool
  confidence : ℚ
  warnings : List Text
  deriving DecidableEq

/-- `generate_warnings`. -/
def EncodingConverter.generateWarnings (result : EncodingConversion) : List Text :=
  (if result.hadErrors then
    ["Encoding conversion had ".toList ++ Decimal.decimal result.errorCount ++
      " replacement characters".toList]
  else []) ++
  if result.bytesProcessed / 10 < result.errorCount then
    ["High error rate detected - encoding may be incorrect".toList]
  else []

/-- `validate_conversion`. -/
def EncodingConverter.validateConversion (result : EncodingConversion) : ConversionValidation where
  isValid := !result.hadErrors || result.errorCount = 0
  confidence :=
    if result.hadErrors then 1 - result.errorCount / byteLen result.convertedText else 1
  warnings := EncodingConverter.generateWarnings result

/-! ## What is due -/

variable (large : LargeDecoders)

/-- The decoding of bytes in the encoding that a character set names, and whether they are
malformed in it. -/
def namedDecoding : Charset → Bytes → Option (Text × Bool)
  | .utf8, data => some (decodeUtf8Lossy data)
  | .gbk, data => some (large.gbk data)
  | .shiftJis, data => some (large.shiftJis data)
  | .big5, data => some (large.big5 data)
  | .iso88591, data => some (data.map latin1Char, false)
  | .windows1252, data => some (data.map windows1252Char, false)
  | _, _ => none

/-- A conversion with the text that is due, which is only valid if nothing was malformed. -/
def Faithful (charset : Charset) (data : Bytes) : Prop :=
  ∃ result text malformed,
    convertToUtf8 (encodingDecode large) data charset = .ok result ∧
    namedDecoding large charset data = some (text, malformed) ∧
    result.convertedText = text ∧
    ((EncodingConverter.validateConversion result).isValid = true → malformed = false)

/-- Where a mark is followed by the very text that is due, and by an error if one is. -/
def MarkHarmless (decoded due : Text × Bool) : Prop :=
  decoded.1 = due.1 ∧ (due.2 = true → decoded.2 = true)

/-- What a character set is converted faithfully on: UTF-8 where it is well formed, ISO-8859-1
where there is no mark and ISO-8859-2 agrees on every byte, Windows-1252 where there is no mark,
and the others where there is none or one that does no harm. -/
def Convertible : Charset → Bytes → Prop
  | .utf8, data => (fromUtf8 data).isSome
  | .iso88591, data => decodeBom data = none ∧ ∀ b ∈ data, iso88592Char b = latin1Char b
  | .windows1252, data => decodeBom data = none
  | .gbk, data => ∀ decoded ∈ decodeBom data, MarkHarmless decoded (large.gbk data)
  | .shiftJis, data => ∀ decoded ∈ decodeBom data, MarkHarmless decoded (large.shiftJis data)
  | .big5, data => ∀ decoded ∈ decodeBom data, MarkHarmless decoded (large.big5 data)
  | _, _ => False

variable {large} {charset : Charset} {encoding : Encoding} {data : Bytes}
variable {decoded due : Text × Bool}

/-! ## The conversion -/

/-- All but UTF-8 is converted by the decoder. -/
theorem convertToUtf8_of_decoder (decode : Decoder) (hutf8 : charset ≠ .utf8)
    (hencoding : encodingMap charset = some encoding) : convertToUtf8 decode data charset =
      .ok ⟨(decode encoding data).1, charset, .utf8, data.length, (decode encoding data).2,
        if (decode encoding data).2 then (decode encoding data).1.count '\uFFFD' else 0⟩ := by
  rw [convertToUtf8, if_neg hutf8, hencoding]

/-- What the decoder gives is faithful where it is the text that is due and it flags what is
malformed. -/
theorem faithful_iff_decoded (hutf8 : charset ≠ .utf8)
    (hencoding : encodingMap charset = some encoding)
    (hnamed : namedDecoding large charset data = some due)
    (hreplaces : due.2 = true → '\uFFFD' ∈ due.1) :
    Faithful large charset data ↔ MarkHarmless (encodingDecode large encoding data) due := by
  rw [Faithful, hnamed, convertToUtf8_of_decoder _ hutf8 hencoding]
  generalize encodingDecode large encoding data = decoded
  constructor
  · rintro ⟨result, text, malformed, hresult, hdue, htext, hvalid⟩
    obtain rfl := Except.ok.inj hresult
    obtain rfl := Option.some.inj hdue
    refine ⟨htext, fun hmalformed => ?_⟩
    by_contra hflag
    rw [Bool.not_eq_true] at hflag
    rw [hvalid (by simp [EncodingConverter.validateConversion, hflag])] at hmalformed
    cases hmalformed
  · rintro ⟨htext, hflag⟩
    refine ⟨_, due.1, due.2, rfl, rfl, htext, fun hvalid => ?_⟩
    by_contra hmalformed
    rw [Bool.not_eq_false] at hmalformed
    -- what is flagged is replaced, so it is counted
    have hcount : 0 < decoded.1.count '\uFFFD' := by
      rw [htext]
      exact List.count_pos_iff.2 (hreplaces hmalformed)
    simp [EncodingConverter.validateConversion, hflag hmalformed] at hvalid
    omega

theorem encodingDecode_of_mark (h : decodeBom data = some decoded) :
    encodingDecode large encoding data = decoded := by
  rw [encodingDecode, h, Option.getD_some]

theorem encodingDecode_of_no_mark (h : decodeBom data = none) :
    encodingDecode large encoding data = decodeWithoutBom large encoding data := by
  rw [encodingDecode, h, Option.getD_none]

/-- With a decoder of its own a character set is converted faithfully where a mark does no
harm. -/
theorem markHarmless_encodingDecode_iff (hown : decodeWithoutBom large encoding data = due) :
    MarkHarmless (encodingDecode large encoding data) due ↔
      ∀ decoded ∈ decodeBom data, MarkHarmless decoded due := by
  rcases hmark : decodeBom data with - | decoded
  · rw [encodingDecode_of_no_mark hmark, hown]
    exact iff_of_true ⟨rfl, id⟩ fun decoded h => by cases h
  · rw [encodingDecode_of_mark hmark]
    exact ⟨fun h decoded' heq => Option.some.inj heq ▸ h, fun h => h decoded rfl⟩

/-- A text of as many characters as bytes is not what follows a mark. -/
theorem decodeBom_eq_none_of_markHarmless {table : UInt8 → Char}
    (h : MarkHarmless (encodingDecode large encoding data) (data.map table, false)) :
    decodeBom data = none := by
  by_contra hmark
  obtain ⟨decoded, hdecoded⟩ := Option.ne_none_iff_exists'.1 hmark
  rw [encodingDecode_of_mark hdecoded] at h
  have hlt := length_lt_of_decodeBom hdecoded
  rw [h.1, List.length_map] at hlt
  exact Nat.lt_irrefl _ hlt

/-! ## Character set by character set -/

theorem faithful_utf8_iff : Faithful large .utf8 data ↔ (fromUtf8 data).isSome := by
  have hconvert : convertToUtf8 (encodingDecode large) data .utf8 =
      .ok ⟨fromUtf8Lossy data, .utf8, .utf8, data.length, false, 0⟩ := if_pos rfl
  rw [Faithful, hconvert]
  constructor
  · rintro ⟨result, text, malformed, hresult, hdue, -, hvalid⟩
    obtain rfl := Except.ok.inj hresult
    obtain ⟨rfl, rfl⟩ := Prod.mk.inj (Option.some.inj hdue)
    have hsome : (fromUtf8 data).isNone = false := hvalid rfl
    simpa using hsome
  · intro hsome
    exact ⟨_, _, _, rfl, rfl, rfl, fun _ => by simpa using hsome⟩

theorem faithful_windows1252_iff : Faithful large .windows1252 data ↔ decodeBom data = none := by
  rw [faithful_iff_decoded (by decide) rfl rfl (fun h => by cases h)]
  refine ⟨decodeBom_eq_none_of_markHarmless, fun hmark => ?_⟩
  rw [encodingDecode_of_no_mark hmark]
  exact ⟨rfl, id⟩

theorem faithful_iso88591_iff : Faithful large .iso88591 data ↔
    decodeBom data = none ∧ ∀ b ∈ data, iso88592Char b = latin1Char b := by
  rw [faithful_iff_decoded (by decide) rfl rfl (fun h => by cases h)]
  constructor
  · intro h
    have hmark := decodeBom_eq_none_of_markHarmless h
    rw [encodingDecode_of_no_mark hmark] at h
    exact ⟨hmark, List.map_inj_left.1 h.1⟩
  · rintro ⟨hmark, hagree⟩
    rw [encodingDecode_of_no_mark hmark]
    exact ⟨List.map_inj_left.2 hagree, id⟩

/-! ## All character sets -/

/-- **The converter is faithful exactly on what is convertible.** -/
theorem faithful_iff_convertible (large : LargeDecoders) (charset : Charset) (data : Bytes)
    (hmap : (encodingMap charset).isSome) :
    Faithful large charset data ↔ Convertible large charset data := by
  cases charset with
  | utf8 => exact faithful_utf8_iff
  | gbk =>
    rw [faithful_iff_decoded (by decide) rfl rfl (large.gbk_replaces data)]
    exact markHarmless_encodingDecode_iff rfl
  | shiftJis =>
    rw [faithful_iff_decoded (by decide) rfl rfl (large.shiftJis_replaces data)]
    exact markHarmless_encodingDecode_iff rfl
  | big5 =>
    rw [faithful_iff_decoded (by decide) rfl rfl (large.big5_replaces data)]
    exact markHarmless_encodingDecode_iff rfl
  | iso88591 => exact faithful_iso88591_iff
  | windows1252 => exact faithful_windows1252_iff
  | utf16Le | utf16Be | utf32Le | utf32Be | euckr | unknown => cases hmap

/-- A decoder that knows ASCII. -/
def asciiOnly (data : Bytes) : Text × Bool :=
  (data.map fun b => if b < 0x80 then Char.ofNat b.toNat else '\uFFFD', data.any (0x80 ≤ ·))

theorem asciiOnly_replaces (data : Bytes) (h : (asciiOnly data).2 = true) :
    '\uFFFD' ∈ (asciiOnly data).1 := by
  obtain ⟨b, hb, hhigh⟩ := List.any_eq_true.1 h
  have hhigh : ¬ b < 0x80 := UInt8.not_lt.2 (of_decide_eq_true hhigh)
  exact List.mem_map.2 ⟨b, hb, if_neg hhigh⟩

/-- Decoders of ASCII, which all large encodings contain. -/
def asciiOnlyDecoders : LargeDecoders where
  gbk := asciiOnly
  shiftJis := asciiOnly
  big5 := asciiOnly
  gbk_replaces := asciiOnly_replaces
  shiftJis_replaces := asciiOnly_replaces
  big5_replaces := asciiOnly_replaces

/-- ASCII is converted faithfully. -/
theorem faithful_ascii : Faithful asciiOnlyDecoders .gbk [0x61, 0x62, 0x63] :=
  (faithful_iff_convertible asciiOnlyDecoders .gbk [0x61, 0x62, 0x63] rfl).2 fun decoded h => by cases h

/-- A plus-minus sign of ISO-8859-1 becomes another letter, a lone byte is valid UTF-8, and a
mark overrules the character set. -/
theorem not_faithful : ¬ Faithful asciiOnlyDecoders .iso88591 [0xB1] ∧
    ¬ Faithful asciiOnlyDecoders .utf8 [0xFF] ∧
    ¬ Faithful asciiOnlyDecoders .windows1252 [0xEF, 0xBB, 0xBF] := by
  rw [faithful_iso88591_iff, faithful_utf8_iff, faithful_windows1252_iff]
  refine ⟨fun h => ?_, ?_, fun h => by cases h⟩
  · exact absurd (h.2 0xB1 (List.mem_singleton_self _)) (by decide +kernel)
  · decide +kernel

end SubxCore
