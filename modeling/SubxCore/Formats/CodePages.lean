import SubxCore.Formats.Encoding
/-!
# The decoders of the converter

`encoding_rs` as the converter uses it. `Encoding::decode` looks for a byte-order mark
first and then decodes what follows in the encoding of the mark, whatever it was asked
for; without one the decoder of the encoding does. The encodings of one byte a character
are tables, UTF-8 is decoded as the standard library does, and the decoders of the three
with large tables are parameters.
-/

namespace SubxCore

open Text Reader

/-! ## One byte a character -/

/-- ISO-8859-1: a byte is a code point. -/
def latin1Char (b : UInt8) : Char := Char.ofNat b.toNat

/-- The characters of ISO-8859-2 from 0xA0 on. -/
def iso88592High : Text :=
  "\u00A0Ą˘Ł¤ĽŚ§¨ŠŞŤŹ\u00ADŽŻ°ą˛ł´ľśˇ¸šşťź˝žż".toList ++
  "ŔÁÂĂÄĹĆÇČÉĘËĚÍÎĎĐŃŇÓÔŐÖ×ŘŮÚŰÜÝŢß".toList ++
  "ŕáâăäĺćçčéęëěíîďđńňóôőö÷řůúűüýţ˙".toList

/-- ISO-8859-2. -/
def iso88592Char (b : UInt8) : Char :=
  if b < 0xA0 then latin1Char b else iso88592High.getD (b.toNat - 0xA0) '\uFFFD'

/-- The characters of Windows-1252 from 0x80 to 0x9F. -/
def windows1252High : Text :=
  "€\u0081‚ƒ„…†‡ˆ‰Š‹Œ\u008DŽ\u008F\u0090‘’“”•–—˜™š›œ\u009DžŸ".toList

/-- Windows-1252. -/
def windows1252Char (b : UInt8) : Char :=
  if 0x80 ≤ b ∧ b < 0xA0 then windows1252High.getD (b.toNat - 0x80) '\uFFFD' else latin1Char b

/-! ## UTF-16 -/

/-- The first of a pair of surrogates. -/
def IsLeadSurrogate (unit : ℕ) : Prop := 0xD800 ≤ unit ∧ unit ≤ 0xDBFF

/-- The second. -/
def IsTrailSurrogate (unit : ℕ) : Prop := 0xDC00 ≤ unit ∧ unit ≤ 0xDFFF

instance : DecidablePred IsLeadSurrogate := fun _ => inferInstanceAs (Decidable (_ ∧ _))

instance : DecidablePred IsTrailSurrogate := fun _ => inferInstanceAs (Decidable (_ ∧ _))

/-- A character of UTF-16, or a replacement, and whether it is one. What the bytes end in
the middle of is replaced once. -/
def readUtf16 (unit : UInt8 → UInt8 → ℕ) : Reader UInt8 (Char × Bool)
  | [] => none
  | [_] => some (('\uFFFD', true), [])
  | a :: b :: s =>
    if IsTrailSurrogate (unit a b) then some (('\uFFFD', true), s)
    else if IsLeadSurrogate (unit a b) then
      match s with
      | c :: d :: s' =>
        if IsTrailSurrogate (unit c d) then
          let codePoint := 0x10000 + (unit a b - 0xD800) * 0x400 + (unit c d - 0xDC00)
          some ((Char.ofNat codePoint, false), s')
        else some (('\uFFFD', true), s)
      | _ => some (('\uFFFD', true), [])
    else some ((Char.ofNat (unit a b), false), s)

/-- The text of UTF-16, and whether something was malformed. -/
def decodeUtf16 (unit : UInt8 → UInt8 → ℕ) (data : Bytes) : Text × Bool :=
  let chars := scan (readUtf16 unit) data
  (chars.map Prod.fst, chars.any Prod.snd)

/-- A unit with its lower byte first. -/
def unitLe (a b : UInt8) : ℕ := a.toNat + 0x100 * b.toNat

/-- A unit with its higher byte first. -/
def unitBe (a b : UInt8) : ℕ := 0x100 * a.toNat + b.toNat

/-- The text of UTF-8, and whether something was malformed. -/
def decodeUtf8Lossy (data : Bytes) : Text × Bool := (fromUtf8Lossy data, (fromUtf8 data).isNone)

/-! ## The crate -/

/-- The decoders of the encodings with large tables. What is malformed is replaced, and
said to be. -/
structure LargeDecoders where
  gbk : Bytes → Text × Bool
  shiftJis : Bytes → Text × Bool
  big5 : Bytes → Text × Bool
  gbk_replaces : ∀ data, (gbk data).2 = true → '\uFFFD' ∈ (gbk data).1
  shiftJis_replaces : ∀ data, (shiftJis data).2 = true → '\uFFFD' ∈ (shiftJis data).1
  big5_replaces : ∀ data, (big5 data).2 = true → '\uFFFD' ∈ (big5 data).1

variable (large : LargeDecoders)

/-- What the decoder of an encoding makes of bytes. -/
def decodeWithoutBom : Decoder
  | .utf8, data => decodeUtf8Lossy data
  | .gbk, data => large.gbk data
  | .shiftJis, data => large.shiftJis data
  | .big5, data => large.big5 data
  | .windows1252, data => (data.map windows1252Char, false)
  | .iso88592, data => (data.map iso88592Char, false)

/-- What follows a byte-order mark, decoded. -/
def decodeBom : Bytes → Option (Text × Bool)
  | 0xEF :: 0xBB :: 0xBF :: rest => some (decodeUtf8Lossy rest)
  | 0xFF :: 0xFE :: rest => some (decodeUtf16 unitLe rest)
  | 0xFE :: 0xFF :: rest => some (decodeUtf16 unitBe rest)
  | _ => none

/-- `Encoding::decode`. -/
def encodingDecode : Decoder := fun encoding data =>
  (decodeBom data).getD (decodeWithoutBom large encoding data)

/-! ## How much is decoded -/

theorem length_decodeUtf16_le (unit : UInt8 → UInt8 → ℕ) (data : Bytes) :
    (decodeUtf16 unit data).1.length ≤ data.length := by
  rw [decodeUtf16, List.length_map]
  exact length_scan_le data

/-- **What follows a mark is shorter decoded than the bytes with the mark.** -/
theorem length_lt_of_decodeBom {data : Bytes} {decoded : Text × Bool}
    (h : decodeBom data = some decoded) : decoded.1.length < data.length := by
  unfold decodeBom at h
  split at h
  · next rest =>
    obtain rfl := Option.some.inj h
    have hle : (fromUtf8Lossy rest).length ≤ rest.length := length_scan_le rest
    change (fromUtf8Lossy rest).length < rest.length + 3
    omega
  · next rest =>
    obtain rfl := Option.some.inj h
    have hle := length_decodeUtf16_le unitLe rest
    change _ < rest.length + 2
    omega
  · next rest =>
    obtain rfl := Option.some.inj h
    have hle := length_decodeUtf16_le unitBe rest
    change _ < rest.length + 2
    omega
  · cases h

end SubxCore
