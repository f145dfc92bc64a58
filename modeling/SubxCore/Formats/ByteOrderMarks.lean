import SubxCore.Formats.Encoding
/-!
# Byte-order marks

A file that starts with a byte-order mark is of the encoding of that mark, and its
text begins behind it. The detector looks at three bytes before it looks at four,
so a mark of two bytes is not seen where nothing follows it, and the mark of
UTF-32 LE is always taken for that of UTF-16 LE (`markAgreed_iff`).
-/

namespace SubxCore

open EncodingDetector

/-- The byte-order marks. -/
def byteOrderMark : Charset → Option Bytes
  | .utf8 => some [0xEF, 0xBB, 0xBF]
  | .utf16Le => some [0xFF, 0xFE]
  | .utf16Be => some [0xFE, 0xFF]
  | .utf32Le => some [0xFF, 0xFE, 0x00, 0x00]
  | .utf32Be => some [0x00, 0x00, 0xFE, 0xFF]
  | _ => none

variable {detector : EncodingDetector} {candidates : List EncodingCandidate} {data mark r : Bytes}
variable {charset : Charset} {info : EncodingInfo}

/-- **Detector and converter agree on where the text begins**: the detector finds the
encoding of the mark, and the converter skips the mark and nothing else. -/
structure MarkAgreed (detector : EncodingDetector) (charset : Charset) (mark r : Bytes) : Prop where
  charset_eq : (detector.detectEncoding (mark ++ r)).charset = charset
  bomDetected : (detector.detectEncoding (mark ++ r)).bomDetected = true
  skipped : skipBom (mark ++ r) charset = r

/-! ## The detector -/

/-- What is told from patterns has no mark. -/
theorem bomDetected_selectBestEncoding :
    (detector.selectBestEncoding candidates data).bomDetected = false := by
  unfold selectBestEncoding
  cases candidates with
  | nil => rfl
  | cons best rest =>
    dsimp only
    split <;> rfl

theorem detectEncoding_of_mark (h : detectBom data = some info) :
    detector.detectEncoding data = info := by
  rw [detectEncoding, h, Option.getD_some]

theorem bomDetected_eq_false (h : detectBom data = none) :
    (detector.detectEncoding data).bomDetected = false := by
  rw [detectEncoding, h, Option.getD_none, bomDetected_selectBestEncoding]

/-! ## The converter -/

/-- The mark of an encoding is skipped, and nothing behind it. -/
theorem skipBom_append (h : byteOrderMark charset = some mark) (r : Bytes) :
    skipBom (mark ++ r) charset = r := by
  cases charset <;> cases h <;> simp [skipBom, List.dropPrefix?]

/-! ## The result -/

/-- **Detector and converter agree exactly** where the mark is not that of UTF-32 LE and,
if it has two bytes, something follows it. -/
theorem markAgreed_iff (detector : EncodingDetector) (charset : Charset) (mark r : Bytes)
    (hmark : byteOrderMark charset = some mark) :
    MarkAgreed detector charset mark r ↔
      charset ≠ .utf32Le ∧ (charset = .utf16Le ∨ charset = .utf16Be → r ≠ []) := by
  have hskip := skipBom_append hmark r
  have hfound {info : EncodingInfo} (h : detectBom (mark ++ r) = some info)
      (hbom : info.bomDetected = true) :
      MarkAgreed detector charset mark r ↔ info.charset = charset := by
    have hinfo : detector.detectEncoding (mark ++ r) = info := detectEncoding_of_mark h
    exact ⟨fun hagreed => hinfo ▸ hagreed.charset_eq,
      fun heq => ⟨hinfo ▸ heq, hinfo ▸ hbom, hskip⟩⟩
  have hmissed (h : detectBom (mark ++ r) = none) : ¬ MarkAgreed detector charset mark r :=
    fun hagreed => by
      have hbom := hagreed.bomDetected
      rw [bomDetected_eq_false h] at hbom
      cases hbom
  cases charset with
  | utf8 =>
    cases hmark
    rw [hfound rfl rfl]
    simp
  | utf32Be =>
    cases hmark
    rw [hfound rfl rfl]
    simp
  | utf32Le =>
    -- the first two bytes are the mark of another encoding
    cases hmark
    rw [hfound rfl rfl]
    simp
  | utf16Le =>
    cases hmark
    cases r with
    | nil => simpa using hmissed rfl
    | cons b r =>
      rw [hfound rfl rfl]
      simp
  | utf16Be =>
    cases hmark
    cases r with
    | nil => simpa using hmissed rfl
    | cons b r =>
      rw [hfound rfl rfl]
      simp
  | _ => cases hmark

/-- A UTF-8 file, for the detector with its defaults. -/
theorem markAgreed_iff_utf8 :
    MarkAgreed withDefaults .utf8 [0xEF, 0xBB, 0xBF] [0x31] ↔
      Charset.utf8 ≠ .utf32Le ∧
        (Charset.utf8 = .utf16Le ∨ Charset.utf8 = .utf16Be → ([0x31] : Bytes) ≠ []) :=
  markAgreed_iff withDefaults .utf8 [0xEF, 0xBB, 0xBF] [0x31] rfl

/-- **A file in UTF-32 LE is taken for one in UTF-16 LE**, whose mark is shorter, and one in
UTF-16 with nothing in it has no mark. -/
theorem utf32Le_not_markAgreed :
    ¬ MarkAgreed withDefaults .utf32Le [0xFF, 0xFE, 0x00, 0x00] [0x31, 0x00, 0x00, 0x00] ∧
      ¬ MarkAgreed withDefaults .utf16Le [0xFF, 0xFE] [] := by
  refine ⟨fun h => ?_, fun h => ?_⟩
  · have hcharset := h.charset_eq
    rw [detectEncoding_of_mark rfl] at hcharset
    cases hcharset
  · have hbom := h.bomDetected
    rw [bomDetected_eq_false rfl] at hbom
    cases hbom

end SubxCore
