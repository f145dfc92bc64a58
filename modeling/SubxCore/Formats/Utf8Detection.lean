import SubxCore.Formats.Encoding
import Mathlib.Tactic.IntervalCases
import Mathlib.Tactic.Linarith
/-!
# Detecting UTF-8

A UTF-8 file is read back as it is where UTF-8 is detected. In the whole
file every unit is a character, and UTF-8 wins; in the first bytes of it the
last character may be cut, which makes its score less than one, and then it
loses to GBK where GBK finds fewer malformed units. No other encoding can
win, as the pairs of each are pairs of GBK.
-/

namespace SubxCore

open Text Reader

namespace EncodingDetector

variable {data s : Bytes} {t : Text} {n : ℕ}

/-! ## Units of UTF-8 -/

/-- The four kinds of first bytes are told apart. -/
theorem lead_apart : ∀ a : UInt8, (a &&& 0xE0 = 0xC0 → a &&& 0x80 ≠ 0) ∧
    (a &&& 0xF0 = 0xE0 → a &&& 0x80 ≠ 0 ∧ a &&& 0xE0 ≠ 0xC0) ∧
    (a &&& 0xF8 = 0xF0 → a &&& 0x80 ≠ 0 ∧ a &&& 0xE0 ≠ 0xC0 ∧ a &&& 0xF0 ≠ 0xE0) :=
  forall_uint8 (by decide +kernel)

theorem utf8Unit_append {l : Bytes} (h : CharBytes l) (s : Bytes) :
    utf8Unit (l ++ s) = some (true, s) := by
  cases h with
  | one ha => simp [utf8Unit, ha]
  | two ha hb => simp [utf8Unit, ha, hb, (lead_apart _).1 ha]
  | three ha hb hc => simp [utf8Unit, ha, hb, hc, (lead_apart _).2.1 ha]
  | four ha hb hc hd => simp [utf8Unit, ha, hb, hc, hd, (lead_apart _).2.2 ha]

theorem utf8Unit_take {l : Bytes} (h : CharBytes l) (hn : 0 < n) (hlt : n < l.length) :
    utf8Unit (l.take n) = some (false, []) := by
  cases h with
  | one ha => exact absurd hlt (by simp; omega)
  | two ha hb =>
    obtain rfl : n = 1 := by simp at hlt; omega
    simp [utf8Unit, ha, (lead_apart _).1 ha]
  | three ha hb hc =>
    obtain rfl | rfl : n = 1 ∨ n = 2 := by simp at hlt; omega
    · simp [utf8Unit, ha, (lead_apart _).2.1 ha]
    · simp [utf8Unit, ha, (lead_apart _).2.1 ha]
  | four ha hb hc hd =>
    obtain rfl | rfl | rfl : n = 1 ∨ n = 2 ∨ n = 3 := by simp at hlt; omega
    · simp [utf8Unit, ha, (lead_apart _).2.2 ha]
    · simp [utf8Unit, ha, (lead_apart _).2.2 ha]
    · simp [utf8Unit, ha, (lead_apart _).2.2 ha]

/-- The units in the first bytes of a text. -/
theorem scan_utf8Unit_take (n : ℕ) (t : Text) : scan utf8Unit ((utf8 t).take n) =
    if cuts n t then List.replicate (begun n t - 1) true ++ [false]
    else List.replicate (begun n t) true := by
  refine scan_take_utf8 (fun c s => utf8Unit_append (charBytes_utf8EncodeChar c) s) ?_ n t
  intro c m hm hlt
  rw [← String.length_utf8EncodeChar c] at hlt
  exact utf8Unit_take (charBytes_utf8EncodeChar c) hm hlt

theorem begun_pos (hn : 0 < n) (ht : t ≠ []) : 0 < begun n t := by
  obtain ⟨m, rfl⟩ := Nat.exists_eq_succ_of_ne_zero hn.ne'
  obtain ⟨c, t, rfl⟩ := List.exists_cons_of_ne_nil ht
  rw [begun]
  exact Nat.succ_pos _

/-- **The score of UTF-8**: all units but the one that is cut are valid. -/
theorem checkUtf8Validity_take (hn : 0 < n) (ht : t ≠ []) :
    checkUtf8Validity ((utf8 t).take n) =
      if cuts n t then ((begun n t : ℚ) - 1) / begun n t else 1 := by
  have hpos := begun_pos hn ht
  have hne : (begun n t : ℚ) ≠ 0 := by exact_mod_cast hpos.ne'
  rw [checkUtf8Validity, scan_utf8Unit_take]
  by_cases hcuts : cuts n t = true
  · obtain ⟨m, hm⟩ := Nat.exists_eq_succ_of_ne_zero hpos.ne'
    rw [if_pos hcuts, if_pos hcuts, hm]
    simp [share]
  · rw [if_neg hcuts, if_neg hcuts]
    simp [share, hpos, hne]

/-! ## Units of two bytes -/

/-- Bytes as they are taken apart where what is not ASCII has two of them. -/
def pairs : Bytes → List Bytes
  | [] => []
  | [a] => [[a]]
  | a :: b :: s => if a < 0x80 then [a] :: pairs (b :: s) else [a, b] :: pairs s

/-- A unit that is ASCII or a valid pair. -/
def wellFormed (valid : UInt8 → UInt8 → Bool) : Bytes → Bool
  | [a] => a < 0x80
  | [a, b] => valid a b
  | _ => false

theorem scan_pairUnit (valid : UInt8 → UInt8 → Bool) (s : Bytes) :
    scan (pairUnit valid) s = (pairs s).map (wellFormed valid) := by
  fun_induction pairs s with
  | case1 => rfl
  | case2 a => rfl
  | case3 a b s hascii ih =>
    have hread : pairUnit valid ([a] ++ (b :: s)) = some (true, b :: s) := if_pos hascii
    have hunit : wellFormed valid [a] = true := decide_eq_true hascii
    rw [List.map_cons, ← ih, hunit]
    exact scan_append_of_read (List.cons_ne_nil a []) hread
  | case4 a b s hascii ih =>
    have hread : pairUnit valid ([a, b] ++ s) = some (valid a b, s) := if_neg hascii
    rw [List.map_cons, ← ih]
    exact scan_append_of_read (List.cons_ne_nil a [b]) hread

/-- The share of the well-formed among the units. -/
theorem share_pairs (valid : UInt8 → UInt8 → Bool) (s : Bytes) :
    share (scan (pairUnit valid) s) = if 0 < (pairs s).length then
      ((pairs s).countP (wellFormed valid) : ℚ) / (pairs s).length else 0 := by
  rw [scan_pairUnit, share, List.length_map, List.count, List.countP_map]
  simp [Function.comp_def]

/-- More valid pairs make a better score. -/
theorem share_pairs_mono {valid valid' : UInt8 → UInt8 → Bool}
    (h : ∀ a b, valid a b = true → valid' a b = true) (s : Bytes) :
    share (scan (pairUnit valid) s) ≤ share (scan (pairUnit valid') s) := by
  have hunit : ∀ u : Bytes, wellFormed valid u = true → wellFormed valid' u = true := by
    intro u
    match u with
    | [] => exact id
    | [a] => exact id
    | [a, b] => exact h a b
    | _ :: _ :: _ :: _ => exact id
  have hcount := List.countP_mono_left (l := pairs s) fun u _ => hunit u
  rw [share_pairs, share_pairs]
  split
  · gcongr
  · exact le_rfl

theorem checkShiftJisPatterns_le : checkShiftJisPatterns data ≤ checkGbkPatterns data := by
  refine share_pairs_mono (fun a b h => ?_) data
  simp only [shiftJisPair, gbkPair, decide_eq_true_eq, UInt8.le_iff_toNat_le, ne_eq,
    ← UInt8.toNat_inj, UInt8.reduceToNat] at h ⊢
  omega

theorem checkBig5Patterns_le : checkBig5Patterns data ≤ checkGbkPatterns data := by
  refine share_pairs_mono (fun a b h => ?_) data
  simp only [big5Pair, gbkPair, decide_eq_true_eq, UInt8.le_iff_toNat_le,
    UInt8.reduceToNat] at h ⊢
  omega

/-! ## The best encoding -/

/-- The two encodings with one byte for each character score low beside a good score of
UTF-8. -/
theorem checkIso88591Patterns_le (h : 4 / 5 ≤ checkUtf8Validity data) :
    checkIso88591Patterns data ≤ 1 / 2 := by
  have hhalf : ¬ checkUtf8Validity data < 1 / 2 := by linarith
  rw [checkIso88591Patterns, if_neg hhalf]
  split <;> norm_num

theorem checkWindows1252Patterns_le (h : 4 / 5 ≤ checkUtf8Validity data) :
    checkWindows1252Patterns data ≤ 1 / 2 := by
  have hhalf : ¬ checkUtf8Validity data < 1 / 2 := by linarith
  rw [checkWindows1252Patterns, if_neg hhalf]
  split <;> norm_num

/-- No score but that of GBK can be above a good score of UTF-8. -/
theorem confidence_le (h : 4 / 5 ≤ checkUtf8Validity data)
    (hgbk : checkGbkPatterns data ≤ checkUtf8Validity data) (charset : Charset) :
    calculateEncodingConfidence data charset ≤ checkUtf8Validity data := by
  unfold calculateEncodingConfidence
  split
  · exact le_rfl
  · exact hgbk
  · exact checkShiftJisPatterns_le.trans hgbk
  · exact checkBig5Patterns_le.trans hgbk
  · exact (checkIso88591Patterns_le h).trans (by linarith)
  · exact (checkWindows1252Patterns_le h).trans (by linarith)
  · linarith

/-- The candidates for some bytes, before they are sorted. -/
def candidatesFor (data : Bytes) (charsets : List Charset) : List EncodingCandidate :=
  charsets.filterMap fun charset =>
    let confidence := calculateEncodingConfidence data charset
    if 1 / 10 < confidence then some ⟨charset, confidence⟩ else none

theorem mem_candidatesFor {charsets : List Charset} {candidate : EncodingCandidate} :
    candidate ∈ candidatesFor data charsets ↔ candidate.charset ∈ charsets ∧
      candidate.confidence = calculateEncodingConfidence data candidate.charset ∧
        1 / 10 < candidate.confidence := by
  rw [candidatesFor, List.mem_filterMap]
  constructor
  · rintro ⟨charset, hmem, h⟩
    dsimp only at h
    split at h
    · next hlow =>
      cases h
      exact ⟨hmem, rfl, hlow⟩
    · cases h
  · rintro ⟨hmem, hconf, hlow⟩
    refine ⟨candidate.charset, hmem, ?_⟩
    dsimp only
    rw [← hconf, if_pos hlow]

/-- The first of the sorted candidates is one of them, and none of them scores better. -/
theorem analyzeBytePatterns_cons {detector : EncodingDetector} {best : EncodingCandidate}
    {rest : List EncodingCandidate} (h : detector.analyzeBytePatterns data = best :: rest) :
    best ∈ candidatesFor data detector.supportedCharsets ∧
      ∀ candidate ∈ candidatesFor data detector.supportedCharsets,
        candidate.confidence ≤ best.confidence := by
  let order := fun a b : EncodingCandidate => b.confidence ≤ a.confidence
  have : Std.Total order := ⟨fun a b => le_total b.confidence a.confidence⟩
  have : IsTrans EncodingCandidate order := ⟨fun _ _ _ hab hbc => hbc.trans hab⟩
  have hsorted := List.pairwise_insertionSort order
    (candidatesFor data detector.supportedCharsets)
  have hmem {candidate : EncodingCandidate} := List.mem_insertionSort (x := candidate) order
    (l := candidatesFor data detector.supportedCharsets)
  have heq : (candidatesFor data detector.supportedCharsets).insertionSort order = best :: rest := h
  rw [heq] at hsorted hmem
  refine ⟨hmem.1 List.mem_cons_self, fun candidate hcandidate => ?_⟩
  rcases List.mem_cons.1 (hmem.2 hcandidate) with rfl | hrest
  · exact le_rfl
  · exact List.rel_of_pairwise_cons hsorted hrest

/-- **UTF-8 is detected exactly when GBK does not score better**, where it has a good score
itself. -/
theorem detectEncoding_charset_eq_utf8_iff (hbom : detectBom data = none)
    (h : 4 / 5 ≤ checkUtf8Validity data) :
    (withDefaults.detectEncoding data).charset = .utf8 ↔
      checkGbkPatterns data ≤ checkUtf8Validity data := by
  rw [detectEncoding, hbom, Option.getD_none]
  constructor
  · intro hutf8
    by_contra hgbk
    rw [not_le] at hgbk
    have hmem : ⟨.gbk, checkGbkPatterns data⟩ ∈ candidatesFor data withDefaults.supportedCharsets :=
      mem_candidatesFor.2 ⟨by simp [withDefaults, defaultCharsets], rfl, by dsimp only; linarith⟩
    rcases hlist : withDefaults.analyzeBytePatterns data with - | ⟨best, rest⟩
    · have hnil : ⟨.gbk, checkGbkPatterns data⟩ ∈ withDefaults.analyzeBytePatterns data :=
        (List.mem_insertionSort _).2 hmem
      rw [hlist] at hnil
      exact absurd hnil List.not_mem_nil
    · obtain ⟨hbest, hmax⟩ := analyzeBytePatterns_cons hlist
      have hle : checkGbkPatterns data ≤ best.confidence := hmax _ hmem
      have hthreshold : ¬ best.confidence < withDefaults.confidenceThreshold := by
        change ¬ best.confidence < 4 / 5
        linarith
      rw [hlist, selectBestEncoding, if_neg hthreshold] at hutf8
      -- the only candidate for UTF-8 has its score
      have hconf : best.confidence = checkUtf8Validity data := by
        have hcharset : best.charset = .utf8 := hutf8
        rw [(mem_candidatesFor.1 hbest).2.1, hcharset]
        rfl
      linarith
  · intro hgbk
    have hlow : 1 / 10 < calculateEncodingConfidence data .utf8 := by
      change 1 / 10 < checkUtf8Validity data
      linarith
    have hlist : withDefaults.analyzeBytePatterns data =
        (⟨.utf8, checkUtf8Validity data⟩ :: candidatesFor data
          [.gbk, .shiftJis, .big5, .iso88591, .windows1252]).insertionSort
            fun a b => b.confidence ≤ a.confidence :=
      congrArg (List.insertionSort fun a b : EncodingCandidate => b.confidence ≤ a.confidence)
        (List.filterMap_cons_some (if_pos hlow))
    have hthreshold : ¬ checkUtf8Validity data < withDefaults.confidenceThreshold := not_lt.2 h
    rw [hlist, List.insertionSort_cons_of_forall_rel, selectBestEncoding]
    · dsimp only
      rw [if_neg hthreshold]
    · intro candidate hmem
      rw [(mem_candidatesFor.1 hmem).2.1]
      exact confidence_le h hgbk _

/-! ## The bytes of a text -/

/-- **A text that does not start with a mark has none**, nor have its first bytes. -/
theorem detectBom_take (hmark : t.head? ≠ some '\uFEFF') (n : ℕ) :
    detectBom ((utf8 t).take n) = none := by
  have hbound : ∀ b ∈ (utf8 t).take n, b < 0xF8 :=
    fun b hb => lt_of_mem_utf8 (List.mem_of_mem_take hb)
  unfold detectBom
  split
  · next s hdata =>
    have hprefix : String.utf8EncodeChar '\uFEFF' <+: utf8 t := by
      refine List.IsPrefix.trans ?_ (List.take_prefix n (utf8 t))
      rw [hdata]
      exact ⟨s, rfl⟩
    exact absurd (head?_of_prefix_utf8 hprefix) hmark
  · next s hdata =>
    rw [hdata] at hbound
    exact absurd (hbound 0xFF (by simp)) (by decide)
  · next s hdata =>
    rw [hdata] at hbound
    exact absurd (hbound 0xFE (by simp)) (by decide)
  · next s hdata =>
    rw [hdata] at hbound
    exact absurd (hbound 0xFE (by simp)) (by decide)
  · rfl

/-! ## The first bytes of a text -/

/-- How many units of some bytes are not well-formed in GBK. -/
def gbkMalformed (data : Bytes) : ℕ := (pairs data).countP fun unit => !wellFormed gbkPair unit

theorem length_pairs_pos (hne : data ≠ []) : 0 < (pairs data).length := by
  rw [List.length_pos_iff]
  fun_induction pairs data with
  | case1 => exact absurd rfl hne
  | case2 a => exact List.cons_ne_nil _ _
  | case3 a b s hascii ih => exact List.cons_ne_nil _ _
  | case4 a b s hascii ih => exact List.cons_ne_nil _ _

/-- The score of GBK beside that of UTF-8 with one of its units cut. -/
theorem checkGbkPatterns_le_iff (hne : data ≠ []) {m : ℕ} (hm : 0 < m) :
    checkGbkPatterns data ≤ ((m : ℚ) - 1) / m ↔ (pairs data).length ≤ gbkMalformed data * m := by
  have hlen := length_pairs_pos hne
  have hsum : (pairs data).length =
      (pairs data).countP (wellFormed gbkPair) + gbkMalformed data := by
    rw [List.length_eq_countP_add_countP (wellFormed gbkPair), gbkMalformed]
    simp
  have hcount : ((pairs data).countP (wellFormed gbkPair) : ℚ) =
      (pairs data).length - gbkMalformed data := by
    rw [hsum]
    push_cast
    ring
  have hlenQ : (0 : ℚ) < (pairs data).length := by exact_mod_cast hlen
  have hmQ : (0 : ℚ) < m := by exact_mod_cast hm
  rw [checkGbkPatterns, share_pairs, if_pos hlen, hcount, div_le_div_iff₀ hlenQ hmQ,
    ← Nat.cast_le (α := ℚ), Nat.cast_mul]
  constructor <;> intro h <;> linarith

theorem take_utf8_ne_nil (hn : 0 < n) (ht : t ≠ []) : (utf8 t).take n ≠ [] := by
  obtain ⟨c, s, rfl⟩ := List.exists_cons_of_ne_nil ht
  rw [utf8_cons]
  simp [hn.ne']

/-- **UTF-8 is detected in the first bytes of a text exactly when** they do not end inside a
character, or GBK finds enough malformed units in them. -/
theorem detectEncoding_take_iff (hmark : t.head? ≠ some '\uFEFF') (ht : t ≠ []) (hn : 20 ≤ n) :
    (withDefaults.detectEncoding ((utf8 t).take n)).charset = .utf8 ↔ cuts n t = false ∨
      (pairs ((utf8 t).take n)).length ≤ gbkMalformed ((utf8 t).take n) * begun n t := by
  have hpos : 0 < n := by omega
  have hscore := checkUtf8Validity_take hpos ht
  have hbom := detectBom_take hmark n
  have hone : ∀ s : Bytes, checkGbkPatterns s ≤ 1 := by
    intro s
    rw [checkGbkPatterns, share_pairs]
    split
    · have hle : ((pairs s).countP (wellFormed gbkPair) : ℚ) ≤ (pairs s).length := by
        exact_mod_cast List.countP_le_length
      exact div_le_one_of_le₀ hle (Nat.cast_nonneg _)
    · exact zero_le_one
  by_cases hcuts : cuts n t = true
  · have hbegun : (5 : ℚ) ≤ begun n t := by
      have := le_begun_of_cuts hcuts
      exact_mod_cast (by omega : 5 ≤ begun n t)
    have hne := take_utf8_ne_nil hpos ht
    rw [if_pos hcuts] at hscore
    have hgood : 4 / 5 ≤ checkUtf8Validity ((utf8 t).take n) := by
      rw [hscore, div_le_div_iff₀ (by norm_num) (by linarith)]
      linarith
    rw [detectEncoding_charset_eq_utf8_iff hbom hgood, hscore,
      checkGbkPatterns_le_iff hne (begun_pos hpos ht)]
    simp [hcuts]
  · rw [if_neg hcuts] at hscore
    rw [detectEncoding_charset_eq_utf8_iff hbom (by rw [hscore]; norm_num), hscore]
    exact iff_of_true (hone _) (.inl (Bool.eq_false_iff.2 hcuts))

end EncodingDetector

open EncodingDetector

/-! ## Reading a text -/

variable {files : FileSystem} {path : Path} {t : Text}

theorem checkFileSize_of_le {maxBytes : ℕ} {label : Text} {content : Bytes}
    (hfile : files path = some content) (hsize : content.length ≤ maxBytes) :
    checkFileSize files path maxBytes label = .ok () := by
  unfold checkFileSize
  rw [hfile]
  exact if_neg (not_lt.2 hsize)

/-- A file is read as UTF-8, in the one way and in the other: it is detected, and the text
comes back. -/
structure ReadAsUtf8 (decode : Decoder) (files : FileSystem) (path : Path) (t : Text) : Prop where
  sampleCharset : ∃ info, withDefaults.detectFileEncoding files path = .ok info ∧
    info.charset = .utf8
  sampleText : readSubtitleWithEncodingDetection decode files path = .ok t
  wholeCharset : (withDefaults.detectEncoding ((files path).getD [])).charset = .utf8
  wholeText : readFileWithEncoding decode files path = .ok t

/-- Without a mark none is taken off. -/
theorem bomDetected_of_detectBom {data : Bytes} (h : detectBom data = none) :
    (withDefaults.detectEncoding data).bomDetected = false := by
  rw [detectEncoding, h, Option.getD_none]
  unfold selectBestEncoding
  split
  · rfl
  · split
    · rfl
    · rfl

/-- In the bytes of a whole text UTF-8 is detected. -/
theorem detectEncoding_utf8 (hmark : t.head? ≠ some '\uFEFF') (ht : t ≠ []) :
    (withDefaults.detectEncoding (utf8 t)).charset = .utf8 := by
  have hwhole := detectEncoding_take_iff hmark ht (n := byteLen t + 20) (by omega)
  rw [List.take_of_length_le (by rw [length_utf8]; omega)] at hwhole
  exact hwhole.2 (.inl (cuts_of_byteLen_le (by omega)))

theorem detectFileEncoding_utf8 (hfile : files path = some (utf8 t))
    (hsize : byteLen t ≤ 52428800) : withDefaults.detectFileEncoding files path =
      .ok (withDefaults.detectEncoding ((utf8 t).take 8192)) := by
  rw [← length_utf8] at hsize
  rw [detectFileEncoding, checkFileSize_of_le hfile hsize, hfile]
  rfl

/-- A file of a text that is taken for UTF-8 is read back. -/
theorem readAsUtf8_of_charset {decode : Decoder} (hfile : files path = some (utf8 t))
    (hsize : byteLen t ≤ 52428800) (hmark : t.head? ≠ some '\uFEFF') (ht : t ≠ [])
    (hsample : (withDefaults.detectEncoding ((utf8 t).take 8192)).charset = .utf8) :
    ReadAsUtf8 decode files path t := by
  have hdetect := detectFileEncoding_utf8 hfile hsize
  have hwhole := detectEncoding_utf8 hmark ht
  have hbom := bomDetected_of_detectBom (detectBom_take hmark 8192)
  have hcheck : checkFileSize files path 52428800 "Subtitle".toList = .ok () :=
    checkFileSize_of_le hfile (by rwa [length_utf8])
  have hconvert : convertToUtf8 decode (utf8 t) .utf8 =
      .ok ⟨t, .utf8, .utf8, (utf8 t).length, false, 0⟩ := by
    rw [convertToUtf8, if_pos rfl, fromUtf8Lossy_utf8]
  refine ⟨⟨_, hdetect, hsample⟩, ?_, by rwa [hfile], ?_⟩
  · rw [readSubtitleWithEncodingDetection, hcheck, hdetect]
    dsimp only [Bind.bind, Except.bind]
    rw [convertFileToUtf8, hcheck, hfile]
    dsimp only [Bind.bind, Except.bind]
    rw [hbom, hsample, if_neg Bool.false_ne_true, Option.getD_some, hconvert]
    rfl
  · rw [readFileWithEncoding, hcheck, hfile]
    dsimp only [Bind.bind, Except.bind]
    rw [Option.getD_some, hwhole, hconvert]
    rfl

/-- **A file of a text is read back exactly when** its first 8192 bytes do not end inside a
character, or their units in GBK are at most as many as the malformed ones among them times
the characters that begin in them. -/
theorem readAsUtf8_iff (decode : Decoder) (files : FileSystem) (path : Path) (t : Text)
    (hfile : files path = some (utf8 t)) (hsize : byteLen t ≤ 52428800) (ht : t ≠ [])
    (hmark : t.head? ≠ some '\uFEFF') :
    ReadAsUtf8 decode files path t ↔ cuts 8192 t = false ∨
      (pairs ((utf8 t).take 8192)).length ≤
        gbkMalformed ((utf8 t).take 8192) * begun 8192 t := by
  rw [← detectEncoding_take_iff hmark ht (by omega)]
  constructor
  · intro h
    obtain ⟨info, hinfo, hcharset⟩ := h.sampleCharset
    rw [detectFileEncoding_utf8 hfile hsize] at hinfo
    cases hinfo
    exact hcharset
  · exact readAsUtf8_of_charset hfile hsize hmark ht

/-- A decoder that takes all bytes for ASCII, as any does with bytes that are. -/
def asciiDecoder : Decoder := fun _ data => (fromUtf8Lossy data, false)

/-- A short text has no cut. -/
theorem readAsUtf8_iff_hi :
    ReadAsUtf8 asciiDecoder (fun _ => some (utf8 "Hi".toList)) [] "Hi".toList ↔
      cuts 8192 "Hi".toList = false ∨ (pairs ((utf8 "Hi".toList).take 8192)).length ≤
        gbkMalformed ((utf8 "Hi".toList).take 8192) * begun 8192 "Hi".toList :=
  readAsUtf8_iff asciiDecoder (fun _ => some (utf8 "Hi".toList)) [] "Hi".toList rfl
    (by decide +kernel) (by decide) (by decide)

/-- A text of 8193 bytes in characters of three bytes. -/
def threeByteText : Text := List.replicate 2731 '\u6587'

/-- **The last of its characters is cut**, and GBK, which finds no malformed unit, is detected
in the first bytes. -/
theorem threeByteText_taken_for_gbk : ¬ ∀ (decode : Decoder) (files : FileSystem) (path : Path)
    (t : Text), files path = some (utf8 t) → byteLen t ≤ 52428800 → t ≠ [] →
      t.head? ≠ some '\uFEFF' → ReadAsUtf8 decode files path t := by
  intro h
  have hsize : byteLen threeByteText ≤ 52428800 := by decide +kernel
  have hne : threeByteText ≠ [] := List.cons_ne_nil '\u6587' (List.replicate 2730 '\u6587')
  have hmark : threeByteText.head? ≠ some '\uFEFF' := by decide
  have hcuts : cuts 8192 threeByteText = true := by decide +kernel
  have hgbk : gbkMalformed ((utf8 threeByteText).take 8192) = 0 := by decide +kernel
  obtain ⟨info, hinfo, hcharset⟩ := (h asciiDecoder (fun _ => some (utf8 threeByteText)) []
    threeByteText rfl hsize hne hmark).sampleCharset
  rw [detectFileEncoding_utf8 rfl hsize] at hinfo
  cases hinfo
  have hunits : 0 < (pairs ((utf8 threeByteText).take 8192)).length :=
    length_pairs_pos (take_utf8_ne_nil (by omega) hne)
  rcases (detectEncoding_take_iff hmark hne (by omega)).1 hcharset with hno | hfew
  · rw [hcuts] at hno
    cases hno
  · rw [hgbk, Nat.zero_mul] at hfew
    omega

end SubxCore
