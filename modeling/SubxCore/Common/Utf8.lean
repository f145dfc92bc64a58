import SubxCore.Common.Scan
import SubxCore.Common.Text
/-!
# Texts as bytes

The UTF-8 encoding of a text and its decoding, as lists of bytes: the exact
one and the one that puts replacement characters where no character is. A
character is a byte that says how many follow, and those
(`charBytes_utf8EncodeChar`); a reader that takes such groups off finds one
for each character of the first bytes of a text, and at most the last one
is cut (`scan_take_utf8`).
-/

namespace Text

/-- The bytes of a text. -/
def utf8 (s : Text) : List UInt8 := s.flatMap String.utf8EncodeChar

/-- The text that bytes are the encoding of. -/
def fromUtf8 (bytes : List UInt8) : Option Text :=
  (bytes.toByteArray.utf8Decode?).map Array.toList

@[simp] theorem utf8_nil : utf8 [] = [] := rfl

@[simp] theorem utf8_cons (c : Char) (s : Text) :
    utf8 (c :: s) = String.utf8EncodeChar c ++ utf8 s := rfl

@[simp] theorem utf8_append (s t : Text) : utf8 (s ++ t) = utf8 s ++ utf8 t :=
  List.flatMap_append

/-- **What is encoded is decoded.** -/
theorem fromUtf8_utf8 (s : Text) : fromUtf8 (utf8 s) = some s := by
  have henc : (utf8 s).toByteArray = s.utf8Encode := rfl
  rw [fromUtf8, henc, List.utf8Decode?_utf8Encode]
  simp

@[simp] theorem length_utf8 (s : Text) : (utf8 s).length = byteLen s := by
  simp [utf8, byteLen, List.length_flatMap]

theorem utf8_injective : Function.Injective utf8 := fun s t h =>
  Option.some.inj (by rw [← fromUtf8_utf8, h, fromUtf8_utf8])

/-! ## The bytes of a character -/

/-- What holds of the numbers below a bound holds of the bytes below it. -/
theorem forall_uint8_lt {P : UInt8 → Prop} {m : ℕ} (h : ∀ n < m, P (UInt8.ofNat n)) {b : UInt8}
    (hb : b.toNat < m) : P b := by
  have hP := h b.toNat hb
  rwa [UInt8.ofNat_toNat] at hP

theorem forall_uint8 {P : UInt8 → Prop} (h : ∀ n < 256, P (UInt8.ofNat n)) (b : UInt8) : P b :=
  forall_uint8_lt h b.toNat_lt

/-- A byte that goes on with a character. -/
def IsTail (b : UInt8) : Prop := b &&& 0xC0 = 0x80

instance (b : UInt8) : Decidable (IsTail b) := inferInstanceAs (Decidable (_ = _))

/-- The bytes of a character: one that says how many there are, and the others. -/
inductive CharBytes : List UInt8 → Prop
  | one {a : UInt8} : a &&& 0x80 = 0 → CharBytes [a]
  | two {a b : UInt8} : a &&& 0xE0 = 0xC0 → IsTail b → CharBytes [a, b]
  | three {a b c : UInt8} : a &&& 0xF0 = 0xE0 → IsTail b → IsTail c → CharBytes [a, b, c]
  | four {a b c d : UInt8} : a &&& 0xF8 = 0xF0 → IsTail b → IsTail c → IsTail d →
    CharBytes [a, b, c, d]

theorem isTail_or (b : UInt8) : IsTail (b &&& 0x3F ||| 0x80) := by
  revert b
  exact forall_uint8 (by decide +kernel)

theorem charBytes_utf8EncodeChar (c : Char) : CharBytes (String.utf8EncodeChar c) := by
  have hone : ∀ b : UInt8, b.toNat < 128 → b &&& 0x80 = 0 :=
    fun _ => forall_uint8_lt (P := fun b => b &&& 0x80 = 0) (m := 128) (by decide +kernel)
  have htwo : ∀ b : UInt8, (b &&& 0x1F ||| 0xC0) &&& 0xE0 = 0xC0 :=
    forall_uint8 (by decide +kernel)
  have hthree : ∀ b : UInt8, (b &&& 0x0F ||| 0xE0) &&& 0xF0 = 0xE0 :=
    forall_uint8 (by decide +kernel)
  have hfour : ∀ b : UInt8, (b &&& 0x07 ||| 0xF0) &&& 0xF8 = 0xF0 :=
    forall_uint8 (by decide +kernel)
  rcases c.utf8Size_eq with h | h | h | h
  · have hc : c.val.toNat ≤ 127 := Char.utf8Size_eq_one_iff.1 h
    rw [String.utf8EncodeChar_eq_singleton h]
    exact .one (hone _ (by rw [UInt32.toNat_toUInt8]; omega))
  · rw [String.utf8EncodeChar_eq_cons_cons h]
    exact .two (htwo _) (isTail_or _)
  · rw [String.utf8EncodeChar_eq_cons_cons_cons h]
    exact .three (hthree _) (isTail_or _) (isTail_or _)
  · rw [String.utf8EncodeChar_eq_cons_cons_cons_cons h]
    exact .four (hfour _) (isTail_or _) (isTail_or _) (isTail_or _)

/-- No byte of a character is as high as this. -/
theorem CharBytes.lt {l : List UInt8} (h : CharBytes l) : ∀ b ∈ l, b < 0xF8 := by
  have hbound : ∀ a : UInt8, (a &&& 0x80 = 0 → a < 0xF8) ∧ (a &&& 0xE0 = 0xC0 → a < 0xF8) ∧
      (a &&& 0xF0 = 0xE0 → a < 0xF8) ∧ (a &&& 0xF8 = 0xF0 → a < 0xF8) ∧ (IsTail a → a < 0xF8) :=
    forall_uint8 (by decide +kernel)
  have htail {b : UInt8} (hb : IsTail b) : b < 0xF8 := (hbound b).2.2.2.2 hb
  cases h with
  | one ha => simpa using (hbound _).1 ha
  | two ha hb => simpa using ⟨(hbound _).2.1 ha, htail hb⟩
  | three ha hb hc => simpa using ⟨(hbound _).2.2.1 ha, htail hb, htail hc⟩
  | four ha hb hc hd => simpa using ⟨(hbound _).2.2.2.1 ha, htail hb, htail hc, htail hd⟩

/-- **A byte below 128 is a character of its own.** -/
theorem CharBytes.eq_singleton {l : List UInt8} (h : CharBytes l) {b : UInt8} (hb : b ∈ l)
    (hlt : b < 0x80) : l = [b] := by
  have htail : ∀ b : UInt8, IsTail b → ¬ b < 0x80 := forall_uint8 (by decide +kernel)
  have htwo : ∀ b : UInt8, b &&& 0xE0 = 0xC0 → ¬ b < 0x80 := forall_uint8 (by decide +kernel)
  have hthree : ∀ b : UInt8, b &&& 0xF0 = 0xE0 → ¬ b < 0x80 := forall_uint8 (by decide +kernel)
  have hfour : ∀ b : UInt8, b &&& 0xF8 = 0xF0 → ¬ b < 0x80 := forall_uint8 (by decide +kernel)
  cases h with
  | one _ => rw [List.mem_singleton.1 hb]
  | two h₁ h₂ =>
    simp only [List.mem_cons, List.not_mem_nil, or_false] at hb
    rcases hb with rfl | rfl
    · exact absurd hlt (htwo b h₁)
    · exact absurd hlt (htail b h₂)
  | three h₁ h₂ h₃ =>
    simp only [List.mem_cons, List.not_mem_nil, or_false] at hb
    rcases hb with rfl | rfl | rfl
    · exact absurd hlt (hthree b h₁)
    · exact absurd hlt (htail b h₂)
    · exact absurd hlt (htail b h₃)
  | four h₁ h₂ h₃ h₄ =>
    simp only [List.mem_cons, List.not_mem_nil, or_false] at hb
    rcases hb with rfl | rfl | rfl | rfl
    · exact absurd hlt (hfour b h₁)
    · exact absurd hlt (htail b h₂)
    · exact absurd hlt (htail b h₃)
    · exact absurd hlt (htail b h₄)

/-- So it is in no other one. -/
theorem eq_of_mem_utf8EncodeChar {c d : Char} {b : UInt8} (hd : String.utf8EncodeChar d = [b])
    (hlt : b < 0x80) (hb : b ∈ String.utf8EncodeChar c) : c = d := by
  have hc := (charBytes_utf8EncodeChar c).eq_singleton hb hlt
  have heq : utf8 [c] = utf8 [d] := by rw [utf8_cons, utf8_cons, hc, hd]
  exact (List.cons.inj (utf8_injective heq)).1

theorem lt_of_mem_utf8 {s : Text} {b : UInt8} (h : b ∈ utf8 s) : b < 0xF8 := by
  obtain ⟨c, -, hb⟩ := List.mem_flatMap.1 h
  exact (charBytes_utf8EncodeChar c).lt b hb

theorem utf8EncodeChar_ne_nil (c : Char) : String.utf8EncodeChar c ≠ [] := by
  intro h
  have hlen := String.length_utf8EncodeChar c
  rw [h] at hlen
  exact absurd hlen.symm c.utf8Size_pos.ne'

/-! ## Decoding with replacement -/

/-- The character that bytes start with. -/
def firstChar (bytes : List UInt8) : Option Char := bytes.toByteArray.utf8DecodeChar? 0

theorem firstChar_append (c : Char) (s : List UInt8) :
    firstChar (String.utf8EncodeChar c ++ s) = some c := by
  rw [firstChar, List.toByteArray_append, ByteArray.utf8DecodeChar?_utf8EncodeChar_append]

/-- A text whose bytes start with those of a character starts with it. -/
theorem head?_of_prefix_utf8 {c : Char} {s : Text} (h : String.utf8EncodeChar c <+: utf8 s) :
    s.head? = some c := by
  obtain ⟨l, hl⟩ := h
  have hfirst := firstChar_append c l
  rw [hl] at hfirst
  rcases s with - | ⟨d, s⟩
  · exact absurd (List.append_eq_nil_iff.1 hl).1 (utf8EncodeChar_ne_nil c)
  · rw [utf8_cons, firstChar_append] at hfirst
    exact hfirst

/-- Whether a byte can be the second one of a character of three or four bytes. -/
def isSecond (a b : UInt8) : Bool :=
  if a = 0xE0 then 0xA0 ≤ b ∧ b ≤ 0xBF
  else if a = 0xED then 0x80 ≤ b ∧ b ≤ 0x9F
  else if a = 0xF0 then 0x90 ≤ b ∧ b ≤ 0xBF
  else if a = 0xF4 then 0x80 ≤ b ∧ b ≤ 0x8F
  else 0x80 ≤ b ∧ b ≤ 0xBF

/-- How many bytes are replaced together where no character starts: as many as could start
one, and at least one. -/
def replacedLength : List UInt8 → ℕ
  | a :: b :: rest =>
    if 0xE0 ≤ a ∧ a ≤ 0xF4 ∧ isSecond a b then
      if 0xF0 ≤ a ∧ rest.head?.any fun c => IsTail c then 3 else 2
    else 1
  | _ => 1

/-- A character, or a replacement character for bytes that are none. -/
def readLossy : Reader UInt8 Char
  | [] => none
  | b :: s =>
    match firstChar (b :: s) with
    | some c => some (c, (b :: s).drop c.utf8Size)
    | none => some ('\uFFFD', (b :: s).drop (replacedLength (b :: s)))

/-- `from_utf8_lossy`. -/
def fromUtf8Lossy (bytes : List UInt8) : Text := Reader.scan readLossy bytes

theorem readLossy_append (c : Char) (s : List UInt8) :
    readLossy (String.utf8EncodeChar c ++ s) = some (c, s) := by
  have hfirst := firstChar_append c s
  have hdrop : (String.utf8EncodeChar c ++ s).drop c.utf8Size = s :=
    List.drop_left' (String.length_utf8EncodeChar c)
  obtain ⟨a, l, hl⟩ := List.exists_cons_of_ne_nil (utf8EncodeChar_ne_nil c)
  rw [hl, List.cons_append] at hfirst hdrop ⊢
  rw [readLossy, hfirst]
  dsimp only
  rw [hdrop]

/-- **Nothing is replaced in the bytes of a text.** -/
theorem fromUtf8Lossy_utf8 (s : Text) : fromUtf8Lossy (utf8 s) = s := by
  have hone (c : Char) (l : List UInt8) : Reader.scan readLossy (String.utf8EncodeChar c ++ l) =
      id c :: Reader.scan readLossy l :=
    Reader.scan_append_of_read (utf8EncodeChar_ne_nil c) (readLossy_append c l)
  have hscan := Reader.scan_flatMap (s := []) hone s
  simpa [fromUtf8Lossy, utf8] using hscan

/-! ## The first bytes of a text -/

/-- How many characters begin in the first bytes. -/
def begun : ℕ → Text → ℕ
  | 0, _ => 0
  | _ + 1, [] => 0
  | n + 1, c :: s => begun (n + 1 - c.utf8Size) s + 1

/-- Whether the first bytes end inside a character. -/
def cuts : ℕ → Text → Bool
  | 0, _ => false
  | _ + 1, [] => false
  | n + 1, c :: s => if n + 1 < c.utf8Size then true else cuts (n + 1 - c.utf8Size) s

/-- Where a character is cut, there are no more bytes than four for each character. -/
theorem le_begun_of_cuts : ∀ {n : ℕ} {s : Text}, cuts n s = true → n ≤ 4 * begun n s
  | 0, _, _ => Nat.zero_le _
  | _ + 1, [], h => by simp [cuts] at h
  | n + 1, c :: s, h => by
    have hsize := c.utf8Size_le_four
    rw [begun]
    rw [cuts] at h
    split at h
    · omega
    · have ih := le_begun_of_cuts h
      omega

/-- The bytes of the whole text end with a character. -/
theorem cuts_of_byteLen_le : ∀ {n : ℕ} {s : Text}, byteLen s ≤ n → cuts n s = false
  | 0, _, _ => by simp [cuts]
  | _ + 1, [], _ => by simp [cuts]
  | n + 1, c :: s, h => by
    rw [byteLen_cons] at h
    rw [cuts, if_neg (by omega)]
    exact cuts_of_byteLen_le (by omega)

/-- **A reader of characters finds one for each character that begins** in the first bytes of
a text, and the last of them is told apart if it is cut. -/
theorem scan_take_utf8 {read : Reader UInt8 Bool}
    (hwhole : ∀ c s, read (String.utf8EncodeChar c ++ s) = some (true, s))
    (hcut : ∀ c n, 0 < n → n < c.utf8Size →
      read ((String.utf8EncodeChar c).take n) = some (false, [])) :
    ∀ (n : ℕ) (s : Text), Reader.scan read ((utf8 s).take n) =
      if cuts n s then List.replicate (begun n s - 1) true ++ [false]
      else List.replicate (begun n s) true
  | 0, _ => by simp [begun, cuts]
  | _ + 1, [] => by simp [begun, cuts]
  | n + 1, c :: s => by
    have hlen := String.length_utf8EncodeChar c
    rw [utf8_cons]
    by_cases hlt : n + 1 < c.utf8Size
    · have hne : (String.utf8EncodeChar c).take (n + 1) ≠ [] := by
        rw [← List.length_pos_iff, List.length_take]
        omega
      have hread := hcut c (n + 1) n.succ_pos hlt
      have hzero : n + 1 - c.utf8Size = 0 := by omega
      rw [← List.append_nil ((String.utf8EncodeChar c).take (n + 1))] at hread
      rw [List.take_append_of_le_length (by omega),
        ← List.append_nil ((String.utf8EncodeChar c).take (n + 1)),
        Reader.scan_append_of_read hne hread, cuts, if_pos hlt, if_pos rfl, begun, hzero, begun]
      rfl
    · have hpos := c.utf8Size_pos
      have ih := scan_take_utf8 hwhole hcut (n + 1 - c.utf8Size) s
      rw [List.take_append, List.take_of_length_le (by omega), hlen,
        Reader.scan_append_of_read (utf8EncodeChar_ne_nil c) (hwhole c _), ih, cuts, if_neg hlt,
        begun]
      by_cases hcuts : cuts (n + 1 - c.utf8Size) s = true
      · have hbegun := le_begun_of_cuts hcuts
        have hn : n + 1 - c.utf8Size ≠ 0 := by
          intro h
          rw [h, cuts] at hcuts
          cases hcuts
        obtain ⟨m, hm⟩ : ∃ m, begun (n + 1 - c.utf8Size) s = m + 1 :=
          ⟨begun (n + 1 - c.utf8Size) s - 1, by omega⟩
        rw [if_pos hcuts, if_pos hcuts, hm]
        rfl
      · rw [if_neg hcuts, if_neg hcuts]
        rfl

end Text
