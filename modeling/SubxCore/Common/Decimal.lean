import SubxCore.Common.Text
import Mathlib.Data.Nat.Digits.Defs
/-!
# Decimal numbers in texts

Printing a number, with and without zero padding, and reading one back
into an unsigned machine type. Reading is the left-to-right checked
accumulation: the digit test comes before the overflow test, one leading
`+` is allowed, and the error says which of the three went wrong.
`parseUnsigned_decimal` and `parseUnsigned_padded` are the round trips.
-/

/-- Why a text is not an unsigned number. -/
inductive ParseIntError
  | empty
  | invalidDigit
  | posOverflow
  deriving DecidableEq, Repr

namespace ParseIntError

/-- The message of the error. -/
def message : ParseIntError → Text
  | empty => "cannot parse integer from empty string".toList
  | invalidDigit => "invalid digit found in string".toList
  | posOverflow => "number too large to fit in target type".toList

end ParseIntError

namespace Decimal

open Text

/-- A number in decimal. -/
def decimal (n : ℕ) : Text := Nat.toDigits 10 n

/-- A number in decimal, zero-padded to `w` characters. -/
def padded (w n : ℕ) : Text := (decimal n).leftpad w '0'

/-- The digits of a number added to what has been read, no step going past
`max`. -/
def readDigits (max : ℕ) : ℕ → Text → Except ParseIntError ℕ
  | acc, [] => .ok acc
  | acc, c :: s =>
    if c.isDigit then
      let acc' := acc * 10 + (c.toNat - '0'.toNat)
      if acc' ≤ max then readDigits max acc' s else .error .posOverflow
    else .error .invalidDigit

/-- A text as an unsigned number of at most `max`. -/
def parseUnsigned (max : ℕ) (s : Text) : Except ParseIntError ℕ :=
  match s with
  | [] => .error .empty
  | ['+'] => .error .invalidDigit
  | '+' :: s => readDigits max 0 s
  | s => readDigits max 0 s

/-- The largest `u64`, which is also the largest `usize`. -/
def u64Max : ℕ := 2 ^ 64 - 1

/-- The largest `u32`. -/
def u32Max : ℕ := 2 ^ 32 - 1

variable {s : Text} {n w max : ℕ}

/-! ## The digits of a number -/

/-- The ASCII digits are the characters from 48 to 57. -/
theorem toNat_of_isDigit {c : Char} (h : c.isDigit = true) : 48 ≤ c.toNat ∧ c.toNat ≤ 57 := by
  simp only [Char.isDigit, Bool.and_eq_true, decide_eq_true_eq] at h
  exact h

theorem isWhitespace_of_isDigit {c : Char} (h : c.isDigit = true) : isWhitespace c = false := by
  have := toNat_of_isDigit h
  simp only [isWhitespace, Bool.or_eq_false_iff, Bool.and_eq_false_iff, decide_eq_false_iff_not,
    beq_eq_false_iff_ne]
  omega

/-- A decimal is made of digits. -/
theorem isDigit_of_mem_decimal {c : Char} (h : c ∈ decimal n) : c.isDigit = true :=
  Nat.isDigit_of_mem_toDigits (by decide) (by decide) h

theorem newline_not_mem_decimal : '\n' ∉ decimal n := by
  intro h
  exact absurd (isDigit_of_mem_decimal h) (by decide)

theorem return_not_mem_decimal : '\r' ∉ decimal n := by
  intro h
  exact absurd (isDigit_of_mem_decimal h) (by decide)

theorem decimal_ne_nil : decimal n ≠ [] := Nat.toDigits_ne_nil

/-- So is a padded one. -/
theorem isDigit_of_mem_padded {c : Char} (h : c ∈ padded w n) : c.isDigit = true := by
  rw [padded, List.leftpad, List.mem_append] at h
  rcases h with h | h
  · rw [List.eq_of_mem_replicate h]; rfl
  · exact isDigit_of_mem_decimal h

theorem padded_ne_nil : padded w n ≠ [] := by
  simp [padded, List.leftpad, decimal_ne_nil]

/-- A number below `10 ^ w` fills its field exactly. -/
theorem length_padded (hw : 0 < w) (h : n < 10 ^ w) : (padded w n).length = w := by
  have := (Nat.length_toDigits_le_iff (b := 10) (by decide) hw).2 h
  rw [padded, List.length_leftpad, decimal]
  omega

/-- The value of the digits. -/
theorem ofDigitChars_decimal : Nat.ofDigitChars 10 (decimal n) 0 = n :=
  Nat.ofDigitChars_ten_toDigits

theorem ofDigitChars_padded : Nat.ofDigitChars 10 (padded w n) 0 = n := by
  rw [padded, List.leftpad, Nat.ofDigitChars_append, Nat.ofDigitChars_replicate_zero, Nat.mul_zero,
    ofDigitChars_decimal]

/-! ## Reading back -/

/-- A digit string is read as its value, if that fits. -/
theorem readDigits_eq : ∀ {s : Text} {acc : ℕ}, (∀ c ∈ s, c.isDigit = true) →
    Nat.ofDigitChars 10 s acc ≤ max → readDigits max acc s = .ok (Nat.ofDigitChars 10 s acc)
  | [], _, _, _ => by simp [readDigits]
  | c :: s, acc, hd, hle => by
    simp only [List.mem_cons, forall_eq_or_imp] at hd
    rw [Nat.ofDigitChars_cons] at hle ⊢
    have hacc : acc * 10 + (c.toNat - '0'.toNat) ≤ max := by
      refine le_trans ?_ hle
      rw [Nat.ofDigitChars_eq_ofDigitChars_zero]
      have := Nat.one_le_pow s.length 10 (by decide)
      nlinarith
    rw [readDigits, if_pos hd.1]
    simp only [if_pos hacc]
    rw [Nat.mul_comm acc 10] at hacc ⊢
    exact readDigits_eq hd.2 hle

theorem parseUnsigned_of_digits (hne : s ≠ []) (hd : ∀ c ∈ s, c.isDigit = true)
    (hle : Nat.ofDigitChars 10 s 0 ≤ max) :
    parseUnsigned max s = .ok (Nat.ofDigitChars 10 s 0) := by
  obtain ⟨c, t, rfl⟩ := List.exists_cons_of_ne_nil hne
  have hplus : c ≠ '+' := by
    rintro rfl
    exact absurd (hd '+' (by simp)) (by decide)
  rw [parseUnsigned]
  · exact readDigits_eq hd hle
  all_goals simp [hplus]

/-- **A printed number reads back.** -/
theorem parseUnsigned_decimal (h : n ≤ max) : parseUnsigned max (decimal n) = .ok n := by
  have hval : Nat.ofDigitChars 10 (decimal n) 0 = n := ofDigitChars_decimal
  rw [← hval] at h
  rw [parseUnsigned_of_digits decimal_ne_nil (fun c hc => isDigit_of_mem_decimal hc) h, hval]

/-- **So does a padded one.** -/
theorem parseUnsigned_padded (h : n ≤ max) : parseUnsigned max (padded w n) = .ok n := by
  have hval : Nat.ofDigitChars 10 (padded w n) 0 = n := ofDigitChars_padded
  rw [← hval] at h
  rw [parseUnsigned_of_digits padded_ne_nil (fun c hc => isDigit_of_mem_padded hc) h, hval]

/-! ## What is read -/

/-- Only ASCII digits are read. -/
theorem isDigit_of_readDigits : ∀ {s : Text} {acc : ℕ}, readDigits max acc s = .ok n →
    ∀ c ∈ s, c.isDigit = true
  | [], _, _ => by simp
  | c :: s, acc, h => by
    rw [readDigits] at h
    split at h
    · next hc =>
      dsimp only at h
      split at h
      · simpa only [List.mem_cons, forall_eq_or_imp] using ⟨hc, isDigit_of_readDigits h⟩
      · cases h
    · cases h

/-- What is read is the value, and it fits. -/
theorem readDigits_eq_ok : ∀ {s : Text} {acc : ℕ}, acc ≤ max → readDigits max acc s = .ok n →
    Nat.ofDigitChars 10 s acc = n ∧ n ≤ max
  | [], acc, hacc, h => by
    rw [readDigits, Except.ok.injEq] at h
    exact h ▸ ⟨Nat.ofDigitChars_nil, hacc⟩
  | c :: s, acc, _, h => by
    rw [readDigits] at h
    split at h
    · dsimp only at h
      split at h
      · next hle =>
        rw [Nat.ofDigitChars_cons, Nat.mul_comm]
        exact readDigits_eq_ok hle h
      · cases h
    · cases h

/-- A run of digits stands for less than the power of ten of its length. -/
theorem ofDigitChars_lt (hd : ∀ c ∈ s, c.isDigit = true) :
    Nat.ofDigitChars 10 s 0 < 10 ^ s.length := by
  induction s with
  | nil => simp
  | cons c s ih =>
    simp only [List.mem_cons, forall_eq_or_imp] at hd
    have hc := toNat_of_isDigit hd.1
    have hzero : '0'.toNat = 48 := rfl
    have hrest := ih hd.2
    rw [Nat.ofDigitChars_cons, Nat.ofDigitChars_eq_ofDigitChars_zero, List.length_cons, pow_succ]
    have hdigit : 10 * 0 + (c.toNat - '0'.toNat) ≤ 9 := by omega
    nlinarith

/-- A text without a sign is read digit by digit. -/
theorem parseUnsigned_of_ne_plus (hne : s ≠ []) (hplus : s.head? ≠ some '+') :
    parseUnsigned max s = readDigits max 0 s := by
  obtain ⟨c, t, rfl⟩ := List.exists_cons_of_ne_nil hne
  have hc : c ≠ '+' := fun h => hplus (by rw [h]; rfl)
  rw [parseUnsigned]
  all_goals simp [hc]

/-- **A number without a sign** is read exactly when its digits are ASCII and its
value fits. -/
theorem parseUnsigned_eq_ok_iff (hne : s ≠ []) (hplus : s.head? ≠ some '+') :
    parseUnsigned max s = .ok n ↔
      (∀ c ∈ s, c.isDigit = true) ∧ Nat.ofDigitChars 10 s 0 ≤ max ∧
        n = Nat.ofDigitChars 10 s 0 := by
  constructor
  · intro h
    rw [parseUnsigned_of_ne_plus hne hplus] at h
    obtain ⟨rfl, hle⟩ := readDigits_eq_ok max.zero_le h
    exact ⟨isDigit_of_readDigits h, hle, rfl⟩
  · rintro ⟨hd, hle, rfl⟩
    exact parseUnsigned_of_digits hne hd hle

/-- A short one always fits. -/
theorem exists_parseUnsigned_iff (hne : s ≠ []) (hplus : s.head? ≠ some '+')
    (hlen : 10 ^ s.length ≤ max + 1) :
    (∃ n, parseUnsigned max s = .ok n) ↔ ∀ c ∈ s, c.isDigit = true := by
  simp only [parseUnsigned_eq_ok_iff hne hplus, exists_and_left, exists_eq, and_true]
  refine and_iff_left_of_imp fun hd => ?_
  have := ofDigitChars_lt hd
  omega

/-- The number a text stands for, however large, with or without a plus sign. -/
def unsignedValue (s : Text) : Option ℕ :=
  let digits := if s.head? = some '+' then s.tail else s
  if digits ≠ [] ∧ ∀ c ∈ digits, c.isDigit = true then some (Nat.ofDigitChars 10 digits 0) else none

/-- **What is read is the number**, where it fits. -/
theorem parseUnsigned_eq_ok_iff_value :
    parseUnsigned max s = .ok n ↔ unsignedValue s = some n ∧ n ≤ max := by
  have hdigits : ∀ t : Text, t ≠ [] → (readDigits max 0 t = .ok n ↔
      (if t ≠ [] ∧ ∀ c ∈ t, c.isDigit = true then some (Nat.ofDigitChars 10 t 0) else none) =
        some n ∧ n ≤ max) := by
    intro t hne
    constructor
    · intro h
      obtain ⟨hvalue, hle⟩ := readDigits_eq_ok max.zero_le h
      rw [if_pos ⟨hne, isDigit_of_readDigits h⟩, hvalue]
      exact ⟨rfl, hle⟩
    · rintro ⟨hvalue, hle⟩
      split at hvalue
      · next h =>
        obtain rfl := Option.some.inj hvalue
        exact readDigits_eq h.2 hle
      · cases hvalue
  by_cases hplus : s.head? = some '+'
  · obtain ⟨t, rfl⟩ := List.head?_eq_some_iff.1 hplus
    rw [unsignedValue, if_pos hplus, List.tail_cons]
    by_cases ht : t = []
    · subst ht
      simp [parseUnsigned]
    · rw [← hdigits t ht, parseUnsigned]
      exact ht
  · rw [unsignedValue, if_neg hplus]
    by_cases hs : s = []
    · subst hs
      simp [parseUnsigned]
    · rw [← hdigits s hs, parseUnsigned_of_ne_plus hs hplus]

theorem unsignedValue_decimal : unsignedValue (decimal n) = some n :=
  (parseUnsigned_eq_ok_iff_value.1 (parseUnsigned_decimal le_rfl)).1

theorem unsignedValue_padded : unsignedValue (padded w n) = some n :=
  (parseUnsigned_eq_ok_iff_value.1 (parseUnsigned_padded le_rfl)).1

end Decimal
