import SubxCore.Common.BinaryFloat
import SubxCore.Common.Decimal
/-!
# Floating-point numbers in texts

Numbers are read from texts in the grammar of the source's standard library,
rounded from their exact value, and shown with the fewest digits that read
back as the same number, without an exponent. `parse_display` is the round
trip.
-/

open Text Decimal

namespace BinaryFloat

/-! ## Reading -/

/-- The exponent of a number, nothing being none. -/
def readExponent : Text → Option ℤ
  | [] => some 0
  | c :: s =>
    if c = 'e' ∨ c = 'E' then
      let digits := match s with
        | '-' :: d => d
        | '+' :: d => d
        | d => d
      if digits ≠ [] ∧ digits.all Char.isDigit then
        let n : ℤ := Nat.ofDigitChars 10 digits 0
        some (if s.head? = some '-' then -n else n)
      else none
    else none

/-- The digits of an unsigned number and the power of ten they are to be
taken times. -/
def readNumber (s : Text) : Option (ℕ × ℤ) :=
  let whole := s.takeWhile Char.isDigit
  let rest := s.dropWhile Char.isDigit
  let fraction := if rest.head? = some '.' then rest.tail.takeWhile Char.isDigit else []
  let tail := if rest.head? = some '.' then rest.tail.dropWhile Char.isDigit else rest
  if whole = [] ∧ fraction = [] then none
  else (readExponent tail).map fun e =>
    (Nat.ofDigitChars 10 (whole ++ fraction) 0, e - fraction.length)

/-- A text as a number: a sign, and then a word or a decimal number. -/
def parse (F : BinaryFormat) (s : Text) : Option (BinaryFloat F) :=
  let negative := s.head? == some '-'
  let rest := if s.head? = some '-' ∨ s.head? = some '+' then s.tail else s
  if eqIgnoreAsciiCase rest "nan".toList then some nan
  else if eqIgnoreAsciiCase rest "inf".toList || eqIgnoreAsciiCase rest "infinity".toList then
    some (infinity negative)
  else (readNumber rest).map fun (n, e) => ofDecimal negative n e

/-! ## Showing -/

/-- The number `n / 10 ^ k` without trailing zeros. -/
def fixedPoint (n k : ℕ) : Text :=
  let fraction := (padded k (n % 10 ^ k)).rdropWhile (· = '0')
  decimal (n / 10 ^ k) ++ if fraction = [] then [] else '.' :: fraction

variable {F : BinaryFormat}

/-- The decimal with `n` digits next to a magnitude that rounds to it: the one
below or the one above, the nearer of both, the one above when they are as near. -/
def nearestDecimal (a : F.Magnitude) (n : ℕ) : Option (ℕ × ℤ) :=
  let e := Int.log 10 a.value + 1 - n
  let below := ⌊a.value / 10 ^ e⌋.toNat
  let reads (d : ℕ) : Bool := F.round (d * 10 ^ e) = a.value
  if reads below ∧ (¬ reads (below + 1) ∨
      a.value - below * 10 ^ e < (below + 1) * 10 ^ e - a.value) then some (below, e)
  else if reads (below + 1) then some (below + 1, e)
  else none

/-- All the decimal digits of a magnitude. -/
def exactDecimal (a : F.Magnitude) : ℕ × ℤ :=
  (a.value.num.toNat * 5 ^ Nat.log2 a.value.den, -Nat.log2 a.value.den)

/-- The shortest decimal that rounds to a magnitude. -/
def shortestDecimal (a : F.Magnitude) : ℕ × ℤ :=
  ((List.range F.precision).findSome? fun n => nearestDecimal a (n + 1)).getD (exactDecimal a)

/-- A number as a text. -/
def display : BinaryFloat F → Text
  | nan => "NaN".toList
  | infinity negative => (if negative then ['-'] else []) ++ "inf".toList
  | finite negative a =>
    (if negative then ['-'] else []) ++
      fixedPoint ((shortestDecimal a).1 * 10 ^ (shortestDecimal a).2.toNat)
        (-(shortestDecimal a).2).toNat

/-! ## Reading what is shown -/

/-- Digits up to what is not one. -/
theorem takeWhile_digits {d s : Text} (hd : ∀ c ∈ d, c.isDigit = true)
    (hs : ∀ c ∈ s.head?, c.isDigit = false) :
    (d ++ s).takeWhile Char.isDigit = d ∧ (d ++ s).dropWhile Char.isDigit = s := by
  rw [List.takeWhile_append_of_pos hd, List.dropWhile_append_of_pos hd]
  cases s with
  | nil => simp
  | cons c s => simp [hs c rfl]

/-- The digits of a fraction, its trailing zeros dropped. -/
theorem exists_padded_eq {n k : ℕ} : ∃ j, padded k n =
    (padded k n).rdropWhile (· = '0') ++ List.replicate j '0' := by
  refine ⟨((padded k n).rtakeWhile (· = '0')).length, ?_⟩
  have hzeros : (padded k n).rtakeWhile (· = '0') =
      List.replicate ((padded k n).rtakeWhile (· = '0')).length '0' :=
    List.eq_replicate_iff.2 ⟨rfl, fun c hc => by simpa using List.mem_rtakeWhile_imp hc⟩
  rw [← hzeros, List.rdropWhile_append_rtakeWhile]

theorem readNumber_whole {d : Text} (hne : d ≠ []) (hd : ∀ c ∈ d, c.isDigit = true) :
    readNumber d = some (Nat.ofDigitChars 10 d 0, 0) := by
  obtain ⟨htake, hdrop⟩ := takeWhile_digits (s := []) hd (by simp)
  rw [List.append_nil] at htake hdrop
  simp [readNumber, htake, hdrop, hne, readExponent]

theorem readNumber_point {d f : Text} (hne : d ≠ []) (hd : ∀ c ∈ d, c.isDigit = true)
    (hf : ∀ c ∈ f, c.isDigit = true) :
    readNumber (d ++ '.' :: f) = some (Nat.ofDigitChars 10 (d ++ f) 0, -(f.length : ℤ)) := by
  obtain ⟨htake, hdrop⟩ := takeWhile_digits (s := '.' :: f) hd (by simp)
  obtain ⟨htake', hdrop'⟩ := takeWhile_digits (s := []) hf (by simp)
  rw [List.append_nil] at htake' hdrop'
  simp [readNumber, htake, hdrop, htake', hdrop', hne, readExponent]

/-- **The text of `n / 10 ^ k` is read as this number.** -/
theorem readNumber_fixedPoint (n k : ℕ) : ∃ n' e, readNumber (fixedPoint n k) = some (n', e) ∧
    (n' : ℚ) * 10 ^ (e : ℤ) = n * 10 ^ (-k : ℤ) := by
  obtain ⟨j, hj⟩ := exists_padded_eq (n := n % 10 ^ k) (k := k)
  have hdigits : ∀ c ∈ (padded k (n % 10 ^ k)).rdropWhile (· = '0'), c.isDigit = true :=
    fun c hc => isDigit_of_mem_padded ((List.rdropWhile_prefix _ _).subset hc)
  have hnone : k = 0 → (padded k (n % 10 ^ k)).rdropWhile (· = '0') = [] := by
    rintro rfl
    rw [pow_zero, Nat.mod_one]
    rfl
  simp only [fixedPoint]
  generalize (padded k (n % 10 ^ k)).rdropWhile (· = '0') = f at hj hdigits hnone
  have hval : 10 ^ j * Nat.ofDigitChars 10 f 0 = n % 10 ^ k := by
    rw [← Nat.ofDigitChars_replicate_zero, ← Nat.ofDigitChars_append, ← hj, ofDigitChars_padded]
  have hwhole : ∀ c ∈ decimal (n / 10 ^ k), c.isDigit = true := fun c => isDigit_of_mem_decimal
  have hn : n / 10 ^ k * 10 ^ k + n % 10 ^ k = n := Nat.div_add_mod' n (10 ^ k)
  by_cases hf : f = []
  · subst hf
    rw [Nat.ofDigitChars_nil, Nat.mul_zero] at hval
    refine ⟨n / 10 ^ k, 0, ?_, ?_⟩
    · rw [if_pos rfl, List.append_nil, readNumber_whole decimal_ne_nil hwhole,
        ofDigitChars_decimal]
    · rw [← hval, Nat.add_zero] at hn
      have hcast : ((n / 10 ^ k : ℕ) : ℚ) * 10 ^ k = n := by exact_mod_cast hn
      rw [zpow_neg, zpow_natCast, ← div_eq_mul_inv, eq_div_iff (by positivity), zpow_zero, mul_one,
        hcast]
  · have hlen : f.length + j = k := by
      have hk : 0 < k := Nat.pos_of_ne_zero fun hk => hf (hnone hk)
      have := congrArg List.length hj
      rw [length_padded hk (Nat.mod_lt _ (by positivity)), List.length_append,
        List.length_replicate] at this
      exact this.symm
    refine ⟨_, _, by rw [if_neg hf]; exact readNumber_point decimal_ne_nil hwhole hdigits, ?_⟩
    rw [Nat.ofDigitChars_append, ofDigitChars_decimal, Nat.ofDigitChars_eq_ofDigitChars_zero]
    have hscale : (10 ^ f.length * (n / 10 ^ k) + Nat.ofDigitChars 10 f 0) * 10 ^ j = n := by
      rw [Nat.add_mul, Nat.mul_right_comm, ← pow_add, hlen, Nat.mul_comm _ (10 ^ j), hval,
        Nat.mul_comm, hn]
    generalize 10 ^ f.length * (n / 10 ^ k) + Nat.ofDigitChars 10 f 0 = n' at hscale
    rw [← hscale, ← hlen]
    push_cast
    rw [neg_add, zpow_add₀ (by norm_num), mul_assoc, mul_left_comm (10 ^ j), zpow_neg _ (j : ℤ),
      zpow_natCast, mul_inv_cancel₀ (by positivity), mul_one]

/-! ## The round trip -/

variable {a : F.Magnitude}

/-- A decimal next to a magnitude is taken only when it rounds to it. -/
theorem round_of_nearestDecimal {n d : ℕ} {e : ℤ} (h : nearestDecimal a n = some (d, e)) :
    F.round (d * 10 ^ e) = a.value := by
  simp only [nearestDecimal] at h
  split_ifs at h with hbelow habove
  · obtain ⟨rfl, rfl⟩ := Prod.mk.inj (Option.some.inj h)
    exact of_decide_eq_true hbelow.1
  · obtain ⟨rfl, rfl⟩ := Prod.mk.inj (Option.some.inj h)
    exact of_decide_eq_true habove

/-- All the digits together are the magnitude. -/
theorem exactDecimal_eq : ((exactDecimal a).1 : ℚ) * 10 ^ (exactDecimal a).2 = a.value := by
  obtain ⟨k, hk⟩ := F.exists_den_eq a.nonneg a.round_eq
  have hlog : Nat.log2 a.value.den = k := by rw [hk, Nat.log2_two_pow]
  have hnum : ((a.value.num.toNat : ℕ) : ℚ) = a.value.num := by
    exact_mod_cast Int.toNat_of_nonneg (Rat.num_nonneg.2 a.nonneg)
  rw [exactDecimal, hlog]
  push_cast
  rw [hnum, zpow_neg, zpow_natCast, ← div_eq_mul_inv, div_eq_iff (by positivity)]
  have hten : (10 : ℚ) ^ k = 2 ^ k * 5 ^ k := by rw [← mul_pow]; norm_num
  have hden : a.value * 2 ^ k = a.value.num := by
    have := Rat.mul_den_eq_num a.value
    rw [hk] at this
    exact_mod_cast this
  rw [hten, ← mul_assoc, hden]

theorem round_shortestDecimal :
    F.round ((shortestDecimal a).1 * 10 ^ (shortestDecimal a).2) = a.value := by
  unfold shortestDecimal
  rcases hfind : (List.range F.precision).findSome? fun n => nearestDecimal a (n + 1) with _ | p
  · rw [Option.getD_none, exactDecimal_eq, a.round_eq]
  · obtain ⟨n, -, hn⟩ := List.exists_of_findSome?_eq_some hfind
    exact round_of_nearestDecimal hn

/-- A digit is its own lowercase. -/
theorem toLower_of_isDigit {c : Char} (h : c.isDigit = true) : c.toLower = c := by
  have := toNat_of_isDigit h
  apply Char.toNat_inj.1
  rw [toNat_toLower, if_neg (by omega)]

/-- What starts with a digit is no word. -/
theorem eqIgnoreAsciiCase_of_digit {s w : Text} {c : Char} (hs : s.head? = some c)
    (hc : c.isDigit = true) (hw : ∀ d ∈ w.head?, d.toLower.isDigit = false) (hne : w ≠ []) :
    eqIgnoreAsciiCase s w = false := by
  obtain ⟨t, rfl⟩ := List.head?_eq_some_iff.1 hs
  obtain ⟨d, w, rfl⟩ := List.exists_cons_of_ne_nil hne
  have hd := hw d rfl
  rw [eqIgnoreAsciiCase, List.map_cons, List.map_cons, toLower_of_isDigit hc, beq_eq_false_iff_ne]
  intro heq
  rw [← (List.cons.inj heq).1, hc] at hd
  cases hd

/-- A number is read behind its sign. -/
theorem parse_of_digit {s : Text} {c : Char} {n : ℕ} {e : ℤ} (negative : Bool)
    (hs : s.head? = some c) (hc : c.isDigit = true) (h : readNumber s = some (n, e)) :
    parse F ((if negative then ['-'] else []) ++ s) = some (ofDecimal negative n e) := by
  have hword : ∀ w : Text, (∀ d ∈ w.head?, d.toLower.isDigit = false) → w ≠ [] →
      eqIgnoreAsciiCase s w = false := fun w => eqIgnoreAsciiCase_of_digit hs hc
  have hnan := hword "nan".toList (by decide) (by decide)
  have hinf := hword "inf".toList (by decide) (by decide)
  have hinfinity := hword "infinity".toList (by decide) (by decide)
  have hminus : c ≠ '-' := by rintro rfl; exact absurd hc (by decide)
  have hplus : c ≠ '+' := by rintro rfl; exact absurd hc (by decide)
  have hneg : (some c == some '-') = false := by simp [hminus]
  cases negative with
  | true =>
    simp only [parse, if_true, List.cons_append, List.nil_append, List.head?_cons, List.tail_cons,
      true_or, hnan, hinf, hinfinity, h]
    simp
  | false =>
    simp only [parse, Bool.false_eq_true, if_false, List.nil_append, hs, Option.some.injEq, hminus,
      hplus, or_self, hnan, hinf, hinfinity, h, hneg]
    simp

theorem head?_fixedPoint (n k : ℕ) : ∃ c, (fixedPoint n k).head? = some c ∧ c.isDigit = true := by
  obtain ⟨c, d, hd⟩ := List.exists_cons_of_ne_nil (decimal_ne_nil (n := n / 10 ^ k))
  refine ⟨c, ?_, isDigit_of_mem_decimal (n := n / 10 ^ k) (hd ▸ List.mem_cons_self)⟩
  simp only [fixedPoint, hd, List.cons_append, List.head?_cons]

/-- **A number that is shown is read back.** -/
theorem parse_display (x : BinaryFloat F) : parse F x.display = some x := by
  cases x with
  | nan => rfl
  | infinity negative => cases negative <;> rfl
  | finite negative a =>
    rcases hshort : shortestDecimal a with ⟨d, e⟩
    have hround : F.round (d * 10 ^ e) = a.value := by
      have := round_shortestDecimal (a := a)
      rwa [hshort] at this
    obtain ⟨c, hhead, hc⟩ := head?_fixedPoint (d * 10 ^ e.toNat) (-e).toNat
    obtain ⟨n', e', hread, hvalue⟩ := readNumber_fixedPoint (d * 10 ^ e.toNat) (-e).toNat
    have hsame : (n' : ℚ) * 10 ^ e' = d * 10 ^ e := by
      rw [hvalue, Nat.cast_mul, Nat.cast_pow, mul_assoc, Nat.cast_ofNat, ← zpow_natCast,
        ← zpow_add₀ (by norm_num)]
      congr 2
      omega
    rw [display, hshort, parse_of_digit negative hhead hc hread, ofDecimal, ofRat_eq]
    rw [hsame, hround]

end BinaryFloat
