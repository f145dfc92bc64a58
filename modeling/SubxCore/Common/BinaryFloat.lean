import Mathlib.Data.Int.Log
import Mathlib.Algebra.Order.Field.Power
import Mathlib.Data.Nat.Prime.Basic
import Mathlib.Data.Rat.Floor
import Mathlib.Tactic.Linarith
import Mathlib.Tactic.Positivity
import Mathlib.Tactic.FieldSimp
import Mathlib.Tactic.Ring
/-!
# Binary floating-point numbers

A binary format is a precision and a range of exponents; its numbers are
the rationals that rounding leaves alone, with a sign, the infinities and
one value that is not a number. Rounding is to the nearest, ties to even,
and idempotent (`round_round`): what it gives is a number of the format.
-/

/-- A binary floating-point format: so many significant bits, no exponent of a
last place below `minExponent`, and no number from `2 ^ maxExponent` on. -/
structure BinaryFormat where
  precision : ℕ
  minExponent : ℤ
  maxExponent : ℤ
  precision_pos : 0 < precision

namespace BinaryFormat

variable (F : BinaryFormat) {q : ℚ} {m : ℕ} {e : ℤ}

/-- The exponent of the last place of a rational in the format. -/
def exponent (q : ℚ) : ℤ := max F.minExponent (Int.log 2 q - F.precision + 1)

/-- The nearest integer, the even one of two. -/
def nearestEven (q : ℚ) : ℤ :=
  if 2 * Int.fract q < 1 then ⌊q⌋
  else if 2 * Int.fract q = 1 ∧ Even ⌊q⌋ then ⌊q⌋
  else ⌊q⌋ + 1

/-- The nearest number of the format, exponents unbounded above. -/
def round (q : ℚ) : ℚ := nearestEven (q / 2 ^ F.exponent q) * 2 ^ F.exponent q

/-! ## Rounding -/

@[simp] theorem nearestEven_intCast (n : ℤ) : nearestEven n = n := by simp [nearestEven]

theorem nearestEven_le {n : ℤ} (h : q < n) : nearestEven q ≤ n := by
  have hfloor : ⌊q⌋ < n := Int.floor_lt.2 h
  unfold nearestEven
  split_ifs <;> omega

theorem nearestEven_nonneg (h : 0 ≤ q) : 0 ≤ nearestEven q := by
  have hfloor : 0 ≤ ⌊q⌋ := Int.floor_nonneg.2 h
  unfold nearestEven
  split_ifs <;> omega

theorem minExponent_le_exponent : F.minExponent ≤ F.exponent q := le_max_left _ _

/-- A rational fills at most the significant bits. -/
theorem div_exponent_lt : q / 2 ^ F.exponent q < 2 ^ F.precision := by
  have hexp : Int.log 2 q + 1 ≤ F.precision + F.exponent q := by
    have : Int.log 2 q - F.precision + 1 ≤ F.exponent q := le_max_right _ _
    omega
  rw [div_lt_iff₀ (by positivity)]
  calc q < 2 ^ (Int.log 2 q + 1) := Int.lt_zpow_succ_log_self (by decide) q
    _ ≤ 2 ^ (F.precision + F.exponent q) := zpow_le_zpow_right₀ (by norm_num) hexp
    _ = 2 ^ F.precision * 2 ^ F.exponent q := by
      rw [zpow_add₀ (by norm_num), zpow_natCast]

/-- **What fits the significant bits is its own rounding.** -/
theorem round_mul_zpow (hm : m ≤ 2 ^ F.precision) (he : F.minExponent ≤ e) :
    F.round (m * 2 ^ e) = m * 2 ^ e := by
  obtain rfl | hpos := Nat.eq_zero_or_pos m
  · simp [round, nearestEven]
  have hq : (0 : ℚ) < m * 2 ^ e := by positivity
  -- the last place divides the number: it is no higher than `e`, or one above a power of two
  have hint : ∃ n : ℤ, (m * 2 ^ e : ℚ) / 2 ^ F.exponent (m * 2 ^ e) = n := by
    obtain hlt | rfl := Nat.lt_or_eq_of_le hm
    · have hle : F.exponent (m * 2 ^ e) ≤ e := by
        have hlog : Int.log 2 (m * 2 ^ e : ℚ) < F.precision + e := by
          rw [← Int.lt_zpow_iff_log_lt (by decide) hq, Nat.cast_ofNat, zpow_add₀ (by norm_num),
            zpow_natCast]
          have : (m : ℚ) < 2 ^ F.precision := by exact_mod_cast hlt
          gcongr
        exact max_le he (by omega)
      generalize F.exponent (m * 2 ^ e) = e' at hle
      obtain ⟨k, rfl⟩ := Int.le.dest hle
      refine ⟨m * 2 ^ k, ?_⟩
      rw [div_eq_iff (by positivity), zpow_add₀ (by norm_num), zpow_natCast]
      push_cast
      ring
    · have hlog : Int.log 2 (((2 ^ F.precision : ℕ) : ℚ) * 2 ^ e) = F.precision + e := by
        have : (((2 ^ F.precision : ℕ) : ℚ) * 2 ^ e) = (2 : ℕ) ^ ((F.precision : ℤ) + e) := by
          push_cast
          rw [zpow_add₀ (by norm_num), zpow_natCast]
        rw [this, Int.log_zpow (by decide)]
      have hexp : F.exponent (((2 ^ F.precision : ℕ) : ℚ) * 2 ^ e) = e + 1 := by
        rw [exponent, hlog]
        omega
      obtain ⟨p, hp⟩ := Nat.exists_eq_add_one_of_ne_zero F.precision_pos.ne'
      refine ⟨2 ^ p, ?_⟩
      rw [hexp, div_eq_iff (by positivity), hp, zpow_add₀ (by norm_num)]
      push_cast
      ring
  obtain ⟨n, hn⟩ := hint
  rw [round, hn, nearestEven_intCast, ← hn, div_mul_cancel₀ _ (by positivity)]

/-- A rounding is so many times a last place. -/
theorem exists_round_eq (h : 0 ≤ q) :
    ∃ m e, m ≤ 2 ^ F.precision ∧ F.minExponent ≤ e ∧ F.round q = (m : ℕ) * 2 ^ (e : ℤ) := by
  have hnonneg : 0 ≤ nearestEven (q / 2 ^ F.exponent q) := nearestEven_nonneg (by positivity)
  obtain ⟨m, hm⟩ := Int.eq_ofNat_of_zero_le hnonneg
  have hle : nearestEven (q / 2 ^ F.exponent q) ≤ (2 ^ F.precision : ℕ) :=
    nearestEven_le (by push_cast; exact F.div_exponent_lt)
  refine ⟨m, F.exponent q, by omega, F.minExponent_le_exponent, ?_⟩
  rw [round, hm, Int.cast_natCast]

/-- Rounding twice is rounding once. -/
theorem round_round (h : 0 ≤ q) : F.round (F.round q) = F.round q := by
  obtain ⟨m, e, hm, he, hround⟩ := F.exists_round_eq h
  rw [hround, F.round_mul_zpow hm he]

theorem round_nonneg (h : 0 ≤ q) : 0 ≤ F.round q := by
  obtain ⟨m, e, -, -, hround⟩ := F.exists_round_eq h
  rw [hround]
  positivity

/-- A number of the format has a power of two for its denominator. -/
theorem exists_den_eq (h : 0 ≤ q) (hround : F.round q = q) : ∃ a, q.den = 2 ^ a := by
  obtain ⟨m, e, -, -, hq⟩ := F.exists_round_eq h
  rw [hround] at hq
  have hdvd : q.den ∣ 2 ^ (-e).toNat := by
    have hdiv : q = Rat.divInt (m * 2 ^ e.toNat : ℕ) (2 ^ (-e).toNat : ℕ) := by
      rw [Rat.divInt_eq_div, Int.cast_natCast, Int.cast_natCast, eq_div_iff (by positivity), hq]
      have : (2 : ℚ) ^ e * 2 ^ (-e).toNat = 2 ^ e.toNat := by
        rw [← zpow_natCast, ← zpow_natCast, ← zpow_add₀ (by norm_num)]
        congr 1
        omega
      push_cast
      rw [mul_assoc, this]
    rw [hdiv]
    exact_mod_cast Rat.den_dvd (m * 2 ^ e.toNat : ℕ) (2 ^ (-e).toNat : ℕ)
  obtain ⟨a, -, ha⟩ := (Nat.dvd_prime_pow Nat.prime_two).1 hdvd
  exact ⟨a, ha⟩

end BinaryFormat

/-- The size of a finite number of a format. -/
structure BinaryFormat.Magnitude (F : BinaryFormat) where
  value : ℚ
  nonneg : 0 ≤ value
  round_eq : F.round value = value
  lt_top : value < 2 ^ F.maxExponent
  deriving DecidableEq

/-- A number of a binary format. -/
inductive BinaryFloat (F : BinaryFormat)
  | nan
  | infinity (negative : Bool)
  | finite (negative : Bool) (magnitude : F.Magnitude)
  deriving DecidableEq

namespace BinaryFloat

variable {F : BinaryFormat}

/-- A rational rounded to the format, with a sign. -/
def ofRat (negative : Bool) (q : ℚ) (hq : 0 ≤ q) : BinaryFloat F :=
  if h : F.round q < 2 ^ F.maxExponent then
    finite negative ⟨F.round q, F.round_nonneg hq, F.round_round hq, h⟩
  else infinity negative

/-- The number `n * 10 ^ e`, rounded to the format. -/
def ofDecimal (negative : Bool) (n : ℕ) (e : ℤ) : BinaryFloat F :=
  ofRat negative (n * 10 ^ e) (by positivity)

/-- A magnitude with its sign. -/
def signed (negative : Bool) (a : F.Magnitude) : ℚ := if negative then -a.value else a.value

/-- Whether a number is less than another; what is not a number is neither. -/
def lt : BinaryFloat F → BinaryFloat F → Bool
  | nan, _ => false
  | _, nan => false
  | infinity n, infinity n' => n && !n'
  | infinity n, finite _ _ => n
  | finite _ _, infinity n' => !n'
  | finite n a, finite n' b => signed n a < signed n' b

/-- Whether a number is at most another; what is not a number is neither. -/
def le : BinaryFloat F → BinaryFloat F → Bool
  | nan, _ => false
  | _, nan => false
  | x, y => !lt y x

instance : LT (BinaryFloat F) := ⟨fun x y => lt x y = true⟩

instance : LE (BinaryFloat F) := ⟨fun x y => le x y = true⟩

instance : DecidableLT (BinaryFloat F) := fun x y => inferInstanceAs (Decidable (lt x y = true))

instance : DecidableLE (BinaryFloat F) := fun x y => inferInstanceAs (Decidable (le x y = true))

theorem not_lt_of_le {x y : BinaryFloat F} (h : x ≤ y) : ¬ y < x := by
  change le x y = true at h
  change ¬ lt y x = true
  cases x <;> cases y <;> simp_all [le]

theorem lt_trans {x y z : BinaryFloat F} (hxy : x < y) (hyz : y < z) : x < z := by
  change lt x z = true
  change lt x y = true at hxy
  change lt y z = true at hyz
  cases x <;> cases y <;> cases z <;> simp_all [lt]
  exact hxy.trans hyz

/-- Of two numbers that are ones, either is less than the other or at least it. -/
theorem not_lt_iff_le {x y : BinaryFloat F} (hx : x ≠ nan) (hy : y ≠ nan) : ¬ y < x ↔ x ≤ y := by
  change ¬ lt y x = true ↔ le x y = true
  cases x <;> cases y <;> simp_all [le]

theorem lt_asymm {x y : BinaryFloat F} (h : x < y) : ¬ y < x := by
  intro hlt
  change lt x y = true at h
  change lt y x = true at hlt
  cases x <;> cases y <;> simp_all [lt]
  exact absurd h hlt.not_gt

/-- What is not a number is at most nothing, and nothing is at most it. -/
theorem ne_nan_of_le {x y : BinaryFloat F} (h : x ≤ y) : x ≠ nan ∧ y ≠ nan := by
  change le x y = true at h
  constructor <;> rintro rfl
  · exact Bool.false_ne_true h
  · cases x <;> exact Bool.false_ne_true h

/-- Rounding gives a number. -/
theorem ofDecimal_ne_nan {negative : Bool} {n : ℕ} {e : ℤ} :
    (ofDecimal negative n e : BinaryFloat F) ≠ nan := by
  unfold ofDecimal ofRat
  split_ifs <;> rintro ⟨⟩

/-- A rational that rounds to a magnitude is that number. -/
theorem ofRat_eq {negative : Bool} {q : ℚ} {hq : 0 ≤ q} {a : F.Magnitude}
    (h : F.round q = a.value) : (ofRat negative q hq : BinaryFloat F) = finite negative a := by
  obtain ⟨x, hnonneg, hround, htop⟩ := a
  obtain rfl : F.round q = x := h
  rw [ofRat, dif_pos htop]

/-! ## Two ranges

Of two ranges that overlap, the one that ends first and the one that goes on, each refused
below and above. What is not a number is in both. -/

section Ranges

variable {lo lo' hi hi' x : BinaryFloat F}

/-- In the first range alone is what is below the second one. -/
theorem in_first_only_iff (hoverlap : lo' < hi) (hends : hi < hi') :
    (¬ x < lo ∧ ¬ hi < x) ∧ ¬ (¬ x < lo' ∧ ¬ hi' < x) ↔ ¬ x < lo ∧ x < lo' := by
  constructor
  · rintro ⟨⟨hlo, hhi⟩, hnot⟩
    refine ⟨hlo, ?_⟩
    by_contra hlt
    exact hnot ⟨hlt, fun h => hhi (lt_trans hends h)⟩
  · rintro ⟨hlo, hlt⟩
    exact ⟨⟨hlo, lt_asymm (lt_trans hlt hoverlap)⟩, fun h => h.1 hlt⟩

/-- In the second one alone is what is above the first one. -/
theorem in_second_only_iff (hstarts : x < lo → x < lo') (hoverlap : lo' < hi) :
    (¬ x < lo' ∧ ¬ hi' < x) ∧ ¬ (¬ x < lo ∧ ¬ hi < x) ↔ hi < x ∧ ¬ hi' < x := by
  constructor
  · rintro ⟨⟨hlo, hhi⟩, hnot⟩
    refine ⟨?_, hhi⟩
    by_contra hlt
    exact hnot ⟨fun h => hlo (hstarts h), hlt⟩
  · rintro ⟨hlt, hhi⟩
    exact ⟨⟨lt_asymm (lt_trans hoverlap hlt), hhi⟩, fun h => h.2 hlt⟩

end Ranges

end BinaryFloat

/-- The format of `f32`. -/
def binary32 : BinaryFormat := ⟨24, -149, 128, by decide⟩

/-- The numbers of `f32`. -/
abbrev F32 := BinaryFloat binary32
