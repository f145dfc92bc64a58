import SubxCore.Common.BinaryFloat
import SubxCore.Common.Decimal
/-!
# The values of floating-point numbers

What a floating-point number stands for, without its format: an exact
rational, one of the infinities, or nothing. The two zeros are one value.
Comparing numbers is comparing their values (`value_lt`, `value_le`), so what
only compares numbers and takes their size can be studied on the values.
-/

/-- The value of a floating-point number. -/
inductive FloatValue
  | nan
  | infinity (negative : Bool)
  | finite (value : ℚ)
  deriving DecidableEq, Repr

namespace FloatValue

/-- The size of a value. -/
def abs : FloatValue → FloatValue
  | nan => nan
  | infinity _ => infinity false
  | finite q => finite |q|

/-- The rational of a finite value. -/
def toRat? : FloatValue → Option ℚ
  | finite q => some q
  | _ => none

/-- Whether a value is less than another; what is not a number is neither. -/
def lt : FloatValue → FloatValue → Bool
  | nan, _ => false
  | _, nan => false
  | infinity n, infinity n' => n && !n'
  | infinity n, finite _ => n
  | finite _, infinity n' => !n'
  | finite a, finite b => a < b

/-- Whether a value is at most another; what is not a number is neither. -/
def le : FloatValue → FloatValue → Bool
  | nan, _ => false
  | _, nan => false
  | x, y => !lt y x

instance : LT FloatValue := ⟨fun x y => lt x y = true⟩

instance : LE FloatValue := ⟨fun x y => le x y = true⟩

instance : DecidableLT FloatValue := fun x y => inferInstanceAs (Decidable (lt x y = true))

instance : DecidableLE FloatValue := fun x y => inferInstanceAs (Decidable (le x y = true))

variable {a b q : ℚ} {x : FloatValue}

@[simp] theorem abs_finite : (finite q).abs = finite |q| := rfl

@[simp] theorem finite_lt_finite : finite a < finite b ↔ a < b := decide_eq_true_iff

@[simp] theorem finite_le_finite : finite a ≤ finite b ↔ a ≤ b := by
  change (!decide (b < a)) = true ↔ a ≤ b
  rw [Bool.not_eq_true', decide_eq_false_iff_not, not_lt]

theorem not_lt_nan : ¬ x < nan := by
  cases x <;> exact Bool.false_ne_true

/-- Of two values that are numbers, either is less than the other or at least it. -/
theorem not_lt_iff_le {x y : FloatValue} (hx : x ≠ nan) (hy : y ≠ nan) : ¬ y < x ↔ x ≤ y := by
  change ¬ lt y x = true ↔ le x y = true
  cases x <;> cases y <;> simp_all [le]

theorem le_trans {x y z : FloatValue} (hxy : x ≤ y) (hyz : y ≤ z) : x ≤ z := by
  change le x z = true
  change le x y = true at hxy
  change le y z = true at hyz
  cases x <;> cases y <;> cases z <;> simp_all [le, lt]
  · exact hyz.imp_right fun h => hxy.resolve_left (by rw [h]; decide)
  · exact hxy.trans hyz

/-- A value of bounded size is finite. -/
theorem exists_finite_of_abs_le (h : x.abs ≤ finite b) : ∃ q, x = finite q ∧ |q| ≤ b := by
  cases x with
  | nan => exact absurd h Bool.false_ne_true
  | infinity negative => exact absurd h Bool.false_ne_true
  | finite q => exact ⟨q, rfl, finite_le_finite.1 h⟩

/-- A value with so many digits after the point, rounded to the nearest, ties
to even. -/
def toFixed (digits : ℕ) : FloatValue → Text
  | nan => "NaN".toList
  | infinity negative => (if negative then ['-'] else []) ++ "inf".toList
  | finite q =>
    let n := (BinaryFormat.nearestEven (|q| * 10 ^ digits)).toNat
    (if q < 0 then ['-'] else []) ++ Decimal.decimal (n / 10 ^ digits) ++
      '.' :: Decimal.padded digits (n % 10 ^ digits)

end FloatValue

namespace BinaryFloat

variable {F : BinaryFormat}

/-- The value of a number. -/
def value : BinaryFloat F → FloatValue
  | nan => .nan
  | infinity negative => .infinity negative
  | finite negative a => .finite (signed negative a)

theorem value_lt (x y : BinaryFloat F) : x.value < y.value ↔ x < y := by
  cases x <;> cases y <;> exact Iff.rfl

theorem value_le (x y : BinaryFloat F) : x.value ≤ y.value ↔ x ≤ y := by
  cases x <;> cases y <;> exact Iff.rfl

/-- A natural number that fits the significant bits is its own value. -/
theorem value_ofDecimal_natCast {n : ℕ} (hn : n ≤ 2 ^ F.precision) (hmin : F.minExponent ≤ 0)
    (htop : (n : ℚ) < 2 ^ F.maxExponent) :
    (ofDecimal false n 0 : BinaryFloat F).value = .finite n := by
  have hround : F.round ((n : ℚ) * 10 ^ (0 : ℤ)) = n := by
    have := F.round_mul_zpow hn hmin
    rwa [zpow_zero, mul_one] at this ⊢
  have hfinite : (ofDecimal false n 0 : BinaryFloat F) =
      finite false ⟨n, Nat.cast_nonneg n, by rwa [zpow_zero, mul_one] at hround, htop⟩ :=
    ofRat_eq hround
  rw [hfinite]
  rfl

end BinaryFloat
