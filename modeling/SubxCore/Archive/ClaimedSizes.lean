import SubxCore.Archive.Effects
import Mathlib.Algebra.BigOperators.Group.List.Basic
/-!
# What the limits make of the sizes claimed

`check_entry` adds the sizes that the headers claim to a `u64`. The sizes are
whatever the archive says, so the sum is compared here with the exact one, call
after call, up to and including the first that does not go through. As long as
the exact sum fits, the answer is that of the exact sum. The first sum that
does not fit ends this: it panics, or wraps around to at most the limit and is
let through.
-/

namespace SubxCore

namespace Archive

variable {overflowChecks : Bool} {limits limits' : ExtractionLimits} {size : UInt64}
variable {sizes : List UInt64}

/-! ## The calls -/

/-- A call of `check_entry`: the limits so far, and the size claimed. -/
structure CheckedEntry where
  limits : ExtractionLimits
  size : UInt64
  deriving DecidableEq, Repr

/-- What it returns. -/
def CheckedEntry.result (overflowChecks : Bool) (call : CheckedEntry) :
    Except Stop ExtractionLimits :=
  call.limits.checkEntry overflowChecks call.size

/-- The calls for some sizes, up to and including the first that fails. -/
def checkedEntries (overflowChecks : Bool) (limits : ExtractionLimits) :
    List UInt64 → List CheckedEntry
  | [] => []
  | size :: sizes =>
    ⟨limits, size⟩ ::
      match limits.checkEntry overflowChecks size with
      | .ok limits' => checkedEntries overflowChecks limits' sizes
      | .error _ => []

/-- The sum of some sizes, without a bound. -/
def exactSum (sizes : List UInt64) : ℕ := (sizes.map UInt64.toNat).sum

/-- **No sum of a call overflows**: the count fits the narrowest `usize`, and
the size is added, where the count allows it, without leaving a `u64`. -/
def CheckedEntry.NoOverflow (call : CheckedEntry) : Prop :=
  call.limits.entryCount + 1 < 2 ^ 16 ∧
    (call.limits.entryCount + 1 ≤ maxEntryCount →
      call.limits.totalSize.toNat + call.size.toNat < 2 ^ 64)

/-! ## One call -/

/-- Without an overflow the answer is that of the exact sum. -/
theorem checkEntry_eq_ok_iff_of_fits
    (hfits : limits.entryCount + 1 ≤ maxEntryCount →
      limits.totalSize.toNat + size.toNat < 2 ^ 64) :
    limits.checkEntry overflowChecks size = .ok limits' ↔
      limits' = ⟨limits.totalSize + size, limits.entryCount + 1⟩ ∧
        limits.entryCount + 1 ≤ maxEntryCount ∧
        limits.totalSize.toNat + size.toNat ≤ maxExpandedSize.toNat := by
  constructor
  · intro h
    obtain ⟨rfl, hcount, hsize, -⟩ := checkEntry_eq_ok h
    refine ⟨rfl, hcount, ?_⟩
    have := UInt64.le_iff_toNat_le.1 hsize
    rwa [UInt64.toNat_add, Nat.mod_eq_of_lt (hfits hcount)] at this
  · rintro ⟨rfl, hcount, hsize⟩
    have hsum : limits.totalSize + size ≤ maxExpandedSize := by
      rw [UInt64.le_iff_toNat_le, UInt64.toNat_add, Nat.mod_eq_of_lt (hfits hcount)]
      exact hsize
    unfold ExtractionLimits.checkEntry
    rw [if_neg (Nat.not_lt.2 hcount),
      if_neg fun h => absurd (hfits hcount) (Nat.not_lt.2 h.2)]
    dsimp only
    rw [if_neg (UInt64.not_lt.2 hsum)]

theorem isOk_result_iff_of_fits
    (hfits : limits.entryCount + 1 ≤ maxEntryCount →
      limits.totalSize.toNat + size.toNat < 2 ^ 64) :
    (CheckedEntry.result overflowChecks ⟨limits, size⟩).isOk = true ↔
      limits.entryCount + 1 ≤ maxEntryCount ∧
        limits.totalSize.toNat + size.toNat ≤ maxExpandedSize.toNat := by
  have hiff : ∀ limits', limits.checkEntry overflowChecks size = .ok limits' ↔ _ :=
    fun _ => checkEntry_eq_ok_iff_of_fits hfits
  rw [CheckedEntry.result]
  dsimp only
  cases h : limits.checkEntry overflowChecks size with
  | ok limits' =>
    obtain ⟨-, hcount, hsize⟩ := (hiff limits').1 h
    exact ⟨fun _ => ⟨hcount, hsize⟩, fun _ => rfl⟩
  | error stop =>
    refine ⟨fun hok => absurd hok Bool.false_ne_true, fun hwithin => ?_⟩
    rw [(hiff _).2 ⟨rfl, hwithin⟩] at h
    cases h

/-! ## Call after call -/

/-- **The answers are those of the exact sums**, and no sum overflows. -/
def AnswersExactly (overflowChecks : Bool) (limits : ExtractionLimits) (sizes : List UInt64) :
    Prop :=
  ∀ k call, (checkedEntries overflowChecks limits sizes)[k]? = some call →
    ((call.result overflowChecks).isOk = true ↔
      limits.entryCount + (k + 1) ≤ maxEntryCount ∧
        limits.totalSize.toNat + exactSum (sizes.take (k + 1)) ≤ maxExpandedSize.toNat) ∧
    call.NoOverflow

/-- **The sizes stay within a `u64`**: none that is still counted takes a sum
within the limit out of it. -/
def StayWithin (limits : ExtractionLimits) (sizes : List UInt64) : Prop :=
  ∀ k size, sizes[k]? = some size → limits.entryCount + k < maxEntryCount →
    limits.totalSize.toNat + exactSum (sizes.take k) ≤ maxExpandedSize.toNat →
      limits.totalSize.toNat + exactSum (sizes.take k) + size.toNat < 2 ^ 64

theorem exactSum_take_succ (size : UInt64) (sizes : List UInt64) (k : ℕ) :
    exactSum ((size :: sizes).take (k + 1)) = size.toNat + exactSum (sizes.take k) := by
  rw [exactSum, List.take_succ_cons, List.map_cons, List.sum_cons, exactSum]

theorem answersExactly_cons (hcount : limits.entryCount ≤ maxEntryCount) :
    AnswersExactly overflowChecks limits (size :: sizes) ↔
      (limits.entryCount + 1 ≤ maxEntryCount → limits.totalSize.toNat + size.toNat < 2 ^ 64) ∧
        ∀ limits', limits.checkEntry overflowChecks size = .ok limits' →
          AnswersExactly overflowChecks limits' sizes := by
  have htail : ∀ limits', limits.checkEntry overflowChecks size = .ok limits' →
      checkedEntries overflowChecks limits (size :: sizes) =
        ⟨limits, size⟩ :: checkedEntries overflowChecks limits' sizes := by
    intro limits' h
    rw [checkedEntries, h]
  -- what is counted after the first call has been counted before it
  have hshift : (limits.entryCount + 1 ≤ maxEntryCount →
      limits.totalSize.toNat + size.toNat < 2 ^ 64) → ∀ limits',
      limits.checkEntry overflowChecks size = .ok limits' → ∀ k,
        limits'.entryCount + k = limits.entryCount + (k + 1) ∧
          limits'.totalSize.toNat + exactSum (sizes.take k) =
            limits.totalSize.toNat + exactSum ((size :: sizes).take (k + 1)) := by
    intro hfits limits' h k
    obtain ⟨rfl, hcount', -⟩ := (checkEntry_eq_ok_iff_of_fits hfits).1 h
    rw [exactSum_take_succ, UInt64.toNat_add, Nat.mod_eq_of_lt (hfits hcount')]
    exact ⟨by dsimp only; omega, by omega⟩
  constructor
  · intro h
    have hfits := (h 0 ⟨limits, size⟩ (by rw [checkedEntries]; rfl)).2.2
    refine ⟨hfits, fun limits' hok k call hcall => ?_⟩
    have := h (k + 1) call (by rw [htail limits' hok]; exact hcall)
    rwa [← (hshift hfits limits' hok (k + 1)).1, ← (hshift hfits limits' hok (k + 1)).2] at this
  · rintro ⟨hfits, h⟩ k call hcall
    cases k with
    | zero =>
      obtain rfl : ⟨limits, size⟩ = call := Option.some.inj hcall
      refine ⟨?_, ?_, hfits⟩
      · rw [isOk_result_iff_of_fits hfits, exactSum_take_succ]
        exact Iff.rfl
      · exact lt_of_le_of_lt (Nat.succ_le_succ hcount) (by decide)
    | succ k =>
      cases hok : limits.checkEntry overflowChecks size with
      | error stop =>
        rw [checkedEntries, hok] at hcall
        cases hcall
      | ok limits' =>
        rw [htail limits' hok] at hcall
        have := h limits' hok k call hcall
        rwa [(hshift hfits limits' hok (k + 1)).1, (hshift hfits limits' hok (k + 1)).2] at this

theorem stayWithin_cons (hsize : limits.totalSize ≤ maxExpandedSize) :
    StayWithin limits (size :: sizes) ↔
      (limits.entryCount + 1 ≤ maxEntryCount → limits.totalSize.toNat + size.toNat < 2 ^ 64) ∧
        ∀ limits', limits.checkEntry overflowChecks size = .ok limits' →
          StayWithin limits' sizes := by
  constructor
  · intro h
    have hfits : limits.entryCount + 1 ≤ maxEntryCount →
        limits.totalSize.toNat + size.toNat < 2 ^ 64 := fun hcount =>
      h 0 size rfl hcount (UInt64.le_iff_toNat_le.1 hsize)
    refine ⟨hfits, fun limits' hok k next hk hcount hsum => ?_⟩
    obtain ⟨rfl, hcount', -⟩ := (checkEntry_eq_ok_iff_of_fits hfits).1 hok
    have := h (k + 1) next hk
    rw [exactSum_take_succ, ← Nat.add_assoc limits.totalSize.toNat] at this
    rw [UInt64.toNat_add, Nat.mod_eq_of_lt (hfits hcount')] at hsum ⊢
    exact this (by dsimp only at hcount; omega) hsum
  · rintro ⟨hfits, h⟩ k next hk hcount hsum
    cases k with
    | zero =>
      obtain rfl : size = next := Option.some.inj hk
      exact hfits hcount
    | succ k =>
      rw [exactSum_take_succ, ← Nat.add_assoc limits.totalSize.toNat] at hsum ⊢
      -- the sum is within the limit already after the first size, which is let through
      have hcount' : limits.entryCount + 1 ≤ maxEntryCount := by omega
      have hok : limits.checkEntry overflowChecks size =
          .ok ⟨limits.totalSize + size, limits.entryCount + 1⟩ :=
        (checkEntry_eq_ok_iff_of_fits hfits).2
          ⟨rfl, hcount', (Nat.le_add_right _ _).trans hsum⟩
      have := h _ hok k next hk
      dsimp only at this
      rw [UInt64.toNat_add, Nat.mod_eq_of_lt (hfits hcount')] at this
      exact this (by omega) hsum

/-- The answers are exact as long as the sums fit. -/
theorem answersExactly_iff (hcount : limits.entryCount ≤ maxEntryCount)
    (hsize : limits.totalSize ≤ maxExpandedSize) :
    AnswersExactly overflowChecks limits sizes ↔ StayWithin limits sizes := by
  induction sizes generalizing limits with
  | nil => exact ⟨fun _ _ _ hk => (nomatch hk), fun _ _ _ hk => (nomatch hk)⟩
  | cons size sizes ih =>
    rw [answersExactly_cons hcount, stayWithin_cons hsize]
    refine and_congr_right fun _ => forall₂_congr fun limits' hok => ?_
    obtain ⟨rfl, hcount', hsize', -⟩ := checkEntry_eq_ok hok
    exact ih hcount' hsize'

/-- **The k-th call goes through exactly where the count and the exact sum of
the first k sizes are within the limits, and nothing overflows**, if and only if
no size that is counted takes a sum within the limit out of a `u64`. -/
theorem checkEntry_counts_exactly (overflowChecks : Bool) (sizes : List UInt64) :
    (∀ k call, (checkedEntries overflowChecks .new sizes)[k]? = some call →
      ((call.result overflowChecks).isOk = true ↔
        k + 1 ≤ maxEntryCount ∧ exactSum (sizes.take (k + 1)) ≤ maxExpandedSize.toNat) ∧
      call.NoOverflow) ↔
    ∀ k size, sizes[k]? = some size → k < maxEntryCount →
      exactSum (sizes.take k) ≤ maxExpandedSize.toNat →
        exactSum (sizes.take k) + size.toNat < 2 ^ 64 := by
  have h : AnswersExactly overflowChecks .new sizes ↔ StayWithin .new sizes :=
    answersExactly_iff (Nat.zero_le _) (by decide)
  have hcount : ExtractionLimits.new.entryCount = 0 := rfl
  have hsize : ExtractionLimits.new.totalSize.toNat = 0 := rfl
  unfold AnswersExactly StayWithin at h
  simpa only [hcount, hsize, Nat.zero_add] using h

/-- Two sizes of which the second takes the sum to `2 ^ 64`: without overflow
checks both are let through, and with them the second panics. -/
theorem wrapped_sum_is_let_through :
    ¬(∀ k call, (checkedEntries false .new [1, 18446744073709551615])[k]? = some call →
      ((call.result false).isOk = true ↔
        k + 1 ≤ maxEntryCount ∧
          exactSum (([1, 18446744073709551615] : List UInt64).take (k + 1)) ≤
            maxExpandedSize.toNat) ∧
      call.NoOverflow) ∧
    (checkedEntries true .new [1, 18446744073709551615]).map (·.result true) =
      [.ok ⟨1, 1⟩, .error (.panicked .addOverflow)] := by
  refine ⟨fun h => ?_, by decide +kernel⟩
  have hcall := h 1 ⟨⟨1, 1⟩, 18446744073709551615⟩ (by decide +kernel)
  exact absurd (hcall.1.1 (by decide +kernel)).2 (by decide +kernel)

end Archive

end SubxCore
