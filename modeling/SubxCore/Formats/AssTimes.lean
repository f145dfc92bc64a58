import SubxCore.Formats.Ass
/-!
# ASS timestamps

A timestamp is four numbers between colons and a point, and stands for a number of
milliseconds, however large. It is read exactly when that number fits: the parser
checks every product and every sum, and the total is above them all.
-/

namespace SubxCore

open Text Decimal

variable {time s : Text} {d : Duration} {n value : ℕ}

/-- The milliseconds a timestamp stands for, however many, if it is one. -/
def assTimeValue (time : Text) : Option ℕ :=
  match time.splitOnP (fun c => c = ':' || c = '.') with
  | [h, m, s, c] => do
    let hours ← unsignedValue h
    let minutes ← unsignedValue m
    let seconds ← unsignedValue s
    let centi ← unsignedValue c
    return hours * 3600000 + minutes * 60000 + seconds * 1000 + centi * 10
  | _ => none

/-- The value of a timestamp is too large. -/
def Overflows (time : Text) : Prop := ∃ value, assTimeValue time = some value ∧ u64Max < value

instance : Decidable (Overflows time) :=
  decidable_of_iff (∃ value ∈ assTimeValue time, u64Max < value) Iff.rfl

theorem assField_eq_ok_iff :
    assField s = .ok n ↔ unsignedValue s = some n ∧ n ≤ u64Max := by
  rw [assField, Run.mapError_eq_ok, parseUnsigned_eq_ok_iff_value]

theorem assChecked_eq_ok_iff :
    assChecked time value = .ok n ↔ value ≤ u64Max ∧ n = value := by
  rw [assChecked]
  split
  · next h => simp [h, eq_comm]
  · next h => simp [h]

/-- **A timestamp is read exactly when it has a value that fits.** -/
theorem parseAssTime_eq_ok_iff :
    parseAssTime time = .ok d ↔
      ∃ value, assTimeValue time = some value ∧ value ≤ u64Max ∧ d = .fromMillis value := by
  rw [parseAssTime, assTimeValue]
  rcases time.splitOnP (fun c => c = ':' || c = '.') with
    - | ⟨h, - | ⟨m, - | ⟨s, - | ⟨c, - | ⟨x, rest⟩⟩⟩⟩⟩
  case cons.cons.cons.cons.nil =>
    simp only [Run.bind_eq_ok, assField_eq_ok_iff, assChecked_eq_ok_iff, Option.bind_eq_bind,
      Option.bind_eq_some_iff]
    constructor
    · rintro ⟨hours, ⟨hh, -⟩, minutes, ⟨hm, -⟩, seconds, ⟨hs, -⟩, centi, ⟨hc, -⟩, _, ⟨-, rfl⟩,
        _, ⟨-, rfl⟩, _, ⟨-, rfl⟩, _, ⟨-, rfl⟩, _, ⟨-, rfl⟩, _, ⟨-, rfl⟩, _, ⟨hle, rfl⟩, hd⟩
      exact ⟨_, ⟨hours, hh, minutes, hm, seconds, hs, centi, hc, rfl⟩, hle,
        (Except.ok.inj hd).symm⟩
    · rintro ⟨_, ⟨hours, hh, minutes, hm, seconds, hs, centi, hc, hvalue⟩, hle, rfl⟩
      obtain rfl := Option.some.inj hvalue
      -- every partial sum and every factor is below the total
      have hfields : hours ≤ u64Max ∧ minutes ≤ u64Max ∧ seconds ≤ u64Max ∧ centi ≤ u64Max := by
        omega
      have hsums : hours * 3600000 ≤ u64Max ∧ minutes * 60000 ≤ u64Max ∧
          hours * 3600000 + minutes * 60000 ≤ u64Max ∧ seconds * 1000 ≤ u64Max ∧
          hours * 3600000 + minutes * 60000 + seconds * 1000 ≤ u64Max ∧ centi * 10 ≤ u64Max := by
        omega
      obtain ⟨h1, h2, h3, h4, h5, h6⟩ := hsums
      exact ⟨hours, ⟨hh, hfields.1⟩, minutes, ⟨hm, hfields.2.1⟩, seconds, ⟨hs, hfields.2.2.1⟩,
        centi, ⟨hc, hfields.2.2.2⟩, _, ⟨h1, rfl⟩, _, ⟨h2, rfl⟩, _, ⟨h3, rfl⟩, _, ⟨h4, rfl⟩, _,
        ⟨h5, rfl⟩, _, ⟨h6, rfl⟩, _, ⟨hle, rfl⟩, rfl⟩
  all_goals simp

/-- A timestamp with a value that does not overflow is one that is read. -/
theorem exists_parseAssTime_iff :
    (∃ d, parseAssTime time = .ok d) ↔ (assTimeValue time).isSome ∧ ¬ Overflows time := by
  simp only [parseAssTime_eq_ok_iff, Overflows]
  rcases assTimeValue time with - | value
  · simp
  · simp

/-- It is a number of centiseconds. -/
theorem exists_centis_of_assTimeValue (h : assTimeValue time = some value) :
    ∃ centis, value = centis * 10 := by
  unfold assTimeValue at h
  split at h
  · simp only [Option.bind_eq_bind, Option.bind_eq_some_iff] at h
    obtain ⟨hours, -, minutes, -, seconds, -, centi, -, h⟩ := h
    obtain rfl := Option.some.inj h
    exact ⟨hours * 360000 + minutes * 6000 + seconds * 100 + centi, by omega⟩
  · cases h

end SubxCore
