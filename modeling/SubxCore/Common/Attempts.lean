import Mathlib.Data.List.Basic
/-!
# Attempts

A list of steps each of which is tried once, or a second time right after
the first. `Attempted plan log` says that the log is such a run through
the plan; from it the number of tries is between one and two for each
step, over all steps or over those with some property.
-/

universe u

variable {α : Type u}

/-- Every step of a plan tried once or twice, in order. -/
inductive Attempted : List α → List α → Prop
  | nil : Attempted [] []
  | once {a : α} {plan log : List α} : Attempted plan log → Attempted (a :: plan) (a :: log)
  | twice {a : α} {plan log : List α} :
    Attempted plan log → Attempted (a :: plan) (a :: a :: log)

namespace Attempted

variable {plan plan' log log' : List α} {a : α}

/-- One run after the other. -/
theorem append (h : Attempted plan log) (h' : Attempted plan' log') :
    Attempted (plan ++ plan') (log ++ log') := by
  induction h with
  | nil => exact h'
  | once _ ih => exact .once ih
  | twice _ ih => exact .twice ih

/-- Between one and two tries for each step. -/
theorem length_bounds (h : Attempted plan log) :
    plan.length ≤ log.length ∧ log.length ≤ 2 * plan.length := by
  induction h with
  | nil => exact ⟨Nat.le_refl _, Nat.zero_le _⟩
  | once _ ih => simp only [List.length_cons]; omega
  | twice _ ih => simp only [List.length_cons]; omega

/-- The same, of the steps with some property. -/
theorem countP_bounds (h : Attempted plan log) (p : α → Bool) :
    plan.countP p ≤ log.countP p ∧ log.countP p ≤ 2 * plan.countP p := by
  induction h with
  | nil => exact ⟨Nat.le_refl _, Nat.zero_le _⟩
  | once _ ih => simp only [List.countP_cons]; omega
  | twice _ ih => simp only [List.countP_cons]; omega

/-- What is tried is planned, and what is planned is tried. -/
theorem mem_iff (h : Attempted plan log) : a ∈ log ↔ a ∈ plan := by
  induction h with
  | nil => exact Iff.rfl
  | once _ ih => rw [List.mem_cons, List.mem_cons, ih]
  | twice _ ih => rw [List.mem_cons, List.mem_cons, List.mem_cons, ih, or_self_left]

end Attempted
