import Mathlib.Data.List.Basic
import Mathlib.Data.List.Induction
/-!
# Runs that may fail

A loop with early return is a monadic fold into `Except`: it goes through
a list, and the first step that fails ends it. The rules here are the
ones a proof about such a loop needs: peeling a bind apart, one step and
then the rest, and an invariant of the steps is an invariant of the run.
-/

namespace Run

universe u v w

variable {ε : Type u} {σ τ : Type v} {α : Type w}
variable {f : σ → α → Except ε σ} {s s' : σ} {a : α} {l : List α}

/-- What a computation that went through was made of. -/
theorem bind_eq_ok {x : Except ε σ} {g : σ → Except ε τ} {t : τ} :
    x >>= g = .ok t ↔ ∃ s, x = .ok s ∧ g s = .ok t := by
  cases x with
  | error e => simp [bind, Except.bind]
  | ok s => simp [bind, Except.bind]

/-- Renaming the errors makes no result. -/
theorem mapError_eq_ok {ε' : Type*} {x : Except ε σ} {g : ε → ε'} :
    x.mapError g = .ok s ↔ x = .ok s := by
  cases x with
  | error e => simp [Except.mapError]
  | ok t => simp [Except.mapError]

theorem map_eq_ok {x : Except ε σ} {g : σ → τ} {t : τ} :
    x.map g = .ok t ↔ ∃ s, x = .ok s ∧ g s = t := by
  cases x <;> simp [Except.map]

theorem map_eq_error {x : Except ε σ} {g : σ → τ} {e : ε} : x.map g = .error e ↔ x = .error e := by
  cases x <;> simp [Except.map]

/-- What went through, or nothing. -/
theorem toOption_eq_some {x : Except ε σ} : x.toOption = some s ↔ x = .ok s := by
  cases x <;> simp [Except.toOption]

/-- A computation fails when it gives nothing. -/
theorem exists_error_iff {x : Except ε σ} : (∃ e, x = .error e) ↔ ¬ ∃ s, x = .ok s := by
  cases x <;> simp

@[simp] theorem foldlM_ok_nil : ([] : List α).foldlM f s = .ok s' ↔ s = s' := by
  simp [pure, Except.pure]

theorem foldlM_ok_cons :
    (a :: l).foldlM f s = .ok s' ↔ ∃ t, f s a = .ok t ∧ l.foldlM f t = .ok s' := by
  rw [List.foldlM_cons, bind_eq_ok]

/-- One step and then the rest. -/
theorem foldlM_cons_of_ok {t : σ} (h : f s a = .ok t) :
    (a :: l).foldlM f s = l.foldlM f t := by
  rw [List.foldlM_cons, h]
  rfl

/-- **The run rule.** What holds at first, and is kept by every step that
goes through, holds when the run has gone through. -/
theorem foldlM_invariant {P : σ → Prop} (hstep : ∀ s t, ∀ a ∈ l, P s → f s a = .ok t → P t)
    (h : P s) (hrun : l.foldlM f s = .ok s') : P s' := by
  induction l generalizing s with
  | nil => exact foldlM_ok_nil.1 hrun ▸ h
  | cons a l ih =>
    obtain ⟨t, ht, hrun⟩ := foldlM_ok_cons.1 hrun
    have hmem : a ∈ a :: l := List.mem_cons_self ..
    exact ih (fun s t b hb => hstep s t b (List.mem_cons_of_mem _ hb)) (hstep s t a hmem h ht) hrun

/-- Two runs, one after the other. -/
theorem foldlM_ok_append {l' : List α} : (l ++ l').foldlM f s = .ok s' ↔
    ∃ t, l.foldlM f s = .ok t ∧ l'.foldlM f t = .ok s' := by
  rw [List.foldlM_append, bind_eq_ok]

/-- **The run rule, with the steps made and the steps to come.** -/
theorem foldlM_along {P : List α → List α → σ → Prop} (h : P [] l s)
    (hstep : ∀ before a after t t', l = before ++ a :: after → before.foldlM f s = .ok t →
      P before (a :: after) t → f t a = .ok t' → P (before ++ [a]) after t') :
    ∀ {before after : List α} {t : σ}, l = before ++ after → before.foldlM f s = .ok t →
      P before after t := by
  intro before
  induction before using List.reverseRecOn with
  | nil =>
    intro after t hl hrun
    obtain rfl := foldlM_ok_nil.1 hrun
    rw [show after = l from hl.symm]
    exact h
  | append_singleton before a ih =>
    intro after t hl hrun
    obtain ⟨t₁, hbefore, hlast⟩ := foldlM_ok_append.1 hrun
    obtain ⟨t₂, ha, hnil⟩ := foldlM_ok_cons.1 hlast
    obtain rfl := foldlM_ok_nil.1 hnil
    rw [List.append_assoc, List.singleton_append] at hl
    exact hstep before a after t₁ t₂ hl hbefore (ih hl hbefore) ha

end Run
