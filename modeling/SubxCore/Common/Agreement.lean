import SubxCore.Common.Program
/-!
# Runs that agree

A program that does not look at a part of the state does the same on states
that differ there only: `Agrees` says so for a relation between the states,
which is a matter of the parts of the program.
-/

universe u

namespace Program

variable {σ ε ε' α β : Type u} {x : Program σ ε α} {f : α → Program σ ε β}

/-- On related states a program comes to the same, and leaves related states. -/
def Agrees (R : σ → σ → Prop) (x : Program σ ε α) : Prop :=
  ∀ s t, R s t → (exec x s).1 = (exec x t).1 ∧ R (exec x s).2 (exec x t).2

namespace Agrees

variable {R : σ → σ → Prop}

theorem pure (a : α) : Agrees R (Pure.pure a : Program σ ε α) := fun _ _ h => ⟨rfl, h⟩

theorem throw (e : ε) : Agrees R (MonadExcept.throw e : Program σ ε α) := fun _ _ h => ⟨rfl, h⟩

/-- **One program after the other.** -/
theorem bind (hx : Agrees R x) (hf : ∀ a, Agrees R (f a)) : Agrees R (x >>= f) := by
  intro s t h
  obtain ⟨hresult, hstates⟩ := hx s t h
  rw [exec_bind, exec_bind]
  rcases hs : exec x s with ⟨r, s₁⟩
  rcases ht : exec x t with ⟨r', t₁⟩
  rw [hs, ht] at hresult hstates
  obtain rfl : r = r' := hresult
  rcases r with e | a
  · exact ⟨rfl, hstates⟩
  · exact hf a s₁ t₁ hstates

theorem attempt (hx : Agrees R x) : Agrees R (Program.attempt x : Program σ ε' (Except ε α)) := by
  intro s t h
  rw [exec_attempt, exec_attempt, (hx s t h).1]
  exact ⟨rfl, (hx s t h).2⟩

theorem mapError {g : ε → ε'} (hx : Agrees R x) : Agrees R (Program.mapError g x) := by
  intro s t h
  rw [exec_mapError, exec_mapError, (hx s t h).1]
  exact ⟨rfl, (hx s t h).2⟩

theorem closed (R : σ → σ → Prop) : Closed fun (_ _ : Type u) x => Agrees R x :=
  ⟨pure, throw, bind, attempt, mapError⟩

end Agrees

end Program
