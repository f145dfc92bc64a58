import SubxCore.Common.Program
/-!
# Triples

What a program establishes, run from a state with a property: one thing when
it goes through, another when it fails on the way. The rules follow the
program: a triple of one program after another is made of the triples of the
two, and a loop over a list keeps its invariant when its body does.
-/

universe u w

namespace Program

variable {σ ε ε' α β : Type u} {x : Program σ ε α} {f : α → Program σ ε β} {s s' : σ}
variable {P P' : σ → Prop} {Q Q' : α → σ → Prop} {R : β → σ → Prop} {E E' : ε → σ → Prop}

/-- Run where `P` holds, the program ends with `Q`, or fails with `E`. -/
def Triple (P : σ → Prop) (x : Program σ ε α) (Q : α → σ → Prop) (E : ε → σ → Prop) : Prop :=
  ∀ s, P s →
    match x.exec s with
    | (.ok a, s') => Q a s'
    | (.error e, s') => E e s'

namespace Triple

theorem of_ok {a : α} (h : Triple P x Q E) (hs : P s) (hrun : x.exec s = (.ok a, s')) :
    Q a s' := by
  have := h s hs
  rw [hrun] at this
  exact this

theorem of_error {e : ε} (h : Triple P x Q E) (hs : P s) (hrun : x.exec s = (.error e, s')) :
    E e s' := by
  have := h s hs
  rw [hrun] at this
  exact this

theorem pure {a : α} (h : ∀ s, P s → Q a s) : Triple P (Pure.pure a : Program σ ε α) Q E := h

theorem throw {e : ε} (h : ∀ s, P s → E e s) :
    Triple P (MonadExcept.throw e : Program σ ε α) Q E := h

theorem ofExcept {r : Except ε α} (hok : ∀ a s, r = .ok a → P s → Q a s)
    (herror : ∀ e s, r = .error e → P s → E e s) : Triple P (Program.ofExcept r) Q E := by
  intro s hs
  rw [exec_ofExcept]
  cases r with
  | ok a => exact hok a s rfl hs
  | error e => exact herror e s rfl hs

/-- A triple said with less asked for and more promised. -/
theorem weaken (h : Triple P' x Q' E') (hP : ∀ s, P s → P' s) (hQ : ∀ a s, Q' a s → Q a s)
    (hE : ∀ e s, E' e s → E e s) : Triple P x Q E := by
  intro s hs
  rcases hrun : x.exec s with ⟨e | a, s₁⟩
  · exact hE e s₁ (h.of_error (hP s hs) hrun)
  · exact hQ a s₁ (h.of_ok (hP s hs) hrun)

/-- Less asked for, and the same promised. -/
theorem weaken_pre (h : Triple P' x Q E) (hP : ∀ s, P s → P' s) : Triple P x Q E :=
  h.weaken hP (fun _ _ hs => hs) fun _ _ hs => hs

/-- More promised of a failure, and the rest as it is. -/
theorem weaken_error (h : Triple P x Q E') (hE : ∀ e s, E' e s → E e s) : Triple P x Q E :=
  h.weaken (fun _ hs => hs) (fun _ _ hs => hs) hE

/-- A triple said of each state apart. -/
theorem each (h : ∀ s, P s → Triple (· = s) x Q E) : Triple P x Q E := fun s hs => h s hs s rfl

/-- **One program after the other.** -/
theorem bind (hx : Triple P x Q E) (hf : ∀ a, Triple (Q a) (f a) R E) : Triple P (x >>= f) R E := by
  intro s hs
  rw [exec_bind]
  rcases hrun : x.exec s with ⟨e | a, s₁⟩
  · exact hx.of_error hs hrun
  · exact hf a s₁ (hx.of_ok hs hrun)

/-- A program whose errors become results. -/
theorem attempt {Q : Except ε α → σ → Prop} {E : ε' → σ → Prop}
    (h : Triple P x (fun a => Q (.ok a)) fun e => Q (.error e)) :
    Triple P (Program.attempt x) Q E := by
  intro s hs
  rw [exec_attempt]
  rcases hrun : x.exec s with ⟨e | a, s₁⟩
  · exact h.of_error hs hrun
  · exact h.of_ok hs hrun

theorem mapError {g : ε → ε'} {E : ε' → σ → Prop} (h : Triple P x Q fun e s => E (g e) s) :
    Triple P (Program.mapError g x) Q E := by
  intro s hs
  rw [exec_mapError]
  rcases hrun : x.exec s with ⟨e | a, s₁⟩
  · exact h.of_error hs hrun
  · exact h.of_ok hs hrun

end Triple

end Program
