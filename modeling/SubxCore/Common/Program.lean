import Mathlib.Order.Defs.Unbundled
/-!
# Programs on a state

Programs that change a state and may fail on the way: what they have done to
the state stays done when they fail. `exec` runs a program; `bind_eq_ok`
peels a run that went through apart, and `Keeps` says that a program, going
through or not, relates the state before to the state after, which for a
preorder is a matter of its parts.
-/

universe u v

/-- A program on states `σ` with errors `ε`. -/
abbrev Program (σ : Type u) (ε : Type u) (α : Type u) : Type u := ExceptT ε (StateM σ) α

namespace Program

variable {σ ε ε' α β : Type u} {x : Program σ ε α} {f : α → Program σ ε β} {s s' : σ}

/-- A run. -/
def exec (x : Program σ ε α) (s : σ) : Except ε α × σ := (x.run).run s

/-- A step on the state, as a program. -/
def step (f : σ → Except ε α × σ) : Program σ ε α := ExceptT.mk f

/-- A program whose errors become results. -/
def attempt (x : Program σ ε α) : Program σ ε' (Except ε α) :=
  ExceptT.mk fun s => let (r, s') := x.exec s; (.ok r, s')

/-- A program with its errors renamed. -/
def mapError (f : ε → ε') (x : Program σ ε α) : Program σ ε' α :=
  ExceptT.mk fun s => let (r, s') := x.exec s; (r.mapError f, s')

/-- A computation that does not look at the state, as a program. -/
def ofExcept (x : Except ε α) : Program σ ε α := step fun s => (x, s)

/-! ## Runs -/

@[simp] theorem exec_pure (a : α) : exec (pure a : Program σ ε α) s = (.ok a, s) := rfl

@[simp] theorem exec_throw (e : ε) : exec (throw e : Program σ ε α) s = (.error e, s) := rfl

@[simp] theorem exec_step (f : σ → Except ε α × σ) : exec (step f) s = f s := rfl

@[simp] theorem exec_ofExcept (r : Except ε α) : exec (ofExcept r : Program σ ε α) s = (r, s) := rfl

@[simp] theorem exec_attempt : exec (attempt x : Program σ ε' (Except ε α)) s =
    (.ok (exec x s).1, (exec x s).2) := rfl

@[simp] theorem exec_mapError (f : ε → ε') : exec (mapError f x) s =
    ((exec x s).1.mapError f, (exec x s).2) := rfl

theorem exec_bind : exec (x >>= f) s =
    match exec x s with
    | (.ok a, s₁) => exec (f a) s₁
    | (.error e, s₁) => (.error e, s₁) := by
  unfold exec ExceptT.run StateT.run
  simp only [bind, ExceptT.bind, ExceptT.mk, StateT.bind, ExceptT.bindCont]
  rcases x s with ⟨e | a, s₁⟩ <;> rfl

theorem exec_bind_of_ok {a : α} (h : exec x s = (.ok a, s')) :
    exec (x >>= f) s = exec (f a) s' := by
  rw [exec_bind, h]

theorem exec_bind_of_error {e : ε} (h : exec x s = (.error e, s')) :
    exec (x >>= f) s = (.error e, s') := by
  rw [exec_bind, h]

/-- **A run that went through**, peeled apart. -/
theorem bind_eq_ok {b : β} : exec (x >>= f) s = (.ok b, s') ↔
    ∃ a s₁, exec x s = (.ok a, s₁) ∧ exec (f a) s₁ = (.ok b, s') := by
  rw [exec_bind]
  rcases exec x s with ⟨e | a, s₁⟩
  · constructor
    · intro h
      cases h
    · rintro ⟨a, s₂, h, -⟩
      cases h
  · refine ⟨fun h => ⟨a, s₁, rfl, h⟩, ?_⟩
    rintro ⟨a', s₂, h, hf⟩
    cases h
    exact hf

/-! ## What a program keeps -/

/-- A relation between the state before and the state after. -/
def Keeps (R : σ → σ → Prop) (x : Program σ ε α) : Prop := ∀ s, R s (exec x s).2

namespace Keeps

variable {R : σ → σ → Prop}

theorem pure [Std.Refl R] (a : α) : Keeps R (Pure.pure a : Program σ ε α) := fun s => refl_of R s

theorem throw [Std.Refl R] (e : ε) : Keeps R (MonadExcept.throw e : Program σ ε α) :=
  fun s => refl_of R s

theorem step {f : σ → Except ε α × σ} (h : ∀ s, R s (f s).2) : Keeps R (Program.step f) := h

/-- **One program after the other.** -/
theorem bind [IsTrans σ R] (hx : Keeps R x) (hf : ∀ a, Keeps R (f a)) : Keeps R (x >>= f) := by
  intro s
  have hs := hx s
  rw [exec_bind]
  rcases hrun : exec x s with ⟨e | a, s₁⟩
  · rw [hrun] at hs
    exact hs
  · rw [hrun] at hs
    exact trans_of R hs (hf a s₁)

theorem attempt (hx : Keeps R x) : Keeps R (Program.attempt x : Program σ ε' (Except ε α)) := hx

theorem mapError {g : ε → ε'} (hx : Keeps R x) : Keeps R (Program.mapError g x) := hx

end Keeps

/-! ## What the constructs keep -/

/-- A property of programs that is a matter of their parts. -/
structure Closed (P : ∀ ε α : Type u, Program σ ε α → Prop) : Prop where
  pure : ∀ {ε α : Type u} (a : α), P ε α (Pure.pure a)
  throw : ∀ {ε α : Type u} (e : ε), P ε α (MonadExcept.throw e)
  bind : ∀ {ε α β : Type u} {x : Program σ ε α} {f : α → Program σ ε β},
    P ε α x → (∀ a, P ε β (f a)) → P ε β (x >>= f)
  attempt : ∀ {ε ε' α : Type u} {x : Program σ ε α},
    P ε α x → P ε' (Except ε α) (Program.attempt x)
  mapError : ∀ {ε ε' α : Type u} {x : Program σ ε α} {g : ε → ε'},
    P ε α x → P ε' α (Program.mapError g x)

theorem Keeps.closed (R : σ → σ → Prop) [Std.Refl R] [IsTrans σ R] :
    Closed fun (_ _ : Type u) x => Keeps R x :=
  ⟨.pure, .throw, .bind, .attempt, .mapError⟩

end Program
