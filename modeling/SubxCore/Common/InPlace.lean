import Mathlib.Data.List.Basic
/-!
# Loops over a list in place

A loop that changes the elements of a list one after the other, and stops at
the first that its body fails on: what was changed by then stays changed. Where
the body goes through under a condition, with an effect, so does the loop
(`forEachMut_eq_ok`). A failure is one of the body (`forEachMut_eq_error`), and
where the body changes what it goes through, a loop that fails has left the list
alone only if it failed on the first element (`forEachMut_eq_error_self`).
-/

namespace InPlace

variable {τ ε : Type} {body : τ → Except ε Unit × τ} {x x' : τ} {xs ys : List τ} {e : ε}

/-- `for x in &mut xs { body }`. -/
def forEachMut (body : τ → Except ε Unit × τ) : List τ → Except ε Unit × List τ
  | [] => (.ok (), [])
  | x :: xs =>
    match body x with
    | (.ok (), x') =>
      let (result, xs') := forEachMut body xs
      (result, x' :: xs')
    | (.error e, x') => (.error e, x' :: xs)

@[simp] theorem forEachMut_nil : forEachMut body [] = (.ok (), []) := rfl

theorem forEachMut_cons_ok (h : body x = (.ok (), x')) :
    forEachMut body (x :: xs) = ((forEachMut body xs).1, x' :: (forEachMut body xs).2) := by
  rw [forEachMut, h]

theorem forEachMut_cons_error (h : body x = (.error e, x')) :
    forEachMut body (x :: xs) = (.error e, x' :: xs) := by
  rw [forEachMut, h]

/-- **A loop goes through** where its body does for every element, and has the
effect of the body on each. -/
theorem forEachMut_eq_ok {P : τ → Prop} {f : τ → τ}
    (hbody : ∀ x x', body x = (.ok (), x') ↔ P x ∧ x' = f x) :
    forEachMut body xs = (.ok (), ys) ↔ (∀ x ∈ xs, P x) ∧ ys = xs.map f := by
  induction xs generalizing ys with
  | nil =>
    rw [forEachMut_nil, Prod.mk.injEq]
    exact ⟨fun h => ⟨fun _ hx => (nomatch hx), h.2.symm⟩, fun h => ⟨rfl, h.2.symm⟩⟩
  | cons x xs ih =>
    rw [List.forall_mem_cons, List.map_cons]
    rcases hx : body x with ⟨e | ⟨⟩, x'⟩
    · rw [forEachMut_cons_error hx]
      constructor
      · intro h
        cases (Prod.mk.inj h).1
      · rintro ⟨⟨hP, -⟩, -⟩
        have := (hbody x (f x)).2 ⟨hP, rfl⟩
        rw [hx] at this
        cases (Prod.mk.inj this).1
    · obtain ⟨hP, rfl⟩ := (hbody x x').1 hx
      rw [forEachMut_cons_ok hx]
      constructor
      · intro h
        obtain ⟨hresult, rfl⟩ := Prod.mk.inj h
        obtain ⟨hxs, hmap⟩ := ih.1 (Prod.ext hresult rfl)
        exact ⟨⟨hP, hxs⟩, congrArg _ hmap⟩
      · rintro ⟨⟨-, hxs⟩, rfl⟩
        rw [ih.2 ⟨hxs, rfl⟩]

/-- **A loop fails** where its body fails on some element. -/
theorem forEachMut_eq_error (h : forEachMut body xs = (.error e, ys)) :
    ∃ x ∈ xs, ∃ x', body x = (.error e, x') := by
  induction xs generalizing ys with
  | nil => cases (Prod.mk.inj h).1
  | cons x xs ih =>
    rcases hx : body x with ⟨e' | ⟨⟩, x'⟩
    · rw [forEachMut_cons_error hx] at h
      cases h
      exact ⟨x, List.mem_cons_self .., x', hx⟩
    · rw [forEachMut_cons_ok hx] at h
      obtain ⟨z, hz, z', herror⟩ := ih (Prod.ext (Prod.mk.inj h).1 rfl)
      exact ⟨z, List.mem_cons_of_mem _ hz, z', herror⟩

/-- A loop whose body leaves every element alone leaves the list alone. -/
theorem forEachMut_snd_eq_self (hbody : ∀ x, (body x).2 = x) : (forEachMut body xs).2 = xs := by
  induction xs with
  | nil => rfl
  | cons x xs ih =>
    have hx' := hbody x
    rcases hx : body x with ⟨e | ⟨⟩, x'⟩
    · rw [forEachMut_cons_error hx]
      exact congrArg (· :: xs) ((congrArg Prod.snd hx).symm.trans hx')
    · rw [forEachMut_cons_ok hx, ih]
      exact congrArg (· :: xs) ((congrArg Prod.snd hx).symm.trans hx')

/-- A loop whose body changes what it goes through has left the list alone, and
failed, only where it failed on the first element and left that alone. -/
theorem forEachMut_eq_error_self (hbody : ∀ x x', body x = (.ok (), x') → x' ≠ x) :
    forEachMut body xs = (.error e, xs) ↔ ∃ x rest, xs = x :: rest ∧ body x = (.error e, x) := by
  constructor
  · intro h
    cases xs with
    | nil => cases (Prod.mk.inj h).1
    | cons x rest =>
      rcases hx : body x with ⟨e' | ⟨⟩, x'⟩
      · rw [forEachMut_cons_error hx] at h
        cases h
        exact ⟨x, rest, rfl, hx⟩
      · rw [forEachMut_cons_ok hx] at h
        -- the first element has been changed
        exact absurd (List.cons.inj (Prod.mk.inj h).2).1 (hbody x x' hx)
  · rintro ⟨x, rest, rfl, hx⟩
    exact forEachMut_cons_error hx

end InPlace
