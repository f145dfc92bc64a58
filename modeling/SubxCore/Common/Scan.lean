import Mathlib.Data.List.Infix
/-!
# Reading a list piece by piece

A reader takes something off the start of a list, if it is there. `scan`
goes through a list and collects all that a reader finds, past what it does
not. What two readers find in a concatenation is found in its parts, where
the cut is one between the things read (`scan_append_of_read`,
`scan_flatMap`), or where nothing of one part could start a thing
(`scan_append_of_inert`).
-/

/-- Takes something off the start of a list, and says what is left of it. -/
abbrev Reader (α β : Type*) := List α → Option (β × List α)

namespace Reader

variable {α β γ : Type*} {read : Reader α β} {a s : List α} {b : β}

/-- What is read in a list after some elements of it. -/
def scanFrom (read : Reader α β) : ℕ → List α → List β
  | _, [] => []
  | skip + 1, _ :: s => scanFrom read skip s
  | 0, x :: s =>
    match read (x :: s) with
    | some (b, rest) => b :: scanFrom read (s.length - rest.length) s
    | none => scanFrom read 0 s

/-- All that is read in a list, one thing after the other. -/
def scan (read : Reader α β) (s : List α) : List β := scanFrom read 0 s

@[simp] theorem scan_nil : scan read [] = [] := rfl

theorem scanFrom_eq : ∀ (k : ℕ) (s : List α), scanFrom read k s = scan read (s.drop k)
  | 0, _ => rfl
  | k + 1, [] => rfl
  | k + 1, _ :: s => by rw [scanFrom, scanFrom_eq k s, List.drop_succ_cons]

theorem scan_cons_of_none {x : α} (h : read (x :: s) = none) : scan read (x :: s) = scan read s := by
  rw [scan, scanFrom, h]
  rfl

/-- No more is read than there is. -/
theorem length_scanFrom_le : ∀ (skip : ℕ) (s : List α), (scanFrom read skip s).length ≤ s.length
  | _, [] => by simp [scanFrom]
  | skip + 1, _ :: s => Nat.le_succ_of_le (length_scanFrom_le skip s)
  | 0, x :: s => by
    rw [scanFrom]
    split
    · exact Nat.succ_le_succ (length_scanFrom_le _ s)
    · exact Nat.le_succ_of_le (length_scanFrom_le 0 s)

theorem length_scan_le (s : List α) : (scan read s).length ≤ s.length := length_scanFrom_le 0 s

/-- **What is read is left behind.** -/
theorem scan_append_of_read (ha : a ≠ []) (h : read (a ++ s) = some (b, s)) :
    scan read (a ++ s) = b :: scan read s := by
  obtain ⟨x, a, rfl⟩ := List.exists_cons_of_ne_nil ha
  rw [List.cons_append] at h ⊢
  rw [scan, scanFrom, h]
  dsimp only
  rw [scanFrom_eq, List.length_append, Nat.add_sub_cancel, List.drop_left]

/-- Things written one after the other are read one after the other. -/
theorem scan_flatMap {write : γ → List α} {f : γ → β}
    (h : ∀ c s, scan read (write c ++ s) = f c :: scan read s) (cs : List γ) :
    scan read (cs.flatMap write ++ s) = cs.map f ++ scan read s := by
  induction cs with
  | nil => rfl
  | cons c cs ih =>
    rw [List.flatMap_cons, List.append_assoc, h, ih, List.map_cons, List.cons_append]

/-! ## Where nothing can be read -/

/-- A list that neither starts another nor is started by it does not start what follows
from there. -/
theorem not_prefix_append {o : List α} (h : ¬ o <+: a) (ha : ¬ a <+: o) : ¬ o <+: a ++ s := by
  intro hpre
  rcases List.prefix_or_prefix_of_prefix hpre (List.prefix_append a s) with hp | hp
  · exact h hp
  · exact ha hp

variable [DecidableEq α] {openings : List (List α)}

/-- Whatever is read starts in one of some ways. -/
def OpensWith (openings : List (List α)) (read : Reader α β) : Prop :=
  ∀ s, (∀ o ∈ openings, ¬ o <+: s) → read s = none

/-- None of the openings starts in a list, not even one that goes on behind it. -/
def inert (openings : List (List α)) : List α → Bool
  | [] => true
  | x :: s =>
    (openings.all fun o => !o.isPrefixOf (x :: s) && !(x :: s).isPrefixOf o) && inert openings s

theorem inert_cons {x : α} (h : inert openings (x :: s) = true) :
    (∀ o ∈ openings, ¬ o <+: x :: s ∧ ¬ x :: s <+: o) ∧ inert openings s = true := by
  simpa [inert, ← List.isPrefixOf_iff_prefix] using h

/-- **A part in which nothing can be read is passed over.** -/
theorem scan_append_of_inert (hread : OpensWith openings read) :
    ∀ {a : List α}, inert openings a = true → scan read (a ++ s) = scan read s
  | [], _ => rfl
  | x :: a, h => by
    obtain ⟨hx, ha⟩ := inert_cons h
    have hnone : read (x :: a ++ s) = none :=
      hread _ fun o ho => not_prefix_append (hx o ho).1 (hx o ho).2
    rw [List.cons_append] at hnone ⊢
    rw [scan_cons_of_none hnone, scan_append_of_inert hread ha]

end Reader
