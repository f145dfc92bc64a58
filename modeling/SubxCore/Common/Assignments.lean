import Mathlib.Data.List.Basic
import Mathlib.Logic.Function.Basic
/-!
# Assignments

Places assigned one after the other, each the value of another place or a
constant. Where nothing is assigned that was read before, assigning
everything once more changes nothing.
-/

namespace Assignments

universe u v

open Function

variable {α : Type u} {β : Type v} [DecidableEq α] {c : β} {f : α → β} {l l' : List (Option α × α)}
variable {m : Option α × α} {p : α} {x : β}

/-- What an assignment reads. -/
def value (c : β) (f : α → β) (m : Option α × α) : β := m.1.elim c f

/-- Places assigned one after the other: the second of a pair, from the first. -/
def assign (c : β) (f : α → β) (l : List (Option α × α)) : α → β :=
  l.foldl (fun f m => update f m.2 (value c f m)) f

/-- **Nothing is assigned that was read before**, nor to itself. -/
structure Stable (l : List (Option α × α)) : Prop where
  later : l.Pairwise fun m m' => m.1 ≠ some m'.2
  self : ∀ m ∈ l, m.1 ≠ some m.2

theorem assign_cons : assign c f (m :: l) = assign c (update f m.2 (value c f m)) l := rfl

theorem assign_append : assign c f (l ++ l') = assign c (assign c f l) l' := List.foldl_append

omit [DecidableEq α] in
theorem Stable.tail (h : Stable (m :: l)) : Stable l :=
  ⟨(List.pairwise_cons.1 h.later).2, fun m' hm' => h.self m' (List.mem_cons_of_mem _ hm')⟩

/-- What is read elsewhere is read as before. -/
theorem value_update_of_ne (h : m.1 ≠ some p) : value c (update f p x) m = value c f m := by
  rcases m with ⟨- | q, target⟩
  · rfl
  · exact update_of_ne (fun heq => h (congrArg some heq)) _ _

/-- Nothing of what is assigned is what a place reads. -/
theorem value_assign (h : ∀ m' ∈ l, m.1 ≠ some m'.2) : value c (assign c f l) m = value c f m := by
  induction l generalizing f with
  | nil => rfl
  | cons m' l ih =>
    rw [assign_cons, ih fun m'' hm'' => h m'' (List.mem_cons_of_mem _ hm'')]
    exact value_update_of_ne (h m' (List.mem_cons_self ..))

/-- A place that nothing is assigned to. -/
theorem assign_of_notMem (h : ∀ m ∈ l, m.2 ≠ p) : assign c f l p = f p := by
  induction l generalizing f with
  | nil => rfl
  | cons m l ih =>
    rw [assign_cons, ih fun m' hm' => h m' (List.mem_cons_of_mem _ hm')]
    exact update_of_ne (h m (List.mem_cons_self ..)).symm _ _

/-- What a place held is forgotten once it has been assigned to, and was not
read before. -/
theorem assign_update_of_mem (h : Stable l) (hp : ∃ m ∈ l, m.2 = p) :
    assign c (update f p x) l = assign c f l := by
  induction l generalizing f with
  | nil =>
    obtain ⟨m, hm, -⟩ := hp
    cases hm
  | cons m l ih =>
    rw [assign_cons, assign_cons]
    by_cases hmp : m.2 = p
    · have hself : m.1 ≠ some p := hmp ▸ h.self m (List.mem_cons_self ..)
      rw [value_update_of_ne hself, hmp, update_idem]
    · obtain ⟨m', hm', hp⟩ := hp
      have hm' := (List.mem_cons.1 hm').resolve_left fun heq => hmp (heq ▸ hp)
      have hread : m.1 ≠ some p := hp ▸ (List.pairwise_cons.1 h.later).1 m' hm'
      rw [value_update_of_ne hread, update_comm (Ne.symm hmp)]
      exact ih h.tail ⟨m', hm', hp⟩

/-- **Assigning everything once more changes nothing.** -/
theorem assign_idem (h : Stable l) : assign c (assign c f l) l = assign c f l := by
  induction l generalizing f with
  | nil => rfl
  | cons m l ih =>
    have hread : value c (assign c f (m :: l)) m = value c f m := by
      rw [assign_cons, value_assign (List.pairwise_cons.1 h.later).1]
      exact value_update_of_ne (h.self m (List.mem_cons_self ..))
    rw [assign_cons (m := m) (f := assign c f (m :: l)), hread]
    by_cases hmem : ∃ m' ∈ l, m'.2 = m.2
    · rw [assign_update_of_mem h.tail hmem, assign_cons]
      exact ih h.tail
    · have htarget : assign c f (m :: l) m.2 = value c f m := by
        rw [assign_cons, assign_of_notMem fun m' hm' heq => hmem ⟨m', hm', heq⟩, update_self]
      rw [← htarget, update_eq_self, assign_cons]
      exact ih h.tail

end Assignments
