import Mathlib.Data.List.Basic
/-!
# Slots

A list whose entries are replaced one at a time: what one replacement does
to the number of entries with a property, and to which entries there are.
-/

namespace Slots

universe u

variable {α : Type u} {l : List α} {k : ℕ} {a b c : α}

/-- A replaced entry counts for what it is now, and no longer for what it was. -/
theorem countP_set_add (p : α → Bool) (h : l[k]? = some a) :
    (l.set k b).countP p + (if p a then 1 else 0) = l.countP p + (if p b then 1 else 0) := by
  obtain ⟨hk, rfl⟩ := List.getElem?_eq_some_iff.1 h
  rw [List.countP_set hk]
  have hle : (if p l[k] = true then 1 else 0) ≤ l.countP p := List.boole_getElem_le_countP hk
  omega

/-- An entry replaced by one that counts the same changes no count. -/
theorem countP_set_of_eq {p : α → Bool} (h : l[k]? = some a) (hp : p b = p a) :
    (l.set k b).countP p = l.countP p := by
  have hcount := countP_set_add (b := b) p h
  rw [hp] at hcount
  omega

/-- An entry that is not looked for, before and after. -/
theorem find?_set_of_neg {p : α → Bool} (h : l[k]? = some a) (ha : p a = false)
    (hb : p b = false) : (l.set k b).find? p = l.find? p := by
  induction l generalizing k with
  | nil => rfl
  | cons c l ih =>
    cases k with
    | zero =>
      cases h
      rw [List.set_cons_zero, List.find?_cons_of_neg (by simp [hb]),
        List.find?_cons_of_neg (by simp [ha])]
    | succ k => rw [List.set_cons_succ, List.find?_cons, List.find?_cons, ih h]

/-- The one entry that is looked for. -/
theorem find?_eq_some_of_countP {p : α → Bool} (h : l[k]? = some a) (ha : p a = true)
    (hone : l.countP p ≤ 1) : l.find? p = some a := by
  induction l generalizing k with
  | nil => cases h
  | cons c l ih =>
    cases k with
    | zero =>
      cases h
      exact List.find?_cons_of_pos ha
    | succ k =>
      -- the first entry is not looked for, since there is one behind it
      have hmem : 0 < l.countP p := List.countP_pos_iff.2 ⟨a, List.mem_of_getElem? h, ha⟩
      have hc : p c = false := by
        refine Bool.eq_false_iff.2 fun hc => ?_
        rw [List.countP_cons_of_pos hc] at hone
        omega
      rw [List.find?_cons_of_neg (by simp [hc])]
      rw [List.countP_cons_of_neg (by simp [hc])] at hone
      exact ih h hone

/-- And what it is replaced by. -/
theorem find?_set_of_countP {p : α → Bool} (h : l[k]? = some a) (ha : p a = true)
    (hb : p b = true) (hone : l.countP p ≤ 1) : (l.set k b).find? p = some b := by
  have hk : k < l.length := (List.getElem?_eq_some_iff.1 h).1
  refine find?_eq_some_of_countP (List.getElem?_set_self hk) hb ?_
  rwa [countP_set_of_eq h (hb.trans ha.symm)]

end Slots
