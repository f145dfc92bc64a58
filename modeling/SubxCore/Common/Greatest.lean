import Mathlib.Data.List.Basic
import Mathlib.Order.Lattice
/-!
# The greatest entry

The greatest entry of a list by a key. Where several are greatest it is the
last of these, as one scan that gives way to an equal entry finds it.
-/

namespace Greatest

universe u v

variable {α : Type u} {β : Type v} [LinearOrder β] {key : α → β} {a b : α} {l : List α}

/-- One step of the scan: an entry gives way unless it is greater. -/
def later (key : α → β) (a b : α) : α := if key b < key a then a else b

/-- The greatest entry, the last of several. -/
def maxByKey (key : α → β) : List α → Option α
  | [] => none
  | a :: l => some (l.foldl (later key) a)

/-- An entry after the ones it is not smaller than, and before smaller ones. -/
def Cut (key : α → β) (a : α) (l : List α) : Prop :=
  ∃ before after, l = before ++ a :: after ∧
    (∀ b ∈ before, key b ≤ key a) ∧ ∀ b ∈ after, key b < key a

/-- The scan goes on from what it has found in a part of the list. -/
theorem cut_foldl : ∀ {l done : List α} {a : α}, Cut key a done →
    Cut key (l.foldl (later key) a) (done ++ l)
  | [], done, a, h => by rwa [List.append_nil]
  | b :: l, done, a, ⟨before, after, hdone, hbefore, hafter⟩ => by
    rw [List.foldl_cons, List.append_cons]
    refine cut_foldl ?_
    unfold later
    by_cases hb : key b < key a
    · rw [if_pos hb]
      refine ⟨before, after ++ [b], by rw [hdone, List.append_assoc, List.cons_append], hbefore, ?_⟩
      intro c hc
      rcases List.mem_append.1 hc with hc | hc
      · exact hafter c hc
      · exact List.mem_singleton.1 hc ▸ hb
    · rw [if_neg hb]
      refine ⟨done, [], rfl, ?_, fun c hc => absurd hc List.not_mem_nil⟩
      have hab : key a ≤ key b := not_lt.1 hb
      intro c hc
      rw [hdone] at hc
      rcases List.mem_append.1 hc with hc | hc
      · exact (hbefore c hc).trans hab
      rcases List.mem_cons.1 hc with rfl | hc
      · exact hab
      · exact (hafter c hc).le.trans hab

/-- **What the scan finds**: the last of the greatest. -/
theorem maxByKey_eq_some (h : maxByKey key l = some a) : Cut key a l := by
  cases l with
  | nil => cases h
  | cons b l =>
    cases h
    have hfirst : Cut key b [b] := ⟨[], [], rfl, fun c hc => absurd hc List.not_mem_nil,
      fun c hc => absurd hc List.not_mem_nil⟩
    exact cut_foldl hfirst

@[simp] theorem maxByKey_eq_none : maxByKey key l = none ↔ l = [] := by
  cases l <;> simp [maxByKey]

end Greatest
