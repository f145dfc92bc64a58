import Mathlib.Data.List.Nodup
import Mathlib.Order.Basic
/-!
# Keys that increase

Items issued one after the other, each with a key above the last one issued before.
Runs of such issues compose (`Issues.append`), and items with keys of their own are
found by them, each by its own (`find?_eq_some_iff`).
-/

namespace Increasing

universe u v

variable {α : Type u} {κ : Type v}

section Order

variable [Preorder κ] {key : α → κ} {last last' last'' : Option κ} {items items' : List α} {a : α}

/-- **Items issued in the order of their keys**, all of them above the last key there
was, and none above the last key there is. -/
structure Issues (key : α → κ) (last : Option κ) (items : List α) (last' : Option κ) : Prop where
  increasing : items.Pairwise fun a b => key a < key b
  above : ∀ a ∈ items, ∀ k ∈ last, k < key a
  kept : ∀ k ∈ last, ∃ k' ∈ last', k ≤ k'
  covered : ∀ a ∈ items, ∃ k' ∈ last', key a ≤ k'

theorem Issues.nil (last : Option κ) : Issues key last [] last where
  increasing := .nil
  above _ h := absurd h List.not_mem_nil
  kept k hk := ⟨k, hk, le_rfl⟩
  covered _ h := absurd h List.not_mem_nil

/-- One item. -/
theorem Issues.single (h : ∀ k ∈ last, k < key a) : Issues key last [a] (some (key a)) where
  increasing := List.pairwise_singleton _ _
  above _ hb := List.mem_singleton.1 hb ▸ h
  kept k hk := ⟨key a, rfl, (h k hk).le⟩
  covered _ hb := ⟨key a, rfl, List.mem_singleton.1 hb ▸ le_rfl⟩

/-- **Some items, and then some more.** -/
theorem Issues.append (h : Issues key last items last') (h' : Issues key last' items' last'') :
    Issues key last (items ++ items') last'' where
  increasing := by
    refine List.pairwise_append.2 ⟨h.increasing, h'.increasing, fun a ha b hb => ?_⟩
    obtain ⟨k, hk, hle⟩ := h.covered a ha
    exact hle.trans_lt (h'.above b hb k hk)
  above b hb k hk := by
    rcases List.mem_append.1 hb with hb | hb
    · exact h.above b hb k hk
    · obtain ⟨k', hk', hle⟩ := h.kept k hk
      exact hle.trans_lt (h'.above b hb k' hk')
  kept k hk := by
    obtain ⟨k', hk', hle⟩ := h.kept k hk
    obtain ⟨k'', hk'', hle'⟩ := h'.kept k' hk'
    exact ⟨k'', hk'', hle.trans hle'⟩
  covered b hb := by
    rcases List.mem_append.1 hb with hb | hb
    · obtain ⟨k', hk', hle⟩ := h.covered b hb
      obtain ⟨k'', hk'', hle'⟩ := h'.kept k' hk'
      exact ⟨k'', hk'', hle.trans hle'⟩
    · exact h'.covered b hb

/-- Items issued have keys of their own. -/
theorem Issues.nodup (h : Issues key last items last') : (items.map key).Nodup :=
  List.pairwise_map.2 (h.increasing.imp fun hlt => hlt.ne)

end Order

/-! ## Finding by a key -/

variable [DecidableEq κ] {key : α → κ} {items searched : List α} {a : α} {k : κ}

/-- **Among items with keys of their own a search for a key finds its item**, in any
part of them. -/
theorem find?_eq_some_iff (hnodup : (items.map key).Nodup) (hsearched : searched ⊆ items) :
    searched.find? (fun b => key b = k) = some a ↔ a ∈ searched ∧ key a = k := by
  constructor
  · intro h
    have hkey := List.find?_some h
    exact ⟨List.mem_of_find?_eq_some h, of_decide_eq_true hkey⟩
  · rintro ⟨ha, hkey⟩
    rcases hfind : searched.find? (fun b => key b = k) with - | b
    · exact absurd (decide_eq_true hkey) (List.find?_eq_none.1 hfind a ha)
    · have hb : b ∈ searched := List.mem_of_find?_eq_some hfind
      have hfound := List.find?_some hfind
      have hkeys : key b = key a := (of_decide_eq_true hfound).trans hkey.symm
      rw [List.inj_on_of_nodup_map hnodup (hsearched hb) (hsearched ha) hkeys]

/-- And a search for any other key finds nothing. -/
theorem find?_eq_none_iff :
    searched.find? (fun b => key b = k) = none ↔ k ∉ searched.map key := by
  rw [List.find?_eq_none, List.mem_map, not_exists]
  refine forall_congr' fun b => ?_
  rw [not_and, decide_eq_true_eq]

end Increasing
