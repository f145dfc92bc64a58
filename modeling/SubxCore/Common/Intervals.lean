import Mathlib.Data.List.Chain
import Mathlib.Data.List.Pairwise
import Mathlib.Order.Lattice
/-!
# Intervals in the order of their starts

Things that each take up an interval. Two of them overlap when each starts before the other
ends. In the order of the starts it is enough to look at neighbours: if no thing starts before
the one before it ends, no two overlap (`isChain_iff_pairwise`).
-/

namespace Intervals

variable {α β : Type*} [LinearOrder β] {lo hi : α → β} {a b : α} {xs ys : List α}

/-- Each starts before the other ends. -/
def Overlap (lo hi : α → β) (a b : α) : Prop := lo a < hi b ∧ lo b < hi a

theorem Overlap.symm (h : Overlap lo hi a b) : Overlap lo hi b a := ⟨h.2, h.1⟩

/-- The one starts only when the other has ended. -/
theorem not_overlap_iff (hb : lo b < hi b) (hle : lo a ≤ lo b) :
    ¬ Overlap lo hi a b ↔ hi a ≤ lo b := by
  rw [Overlap, not_and, not_lt]
  exact ⟨fun h => h (hle.trans_lt hb), fun h _ => h⟩

/-- **Neighbours are enough** in the order of the starts. -/
theorem isChain_iff_pairwise (hsorted : xs.Pairwise fun a b => lo a ≤ lo b) :
    xs.IsChain (fun a b => hi a ≤ lo b) ↔ xs.Pairwise fun a b => hi a ≤ lo b := by
  refine ⟨fun h => ?_, List.Pairwise.isChain⟩
  induction xs with
  | nil => exact .nil
  | cons a xs ih =>
    obtain ⟨-, hrest⟩ := List.pairwise_cons.1 hsorted
    refine List.pairwise_cons.2 ⟨fun c hc => ?_, ih hrest h.tail⟩
    cases xs with
    | nil => cases hc
    | cons b xs =>
      have hab : hi a ≤ lo b := (List.isChain_cons_cons.1 h).1
      rcases List.mem_cons.1 hc with rfl | hc
      · exact hab
      · exact hab.trans ((List.pairwise_cons.1 hrest).1 c hc)

/-- No two of them overlap exactly when no neighbours do. -/
theorem pairwise_not_overlap_iff (hsorted : xs.Pairwise fun a b => lo a ≤ lo b)
    (hvalid : ∀ a ∈ xs, lo a < hi a) :
    xs.Pairwise (fun a b => ¬ Overlap lo hi a b) ↔ xs.IsChain fun a b => hi a ≤ lo b := by
  rw [isChain_iff_pairwise hsorted]
  refine ⟨fun h => ?_, fun h => ?_⟩
  · exact (h.and hsorted).imp_of_mem fun _ hb hboth => (not_overlap_iff (hvalid _ hb) hboth.2).1 hboth.1
  · exact (h.and hsorted).imp_of_mem fun _ hb hboth => (not_overlap_iff (hvalid _ hb) hboth.2).2 hboth.1

/-- Whether two of them overlap is not a matter of their order. -/
theorem pairwise_not_overlap_of_perm (h : xs.Perm ys) :
    xs.Pairwise (fun a b => ¬ Overlap lo hi a b) ↔ ys.Pairwise fun a b => ¬ Overlap lo hi a b :=
  h.pairwise_iff fun hab hba => hab hba.symm

end Intervals
