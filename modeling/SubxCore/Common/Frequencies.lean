import Mathlib.Algebra.BigOperators.Group.Finset.Basic
import Mathlib.Algebra.GroupWithZero.Nat
import Mathlib.Logic.Function.Basic
/-!
# Frequency maps

How often each of some keys has been counted, where a key that has not been
counted has no entry. Counting goes on from what is there (`addAll_append`), so
two maps that began empty agree only where the same was counted, and what is
counted before shows (`addAll_append_eq_iff`).
-/

universe u

/-- How often keys have been counted. -/
abbrev Frequencies (α : Type u) := α → Option ℕ

namespace Frequencies

open Function

variable {α : Type u} [DecidableEq α] {m : Frequencies α} {a : α} {l d keys : List α}
variable {p : α → Bool}

/-- Nothing has been counted. -/
def empty : Frequencies α := fun _ => none

/-- A key counted once more. -/
def add (m : Frequencies α) (a : α) : Frequencies α := update m a (some ((m a).getD 0 + 1))

/-- Keys counted one after the other. -/
def addAll (m : Frequencies α) (l : List α) : Frequencies α := l.foldl add m

/-- How often all keys of a kind have been counted, among some. -/
def sumOf (keys : List α) (p : α → Bool) (m : Frequencies α) : ℕ :=
  ((keys.filter p).map fun a => (m a).getD 0).sum

/-! ## Counting -/

/-- **What is counted is added to what is there.** -/
theorem addAll_apply : addAll m l a = if a ∈ l then some ((m a).getD 0 + l.count a) else m a := by
  induction l generalizing m with
  | nil => rfl
  | cons b l ih =>
    have hcons : addAll m (b :: l) = addAll (m.add b) l := rfl
    rw [hcons, ih, add]
    by_cases hab : a = b
    · subst hab
      rw [update_self, if_pos List.mem_cons_self, List.count_cons_self]
      split
      · rw [Option.getD_some, Nat.add_right_comm]
        rfl
      · next hmem => rw [List.count_eq_zero_of_not_mem hmem]
    · rw [update_of_ne hab, List.count_cons_of_ne (Ne.symm hab)]
      simp [hab]

theorem getD_addAll : (addAll m l a).getD 0 = (m a).getD 0 + l.count a := by
  rw [addAll_apply]
  split
  · rfl
  · next hmem => rw [List.count_eq_zero_of_not_mem hmem, Nat.add_zero]

theorem addAll_append : addAll m (l ++ d) = addAll (addAll m l) d := List.foldl_append

/-- **What was counted before shows.** -/
theorem addAll_append_eq_iff : addAll empty (l ++ d) = addAll empty d ↔ l = [] := by
  constructor
  · intro h
    have hcount : ∀ a, l.count a = 0 := fun a => by
      have ha := congrArg (Option.getD · 0) (congrFun h a)
      simp only [getD_addAll, List.count_append] at ha
      omega
    exact List.eq_nil_iff_forall_not_mem.2 fun a => List.count_eq_zero.1 (hcount a)
  · rintro rfl
    rfl

/-! ## Sums -/

/-- The counts of all keys of a kind are those of the list. -/
theorem sum_count_filter (hnodup : keys.Nodup) (hkeys : ∀ a ∈ l, a ∈ keys) :
    ((keys.filter p).map fun a => l.count a).sum = l.countP p := by
  have hmem : ∀ a ∈ (l.filter p : Multiset α), a ∈ (keys.filter p).toFinset := fun a ha => by
    rw [Multiset.mem_coe, List.mem_filter] at ha
    rw [List.mem_toFinset, List.mem_filter]
    exact ⟨hkeys a ha.1, ha.2⟩
  have hcount : ∀ a ∈ (keys.filter p).toFinset, (l.filter p : Multiset α).count a = l.count a :=
    fun a ha => by
      rw [List.mem_toFinset, List.mem_filter] at ha
      rw [Multiset.coe_count, List.count_filter ha.2]
  rw [← List.sum_toFinset _ (hnodup.filter p), ← Finset.sum_congr rfl hcount,
    Multiset.sum_count_eq_card hmem, Multiset.coe_card, List.countP_eq_length_filter]

/-- **The sum over the keys of a kind** is how many of them have been counted. -/
theorem sumOf_addAll_empty (hnodup : keys.Nodup) (hkeys : ∀ a ∈ l, a ∈ keys) :
    sumOf keys p (addAll empty l) = l.countP p := by
  rw [← sum_count_filter hnodup hkeys, sumOf]
  simp only [getD_addAll, empty, Option.getD_none, Nat.zero_add]

end Frequencies
