import Mathlib.Data.List.Basic
/-!
# Maximal runs

The stretches of a list in which something holds of every element and that go on
neither to the left nor to the right. They are found in one pass that knows where the
stretch it is in began (`mem_runsFrom`), from left to right and apart from each other
(`pairwise_runsFrom`). Where more holds, the stretches are longer (`MaximalRun.exists_of_le`).
-/

namespace MaximalRuns

universe u

variable {α β : Type u} {p : α → Bool} {q : β → Bool} {l pre : List α} {m : List β}
variable {a : α} {i j k : ℕ} {start : Option ℕ}

/-- It holds of the element at an index. -/
def HoldsAt (p : α → Bool) (l : List α) (k : ℕ) : Prop := ∃ a ∈ l[k]?, p a = true

/-- A maximal run, from its first index to the one past its last. -/
structure MaximalRun (p : α → Bool) (l : List α) (i j : ℕ) : Prop where
  lt : i < j
  holds : ∀ k, i ≤ k → k < j → HoldsAt p l k
  before : ∀ k, k + 1 = i → ¬ HoldsAt p l k
  after : ¬ HoldsAt p l j

/-- The runs that end from an index on, where a run may have begun before. -/
def runsFrom (p : α → Bool) : Option ℕ → ℕ → List α → List (ℕ × ℕ)
  | none, _, [] => []
  | some i, index, [] => [(i, index)]
  | none, index, a :: l => runsFrom p (if p a then some index else none) (index + 1) l
  | some i, index, a :: l =>
    if p a then runsFrom p (some i) (index + 1) l
    else (i, index) :: runsFrom p none (index + 1) l

/-! ## Where it holds -/

theorem HoldsAt.lt_length (h : HoldsAt p l k) : k < l.length := by
  obtain ⟨a, ha, -⟩ := h
  exact (List.getElem?_eq_some_iff.1 ha).1

theorem holdsAt_append_left (h : k < pre.length) : HoldsAt p (pre ++ l) k ↔ HoldsAt p pre k := by
  rw [HoldsAt, HoldsAt, List.getElem?_append_left h]

theorem holdsAt_append_length : HoldsAt p (pre ++ a :: l) pre.length ↔ p a = true := by
  simp [HoldsAt]

theorem not_holdsAt_length : ¬ HoldsAt p l l.length := fun h => Nat.lt_irrefl _ h.lt_length

/-! ## Runs are determined by their ends -/

theorem MaximalRun.eq_of_end {i' : ℕ} (h : MaximalRun p l i j) (h' : MaximalRun p l i' j) :
    i = i' := by
  -- the earlier of the two would go through what is before the later one
  have hle : ∀ {i i' : ℕ}, MaximalRun p l i j → MaximalRun p l i' j → i' ≤ i := by
    intro i i' h h'
    by_contra hlt
    obtain ⟨k, rfl⟩ : ∃ k, i' = k + 1 := ⟨i' - 1, by omega⟩
    exact h'.before k rfl (h.holds k (by omega) (by have := h'.lt; omega))
  exact Nat.le_antisymm (hle h' h) (hle h h')

/-- What is known of the stretch that a pass is in. -/
def Began (p : α → Bool) (pre : List α) : Option ℕ → Prop
  | none => ∀ k, k + 1 = pre.length → ¬ HoldsAt p pre k
  | some i => i < pre.length ∧ (∀ k, i ≤ k → k < pre.length → HoldsAt p pre k) ∧
      ∀ k, k + 1 = i → ¬ HoldsAt p pre k

theorem Began.maximalRun (h : Began p pre (some i)) (hend : ¬ HoldsAt p (pre ++ l) pre.length) :
    MaximalRun p (pre ++ l) i pre.length where
  lt := h.1
  holds k hik hk := (holdsAt_append_left hk).2 (h.2.1 k hik hk)
  before k hk := by
    have := h.1
    rw [holdsAt_append_left (by omega)]
    exact h.2.2 k hk
  after := hend

/-- Where no stretch has begun none ends. -/
theorem Began.not_maximalRun (h : Began p pre none) : ¬ MaximalRun p (pre ++ l) i pre.length := by
  intro hrun
  have hlt := hrun.lt
  obtain ⟨k, hk⟩ : ∃ k, pre.length = k + 1 := ⟨pre.length - 1, by omega⟩
  have hholds := hrun.holds k (by omega) (by omega)
  rw [holdsAt_append_left (by omega)] at hholds
  exact h k hk.symm hholds

theorem Began.step_of_false (ha : p a = false) : Began p (pre ++ [a]) none := by
  intro k hk
  rw [List.length_append, List.length_singleton] at hk
  obtain rfl : k = pre.length := by omega
  rw [holdsAt_append_length, ha]
  exact Bool.false_ne_true

theorem Began.step_of_true (h : Began p pre start) (ha : p a = true) :
    Began p (pre ++ [a]) (some (start.getD pre.length)) := by
  have hhere : HoldsAt p (pre ++ [a]) pre.length := holdsAt_append_length.2 ha
  have hlength : (pre ++ [a]).length = pre.length + 1 := List.length_append
  rcases start with - | i
  · refine ⟨by rw [hlength]; exact Nat.lt_succ_self _, fun k hk hk' => ?_, fun k hk => ?_⟩
    · obtain rfl : k = pre.length := by rw [Option.getD_none] at hk; omega
      exact hhere
    · rw [Option.getD_none] at hk
      rw [holdsAt_append_left (by omega)]
      exact h k hk
  · obtain ⟨hlt, hholds, hbefore⟩ := h
    refine ⟨by rw [hlength, Option.getD_some]; omega, fun k hk hk' => ?_, fun k hk => ?_⟩
    · rcases Nat.lt_or_ge k pre.length with hpre | hpre
      · exact (holdsAt_append_left hpre).2 (hholds k hk hpre)
      · obtain rfl : k = pre.length := by omega
        exact hhere
    · rw [Option.getD_some] at hk
      rw [holdsAt_append_left (by omega)]
      exact hbefore k hk

/-! ## The pass -/

/-- The stretch a pass is in ends where nothing more holds. -/
theorem Began.maximalRun_iff {i₀ : ℕ} (h : Began p pre (some i₀))
    (hend : ¬ HoldsAt p (pre ++ l) pre.length) : MaximalRun p (pre ++ l) i pre.length ↔ i = i₀ := by
  refine ⟨fun hrun => hrun.eq_of_end (h.maximalRun hend), ?_⟩
  rintro rfl
  exact h.maximalRun hend

/-- No run ends past the end of the list. -/
theorem MaximalRun.le_length (h : MaximalRun p l i j) : j ≤ l.length := by
  have hlt := h.lt
  have hholds := (h.holds (j - 1) (by omega) (by omega)).lt_length
  omega

theorem maximalRun_length_le_iff :
    MaximalRun p l i j ∧ l.length ≤ j ↔ MaximalRun p l i l.length ∧ j = l.length := by
  constructor
  · rintro ⟨hrun, hle⟩
    obtain rfl := Nat.le_antisymm hrun.le_length hle
    exact ⟨hrun, rfl⟩
  · rintro ⟨hrun, rfl⟩
    exact ⟨hrun, Nat.le_refl _⟩

/-- Where no run ends the runs that end from there on end later. -/
theorem maximalRun_succ_le_iff {n : ℕ} (hno : ¬ MaximalRun p l i n) :
    MaximalRun p l i j ∧ n + 1 ≤ j ↔ MaximalRun p l i j ∧ n ≤ j := by
  refine and_congr_right fun hrun => ⟨Nat.le_of_succ_le, fun hle => ?_⟩
  have hne : j ≠ n := by
    rintro rfl
    exact hno hrun
  omega

/-- **The pass finds the maximal runs that end from where it is on.** -/
theorem mem_runsFrom (h : Began p pre start) :
    (i, j) ∈ runsFrom p start pre.length l ↔ MaximalRun p (pre ++ l) i j ∧ pre.length ≤ j := by
  induction l generalizing pre start with
  | nil =>
    rw [List.append_nil, maximalRun_length_le_iff]
    rcases start with - | i₀
    · have hno := h.not_maximalRun (i := i) (l := [])
      rw [List.append_nil] at hno
      exact iff_of_false List.not_mem_nil fun hrun => hno hrun.1
    · have hiff := h.maximalRun_iff (i := i) (l := []) (by
        rw [List.append_nil]
        exact not_holdsAt_length)
      rw [List.append_nil] at hiff
      rw [hiff, runsFrom, List.mem_singleton, Prod.mk.injEq]
  | cons a l ih =>
    have hnext : ∀ {start' : Option ℕ}, Began p (pre ++ [a]) start' →
        ((i, j) ∈ runsFrom p start' (pre.length + 1) l ↔
          MaximalRun p (pre ++ a :: l) i j ∧ pre.length + 1 ≤ j) := by
      intro start' hstart
      have := ih hstart
      rwa [List.length_append, List.length_singleton, List.append_assoc] at this
    rcases ha : p a with - | -
    · have hend : ¬ HoldsAt p (pre ++ a :: l) pre.length := by
        rw [holdsAt_append_length, ha]
        exact Bool.false_ne_true
      have hlater := hnext (.step_of_false ha)
      rcases start with - | i₀
      · rw [runsFrom, ha, if_neg Bool.false_ne_true, hlater,
          maximalRun_succ_le_iff h.not_maximalRun]
      · rw [runsFrom, ha, if_neg Bool.false_ne_true, List.mem_cons, hlater, Prod.mk.injEq]
        constructor
        · rintro (⟨rfl, rfl⟩ | ⟨hrun, hle⟩)
          · exact ⟨h.maximalRun hend, Nat.le_refl _⟩
          · exact ⟨hrun, Nat.le_of_succ_le hle⟩
        · rintro ⟨hrun, hle⟩
          rcases Nat.eq_or_lt_of_le hle with rfl | hlt
          · exact .inl ⟨(h.maximalRun_iff hend).1 hrun, rfl⟩
          · exact .inr ⟨hrun, hlt⟩
    · -- a run goes on here, so none ends
      have hno : ¬ MaximalRun p (pre ++ a :: l) i pre.length := fun hrun =>
        hrun.after (holdsAt_append_length.2 ha)
      have hlater := (hnext (h.step_of_true ha)).trans (maximalRun_succ_le_iff hno)
      rcases start with - | i₀
      · rw [runsFrom, ha, if_pos rfl]
        exact hlater
      · rw [runsFrom, ha, if_pos rfl]
        exact hlater

/-- The maximal runs of a list. -/
def maximalRuns (p : α → Bool) (l : List α) : List (ℕ × ℕ) := runsFrom p none 0 l

theorem mem_maximalRuns : (i, j) ∈ maximalRuns p l ↔ MaximalRun p l i j := by
  have hbegan : Began p [] none := fun k hk => absurd hk (Nat.succ_ne_zero k)
  have hmem := mem_runsFrom (i := i) (j := j) (l := l) hbegan
  rwa [List.nil_append, List.length_nil, and_iff_left (Nat.zero_le j)] at hmem

/-- The runs found begin where the pass's stretch did, or later than the pass. -/
theorem le_of_mem_runsFrom {index : ℕ} {run : ℕ × ℕ} (hstart : ∀ i ∈ start, i ≤ index)
    (h : run ∈ runsFrom p start index l) : start.getD index ≤ run.1 := by
  induction l generalizing start index with
  | nil =>
    rcases start with - | i
    · cases h
    · obtain rfl := List.mem_singleton.1 h
      exact Nat.le_refl i
  | cons a l ih =>
    rcases start with - | i
    · rw [runsFrom] at h
      split at h
      · have hlater : (some index).getD (index + 1) ≤ run.1 :=
          ih (by rintro i ⟨⟩; exact Nat.le_succ index) h
        exact hlater
      · exact Nat.le_of_succ_le (ih (by rintro i ⟨⟩) h)
    · have hle : i ≤ index := hstart i rfl
      rw [runsFrom] at h
      split at h
      · have hlater : (some i).getD (index + 1) ≤ run.1 :=
          ih (by rintro i' ⟨⟩; exact Nat.le_succ_of_le hle) h
        exact hlater
      · rcases List.mem_cons.1 h with rfl | h
        · exact Nat.le_refl i
        · have hlater : index + 1 ≤ run.1 := ih (by rintro i ⟨⟩) h
          rw [Option.getD_some]
          omega

/-- **The runs found are in order and apart from each other.** -/
theorem pairwise_runsFrom {index : ℕ} : (runsFrom p start index l).Pairwise (·.2 < ·.1) := by
  induction l generalizing start index with
  | nil =>
    rcases start with - | i
    · exact List.Pairwise.nil
    · exact List.pairwise_singleton _ _
  | cons a l ih =>
    rcases start with - | i
    · exact ih
    · rw [runsFrom]
      split
      · exact ih
      · refine List.pairwise_cons.2 ⟨fun run hrun => ?_, ih⟩
        exact le_of_mem_runsFrom (by rintro i ⟨⟩) hrun

/-! ## Where more holds -/

/-- A stretch goes as far to the left as it holds. -/
theorem exists_begin (h : HoldsAt p l k) : ∃ i, i ≤ k ∧
    (∀ k', i ≤ k' → k' ≤ k → HoldsAt p l k') ∧ ∀ k', k' + 1 = i → ¬ HoldsAt p l k' := by
  induction k with
  | zero =>
    refine ⟨0, Nat.le_refl 0, fun k' _ hk' => ?_, fun k' hk' => absurd hk' (Nat.succ_ne_zero k')⟩
    rwa [Nat.le_zero.1 hk']
  | succ k ih =>
    by_cases hbefore : HoldsAt p l k
    · obtain ⟨i, hik, hholds, hi⟩ := ih hbefore
      refine ⟨i, Nat.le_succ_of_le hik, fun k' hk hk' => ?_, hi⟩
      rcases Nat.eq_or_lt_of_le hk' with rfl | hlt
      · exact h
      · exact hholds k' hk (Nat.le_of_lt_succ hlt)
    · refine ⟨k + 1, Nat.le_refl _, fun k' hk hk' => ?_, fun k' hk' => ?_⟩
      · rwa [Nat.le_antisymm hk' hk]
      · rwa [Nat.succ.inj hk']

/-- And as far to the right. -/
theorem exists_end (h : HoldsAt p l k) :
    ∃ j, k < j ∧ (∀ k', k ≤ k' → k' < j → HoldsAt p l k') ∧ ¬ HoldsAt p l j := by
  obtain ⟨n, hn⟩ : ∃ n, n + k = l.length := ⟨l.length - k, by have := h.lt_length; omega⟩
  induction n generalizing k with
  | zero => exact absurd h.lt_length (by omega)
  | succ n ih =>
    by_cases hnext : HoldsAt p l (k + 1)
    · obtain ⟨j, hkj, hholds, hj⟩ := ih hnext (by omega)
      refine ⟨j, Nat.lt_of_succ_lt hkj, fun k' hk hk' => ?_, hj⟩
      rcases Nat.eq_or_lt_of_le hk with rfl | hlt
      · exact h
      · exact hholds k' hlt hk'
    · refine ⟨k + 1, Nat.lt_succ_self k, fun k' hk hk' => ?_, hnext⟩
      rwa [Nat.le_antisymm (Nat.le_of_lt_succ hk') hk]

/-- **Where more holds, a run lies inside a run.** -/
theorem MaximalRun.exists_of_le (h : MaximalRun p l i j)
    (hle : ∀ k, HoldsAt p l k → HoldsAt q m k) :
    ∃ i' j', MaximalRun q m i' j' ∧ i' ≤ i ∧ j ≤ j' := by
  have hbegin : HoldsAt q m i := hle i (h.holds i (Nat.le_refl i) h.lt)
  obtain ⟨i', hi', hleft, hbefore⟩ := exists_begin hbegin
  obtain ⟨j', hj', hright, hafter⟩ := exists_end hbegin
  refine ⟨i', j', ⟨by omega, fun k hk hk' => ?_, hbefore, hafter⟩, hi', ?_⟩
  · rcases Nat.lt_or_ge k i with hki | hki
    · exact hleft k hk (Nat.le_of_lt hki)
    · exact hright k hki hk'
  · by_contra hlt
    exact hafter (hle j' (h.holds j' (by omega) (by omega)))

end MaximalRuns
