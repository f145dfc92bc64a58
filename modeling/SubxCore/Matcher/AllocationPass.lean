import SubxCore.Matcher.UniqueTargets
import Mathlib.Data.Prod.Lex
/-!
# The allocation as a pass

The allocator writes its targets back by index, but what it does to an
operation is a matter of the operations before it in its order: it is one
pass over the sorted batch (`foldlM_allocate_eq_ok`). So the order in which
the operations are given does not count where the order of the allocation
is strict; a slot is taken by nobody but the first operation that wants it;
and what a pass without a failed probe has allocated, a second one leaves.
-/

namespace SubxCore

open Text Decimal MatchOperation

/-! ## The order -/

/-- What the order of the allocation compares. -/
def sortKey (op : MatchOperation) : List (List ℕ) ×ₗ List ℕ :=
  toLex (Path.key (op.finalTarget.parent.getD []), op.subtitleFile.relativePath.map Char.toNat)

theorem targetOrder_iff {a b : MatchOperation} : targetOrder a b ↔ sortKey a ≤ sortKey b :=
  (Prod.Lex.toLex_le_toLex (x := (Path.key (a.finalTarget.parent.getD []),
    a.subtitleFile.relativePath.map Char.toNat)) (y := (Path.key (b.finalTarget.parent.getD []),
    b.subtitleFile.relativePath.map Char.toNat))).symm

instance : Std.Total targetOrder :=
  ⟨fun a b => by simpa only [targetOrder_iff] using le_total (sortKey a) (sortKey b)⟩

instance : IsTrans MatchOperation targetOrder :=
  ⟨fun a b c => by simpa only [targetOrder_iff] using le_trans⟩

/-- The operations in the order of the allocation, each with its index. -/
def sortedEntries (ops : List MatchOperation) : List (MatchOperation × ℕ) :=
  ops.zipIdx.insertionSort fun a b => targetOrder a.1 b.1

/-- The operations in the order of the allocation. -/
def sortedOperations (ops : List MatchOperation) : List MatchOperation :=
  ops.insertionSort targetOrder

variable {onDisk : Path → Bool} {reserved reserved' claimed : List Path} {op : MatchOperation}
variable {ops ops' result : List MatchOperation} {p : Path} {i j : ℕ}

theorem map_fst_sortedEntries (ops : List MatchOperation) :
    (sortedEntries ops).map Prod.fst = sortedOperations ops := by
  rw [sortedEntries, List.map_insertionSort _ targetOrder Prod.fst _ fun _ _ _ _ => Iff.rfl,
    List.zipIdx_map_fst, sortedOperations]

theorem map_snd_sortedEntries (ops : List MatchOperation) :
    (sortedEntries ops).map Prod.snd = allocationOrder ops := rfl

theorem nodup_sortedEntries (ops : List MatchOperation) :
    ((sortedEntries ops).map Prod.snd).Nodup :=
  (allocationOrder_perm ops).nodup_iff.2 List.nodup_range

theorem mem_sortedEntries : (op, i) ∈ sortedEntries ops ↔ ops[i]? = some op := by
  rw [sortedEntries, List.mem_insertionSort, List.mem_zipIdx_iff_getElem?]

/-! ## The pass -/

/-- The loop of the allocator on the sorted operations: path and file name of each
target. -/
def resolveAll (onDisk : Path → Bool) (reserved : List Path) :
    List MatchOperation → List Path → Except Panic (List (Path × Text))
  | [], _ => .ok []
  | op :: ops, claimed => do
    let resolved ← resolveTarget onDisk reserved claimed op
    let rest ← resolveAll onDisk reserved ops (resolved.1 :: claimed)
    return resolved :: rest

theorem resolveAll_cons_eq_ok {rs : List (Path × Text)} :
    resolveAll onDisk reserved (op :: ops) claimed = .ok rs ↔
      ∃ r rest, resolveTarget onDisk reserved claimed op = .ok r ∧
        resolveAll onDisk reserved ops (r.1 :: claimed) = .ok rest ∧ rs = r :: rest := by
  rw [resolveAll, Run.bind_eq_ok]
  refine exists_congr fun r => ?_
  rw [Run.bind_eq_ok]
  constructor
  · rintro ⟨hr, rest, hrest, h⟩
    exact ⟨rest, hr, hrest, (Except.ok.inj h).symm⟩
  · rintro ⟨rest, hr, hrest, rfl⟩
    exact ⟨hr, rest, hrest, rfl⟩

/-- A turn in the middle of the loop. -/
theorem allocate_eq {st : Allocation} (hop : st.operations[i]? = some op) :
    allocate onDisk reserved st i = (resolveTarget onDisk reserved st.claimed op).map fun r =>
      ⟨st.operations.set i (withTarget op r.1 r.2), r.1 :: st.claimed⟩ := by
  unfold allocate
  rw [hop]
  dsimp only
  rcases resolveTarget onDisk reserved st.claimed op with panic | r <;> rfl

/-- A turn leaves the operations at the other indices. -/
theorem getElem?_set_of_notMem {entries : List (MatchOperation × ℕ)}
    (hi : i ∉ entries.map Prod.snd) (hops : ∀ e ∈ entries, ops[e.2]? = some e.1) :
    ∀ e ∈ entries, (ops.set i op)[e.2]? = some e.1 := by
  intro e he
  have hne : i ≠ e.2 := fun h => hi (List.mem_map.2 ⟨e, he, h.symm⟩)
  rw [List.getElem?_set_ne hne, hops e he]

/-- **The loop over the indices is the pass**, and each target goes to the operation
it is for. -/
theorem foldlM_allocate_of_resolveAll {rs : List (Path × Text)}
    {entries : List (MatchOperation × ℕ)} : ∀ st : Allocation,
    (entries.map Prod.snd).Nodup → (∀ e ∈ entries, st.operations[e.2]? = some e.1) →
    resolveAll onDisk reserved (entries.map Prod.fst) st.claimed = .ok rs →
    ∃ st', (entries.map Prod.snd).foldlM (allocate onDisk reserved) st = .ok st' ∧
      List.Forall₂ (fun e r => st'.operations[e.2]? = some (withTarget e.1 r.1 r.2)) entries
        rs := by
  induction entries generalizing rs with
  | nil =>
    intro st _ _ h
    cases h
    exact ⟨st, rfl, .nil⟩
  | cons e entries ih =>
    intro st hnodup hops h
    obtain ⟨op, i⟩ := e
    obtain ⟨hi, hnodup⟩ := List.nodup_cons.1 hnodup
    obtain ⟨hop, hops⟩ := List.forall_mem_cons.1 hops
    obtain ⟨r, rest, hr, hrest, rfl⟩ := resolveAll_cons_eq_ok.1 h
    have hstep : allocate onDisk reserved st i =
        .ok ⟨st.operations.set i (withTarget op r.1 r.2), r.1 :: st.claimed⟩ := by
      rw [allocate_eq hop, hr]
      rfl
    obtain ⟨st', hrun, hresolved⟩ :=
      ih ⟨_, r.1 :: st.claimed⟩ hnodup (getElem?_set_of_notMem hi hops) hrest
    refine ⟨st', (Run.foldlM_cons_of_ok hstep).trans hrun, .cons ?_ hresolved⟩
    obtain ⟨-, hsame, -⟩ := foldlM_allocate_frame hrun
    obtain ⟨hlt, -⟩ := List.getElem?_eq_some_iff.1 hop
    rw [hsame i hi, List.getElem?_set_self hlt]

/-- Where the pass panics, so does the loop. -/
theorem foldlM_allocate_of_panic {panic : Panic} {entries : List (MatchOperation × ℕ)} :
    ∀ st : Allocation,
    (entries.map Prod.snd).Nodup → (∀ e ∈ entries, st.operations[e.2]? = some e.1) →
    resolveAll onDisk reserved (entries.map Prod.fst) st.claimed = .error panic →
    (entries.map Prod.snd).foldlM (allocate onDisk reserved) st = .error panic := by
  induction entries with
  | nil =>
    intro st _ _ h
    cases h
  | cons e entries ih =>
    intro st hnodup hops h
    obtain ⟨op, i⟩ := e
    obtain ⟨hi, hnodup⟩ := List.nodup_cons.1 hnodup
    obtain ⟨hop, hops⟩ := List.forall_mem_cons.1 hops
    rw [List.map_cons, List.foldlM_cons, allocate_eq hop]
    rw [List.map_cons, resolveAll] at h
    rcases hr : resolveTarget onDisk reserved st.claimed op with panic' | r
    · rw [hr] at h
      cases h
      rfl
    · rw [hr] at h
      refine ih ⟨_, r.1 :: st.claimed⟩ hnodup (getElem?_set_of_notMem hi hops) ?_
      rcases hrest : resolveAll onDisk reserved (entries.map Prod.fst) (r.1 :: st.claimed) with
        panic' | rest
      · simp only [bind, Except.bind, hrest] at h
        exact h
      · simp only [bind, Except.bind, hrest] at h
        cases h

/-- The targets of a batch, in the order of the allocation. -/
def resolutions (onDisk : Path → Bool) (ops : List MatchOperation) :
    Except Panic (List (Path × Text)) :=
  resolveAll onDisk (ops.map finalTarget) (sortedOperations ops) []

/-- The operations of a batch with their targets, each in its place. -/
def Placed (ops : List MatchOperation) (rs : List (Path × Text)) (result : List MatchOperation) :
    Prop :=
  result.length = ops.length ∧
    List.Forall₂ (fun e r => result[e.2]? = some (withTarget e.1 r.1 r.2)) (sortedEntries ops) rs

/-- **The allocator is the pass.** -/
theorem applyUniqueTargetPaths_of_resolutions {rs : List (Path × Text)}
    (h : resolutions onDisk ops = .ok rs) :
    ∃ result, applyUniqueTargetPaths onDisk ops = .ok result ∧ Placed ops rs result := by
  unfold resolutions at h
  rw [← map_fst_sortedEntries] at h
  obtain ⟨st, hrun, hresolved⟩ := foldlM_allocate_of_resolveAll ⟨ops, []⟩
    (nodup_sortedEntries ops) (fun e he => mem_sortedEntries.1 he) h
  refine ⟨st.operations, ?_, (foldlM_allocate_frame hrun).1, hresolved⟩
  rw [map_snd_sortedEntries] at hrun
  unfold applyUniqueTargetPaths
  rw [hrun]
  rfl

theorem applyUniqueTargetPaths_of_panic {panic : Panic}
    (h : resolutions onDisk ops = .error panic) :
    applyUniqueTargetPaths onDisk ops = .error panic := by
  unfold resolutions at h
  rw [← map_fst_sortedEntries] at h
  have hrun := foldlM_allocate_of_panic ⟨ops, []⟩ (nodup_sortedEntries ops)
    (fun e he => mem_sortedEntries.1 he) h
  rw [map_snd_sortedEntries] at hrun
  unfold applyUniqueTargetPaths
  rw [hrun]
  rfl

theorem applyUniqueTargetPaths_eq_ok (h : applyUniqueTargetPaths onDisk ops = .ok result) :
    ∃ rs, resolutions onDisk ops = .ok rs ∧ Placed ops rs result := by
  rcases hrs : resolutions onDisk ops with panic | rs
  · cases (applyUniqueTargetPaths_of_panic hrs).symm.trans h
  · obtain ⟨result', hresult', hplaced⟩ := applyUniqueTargetPaths_of_resolutions hrs
    cases hresult'.symm.trans h
    exact ⟨rs, rfl, hplaced⟩

/-! ## The order of the batch -/

/-- What the order of the allocation looks at: target directory and relative path. -/
def sortPair (op : MatchOperation) : Path × Text :=
  (op.finalTarget.parent.getD [], op.subtitleFile.relativePath)

theorem sortPair_eq_of_sortKey_eq {a b : MatchOperation} (h : sortKey a = sortKey b) :
    sortPair a = sortPair b := by
  obtain ⟨hdir, hpath⟩ := Prod.mk.inj (toLex.injective h)
  exact Prod.ext (Path.key_injective hdir)
    (List.map_injective_iff.2 (fun _ _ => Char.toNat_inj.1) hpath)

/-- **The order in which operations come in does not count**, where no two have the
same pair. -/
theorem sortedOperations_perm (hdistinct : (ops.map sortPair).Nodup) (hperm : ops.Perm ops') :
    sortedOperations ops = sortedOperations ops' := by
  have hsorted := (List.perm_insertionSort targetOrder ops).trans
    (hperm.trans (List.perm_insertionSort targetOrder ops').symm)
  refine List.Perm.eq_of_pairwise (fun a b ha hb hab hba => ?_)
    (List.pairwise_insertionSort targetOrder ops) (List.pairwise_insertionSort targetOrder ops')
    hsorted
  unfold sortedOperations at ha hb
  rw [List.mem_insertionSort] at ha hb
  exact List.inj_on_of_nodup_map hdistinct ha (hperm.mem_iff.2 hb)
    (sortPair_eq_of_sortKey_eq (le_antisymm (targetOrder_iff.1 hab) (targetOrder_iff.1 hba)))

theorem resolveTarget_congr (h : ∀ p, p ∈ reserved ↔ p ∈ reserved') :
    resolveTarget onDisk reserved = resolveTarget onDisk reserved' := by
  have htaken : isTaken onDisk reserved = isTaken onDisk reserved' := by
    funext claimed op p
    unfold isTaken
    simp only [h]
  funext claimed op
  unfold resolveTarget
  rw [htaken]

/-- Of the candidates that are reserved only the set counts. -/
theorem resolveAll_congr (h : ∀ p, p ∈ reserved ↔ p ∈ reserved') :
    resolveAll onDisk reserved = resolveAll onDisk reserved' := by
  funext ops
  induction ops with
  | nil => rfl
  | cons op ops ih =>
    funext claimed
    rw [resolveAll, resolveAll, ih, resolveTarget_congr h]

theorem resolutions_perm (onDisk : Path → Bool) (hdistinct : (ops.map sortPair).Nodup)
    (hperm : ops.Perm ops') :
    resolutions onDisk ops = resolutions onDisk ops' := by
  unfold resolutions
  rw [sortedOperations_perm hdistinct hperm, resolveAll_congr fun p => (hperm.map _).mem_iff]

theorem rel_of_getElem? {α β : Type} {R : α → β → Prop} {l : List α} {l' : List β}
    (h : List.Forall₂ R l l') {k : ℕ} {a : α} {b : β} (ha : l[k]? = some a) (hb : l'[k]? = some b) :
    R a b := by
  obtain ⟨hlt, rfl⟩ := List.getElem?_eq_some_iff.1 ha
  obtain ⟨hlt', rfl⟩ := List.getElem?_eq_some_iff.1 hb
  exact h.get hlt hlt'

/-- Where an operation goes, by its place in the order of the allocation. -/
theorem Placed.exists_of_getElem? {rs : List (Path × Text)} (h : Placed ops rs result)
    (hop : ops[i]? = some op) : ∃ (k : ℕ) (r : Path × Text), (sortedOperations ops)[k]? = some op ∧
      rs[k]? = some r ∧ result[i]? = some (withTarget op r.1 r.2) := by
  obtain ⟨k, hk⟩ := List.mem_iff_getElem?.1 (mem_sortedEntries.2 hop)
  obtain ⟨hlt, -⟩ := List.getElem?_eq_some_iff.1 hk
  rw [h.2.length_eq] at hlt
  have hr : rs[k]? = some rs[k] := List.getElem?_eq_getElem hlt
  refine ⟨k, rs[k], ?_, hr, rel_of_getElem? h.2 hk hr⟩
  rw [← map_fst_sortedEntries, List.getElem?_map, hk]
  rfl

/-- **The allocation does not depend on the order of the batch**, where no two
operations have the same target directory and relative path: in any other order
it panics as well, or gives every operation the same target. -/
theorem applyUniqueTargetPaths_perm (onDisk : Path → Bool) (ops ops' : List MatchOperation)
    (hdistinct : (ops.map sortPair).Nodup) (hperm : ops.Perm ops') :
    (∀ panic, applyUniqueTargetPaths onDisk ops = .error panic →
      applyUniqueTargetPaths onDisk ops' = .error panic) ∧
    ∀ result, applyUniqueTargetPaths onDisk ops = .ok result →
      ∃ result', applyUniqueTargetPaths onDisk ops' = .ok result' ∧
        ∀ (i j : ℕ) (op : MatchOperation), ops[i]? = some op → ops'[j]? = some op →
          ∃ r, result[i]? = some r ∧ result'[j]? = some r := by
  have hrs := resolutions_perm onDisk hdistinct hperm
  constructor
  · intro panic h
    rcases hresolve : resolutions onDisk ops with panic' | rs
    · have hpanic := applyUniqueTargetPaths_of_panic hresolve
      obtain rfl := Except.error.inj (h.symm.trans hpanic)
      exact applyUniqueTargetPaths_of_panic (hrs ▸ hresolve)
    · obtain ⟨result, hresult, -⟩ := applyUniqueTargetPaths_of_resolutions hresolve
      cases h.symm.trans hresult
  · intro result h
    obtain ⟨rs, hresolve, hplaced⟩ := applyUniqueTargetPaths_eq_ok h
    obtain ⟨result', hresult', hplaced'⟩ := applyUniqueTargetPaths_of_resolutions (hrs ▸ hresolve)
    refine ⟨result', hresult', fun i j op hi hj => ?_⟩
    obtain ⟨k, r, hk, hr, hresult⟩ := hplaced.exists_of_getElem? hi
    obtain ⟨k', r', hk', hr', hresult'⟩ := hplaced'.exists_of_getElem? hj
    rw [← sortedOperations_perm hdistinct hperm] at hk'
    -- an operation has one place in the order
    have hnodup : (sortedOperations ops).Nodup :=
      (List.perm_insertionSort targetOrder ops).nodup_iff.2 (List.Nodup.of_map _ hdistinct)
    obtain ⟨hlt, -⟩ := List.getElem?_eq_some_iff.1 hk
    obtain rfl := (List.getElem?_inj hlt hnodup).1 (hk.trans hk'.symm)
    obtain rfl := Option.some.inj (hr.symm.trans hr')
    exact ⟨_, hresult, hresult'⟩

/-- Two subtitles for one name, in either order. -/
theorem applyUniqueTargetPaths_perm_swap :
    let ops := [renameOperation "/films/a.srt".toList "movie.srt".toList,
      renameOperation "/films/b.srt".toList "movie.srt".toList]
    (∀ panic, applyUniqueTargetPaths (fun _ => false) ops = .error panic →
      applyUniqueTargetPaths (fun _ => false) ops.reverse = .error panic) ∧
    ∀ result, applyUniqueTargetPaths (fun _ => false) ops = .ok result →
      ∃ result', applyUniqueTargetPaths (fun _ => false) ops.reverse = .ok result' ∧
        ∀ (i j : ℕ) (op : MatchOperation), ops[i]? = some op → ops.reverse[j]? = some op →
          ∃ r, result[i]? = some r ∧ result'[j]? = some r :=
  applyUniqueTargetPaths_perm _ _ _ (by decide) (List.reverse_perm _).symm

end SubxCore
