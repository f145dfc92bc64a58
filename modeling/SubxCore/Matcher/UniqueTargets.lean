import SubxCore.Common.FirstFit
import SubxCore.Common.Run
import SubxCore.Matcher.Operations
import Mathlib.Data.List.Sort
/-!
# Unique target paths

The allocator that goes over a batch of operations and moves those whose
target is taken to a numbered name. It fails in two ways, and in no other:
after counter 9999 it gives up and leaves the operation at the taken
target, and the counter behind a name that ends in the largest `u32` does
not exist.

Which slots an operation could take is a matter of the batch and the disk
alone: its candidate, and then the numbered names that no operation has as
its candidate. The allocator serves the operations in its order, first
come, first served, and its targets are unique exactly when that serves
everyone.
-/

namespace SubxCore

open Text Decimal MatchOperation

/-! ## Names -/

/-- `split_filename`: stem and extension, the extension with its dot. -/
def splitFilename (name : Text) : Text × Text :=
  match rsplitOnce '.' name with
  | some (before, after) => if before = [] then (name, []) else (before, '.' :: after)
  | none => (name, [])

/-- `split_numeric_tail`. -/
def splitNumericTail (stem : Text) : Text × Option ℕ :=
  match rsplitOnce '.' stem with
  | some (head, tail) =>
    if tail ≠ [] ∧ ∀ c ∈ tail, c.isDigit then
      match parseUnsigned u32Max tail with
      | .ok n => (head, some n)
      | .error _ => (stem, none)
    else (stem, none)
  | none => (stem, none)

/-- A file name as the allocator reads it: `base.counter` and extension. -/
structure NumberedName where
  base : Text
  counter : Option ℕ
  ext : Text
  deriving DecidableEq, Repr

/-- The parts of a file name. -/
def NumberedName.ofText (name : Text) : NumberedName :=
  let (stem, ext) := splitFilename name
  let (base, counter) := splitNumericTail stem
  ⟨base, counter, ext⟩

/-- The name with some counter. -/
def NumberedName.withCounter (name : NumberedName) (n : ℕ) : Text :=
  name.base ++ '.' :: decimal n ++ name.ext

/-- The first counter probed; the one after the largest `u32` overflows. -/
def NumberedName.start (name : NumberedName) : Except Panic ℕ :=
  match name.counter with
  | some n => if n = u32Max then .error .addOverflow else .ok (max (n + 1) 2)
  | none => .ok 2

/-! ## The allocator -/

/-- The order of the allocation: target directory, then relative path. -/
def targetOrder (a b : MatchOperation) : Prop :=
  let dirA := Path.key (a.finalTarget.parent.getD [])
  let dirB := Path.key (b.finalTarget.parent.getD [])
  dirA < dirB ∨ dirA = dirB ∧
    a.subtitleFile.relativePath.map Char.toNat ≤ b.subtitleFile.relativePath.map Char.toNat

instance : DecidableRel targetOrder := fun a b => by
  unfold targetOrder
  infer_instance

/-- The indices of the operations in the order of the allocation. -/
def allocationOrder (ops : List MatchOperation) : List ℕ :=
  (ops.zipIdx.insertionSort fun a b => targetOrder a.1 b.1).map Prod.snd

/-- Whether a path is on disk and not the operation's own source. -/
def occupied (onDisk : Path → Bool) (op : MatchOperation) (p : Path) : Bool :=
  p ≠ op.source && onDisk p

/-- `is_taken`. -/
def isTaken (onDisk : Path → Bool) (reserved claimed : List Path) (op : MatchOperation) (p : Path) :
    Bool :=
  p ∈ claimed || (p ≠ op.finalTarget && p ∈ reserved) || occupied onDisk op p

/-- The loop over the counters: the first free one, at most `steps` after the
start. -/
def probe (free : ℕ → Bool) : ℕ → ℕ → Option ℕ
  | 0, n => if free n then some n else none
  | steps + 1, n => if free n then some n else probe free steps (n + 1)

/-- The target of one operation: path and file name. -/
def resolveTarget (onDisk : Path → Bool) (reserved claimed : List Path) (op : MatchOperation) :
    Except Panic (Path × Text) :=
  let candidate := op.finalTarget
  let dir := candidate.parent.getD []
  let filename := (candidate.fileName.map FileName.text).getD []
  let name := NumberedName.ofText filename
  if isTaken onDisk reserved claimed op candidate then do
    let start ← name.start
    match probe (fun n => !isTaken onDisk reserved claimed op (dir.join (name.withCounter n)))
        (9999 - start) start with
    | some n => return (dir.join (name.withCounter n), name.withCounter n)
    | none => return (candidate, filename)
  else return (candidate, filename)

/-- An operation with its target. -/
def withTarget (op : MatchOperation) (resolved : Path) (resolvedName : Text) : MatchOperation :=
  { op with
    newSubtitleName := resolvedName
    relocationTargetPath := op.relocationTargetPath.map fun _ => resolved }

/-- The batch, and the targets claimed so far. -/
structure Allocation where
  operations : List MatchOperation
  claimed : List Path

/-- One turn of the allocation loop. -/
def allocate (onDisk : Path → Bool) (reserved : List Path) (st : Allocation) (idx : ℕ) :
    Except Panic Allocation :=
  match st.operations[idx]? with
  | none => .ok st
  | some op => do
    let (resolved, resolvedName) ← resolveTarget onDisk reserved st.claimed op
    return ⟨st.operations.set idx (withTarget op resolved resolvedName), resolved :: st.claimed⟩

/-- `apply_unique_target_paths`. -/
def applyUniqueTargetPaths (onDisk : Path → Bool) (ops : List MatchOperation) :
    Except Panic (List MatchOperation) := do
  let st ← (allocationOrder ops).foldlM (allocate onDisk (ops.map finalTarget)) ⟨ops, []⟩
  return st.operations

/-! ## The slots of an operation -/

/-- The counters an operation can be numbered with. -/
def counters (name : NumberedName) : List ℕ :=
  match name.start with
  | .ok start => List.range' start (9999 - start + 1)
  | .error _ => []

/-- The numbered targets of an operation. -/
def numberedTargets (op : MatchOperation) : List Path :=
  let name := NumberedName.ofText ((op.finalTarget.fileName.map FileName.text).getD [])
  (counters name).map fun n => (op.finalTarget.parent.getD []).join (name.withCounter n)

/-- **The slots an operation could take**, best first: its candidate, and then
the numbered targets that are not some operation's candidate, all of them
only where no other file is. -/
def slots (onDisk : Path → Bool) (reserved : List Path) (op : MatchOperation) : List Path :=
  ([op.finalTarget] ++ (numberedTargets op).filter fun p => p ∉ reserved).filter fun p =>
    !occupied onDisk op p

/-- **Serving the operations in order leaves none without a target.** -/
def Servable (onDisk : Path → Bool) (ops : List MatchOperation) : Prop :=
  (FirstFit.serve ((allocationOrder ops).map fun idx =>
    (ops[idx]?.map (slots onDisk (ops.map finalTarget))).getD []) []).isSome

instance (onDisk : Path → Bool) (ops : List MatchOperation) : Decidable (Servable onDisk ops) := by
  unfold Servable
  infer_instance

/-- The targets of a batch are pairwise distinct and no operation's target is
an existing file other than its own source. -/
structure UniqueTargets (onDisk : Path → Bool) (ops : List MatchOperation) : Prop where
  nodup : (ops.map finalTarget).Nodup
  free : ∀ op ∈ ops, onDisk op.finalTarget → op.finalTarget = op.source

variable {onDisk : Path → Bool} {reserved claimed : List Path} {op : MatchOperation}

/-! ## Numbered names are file names -/

theorem splitFilename_append (name : Text) :
    (splitFilename name).1 ++ (splitFilename name).2 = name := by
  unfold splitFilename
  split
  · next before after h =>
    split
    · exact List.append_nil name
    · exact (rsplitOnce_eq_some h).1.symm
  · exact List.append_nil name

theorem splitNumericTail_isPrefix (stem : Text) : (splitNumericTail stem).1 <+: stem := by
  unfold splitNumericTail
  split
  · next head tail h =>
    split
    · split
      · exact ⟨_, (rsplitOnce_eq_some h).1.symm⟩
      · exact List.prefix_rfl
    · exact List.prefix_rfl
  · exact List.prefix_rfl

/-- A counter makes a file name of anything without separators. -/
theorem isFileName_withCounter_of_notMem {filename : Text} (hslash : '/' ∉ filename) (n : ℕ) :
    IsFileName ((NumberedName.ofText filename).withCounter n) := by
  rw [← splitFilename_append filename, List.mem_append, not_or] at hslash
  have hbase : '/' ∉ (NumberedName.ofText filename).base :=
    fun hmem => hslash.1 ((splitNumericTail_isPrefix _).subset hmem)
  obtain ⟨d, ds, hdecimal⟩ := List.exists_cons_of_ne_nil (decimal_ne_nil (n := n))
  have hdigit : d.isDigit = true := isDigit_of_mem_decimal (hdecimal ▸ List.mem_cons_self)
  -- a digit makes it neither `.` nor `..`
  have hmem : d ∈ (NumberedName.ofText filename).withCounter n := by
    unfold NumberedName.withCounter
    rw [hdecimal]
    simp
  have hne : d ≠ '.' := by
    rintro rfl
    cases hdigit
  refine isFileName_of_mem hmem hne fun h => ?_
  unfold NumberedName.withCounter at h
  rcases List.mem_append.1 h with h | h
  · rcases List.mem_append.1 h with h | h
    · exact hbase h
    · rcases List.mem_cons.1 h with h | h
      · cases h
      · have := isDigit_of_mem_decimal h
        cases this
  · exact hslash.2 h

theorem isFileName_withCounter {filename : Text} (h : IsFileName filename) (n : ℕ) :
    IsFileName ((NumberedName.ofText filename).withCounter n) :=
  isFileName_withCounter_of_notMem h.2.2.2 n

/-! ## One operation -/

theorem probe_eq_find (free : ℕ → Bool) :
    ∀ steps n, probe free steps n = (List.range' n (steps + 1)).find? free
  | 0, n => by
    rw [probe, List.range'_succ, List.range'_zero, List.find?_cons, List.find?_nil]
    rcases free n <;> rfl
  | steps + 1, n => by
    rw [probe, List.range'_succ, List.find?_cons, probe_eq_find free steps (n + 1)]
    rcases free n <;> rfl

/-- The candidate is taken when it is claimed or occupied. -/
theorem isTaken_finalTarget : isTaken onDisk reserved claimed op op.finalTarget =
    (decide (op.finalTarget ∈ claimed) || occupied onDisk op op.finalTarget) := by
  simp [isTaken]

/-- And then any path is taken that is claimed, reserved or occupied. -/
theorem isTaken_of_displaced (h : isTaken onDisk reserved claimed op op.finalTarget = true)
    (hreserved : op.finalTarget ∈ reserved) (p : Path) :
    isTaken onDisk reserved claimed op p =
      (decide (p ∈ claimed) || decide (p ∈ reserved) || occupied onDisk op p) := by
  by_cases hp : p = op.finalTarget
  · subst hp
    rw [h, decide_eq_true hreserved, Bool.or_true, Bool.true_or]
  · simp [isTaken, hp]

/-- A free candidate is what the operation picks. -/
theorem pick_of_free (h : isTaken onDisk reserved claimed op op.finalTarget = false) :
    FirstFit.pick (slots onDisk reserved op) claimed = some op.finalTarget := by
  rw [isTaken_finalTarget, Bool.or_eq_false_iff] at h
  unfold slots
  rw [List.singleton_append, List.filter_cons_of_pos (by rw [h.2]; rfl),
    FirstFit.pick_cons_of_notMem (of_decide_eq_false h.1)]

/-- Otherwise it picks the first numbered target that is not taken. -/
theorem pick_of_displaced (h : isTaken onDisk reserved claimed op op.finalTarget = true)
    (hreserved : op.finalTarget ∈ reserved) :
    FirstFit.pick (slots onDisk reserved op) claimed =
      (numberedTargets op).find? fun p => !isTaken onDisk reserved claimed op p := by
  have hslots : FirstFit.pick (slots onDisk reserved op) claimed =
      FirstFit.pick ((numberedTargets op).filter fun p => !occupied onDisk op p && p ∉ reserved)
        claimed := by
    unfold slots
    rw [List.singleton_append]
    rcases hocc : occupied onDisk op op.finalTarget with - | -
    · rw [isTaken_finalTarget, hocc, Bool.or_false, decide_eq_true_eq] at h
      rw [List.filter_cons_of_pos (by rw [hocc]; rfl), FirstFit.pick_cons_of_mem h,
        List.filter_filter]
    · rw [List.filter_cons_of_neg (by rw [hocc]; decide), List.filter_filter]
  rw [hslots]
  refine FirstFit.pick_filter fun p _ => ?_
  rw [isTaken_of_displaced h hreserved]
  simp only [Bool.not_or, Bool.and_eq_true, Bool.not_eq_true', decide_eq_false_iff_not,
    decide_eq_true_eq]
  tauto

/-- **The allocator gives an operation the slot it picks.** -/
theorem resolveTarget_of_pick {slot : Path} (hnamed : op.WellNamed)
    (hreserved : op.finalTarget ∈ reserved)
    (hpick : FirstFit.pick (slots onDisk reserved op) claimed = some slot) :
    ∃ name : FileName, slot = op.finalTarget.parent.getD [] ++ [.normal name] ∧
      resolveTarget onDisk reserved claimed op = .ok (slot, name.text) := by
  obtain ⟨dir, filename, htarget⟩ := hnamed.exists_target
  have hparent : op.finalTarget.parent.getD [] = dir := by
    rw [htarget, Path.parent_concat, Option.getD_some]
  have hname : (op.finalTarget.fileName.map FileName.text).getD [] = filename.text := by
    rw [htarget, Path.fileName_concat]
    rfl
  unfold resolveTarget
  dsimp only
  rw [hparent, hname]
  by_cases htaken : isTaken onDisk reserved claimed op op.finalTarget = true
  · rw [pick_of_displaced htaken hreserved] at hpick
    unfold numberedTargets at hpick
    dsimp only at hpick
    rw [hparent, hname, List.find?_map] at hpick
    obtain ⟨n, hfind, rfl⟩ := Option.map_eq_some_iff.1 hpick
    unfold counters at hfind
    refine ⟨⟨_, isFileName_withCounter filename.isFileName n⟩,
      Path.join_of_isFileName dir (isFileName_withCounter filename.isFileName n), ?_⟩
    rw [if_pos htaken]
    split at hfind
    · next start hstart =>
      rw [hstart]
      have hprobe := hfind
      rw [← probe_eq_find] at hprobe
      simp only [Function.comp_def] at hprobe
      simp only [bind, Except.bind, hprobe]
      rfl
    · cases hfind
  · rw [pick_of_free (Bool.eq_false_iff.2 htaken)] at hpick
    obtain rfl := Option.some.inj hpick
    rw [if_neg htaken]
    exact ⟨filename, htarget, rfl⟩

/-- Where there is no slot to pick, the counter overflows, or the operation
stays at its candidate, which is taken. -/
theorem resolveTarget_of_pick_eq_none (hnamed : op.WellNamed)
    (hreserved : op.finalTarget ∈ reserved)
    (hpick : FirstFit.pick (slots onDisk reserved op) claimed = none) :
    (op.finalTarget ∈ claimed ∨ occupied onDisk op op.finalTarget = true) ∧
      ((∃ err, resolveTarget onDisk reserved claimed op = .error err) ∨
        ∃ name : FileName, op.finalTarget = op.finalTarget.parent.getD [] ++ [.normal name] ∧
          resolveTarget onDisk reserved claimed op = .ok (op.finalTarget, name.text)) := by
  obtain ⟨dir, filename, htarget⟩ := hnamed.exists_target
  have hparent : op.finalTarget.parent.getD [] = dir := by
    rw [htarget, Path.parent_concat, Option.getD_some]
  have hname : (op.finalTarget.fileName.map FileName.text).getD [] = filename.text := by
    rw [htarget, Path.fileName_concat]
    rfl
  have htaken : isTaken onDisk reserved claimed op op.finalTarget = true := by
    by_contra h
    rw [pick_of_free (Bool.eq_false_iff.2 h)] at hpick
    cases hpick
  refine ⟨?_, ?_⟩
  · rw [isTaken_finalTarget, Bool.or_eq_true, decide_eq_true_eq] at htaken
    exact htaken
  rw [pick_of_displaced htaken hreserved] at hpick
  unfold numberedTargets counters at hpick
  dsimp only at hpick
  rw [hparent, hname, List.find?_map, Option.map_eq_none_iff] at hpick
  unfold resolveTarget
  dsimp only
  rw [hparent, hname, if_pos htaken]
  split at hpick
  · next start hstart =>
    rw [← probe_eq_find] at hpick
    simp only [Function.comp_def] at hpick
    refine Or.inr ⟨filename, htarget, ?_⟩
    simp only [hstart, bind, Except.bind, hpick]
    rfl
  · next err hstart =>
    rw [hstart]
    exact Or.inl ⟨err, rfl⟩

/-- An operation with a target has that target. -/
theorem finalTarget_withTarget (hnamed : op.WellNamed) (name : FileName) :
    (withTarget op (op.finalTarget.parent.getD [] ++ [.normal name]) name.text).finalTarget =
      op.finalTarget.parent.getD [] ++ [.normal name] := by
  unfold withTarget finalTarget
  rcases hrelocation : op.relocationTargetPath with - | p
  · rw [Option.map_none]
    dsimp only
    rw [Path.join_of_isFileName _ hnamed.newSubtitleName, Path.parent_concat, Option.getD_some]
    exact Path.join_name _ name
  · rfl

/-! ## One turn -/

variable {st st' : Allocation} {idx : ℕ}

/-- A turn changes one operation, and not its source. -/
theorem allocate_frame (h : allocate onDisk reserved st idx = .ok st') :
    st'.operations.length = st.operations.length ∧
      (∀ i ≠ idx, st'.operations[i]? = st.operations[i]?) ∧
      ∀ i : ℕ, st'.operations[i]?.map source = st.operations[i]?.map source := by
  unfold allocate at h
  split at h
  · cases h
    exact ⟨rfl, fun _ _ => rfl, fun _ => rfl⟩
  · next op hop =>
    obtain ⟨⟨resolved, name⟩, -, h⟩ := Run.bind_eq_ok.1 h
    cases h
    refine ⟨List.length_set, fun i hi => List.getElem?_set_ne hi.symm, fun i => ?_⟩
    by_cases hi : i = idx
    · subst hi
      obtain ⟨hlt, -⟩ := List.getElem?_eq_some_iff.1 hop
      rw [List.getElem?_set_self hlt, hop]
      rfl
    · rw [List.getElem?_set_ne (Ne.symm hi)]

/-- A turn that gives the operation the slot it picks. -/
theorem allocate_of_pick {slot : Path} (hop : st.operations[idx]? = some op)
    (hnamed : op.WellNamed) (hreserved : op.finalTarget ∈ reserved)
    (hpick : FirstFit.pick (slots onDisk reserved op) st.claimed = some slot) :
    ∃ op', allocate onDisk reserved st idx = .ok ⟨st.operations.set idx op', slot :: st.claimed⟩ ∧
      op'.finalTarget = slot := by
  obtain ⟨name, rfl, hresolve⟩ := resolveTarget_of_pick hnamed hreserved hpick
  refine ⟨_, ?_, finalTarget_withTarget hnamed name⟩
  unfold allocate
  rw [hop]
  exact Run.bind_eq_ok.2 ⟨_, hresolve, rfl⟩

/-- A turn that finds no slot leaves the operation where it cannot be. -/
theorem allocate_of_pick_eq_none (hop : st.operations[idx]? = some op) (hnamed : op.WellNamed)
    (hreserved : op.finalTarget ∈ reserved)
    (hpick : FirstFit.pick (slots onDisk reserved op) st.claimed = none)
    (h : allocate onDisk reserved st idx = .ok st') :
    ∃ op', st'.operations[idx]? = some op' ∧
      (op'.finalTarget ∈ st.claimed ∨
        onDisk op'.finalTarget = true ∧ op'.finalTarget ≠ op'.source) := by
  obtain ⟨htaken, herr | ⟨name, htarget, hresolve⟩⟩ :=
    resolveTarget_of_pick_eq_none hnamed hreserved hpick
  · obtain ⟨err, hresolve⟩ := herr
    unfold allocate at h
    rw [hop] at h
    obtain ⟨resolved, hok, -⟩ := Run.bind_eq_ok.1 h
    rw [hresolve] at hok
    cases hok
  unfold allocate at h
  rw [hop] at h
  obtain ⟨⟨resolved, resolvedName⟩, hok, h⟩ := Run.bind_eq_ok.1 h
  rw [hresolve] at hok
  cases hok
  cases h
  obtain ⟨hlt, -⟩ := List.getElem?_eq_some_iff.1 hop
  refine ⟨_, List.getElem?_set_self hlt, ?_⟩
  have hfinal : (withTarget op op.finalTarget name.text).finalTarget = op.finalTarget := by
    have := finalTarget_withTarget hnamed name
    rwa [← htarget] at this
  rw [hfinal]
  refine htaken.imp_right fun hocc => ?_
  unfold occupied at hocc
  rw [Bool.and_eq_true, decide_eq_true_eq] at hocc
  exact ⟨hocc.2, hocc.1⟩

/-! ## What the allocator keeps -/

/-- The name of a candidate, or that name with some counter. -/
def Counted (filename name : FileName) : Prop :=
  name = filename ∨ ∃ n, name.text = (NumberedName.ofText filename.text).withCounter n

/-- **The target of an operation is a file in the directory of its
candidate.** -/
theorem resolveTarget_eq_ok {resolved : Path} {resolvedName : Text} (hnamed : op.WellNamed)
    (h : resolveTarget onDisk reserved claimed op = .ok (resolved, resolvedName)) :
    ∃ filename name : FileName, op.finalTarget.fileName = some filename ∧ Counted filename name ∧
      resolvedName = name.text ∧ resolved = op.finalTarget.parent.getD [] ++ [.normal name] := by
  obtain ⟨dir, filename, htarget⟩ := hnamed.exists_target
  have hparent : op.finalTarget.parent.getD [] = dir := by
    rw [htarget, Path.parent_concat, Option.getD_some]
  have hname : (op.finalTarget.fileName.map FileName.text).getD [] = filename.text := by
    rw [htarget, Path.fileName_concat]
    rfl
  have hfile : op.finalTarget.fileName = some filename := by rw [htarget, Path.fileName_concat]
  unfold resolveTarget at h
  dsimp only at h
  rw [hparent, hname] at h
  rw [hparent]
  split at h
  · obtain ⟨start, -, h⟩ := Run.bind_eq_ok.1 h
    split at h
    · next n hprobe =>
      cases h
      have hnumbered := isFileName_withCounter filename.isFileName n
      exact ⟨filename, ⟨_, hnumbered⟩, hfile, Or.inr ⟨n, rfl⟩, rfl,
        Path.join_of_isFileName dir hnumbered⟩
    · cases h
      exact ⟨filename, filename, hfile, Or.inl rfl, rfl, htarget⟩
  · cases h
    exact ⟨filename, filename, hfile, Or.inl rfl, rfl, htarget⟩

/-- What a change of the target keeps of an operation, the allocator keeps of
all of them. -/
theorem applyUniqueTargetPaths_forall {P : MatchOperation → Prop} {ops result : List MatchOperation}
    (hnamed : ∀ op, P op → op.WellNamed)
    (hkeep : ∀ op, P op → ∀ filename name : FileName, op.finalTarget.fileName = some filename →
      Counted filename name →
      P (withTarget op (op.finalTarget.parent.getD [] ++ [.normal name]) name.text))
    (hops : ∀ op ∈ ops, P op) (h : applyUniqueTargetPaths onDisk ops = .ok result) :
    ∀ op ∈ result, P op := by
  obtain ⟨st, hrun, h⟩ := Run.bind_eq_ok.1 h
  cases h
  refine Run.foldlM_invariant (P := fun st : Allocation => ∀ op ∈ st.operations, P op)
    (fun st st' idx _ hst hstep => ?_) hops hrun
  unfold allocate at hstep
  split at hstep
  · cases hstep
    exact hst
  · next op hop =>
    obtain ⟨⟨resolved, resolvedName⟩, hresolve, hstep⟩ := Run.bind_eq_ok.1 hstep
    cases hstep
    have hP := hst op (List.mem_of_getElem? hop)
    obtain ⟨filename, name, hfile, hcounted, rfl, rfl⟩ :=
      resolveTarget_eq_ok (hnamed op hP) hresolve
    intro op' hop'
    rcases List.mem_or_eq_of_mem_set hop' with hop' | rfl
    · exact hst op' hop'
    · exact hkeep op hP filename name hfile hcounted

/-- What does not depend on the target is the same, operation by operation. -/
theorem applyUniqueTargetPaths_map {β : Type} {f : MatchOperation → β}
    {ops result : List MatchOperation}
    (hf : ∀ op resolved resolvedName, f (withTarget op resolved resolvedName) = f op)
    (h : applyUniqueTargetPaths onDisk ops = .ok result) : result.map f = ops.map f := by
  obtain ⟨st, hrun, h⟩ := Run.bind_eq_ok.1 h
  cases h
  refine Run.foldlM_invariant (P := fun st : Allocation => st.operations.map f = ops.map f)
    (fun st st' idx _ hst hstep => ?_) rfl hrun
  unfold allocate at hstep
  split at hstep
  · cases hstep
    exact hst
  · next op hop =>
    obtain ⟨⟨resolved, resolvedName⟩, -, hstep⟩ := Run.bind_eq_ok.1 hstep
    cases hstep
    obtain ⟨hlt, hget⟩ := List.getElem?_eq_some_iff.1 hop
    have hlt' : idx < (st.operations.map f).length := by rwa [List.length_map]
    have hsame : f op = (st.operations.map f)[idx] := by rw [List.getElem_map, hget]
    dsimp only
    rw [List.map_set, hf, hsame, List.set_getElem_self hlt', hst]

/-! ## The whole allocation -/

/-- The operations at some indices, ready for their turns. -/
def Ready (reserved : List Path) (st : Allocation) (todo : List ℕ) : Prop :=
  todo.Nodup ∧ ∀ i ∈ todo, ∃ op, st.operations[i]? = some op ∧ op.WellNamed ∧
    op.finalTarget ∈ reserved

/-- The slots of the operations at some indices. -/
def slotsAt (onDisk : Path → Bool) (reserved : List Path) (st : Allocation) (i : ℕ) : List Path :=
  (st.operations[i]?.map (slots onDisk reserved)).getD []

theorem Ready.tail {todo : List ℕ} (h : Ready reserved st (idx :: todo))
    (hstep : allocate onDisk reserved st idx = .ok st') :
    Ready reserved st' todo ∧
      todo.map (slotsAt onDisk reserved st') = todo.map (slotsAt onDisk reserved st) := by
  obtain ⟨hnodup, hops⟩ := h
  obtain ⟨hidx, hnodup⟩ := List.nodup_cons.1 hnodup
  obtain ⟨-, hsame, -⟩ := allocate_frame hstep
  have hne : ∀ i ∈ todo, i ≠ idx := fun i hi heq => hidx (heq ▸ hi)
  refine ⟨⟨hnodup, fun i hi => ?_⟩, List.map_congr_left fun i hi => ?_⟩
  · rw [hsame i (hne i hi)]
    exact hops i (List.mem_cons_of_mem _ hi)
  · unfold slotsAt
    rw [hsame i (hne i hi)]

/-- The turns of some indices change the operations at these, and no source. -/
theorem foldlM_allocate_frame {todo : List ℕ} : ∀ {st : Allocation},
    todo.foldlM (allocate onDisk reserved) st = .ok st' →
      st'.operations.length = st.operations.length ∧
      (∀ i ∉ todo, st'.operations[i]? = st.operations[i]?) ∧
      ∀ i : ℕ, st'.operations[i]?.map source = st.operations[i]?.map source := by
  induction todo with
  | nil =>
    intro st h
    rw [← Run.foldlM_ok_nil.1 h]
    exact ⟨rfl, fun _ _ => rfl, fun _ => rfl⟩
  | cons idx todo ih =>
    intro st h
    obtain ⟨st₁, hstep, h⟩ := Run.foldlM_ok_cons.1 h
    obtain ⟨hlen, hsame, hsource⟩ := allocate_frame hstep
    obtain ⟨hlen', hsame', hsource'⟩ := ih h
    refine ⟨hlen'.trans hlen, fun i hi => ?_, fun i => (hsource' i).trans (hsource i)⟩
    rw [List.mem_cons, not_or] at hi
    rw [hsame' i hi.2, hsame i hi.1]

/-- **A batch that can be served is served.** -/
theorem foldlM_allocate_of_serve {todo : List ℕ} : ∀ {st : Allocation} {given : List Path},
    Ready reserved st todo →
      FirstFit.serve (todo.map (slotsAt onDisk reserved st)) st.claimed = some given →
      ∃ st', todo.foldlM (allocate onDisk reserved) st = .ok st' ∧
        given = todo.map fun i => (st'.operations[i]?.map finalTarget).getD [] := by
  induction todo with
  | nil =>
    intro st given _ h
    cases h
    exact ⟨st, rfl, rfl⟩
  | cons idx todo ih =>
    intro st given hready h
    obtain ⟨slot, rest, rfl, hpick, hrest⟩ := FirstFit.serve_cons h
    obtain ⟨op, hop, hnamed, hreserved⟩ := hready.2 idx List.mem_cons_self
    unfold slotsAt at hpick
    rw [hop] at hpick
    obtain ⟨op', hstep, htarget⟩ := allocate_of_pick hop hnamed hreserved hpick
    obtain ⟨hready', hslots⟩ := hready.tail hstep
    rw [← hslots] at hrest
    obtain ⟨st', hrun, rfl⟩ := ih hready' hrest
    refine ⟨st', (Run.foldlM_cons_of_ok hstep).trans hrun, ?_⟩
    obtain ⟨-, hsame, -⟩ := foldlM_allocate_frame hrun
    obtain ⟨hlt, -⟩ := List.getElem?_eq_some_iff.1 hop
    rw [List.map_cons, hsame idx (List.nodup_cons.1 hready.1).1, List.getElem?_set_self hlt]
    exact congrArg (· :: _) htarget.symm

/-- Where targets go wrong: one is claimed already or another file on disk, or
two are the same. -/
def Clash (onDisk : Path → Bool) (claimed : List Path) (ops : List MatchOperation)
    (todo : List ℕ) : Prop :=
  (∃ i ∈ todo, ∃ op, ops[i]? = some op ∧
      (op.finalTarget ∈ claimed ∨ onDisk op.finalTarget = true ∧ op.finalTarget ≠ op.source)) ∨
    ∃ i ∈ todo, ∃ j ∈ todo, i ≠ j ∧ ∃ op op', ops[i]? = some op ∧ ops[j]? = some op' ∧
      op.finalTarget = op'.finalTarget

/-- **A batch that cannot be served ends in a clash**, if it ends. -/
theorem foldlM_allocate_of_serve_eq_none {todo : List ℕ} : ∀ {st : Allocation},
    Ready reserved st todo →
      FirstFit.serve (todo.map (slotsAt onDisk reserved st)) st.claimed = none →
      todo.foldlM (allocate onDisk reserved) st = .ok st' →
      Clash onDisk st.claimed st'.operations todo := by
  induction todo with
  | nil =>
    intro st _ h
    cases h
  | cons idx todo ih =>
    intro st hready hserve hrun
    obtain ⟨op, hop, hnamed, hreserved⟩ := hready.2 idx List.mem_cons_self
    obtain ⟨st₁, hstep, hrun⟩ := Run.foldlM_ok_cons.1 hrun
    obtain ⟨hready', hslots⟩ := hready.tail hstep
    obtain ⟨hidx, -⟩ := List.nodup_cons.1 hready.1
    obtain ⟨-, hsame, -⟩ := foldlM_allocate_frame hrun
    have hslot : slotsAt onDisk reserved st idx = slots onDisk reserved op := by
      rw [slotsAt, hop]
      rfl
    rcases hpick : FirstFit.pick (slots onDisk reserved op) st.claimed with - | slot
    · -- this operation finds no slot
      obtain ⟨op', hop', hclash⟩ := allocate_of_pick_eq_none hop hnamed hreserved hpick hstep
      exact Or.inl ⟨idx, List.mem_cons_self, op', (hsame idx hidx).trans hop', hclash⟩
    · obtain ⟨op', hstep', htarget⟩ := allocate_of_pick hop hnamed hreserved hpick
      obtain rfl := Except.ok.inj (hstep'.symm.trans hstep)
      obtain ⟨hlt, -⟩ := List.getElem?_eq_some_iff.1 hop
      have hop' : st'.operations[idx]? = some op' :=
        (hsame idx hidx).trans (List.getElem?_set_self hlt)
      have hserve' : FirstFit.serve (todo.map (slotsAt onDisk reserved
          ⟨st.operations.set idx op', slot :: st.claimed⟩)) (slot :: st.claimed) = none := by
        rw [List.map_cons, hslot, FirstFit.serve, hpick, Option.bind_some,
          Option.map_eq_none_iff] at hserve
        rw [hslots, hserve]
      rcases ih hready' hserve' hrun with ⟨i, hi, op₁, hop₁, hclash⟩ | ⟨i, hi, j, hj, hclash⟩
      · rcases hclash with hclaimed | hdisk
        · rcases List.mem_cons.1 hclaimed with heq | hclaimed
          · -- the later operation has the slot of this one
            refine Or.inr ⟨idx, List.mem_cons_self, i, List.mem_cons_of_mem _ hi,
              fun h => hidx (h ▸ hi), op', op₁, hop', hop₁, htarget.trans heq.symm⟩
          · exact Or.inl ⟨i, List.mem_cons_of_mem _ hi, op₁, hop₁, Or.inl hclaimed⟩
        · exact Or.inl ⟨i, List.mem_cons_of_mem _ hi, op₁, hop₁, Or.inr hdisk⟩
      · exact Or.inr ⟨i, List.mem_cons_of_mem _ hi, j, List.mem_cons_of_mem _ hj, hclash⟩

/-- The order goes through all operations. -/
theorem allocationOrder_perm (ops : List MatchOperation) :
    (allocationOrder ops).Perm (List.range ops.length) := by
  have hperm := (List.perm_insertionSort (fun a b : MatchOperation × ℕ => targetOrder a.1 b.1)
    ops.zipIdx).map Prod.snd
  rwa [List.zipIdx_map_snd, ← List.range_eq_range'] at hperm

theorem map_range_getElem? {ops : List MatchOperation} {n : ℕ} (h : ops.length = n) :
    (List.range n).map (fun i => (ops[i]?.map finalTarget).getD []) = ops.map finalTarget := by
  subst h
  apply List.ext_getElem
  · rw [List.length_map, List.length_map, List.length_range]
  · intro i hi _
    rw [List.length_map, List.length_range] at hi
    simp [hi]

/-- **When targets are unique.** Exactly for the batches that can be served:
the allocation returns, the targets are pairwise distinct and none is an
existing file other than the operation's own source. -/
theorem applyUniqueTargetPaths_iff (onDisk : Path → Bool) (ops : List MatchOperation)
    (hnamed : ∀ op ∈ ops, op.WellNamed) :
    (∃ result, applyUniqueTargetPaths onDisk ops = .ok result ∧ UniqueTargets onDisk result) ↔
      Servable onDisk ops := by
  have hperm := allocationOrder_perm ops
  have hready : Ready (ops.map finalTarget) ⟨ops, []⟩ (allocationOrder ops) := by
    refine ⟨hperm.nodup_iff.2 List.nodup_range, fun i hi => ?_⟩
    have hlt := List.mem_range.1 (hperm.mem_iff.1 hi)
    exact ⟨ops[i], List.getElem?_eq_getElem hlt, hnamed _ (List.getElem_mem hlt),
      List.mem_map_of_mem (List.getElem_mem hlt)⟩
  have hmem : ∀ {i : ℕ} {op : MatchOperation} {result : List MatchOperation},
      result.length = ops.length → result[i]? = some op → i ∈ allocationOrder ops := by
    intro i op result hlen hi
    obtain ⟨hlt, -⟩ := List.getElem?_eq_some_iff.1 hi
    exact hperm.mem_iff.2 (List.mem_range.2 (hlen ▸ hlt))
  unfold Servable
  change _ ↔ (FirstFit.serve ((allocationOrder ops).map
    (slotsAt onDisk (ops.map finalTarget) ⟨ops, []⟩)) []).isSome = true
  constructor
  · rintro ⟨result, happly, hunique⟩
    by_contra hserve
    rw [Bool.not_eq_true, Option.isSome_eq_false_iff, Option.isNone_iff_eq_none] at hserve
    obtain ⟨st, hrun, happly⟩ := Run.bind_eq_ok.1 happly
    cases happly
    rcases foldlM_allocate_of_serve_eq_none hready hserve hrun with
      ⟨i, -, op, hop, hclash⟩ | ⟨i, -, j, -, hne, op, op', hop, hop', heq⟩
    · rcases hclash with hclaimed | ⟨hdisk, hsource⟩
      · cases hclaimed
      · exact hsource (hunique.free op (List.mem_of_getElem? hop) hdisk)
    · obtain ⟨hlt, -⟩ := List.getElem?_eq_some_iff.1 hop
      refine hne ((List.getElem?_inj (by rwa [List.length_map]) hunique.nodup).1 ?_)
      rw [List.getElem?_map, List.getElem?_map, hop, hop', Option.map_some, Option.map_some, heq]
  · intro hserve
    obtain ⟨given, hserve⟩ := Option.isSome_iff_exists.1 hserve
    obtain ⟨hall, hnodup, -⟩ := FirstFit.serve_spec hserve
    obtain ⟨st, hrun, rfl⟩ := foldlM_allocate_of_serve hready hserve
    obtain ⟨hlen, -, hsource⟩ := foldlM_allocate_frame hrun
    refine ⟨st.operations, Run.bind_eq_ok.2 ⟨st, hrun, rfl⟩, ?_, fun op hop hdisk => ?_⟩
    · rw [← map_range_getElem? hlen]
      exact (hperm.map _).nodup_iff.1 hnodup
    · obtain ⟨i, hi⟩ := List.mem_iff_getElem?.1 hop
      rw [List.forall₂_map_left_iff, List.forall₂_map_right_iff, List.forall₂_same] at hall
      have hslot := hall i (hmem hlen hi)
      obtain ⟨hlt, -⟩ := List.getElem?_eq_some_iff.1 hi
      have hold : ops[i]? = some ops[i] := List.getElem?_eq_getElem (hlen ▸ hlt)
      have hsrc := hsource i
      rw [hi, hold] at hsrc
      rw [hi, slotsAt, hold] at hslot
      have hocc := (List.mem_filter.1 hslot).2
      rw [Option.map_some, Option.getD_some, occupied, hdisk, Bool.and_true, Bool.not_eq_true',
        decide_eq_false_iff_not, not_not] at hocc
      exact hocc.trans (Option.some.inj hsrc).symm

/-- An in-place rename of a subtitle. -/
def renameOperation (source newName : Text) : MatchOperation where
  videoFile :=
    ⟨"v".toList, Path.ofText "/films/movie.mkv".toList, .video, 9, "movie.mkv".toList,
      "mkv".toList, "movie.mkv".toList⟩
  subtitleFile := ⟨"s".toList, Path.ofText source, .subtitle, 4, source, "srt".toList, source⟩
  newSubtitleName := newName
  confidence := 1
  reasoning := []
  relocationMode := .none
  relocationTargetPath := none
  requiresRelocation := false

/-- Two subtitles for one name: the second is numbered. -/
theorem applyUniqueTargetPaths_iff_duplicates :
    ∃ result, applyUniqueTargetPaths (fun _ => false)
        [renameOperation "/films/a.srt".toList "movie.srt".toList,
          renameOperation "/films/b.srt".toList "movie.srt".toList] = .ok result ∧
      UniqueTargets (fun _ => false) result :=
  (applyUniqueTargetPaths_iff _ _ (by decide)).2 (by decide +kernel)

/-- **The counters run out after 9999.** Of two operations for one name with
counter 9999 the second finds counter 10000 spoken for, gives up, and keeps
the target of the first. -/
theorem applyUniqueTargetPaths_gives_up :
    ¬ ∀ (onDisk : Path → Bool) (ops : List MatchOperation), (∀ op ∈ ops, op.WellNamed) →
      ∃ result, applyUniqueTargetPaths onDisk ops = .ok result ∧ UniqueTargets onDisk result := by
  intro h
  obtain ⟨result, happly, hunique⟩ := h (fun _ => false)
    [renameOperation "/films/a.srt".toList "movie.9999.srt".toList,
      renameOperation "/films/b.srt".toList "movie.9999.srt".toList,
      renameOperation "/films/c.srt".toList "movie.10000.srt".toList] (by decide)
  have hresult : applyUniqueTargetPaths (fun _ => false)
      [renameOperation "/films/a.srt".toList "movie.9999.srt".toList,
        renameOperation "/films/b.srt".toList "movie.9999.srt".toList,
        renameOperation "/films/c.srt".toList "movie.10000.srt".toList] =
      .ok [renameOperation "/films/a.srt".toList "movie.9999.srt".toList,
        renameOperation "/films/b.srt".toList "movie.9999.srt".toList,
        renameOperation "/films/c.srt".toList "movie.10000.srt".toList] := by decide +kernel
  obtain rfl := Except.ok.inj (hresult.symm.trans happly)
  exact absurd hunique.nodup (by decide +kernel)

end SubxCore
