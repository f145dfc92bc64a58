import SubxCore.Matcher.Frame
/-!
# Conflicts the engine resolves

`MatchEngine::resolve_filename_conflict` as the calls that are nested in it.
Under the prompt policy an existing target makes it call itself on the same
target, without end. Otherwise it returns, with the first free of the
numbered paths unless it is to skip; and it leaves the files alone, unless
the placeholder it makes cannot be removed (`resolveNested_iff`).
-/

namespace SubxCore

open Text Decimal Function

variable {policy : ConflictResolution} {target p q : Path} {ps : List Path} {disk disk' : Disk}
variable {r : Except SubXError Path} {depth : ℕ}

/-- `resolve_filename_conflict`, of the engine, when so many calls may be nested:
what it returns, and the disk then. -/
def resolveNested (policy : ConflictResolution) (target : Path) :
    ℕ → Disk → Option (Except SubXError Path × Disk)
  | 0, _ => none
  | depth + 1, disk =>
    if (disk.files target).isSome then
      match policy with
      | .skip => some (.ok target, disk)
      | .autoRename => some ((probeFirst (numberedPaths target)).exec disk)
      | .prompt => resolveNested policy target depth disk
    else some (.ok target, disk)

/-! ## The nested calls -/

theorem resolveNested_succ : resolveNested policy target (depth + 1) disk =
    if (disk.files target).isSome then
      match policy with
      | .skip => some (.ok target, disk)
      | .autoRename => some ((probeFirst (numberedPaths target)).exec disk)
      | .prompt => resolveNested .prompt target depth disk
    else some (.ok target, disk) := by
  cases policy <;> rfl

theorem resolveNested_of_free (h : disk.files target = none) :
    resolveNested policy target (depth + 1) disk = some (.ok target, disk) := by
  rw [resolveNested_succ, h]
  rfl

theorem resolveNested_skip (h : (disk.files target).isSome) :
    resolveNested .skip target (depth + 1) disk = some (.ok target, disk) := by
  rw [resolveNested_succ, if_pos h]

theorem resolveNested_autoRename (h : (disk.files target).isSome) :
    resolveNested .autoRename target (depth + 1) disk =
      some ((probeFirst (numberedPaths target)).exec disk) := by
  rw [resolveNested_succ, if_pos h]

/-- **A prompt does not return**, however many calls may be nested. -/
theorem resolveNested_prompt (h : (disk.files target).isSome) :
    ∀ depth, resolveNested .prompt target depth disk = none
  | 0 => rfl
  | depth + 1 => by
    rw [resolveNested_succ, if_pos h]
    exact resolveNested_prompt h depth

/-- What the calls return is what the engine goes on with. -/
theorem resolveTargetConflict_of_resolveNested
    (h : resolveNested policy target depth disk = some (r, disk')) :
    (resolveTargetConflict policy target).exec disk = (r.mapError Stop.failed, disk') := by
  induction depth with
  | zero => cases h
  | succ depth ih =>
    unfold resolveTargetConflict fileExists
    rw [Program.exec_bind, Program.exec_step]
    dsimp only
    rw [resolveNested_succ] at h
    split at h
    · next hexists =>
      rw [if_pos hexists]
      rcases policy with - | - | -
      · cases h
        rfl
      · dsimp only at h ⊢
        rw [Program.exec_mapError, Option.some.inj h]
      · rw [resolveNested_prompt hexists] at h
        cases h
    · next hfree =>
      rw [if_neg hfree]
      cases h
      rfl

/-- And where they never return, the engine overflows its stack. -/
theorem resolveTargetConflict_of_endless
    (h : ∀ depth, resolveNested policy target depth disk = none) :
    (resolveTargetConflict policy target).exec disk =
      (.error (.panicked .stackOverflow), disk) := by
  have hone := h 1
  unfold resolveTargetConflict fileExists
  rw [Program.exec_bind, Program.exec_step]
  dsimp only
  rw [resolveNested_succ] at hone
  split at hone
  · next hexists =>
    rw [if_pos hexists]
    rcases policy with - | - | -
    · cases hone
    · cases hone
    · rfl
  · cases hone

/-! ## The placeholder -/

/-- The first of some paths that is free can be created there, but not removed. -/
def PlaceholderStays (ps : List Path) (disk : Disk) : Prop :=
  ∃ before q after, ps = before ++ q :: after ∧ (∀ r ∈ before, (disk.files r).isSome) ∧
    disk.files q = none ∧ (∀ j ≤ before.length, disk.faults j = none) ∧
    (disk.faults (before.length + 1)).isSome

theorem placeholderStays_cons_of_free (h : disk.files p = none) :
    PlaceholderStays (p :: ps) disk ↔ disk.faults 0 = none ∧ (disk.faults 1).isSome := by
  constructor
  · rintro ⟨before, q, after, heq, hbefore, -, hnone, hsome⟩
    rcases before with - | ⟨p', before⟩
    · exact ⟨hnone 0 le_rfl, hsome⟩
    · cases heq
      have := hbefore p List.mem_cons_self
      rw [h] at this
      cases this
  · rintro ⟨hnone, hsome⟩
    refine ⟨[], p, ps, rfl, fun r hr => (List.not_mem_nil hr).elim, h, fun j hj => ?_, hsome⟩
    rw [Nat.le_zero.1 hj, hnone]

theorem placeholderStays_cons_of_taken (h : (disk.files p).isSome) :
    PlaceholderStays (p :: ps) disk ↔ disk.faults 0 = none ∧
      PlaceholderStays ps ⟨disk.files, disk.journal, fun n => disk.faults (n + 1)⟩ := by
  constructor
  · rintro ⟨before, q, after, heq, hbefore, hq, hnone, hsome⟩
    rcases before with - | ⟨p', before⟩
    · cases heq
      rw [hq] at h
      cases h
    · cases heq
      exact ⟨hnone 0 (Nat.zero_le _), before, q, after, rfl,
        fun r hr => hbefore r (List.mem_cons_of_mem _ hr), hq,
        fun j hj => hnone (j + 1) (Nat.succ_le_succ hj), hsome⟩
  · rintro ⟨hzero, before, q, after, rfl, hbefore, hq, hnone, hsome⟩
    refine ⟨p :: before, q, after, rfl, List.forall_mem_cons.2 ⟨h, hbefore⟩, hq, ?_, hsome⟩
    rintro (- | j) hj
    · exact hzero
    · exact hnone j (Nat.le_of_succ_le_succ hj)

/-- **What probing leaves**: the files as they were, or a placeholder. -/
theorem probeFirst_files : ∀ {ps : List Path} {disk : Disk},
    (probeFirst ps).exec disk = (r, disk') →
    (disk'.files = disk.files ↔ ¬ PlaceholderStays ps disk)
  | [], disk, h => by
    cases h
    refine iff_of_true rfl ?_
    rintro ⟨before, q, after, heq, -⟩
    exact List.append_ne_nil_of_right_ne_nil _ (List.cons_ne_nil _ _) heq.symm
  | p :: ps, disk, h => by
    rw [probeFirst, Program.exec_bind, Program.exec_attempt] at h
    unfold atomicCreateFile fileCall systemCall at h
    rw [Program.exec_step] at h
    dsimp only at h
    rcases hfault : disk.faults 0 with - | fault
    · rcases hp : disk.files p with - | content
      · -- created, and removed if that goes through
        rw [hfault, hp] at h
        dsimp only at h
        rw [Program.exec_bind, Program.exec_attempt] at h
        cases h
        rw [placeholderStays_cons_of_free hp, hfault, and_iff_right rfl]
        unfold removeFile fileCall systemCall
        rw [Program.exec_step]
        dsimp only
        rw [update_self]
        rcases disk.faults 1 with - | fault
        · refine iff_of_true ?_ (by decide)
          dsimp only
          rw [update_idem, ← hp, update_eq_self]
        · refine iff_of_false (fun heq => ?_) (not_not.2 rfl)
          have := congrFun heq p
          dsimp only at this
          rw [update_self, hp] at this
          cases this
      · rw [hfault, hp] at h
        rw [placeholderStays_cons_of_taken (by rw [hp]; rfl), hfault, and_iff_right rfl]
        exact probeFirst_files h
    · rw [hfault] at h
      cases h
      refine iff_of_true rfl ?_
      rintro ⟨before, q, after, -, -, -, hnone, -⟩
      cases hfault.symm.trans (hnone 0 (Nat.zero_le _))

/-! ## Resolving -/

/-- The target, or the first numbered name beside it that is free. -/
def LeastFree (files : FileSystem) (target p : Path) : Prop :=
  files p = none ∧ (p = target ∨ ∃ i, 1 ≤ i ∧ i < 1000 ∧ p = numberedPath target i ∧
    ∀ j, 1 ≤ j → j < i → (files (numberedPath target j)).isSome)

theorem leastFree_of_firstFree {files : FileSystem}
    (h : FirstFree files (numberedPaths target) p) : LeastFree files target p := by
  refine ⟨h.free, ?_⟩
  obtain ⟨before, after, heq, hbefore, -⟩ := h
  rcases before with - | ⟨target', before⟩
  · exact Or.inl (List.cons.inj heq).1.symm
  · obtain ⟨rfl, hnumbered⟩ := List.cons.inj heq
    obtain ⟨earlier, rest, hrange, rfl, hrest⟩ := List.map_eq_append_iff.1 hnumbered
    obtain ⟨i, later, rfl, rfl, -⟩ := List.map_eq_cons_iff.1 hrest
    have hlen := congrArg List.length hrange
    rw [List.length_range', List.length_append, List.length_cons] at hlen
    have hnumber : ∀ k < 999, (List.range' 1 999)[k]? = some (1 + k) := fun k hk => by
      rw [List.getElem?_range' hk, Nat.one_mul]
    have hi := hnumber earlier.length (by omega)
    rw [hrange, List.getElem?_append_right le_rfl, Nat.sub_self, List.getElem?_cons_zero,
      Option.some_inj] at hi
    refine Or.inr ⟨i, by omega, by omega, rfl, fun j hj hlt => ?_⟩
    -- a smaller number comes earlier
    have hsmaller := hnumber (j - 1) (by omega)
    rw [hrange, List.getElem?_append_left (by omega), Nat.add_sub_cancel' hj] at hsmaller
    exact hbefore _ (List.mem_cons_of_mem _ (List.mem_map_of_mem (List.mem_of_getElem? hsmaller)))

/-- **What is asked of the function**: it returns, leaves the files as they were, and
returns the first free path, unless it is to skip. -/
def ResolvesConflict (policy : ConflictResolution) (target : Path) (disk : Disk) : Prop :=
  ∃ depth r disk', resolveNested policy target depth disk = some (r, disk') ∧
    disk'.files = disk.files ∧
    (policy ≠ .skip → ∀ p, r = .ok p → LeastFree disk.files target p)

/-- **When a conflict is resolved**: there is none, or it is skipped, or it is
resolved by a number and no placeholder stays. -/
theorem resolvesConflict_iff (policy : ConflictResolution) (target : Path) (disk : Disk) :
    ResolvesConflict policy target disk ↔
      disk.files target = none ∨ policy = .skip ∨
        policy = .autoRename ∧ ¬ PlaceholderStays (numberedPaths target) disk := by
  rcases hfree : disk.files target with - | content
  · refine iff_of_true ⟨1, .ok target, disk, resolveNested_of_free hfree, rfl, ?_⟩ (Or.inl rfl)
    intro _ p hp
    obtain rfl := Except.ok.inj hp
    exact ⟨hfree, Or.inl rfl⟩
  have hexists : (disk.files target).isSome := by
    rw [hfree]
    rfl
  rcases policy with - | - | -
  · exact iff_of_true ⟨1, .ok target, disk, resolveNested_skip hexists, rfl, fun h => (h rfl).elim⟩
      (Or.inr (Or.inl rfl))
  · rcases hprobe : (probeFirst (numberedPaths target)).exec disk with ⟨r, disk'⟩
    have hfiles := probeFirst_files hprobe
    constructor
    · rintro ⟨depth, r', disk'', hreturn, hkept, -⟩
      rcases depth with - | depth
      · cases hreturn
      rw [resolveNested_autoRename hexists, hprobe] at hreturn
      cases hreturn
      exact Or.inr (Or.inr ⟨rfl, hfiles.1 hkept⟩)
    · rintro (h | h | ⟨-, hstays⟩)
      · cases h
      · cases h
      · refine ⟨1, r, disk', ?_, hfiles.2 hstays, fun _ p hp => leastFree_of_firstFree ?_⟩
        · rw [resolveNested_autoRename hexists, hprobe]
        · exact (probeFirst_spec (fun _ => False) hprobe).2 p hp
  · refine iff_of_false ?_ ?_
    · rintro ⟨depth, r, disk', hreturn, -⟩
      rw [resolveNested_prompt hexists] at hreturn
      cases hreturn
    · rintro (h | h | ⟨h, -⟩) <;> cases h

/-- **A conflict under the prompt policy is not resolved**: the function does not
return. -/
theorem prompt_not_resolved :
    ¬ ResolvesConflict .prompt (Path.ofText "/films/movie.srt".toList)
      (.sound fun _ => some []) := by
  rintro ⟨depth, r, disk', hreturn, -⟩
  rw [resolveNested_prompt rfl] at hreturn
  cases hreturn

end SubxCore
