import SubxCore.Matcher.AllocationPass
/-!
# Targets that are kept

What the allocator leaves alone. The first operation that wants a slot gets
it, whatever the others probe (`firstWanter_keeps_target`). And what a pass
has allocated without giving up a probe, a second pass does not touch
(`applyUniqueTargetPaths_idempotent`).
-/

namespace SubxCore

open Text Decimal MatchOperation

variable {onDisk : Path → Bool} {reserved claimed : List Path} {op : MatchOperation}
variable {ops result : List MatchOperation} {p resolved : Path} {resolvedName : Text} {i : ℕ}

/-! ## One operation -/

/-- The name of a subtitle that stays in its directory is a file name: the
allocator keeps no more of it than the last component. -/
def MatchOperation.NamesFile (op : MatchOperation) : Prop :=
  op.relocationTargetPath = none → IsFileName op.newSubtitleName

instance (op : MatchOperation) : Decidable op.NamesFile :=
  inferInstanceAs (Decidable (_ → _))

/-- The file name of a path as text. -/
def nameText (p : Path) : Text := (p.fileName.map FileName.text).getD []

/-- The probe loop of an operation ends without a free path. -/
def gaveUp (onDisk : Path → Bool) (reserved claimed : List Path) (op : MatchOperation) : Bool :=
  let dir := op.finalTarget.parent.getD []
  let name := NumberedName.ofText (nameText op.finalTarget)
  isTaken onDisk reserved claimed op op.finalTarget &&
    match name.start with
    | .ok start =>
      (probe (fun n => !isTaken onDisk reserved claimed op (dir.join (name.withCounter n)))
        (9999 - start) start).isNone
    | .error _ => false

/-- Some probe loop of the pass does. -/
def givesUp (onDisk : Path → Bool) (reserved : List Path) : List MatchOperation → List Path → Bool
  | [], _ => false
  | op :: ops, claimed => gaveUp onDisk reserved claimed op ||
    match resolveTarget onDisk reserved claimed op with
    | .ok resolved => givesUp onDisk reserved ops (resolved.1 :: claimed)
    | .error _ => false

theorem slash_notMem_nameText (p : Path) : '/' ∉ nameText p := by
  unfold nameText
  rcases p.fileName with - | name
  · exact List.not_mem_nil
  · exact name.isFileName.2.2.2

/-- **What becomes of an operation**: it keeps its candidate, which is free or
which it could not leave, or it takes a free path instead of one that is not. -/
theorem resolveTarget_cases
    (h : resolveTarget onDisk reserved claimed op = .ok (resolved, resolvedName)) :
    resolvedName = nameText resolved ∧
      (resolved = op.finalTarget ∧
          (isTaken onDisk reserved claimed op op.finalTarget = false ∨
            gaveUp onDisk reserved claimed op = true) ∨
        isTaken onDisk reserved claimed op op.finalTarget = true ∧
          isTaken onDisk reserved claimed op resolved = false) := by
  unfold resolveTarget at h
  dsimp only at h
  change (if _ then (NumberedName.ofText (nameText op.finalTarget)).start >>= _ else _) = _ at h
  split at h
  · next htaken =>
    obtain ⟨start, hstart, h⟩ := Run.bind_eq_ok.1 h
    split at h
    · next n hprobe =>
      cases h
      have hname := isFileName_withCounter_of_notMem (slash_notMem_nameText op.finalTarget) n
      rw [probe_eq_find] at hprobe
      have hfree := List.find?_some hprobe
      rw [Bool.not_eq_true'] at hfree
      refine ⟨?_, Or.inr ⟨htaken, hfree⟩⟩
      change _ = nameText
        (Path.join _ ((NumberedName.ofText (nameText op.finalTarget)).withCounter n))
      rw [Path.join_of_isFileName _ hname, nameText, Path.fileName_concat]
      rfl
    · next hprobe =>
      cases h
      refine ⟨rfl, Or.inl ⟨rfl, Or.inr ?_⟩⟩
      unfold gaveUp
      dsimp only
      rw [htaken, hstart, Bool.true_and]
      exact Option.isNone_iff_eq_none.2 hprobe
  · next hfree =>
    cases h
    exact ⟨rfl, Or.inl ⟨rfl, Or.inl (Bool.eq_false_iff.2 hfree)⟩⟩

/-- An operation with its target ends there. -/
theorem finalTarget_of_resolveTarget (hnamed : op.NamesFile)
    (h : resolveTarget onDisk reserved claimed op = .ok (resolved, resolvedName)) :
    (withTarget op resolved resolvedName).finalTarget = resolved := by
  rcases hrelocation : op.relocationTargetPath with - | p
  · have hwell : op.WellNamed :=
      ⟨hnamed hrelocation, fun p hp => by cases hrelocation.symm.trans hp⟩
    obtain ⟨-, name, -, -, rfl, rfl⟩ := resolveTarget_eq_ok hwell h
    exact finalTarget_withTarget hwell name
  · unfold withTarget finalTarget
    rw [hrelocation]
    rfl

/-- **No operation takes a slot that another one wants.** -/
theorem ne_of_reserved (h : resolveTarget onDisk reserved claimed op = .ok (resolved, resolvedName))
    (hp : p ∈ reserved) (hne : op.finalTarget ≠ p) : resolved ≠ p := by
  rintro rfl
  obtain ⟨-, ⟨heq, -⟩ | ⟨-, hfree⟩⟩ := resolveTarget_cases h
  · exact hne heq.symm
  · unfold isTaken at hfree
    simp [hne.symm, hp] at hfree

/-- Without giving up, what an operation takes is neither claimed nor occupied. -/
theorem free_of_resolveTarget
    (h : resolveTarget onDisk reserved claimed op = .ok (resolved, resolvedName))
    (hprobe : gaveUp onDisk reserved claimed op = false) :
    resolved ∉ claimed ∧ occupied onDisk op resolved = false := by
  have hfree : isTaken onDisk reserved claimed op resolved = false := by
    obtain ⟨-, ⟨rfl, hfree | hgave⟩ | ⟨-, hfree⟩⟩ := resolveTarget_cases h
    · exact hfree
    · cases hprobe.symm.trans hgave
    · exact hfree
  unfold isTaken at hfree
  rw [Bool.or_eq_false_iff, Bool.or_eq_false_iff, decide_eq_false_iff_not] at hfree
  exact ⟨hfree.1.1, hfree.2⟩

/-- A candidate that is neither claimed nor occupied is kept. -/
theorem resolveTarget_of_free (hclaimed : op.finalTarget ∉ claimed)
    (hocc : occupied onDisk op op.finalTarget = false) :
    resolveTarget onDisk reserved claimed op =
      .ok (op.finalTarget, nameText op.finalTarget) := by
  have hfree : ¬ isTaken onDisk reserved claimed op op.finalTarget = true := by
    rw [isTaken_finalTarget, hocc, Bool.or_false, decide_eq_true_eq]
    exact hclaimed
  unfold resolveTarget
  dsimp only
  rw [if_neg hfree]
  rfl

/-! ## The whole pass -/

/-- What is claimed at some turn. -/
theorem resolveAll_append {before after : List MatchOperation} {rs : List (Path × Text)} :
    ∀ {claimed : List Path}, resolveAll onDisk reserved (before ++ op :: after) claimed = .ok rs →
      ∃ earlier r later, rs = earlier ++ r :: later ∧
        resolveAll onDisk reserved before claimed = .ok earlier ∧
        resolveTarget onDisk reserved ((earlier.map Prod.fst).reverse ++ claimed) op = .ok r := by
  induction before generalizing rs with
  | nil =>
    intro claimed h
    obtain ⟨r, later, hr, -, rfl⟩ := resolveAll_cons_eq_ok.1 h
    exact ⟨[], r, later, rfl, rfl, hr⟩
  | cons op₁ before ih =>
    intro claimed h
    obtain ⟨r₁, rest, hr₁, hrest, rfl⟩ := resolveAll_cons_eq_ok.1 h
    obtain ⟨earlier, r, later, rfl, hearlier, hr⟩ := ih hrest
    refine ⟨r₁ :: earlier, r, later, rfl, resolveAll_cons_eq_ok.2 ⟨r₁, _, hr₁, hearlier, rfl⟩, ?_⟩
    rw [List.map_cons, List.reverse_cons, List.append_assoc, List.singleton_append]
    exact hr

/-- Each target is that of a turn. -/
theorem resolveAll_forall₂ {rs : List (Path × Text)} : ∀ {claimed : List Path},
    resolveAll onDisk reserved ops claimed = .ok rs →
      List.Forall₂ (fun op r => ∃ claimed, resolveTarget onDisk reserved claimed op = .ok r)
        ops rs := by
  induction ops generalizing rs with
  | nil =>
    intro claimed h
    cases h
    exact .nil
  | cons op ops ih =>
    intro claimed h
    obtain ⟨r, rest, hr, hrest, rfl⟩ := resolveAll_cons_eq_ok.1 h
    exact .cons ⟨claimed, hr⟩ (ih hrest)

/-- A slot that is reserved for other operations is given to none of these. -/
theorem notMem_of_resolveAll {rs : List (Path × Text)} (hp : p ∈ reserved) :
    ∀ {claimed : List Path}, resolveAll onDisk reserved ops claimed = .ok rs →
      (∀ op ∈ ops, op.finalTarget ≠ p) → p ∉ rs.map Prod.fst := by
  induction ops generalizing rs with
  | nil =>
    intro claimed h _
    cases h
    exact List.not_mem_nil
  | cons op ops ih =>
    intro claimed h hne
    obtain ⟨hop, hops⟩ := List.forall_mem_cons.1 hne
    obtain ⟨r, rest, hr, hrest, rfl⟩ := resolveAll_cons_eq_ok.1 h
    rw [List.map_cons, List.mem_cons, not_or]
    exact ⟨(ne_of_reserved hr hp hop).symm, ih hrest hops⟩

/-- **A pass that gives up nowhere**: its targets are distinct, none was claimed
before, and none is occupied. -/
theorem resolveAll_unique {rs : List (Path × Text)} : ∀ {claimed : List Path},
    resolveAll onDisk reserved ops claimed = .ok rs → givesUp onDisk reserved ops claimed = false →
      (rs.map Prod.fst).Nodup ∧ (∀ r ∈ rs, r.1 ∉ claimed) ∧
        List.Forall₂ (fun op r => occupied onDisk op r.1 = false) ops rs := by
  induction ops generalizing rs with
  | nil =>
    intro claimed h _
    cases h
    exact ⟨List.nodup_nil, fun _ h => (List.not_mem_nil h).elim, .nil⟩
  | cons op ops ih =>
    intro claimed h hprobe
    obtain ⟨r, rest, hr, hrest, rfl⟩ := resolveAll_cons_eq_ok.1 h
    rw [givesUp, hr, Bool.or_eq_false_iff] at hprobe
    obtain ⟨hnodup, hfresh, hocc⟩ := ih hrest hprobe.2
    obtain ⟨hclaimed, hfree⟩ := free_of_resolveTarget hr hprobe.1
    refine ⟨List.nodup_cons.2 ⟨fun hmem => ?_, hnodup⟩, ?_, .cons hfree hocc⟩
    · obtain ⟨r', hr', heq⟩ := List.mem_map.1 hmem
      exact hfresh r' hr' (heq ▸ List.mem_cons_self)
    · rintro r' hr'
      rcases List.mem_cons.1 hr' with rfl | hr'
      · exact hclaimed
      · exact fun hmem => hfresh r' hr' (List.mem_cons_of_mem _ hmem)

/-! ## The first one that wants a slot -/

/-- The first operation, in the order of the allocation, that wants a slot. -/
def firstWanter (ops : List MatchOperation) (p : Path) : Option ℕ :=
  (allocationOrder ops).find? fun i => ops[i]?.map finalTarget = some p

/-- Where an operation ends, by its entry. -/
theorem Placed.finalTarget_eq {rs : List (Path × Text)} (h : Placed ops rs result)
    (hnamed : ∀ op ∈ ops, op.NamesFile) (hrs : resolutions onDisk ops = .ok rs)
    (hop : ops[i]? = some op) : ∃ claimed r,
      resolveTarget onDisk (ops.map finalTarget) claimed op = .ok r ∧
      result[i]? = some (withTarget op r.1 r.2) ∧ (withTarget op r.1 r.2).finalTarget = r.1 := by
  obtain ⟨k, r, hk, hr, hresult⟩ := h.exists_of_getElem? hop
  obtain ⟨claimed, hturn⟩ := rel_of_getElem? (resolveAll_forall₂ hrs) hk hr
  exact ⟨claimed, r, hturn, hresult,
    finalTarget_of_resolveTarget (hnamed op (List.mem_of_getElem? hop)) hturn⟩

/-- What an operation finds at its turn. -/
theorem Placed.exists_of_append {rs : List (Path × Text)}
    {before after : List (MatchOperation × ℕ)} (h : Placed ops rs result)
    (hrs : resolutions onDisk ops = .ok rs)
    (horder : sortedEntries ops = before ++ (op, i) :: after) :
    ∃ earlier r, resolveAll onDisk (ops.map finalTarget) (before.map Prod.fst) [] = .ok earlier ∧
      resolveTarget onDisk (ops.map finalTarget) ((earlier.map Prod.fst).reverse ++ []) op = .ok r ∧
      result[i]? = some (withTarget op r.1 r.2) := by
  obtain ⟨-, hall⟩ := h
  unfold resolutions at hrs
  rw [← map_fst_sortedEntries, horder, List.map_append, List.map_cons] at hrs
  obtain ⟨earlier, r, later, rfl, hearlier, hr⟩ := resolveAll_append hrs
  have hlen : before.length = earlier.length := by
    have := (resolveAll_forall₂ hearlier).length_eq
    rwa [List.length_map] at this
  have hturn := List.forall₂_drop before.length hall
  rw [horder, List.drop_left, hlen, List.drop_left] at hturn
  obtain ⟨hresult, -⟩ := List.forall₂_cons.1 hturn
  exact ⟨earlier, r, hearlier, hr, hresult⟩

/-- A slot that is wanted has a first operation that wants it. -/
theorem exists_firstWanter (hp : p ∈ ops.map finalTarget) : ∃ i op before after,
    firstWanter ops p = some i ∧ op.finalTarget = p ∧
      sortedEntries ops = before ++ (op, i) :: after ∧ ∀ e ∈ before, e.1.finalTarget ≠ p := by
  have hwanted : (firstWanter ops p).isSome := by
    obtain ⟨op, hop, heq⟩ := List.mem_map.1 hp
    obtain ⟨j, hj⟩ := List.mem_iff_getElem?.1 hop
    refine List.find?_isSome.2 ⟨j, List.mem_map.2 ⟨_, mem_sortedEntries.2 hj, rfl⟩, ?_⟩
    rw [hj, Option.map_some, heq, decide_eq_true rfl]
  have htarget : ∀ e ∈ sortedEntries ops, ops[e.2]?.map finalTarget = some e.1.finalTarget :=
    fun e he => congrArg (Option.map finalTarget) (mem_sortedEntries.1 he)
  obtain ⟨i, hi⟩ := Option.isSome_iff_exists.1 hwanted
  obtain ⟨hwants, before, after, horder, hbefore⟩ := List.find?_eq_some_iff_append.1 hi
  obtain ⟨earlier, rest, hentries, rfl, hrest⟩ := List.map_eq_append_iff.1 horder
  obtain ⟨⟨op, j⟩, later, rfl, rfl, -⟩ := List.map_eq_cons_iff.1 hrest
  change sortedEntries ops = _ at hentries
  rw [hentries] at htarget
  refine ⟨j, op, earlier, later, hi, ?_, hentries, fun e he heq => ?_⟩
  · have hop := htarget (op, j) (List.mem_append_right _ List.mem_cons_self)
    exact Option.some.inj (hop.symm.trans (of_decide_eq_true hwants))
  · have hnot := hbefore e.2 (List.mem_map_of_mem he)
    rw [htarget e (List.mem_append_left _ he), heq] at hnot
    simp at hnot

/-- **No slot is taken from its owner.** An operation that ends at a slot some
operation wants is one that wants it; and of these the first keeps it, if no other
file is there. -/
theorem firstWanter_keeps_target (onDisk : Path → Bool) (ops result : List MatchOperation)
    (hnamed : ∀ op ∈ ops, op.NamesFile) (h : applyUniqueTargetPaths onDisk ops = .ok result) :
    ∀ p ∈ ops.map finalTarget,
      (∀ j : ℕ, result[j]?.map finalTarget = some p → ops[j]?.map finalTarget = some p) ∧
      ∃ i op, firstWanter ops p = some i ∧ ops[i]? = some op ∧
        ((onDisk p = true → p = op.source) → result[i]?.map finalTarget = some p) := by
  obtain ⟨rs, hrs, hplaced⟩ := applyUniqueTargetPaths_eq_ok h
  intro p hp
  constructor
  · intro j hj
    obtain ⟨op', hop', htarget⟩ := Option.map_eq_some_iff.1 hj
    obtain ⟨hlt, -⟩ := List.getElem?_eq_some_iff.1 hop'
    rw [hplaced.1] at hlt
    have hop : ops[j]? = some ops[j] := List.getElem?_eq_getElem hlt
    obtain ⟨claimed, r, hturn, hresult, hfinal⟩ := hplaced.finalTarget_eq hnamed hrs hop
    cases hop'.symm.trans hresult
    rw [hop, Option.map_some]
    by_contra hne
    exact ne_of_reserved hturn hp (fun heq => hne (congrArg some heq)) (hfinal.symm.trans htarget)
  · obtain ⟨i, op, before, after, hi, rfl, hentries, hbefore⟩ := exists_firstWanter hp
    have hop : ops[i]? = some op := by
      rw [← mem_sortedEntries, hentries]
      exact List.mem_append_right _ List.mem_cons_self
    refine ⟨i, op, hi, hop, fun hfree => ?_⟩
    obtain ⟨earlier, r, hearlier, hr, hresult⟩ := hplaced.exists_of_append hrs hentries
    -- those before it leave the slot alone
    have hclaimed : op.finalTarget ∉ (earlier.map Prod.fst).reverse ++ [] := by
      rw [List.append_nil, List.mem_reverse]
      refine notMem_of_resolveAll hp hearlier fun op' hop' => ?_
      obtain ⟨e, he, rfl⟩ := List.mem_map.1 hop'
      exact hbefore e he
    have hocc : occupied onDisk op op.finalTarget = false := by
      unfold occupied
      rw [Bool.and_eq_false_iff, decide_eq_false_iff_not, not_not]
      rcases hdisk : onDisk op.finalTarget with - | -
      · exact Or.inr rfl
      · exact Or.inl (hfree hdisk)
    cases hr.symm.trans (resolveTarget_of_free hclaimed hocc)
    rw [hresult, Option.map_some]
    exact congrArg some
      (finalTarget_of_resolveTarget (hnamed op (List.mem_of_getElem? hop)) hr)

/-- Three subtitles, two of which want the same name; the third wants the next one. -/
def threeWay : List MatchOperation :=
  [renameOperation "/films/a.srt".toList "movie.srt".toList,
    renameOperation "/films/b.srt".toList "movie.srt".toList,
    renameOperation "/films/c.srt".toList "movie.2.srt".toList]

/-- And where they go. -/
def threeWayAllocated : List MatchOperation :=
  [renameOperation "/films/a.srt".toList "movie.srt".toList,
    renameOperation "/films/b.srt".toList "movie.3.srt".toList,
    renameOperation "/films/c.srt".toList "movie.2.srt".toList]

theorem firstWanter_keeps_target_threeWay :
    applyUniqueTargetPaths (fun _ => false) threeWay = .ok threeWayAllocated ∧
      ∀ p ∈ threeWay.map finalTarget,
        (∀ j : ℕ, threeWayAllocated[j]?.map finalTarget = some p →
          threeWay[j]?.map finalTarget = some p) ∧
        ∃ i op, firstWanter threeWay p = some i ∧ threeWay[i]? = some op ∧
          ((false = true → p = op.source) →
            threeWayAllocated[i]?.map finalTarget = some p) := by
  have hallocated : applyUniqueTargetPaths (fun _ => false) threeWay = .ok threeWayAllocated := by
    decide +kernel
  exact ⟨hallocated,
    firstWanter_keeps_target (fun _ => false) threeWay threeWayAllocated (by decide) hallocated⟩

/-! ## The second pass -/

/-- An operation whose target is not another file on disk, and whose name is that of
its target. -/
structure Settled (onDisk : Path → Bool) (op : MatchOperation) : Prop where
  free : occupied onDisk op op.finalTarget = false
  name : op.newSubtitleName = nameText op.finalTarget

/-- A settled operation is what it becomes when it keeps its target. -/
theorem Settled.withTarget_eq (h : Settled onDisk op) :
    withTarget op op.finalTarget (nameText op.finalTarget) = op := by
  obtain ⟨-, hname⟩ := h
  have hrelocation : op.relocationTargetPath.map (fun _ => op.finalTarget) =
      op.relocationTargetPath := by
    unfold finalTarget
    rcases op.relocationTargetPath with - | p <;> rfl
  rw [withTarget, ← hname, hrelocation]

/-- What the first pass makes of an operation is settled. -/
theorem settled_withTarget (hnamed : op.NamesFile)
    (h : resolveTarget onDisk reserved claimed op = .ok (resolved, resolvedName))
    (hocc : occupied onDisk op resolved = false) :
    Settled onDisk (withTarget op resolved resolvedName) := by
  have hfinal := finalTarget_of_resolveTarget hnamed h
  refine ⟨?_, ?_⟩
  · rw [hfinal]
    exact hocc
  · rw [hfinal]
    exact (resolveTarget_cases h).1

/-- Settled operations with targets of their own keep them. -/
theorem resolveAll_of_settled : ∀ {claimed : List Path}, (ops.map finalTarget).Nodup →
    (∀ op ∈ ops, op.finalTarget ∉ claimed) → (∀ op ∈ ops, Settled onDisk op) →
      resolveAll onDisk reserved ops claimed =
        .ok (ops.map fun op => (op.finalTarget, nameText op.finalTarget)) := by
  induction ops with
  | nil => exact fun _ _ _ => rfl
  | cons op ops ih =>
    intro claimed hnodup hclaimed hsettled
    obtain ⟨htarget, hnodup⟩ := List.nodup_cons.1 hnodup
    obtain ⟨hop, hops⟩ := List.forall_mem_cons.1 hclaimed
    obtain ⟨hfree, hsettled⟩ := List.forall_mem_cons.1 hsettled
    refine resolveAll_cons_eq_ok.2 ⟨_, _, resolveTarget_of_free hop hfree.free,
      ih hnodup (fun op' hop' hmem => ?_) hsettled, rfl⟩
    rcases List.mem_cons.1 hmem with heq | hmem
    · exact htarget (List.mem_map.2 ⟨op', hop', heq⟩)
    · exact hops op' hop' hmem

/-- **A settled batch is left as it is.** -/
theorem applyUniqueTargetPaths_of_settled (hnodup : (ops.map finalTarget).Nodup)
    (hsettled : ∀ op ∈ ops, Settled onDisk op) : applyUniqueTargetPaths onDisk ops = .ok ops := by
  have hperm := List.perm_insertionSort targetOrder ops
  have hrs : resolutions onDisk ops =
      .ok ((sortedOperations ops).map fun op => (op.finalTarget, nameText op.finalTarget)) :=
    resolveAll_of_settled ((hperm.map _).nodup_iff.2 hnodup) (fun _ _ => List.not_mem_nil)
      fun op hop => hsettled op (hperm.mem_iff.1 hop)
  obtain ⟨result, hresult, hplaced⟩ := applyUniqueTargetPaths_of_resolutions hrs
  rw [hresult]
  refine congrArg Except.ok (List.ext_getElem? fun i => ?_)
  rcases hop : ops[i]? with - | op
  · rw [List.getElem?_eq_none_iff] at hop ⊢
    rw [hplaced.1]
    exact hop
  · obtain ⟨k, r, hk, hr, hplace⟩ := hplaced.exists_of_getElem? hop
    rw [List.getElem?_map, hk, Option.map_some] at hr
    obtain rfl := Option.some.inj hr
    rw [hplace, (hsettled op (List.mem_of_getElem? hop)).withTarget_eq]

/-- The targets of a batch are those of the pass. -/
theorem Placed.map_finalTarget_perm {rs : List (Path × Text)} (h : Placed ops rs result)
    (hnamed : ∀ op ∈ ops, op.NamesFile) (hrs : resolutions onDisk ops = .ok rs) :
    (result.map finalTarget).Perm (rs.map Prod.fst) := by
  have hturns := resolveAll_forall₂ hrs
  rw [← map_fst_sortedEntries, List.forall₂_map_left_iff] at hturns
  have hmem : ∀ e ∈ sortedEntries ops, e.1 ∈ ops := by
    intro e he
    exact List.mem_of_getElem? (mem_sortedEntries.1 he)
  have hall := List.Forall₂.mp (fun e r hturn hplace => by
    obtain ⟨he, claimed, hturn⟩ := hturn
    show (result[e.2]?.map finalTarget).getD [] = r.1
    rw [hplace, Option.map_some, Option.getD_some]
    exact finalTarget_of_resolveTarget (hnamed _ he) hturn)
    ((List.forall₂_and_left _ _).2 ⟨hmem, hturns⟩) h.2
  have heq : (allocationOrder ops).map (fun i => (result[i]?.map finalTarget).getD []) =
      rs.map Prod.fst := by
    rw [← map_snd_sortedEntries, List.map_map, ← List.forall₂_eq_eq_eq,
      List.forall₂_map_left_iff, List.forall₂_map_right_iff]
    exact hall
  rw [← heq, ← map_range_getElem? h.1]
  exact ((allocationOrder_perm ops).map _).symm

/-- **A second pass changes nothing**, where the first gave up no probe. -/
theorem applyUniqueTargetPaths_idempotent (onDisk : Path → Bool)
    (ops result : List MatchOperation) (hnamed : ∀ op ∈ ops, op.NamesFile)
    (hprobe : givesUp onDisk (ops.map finalTarget) (sortedOperations ops) [] = false)
    (h : applyUniqueTargetPaths onDisk ops = .ok result) :
    applyUniqueTargetPaths onDisk result = .ok result := by
  obtain ⟨rs, hrs, hplaced⟩ := applyUniqueTargetPaths_eq_ok h
  obtain ⟨hnodup, -, hocc⟩ := resolveAll_unique hrs hprobe
  refine applyUniqueTargetPaths_of_settled
    ((hplaced.map_finalTarget_perm hnamed hrs).nodup_iff.2 hnodup) fun op' hop' => ?_
  obtain ⟨i, hi⟩ := List.mem_iff_getElem?.1 hop'
  obtain ⟨hlt, -⟩ := List.getElem?_eq_some_iff.1 hi
  rw [hplaced.1] at hlt
  have hop : ops[i]? = some ops[i] := List.getElem?_eq_getElem hlt
  obtain ⟨k, r, hk, hr, hplace⟩ := hplaced.exists_of_getElem? hop
  obtain ⟨claimed, hturn⟩ := rel_of_getElem? (resolveAll_forall₂ hrs) hk hr
  cases hi.symm.trans hplace
  exact settled_withTarget (hnamed _ (List.getElem_mem hlt)) hturn (rel_of_getElem? hocc hk hr)

theorem applyUniqueTargetPaths_idempotent_threeWay :
    applyUniqueTargetPaths (fun _ => false) threeWayAllocated = .ok threeWayAllocated :=
  applyUniqueTargetPaths_idempotent (fun _ => false) threeWay threeWayAllocated (by decide)
    (by decide +kernel) (by decide +kernel)

end SubxCore
