import SubxCore.Matcher.CachedRun
/-!
# Resuming a plan

A plan that is replayed from the cache is made of the items whose files are
there, so a run that was interrupted is to be resumed by running it once
more. That works as far as an item that was carried out is no longer
present, or does no harm when it is carried out again. Moves take their
subtitle away, so they resume unless one of them takes the video of an item
to come or completes an item that was absent; copies leave theirs, so they
resume only where a target is written over, and nothing is read that has
been written since (`Resumable`).
-/

namespace SubxCore

open Text Function MatchOperation

variable {config : PlanConfig} {cache : CacheData} {world : World} {hasJournal : Bool}
variable {item : OpItem} {items : List OpItem} {files files' : FileSystem}
variable {journal : Option (List JournalEntry)} {content : Bytes} {p : Path} {k : ℕ}

/-! ## Steps that resume -/

/-- No item becomes present. -/
def CompletesNothing (items : List OpItem) (files files' : FileSystem) : Prop :=
  ∀ item ∈ items, item.present files' = true → item.present files = true

instance (items : List OpItem) (files files' : FileSystem) :
    Decidable (CompletesNothing items files files') := by
  unfold CompletesNothing
  infer_instance

/-- **A step that a second run need not mind**, of an item after those that are
done and before the rest. A copy writes over its target, which no earlier
copy has read; a move of a subtitle that is there takes no video of the
rest. Neither completes an item that was absent. -/
def Resumable (config : PlanConfig) (items done rest : List OpItem) (item : OpItem)
    (files : FileSystem) : Prop :=
  if config.relocationMode = .copy then
    config.conflictResolution = .skip ∧
      (∀ earlier ∈ done, earlier.subtitleFile ≠ earlier.target config →
        earlier.subtitleFile ≠ item.target config) ∧
      CompletesNothing items files (update files (item.target config) (some []))
  else
    (files item.subtitleFile).isSome →
      (∀ later ∈ rest, later.videoFile ≠ item.subtitleFile) ∧
      ∀ q ∈ firstFree files (numberedPaths (item.target config)),
        CompletesNothing items files (update (update files item.subtitleFile none) q (some []))

instance (config : PlanConfig) (items done rest : List OpItem) (item : OpItem)
    (files : FileSystem) : Decidable (Resumable config items done rest item files) := by
  unfold Resumable
  infer_instance

/-- What is present does not depend on the contents. -/
theorem OpItem.present_update (item : OpItem) (files : FileSystem) (p : Path)
    (content content' : Bytes) : item.present (update files p (some content)) =
      item.present (update files p (some content')) := by
  have hsome : ∀ q, (update files p (some content) q).isSome =
      (update files p (some content') q).isSome := by
    intro q
    by_cases hq : q = p
    · rw [hq, update_self, update_self]
      rfl
    · rw [update_of_ne hq, update_of_ne hq]
  unfold present
  rw [hsome, hsome]

theorem OpItem.present_iff : item.present files = true ↔
    (files item.videoFile).isSome = true ∧ (files item.subtitleFile).isSome = true := by
  unfold present
  rw [Bool.and_eq_true]

/-! ## Moves -/

/-- The plan is what is left to be done, as far as it is there. -/
structure Remaining (cache : CacheData) (rest : List OpItem) (files : FileSystem) : Prop where
  plan : cache.plan files = rest.filter fun item => item.present files
  videos : ∀ item ∈ rest, (files item.videoFile).isSome

/-- What a move that a second run need not mind leaves as it was. -/
theorem Resumable.move {done rest : List OpItem} (hmode : config.relocationMode ≠ .copy)
    (h : Resumable config items done rest item files)
    (hcarry : item.carryOut config files = .ok files') :
    files' item.subtitleFile = none ∧ CompletesNothing items files files' ∧
      ∀ later ∈ rest, (files later.videoFile).isSome → (files' later.videoFile).isSome := by
  rcases hsource : files item.subtitleFile with - | content
  · rw [OpItem.carryOut_idle hmode hsource hcarry]
    exact ⟨hsource, fun _ _ h => h, fun _ _ h => h⟩
  obtain ⟨q, hq, rfl⟩ := OpItem.carryOut_move hmode hsource hcarry
  rw [Resumable, if_neg hmode] at h
  obtain ⟨hvideos, hcompletes⟩ := h (Option.isSome_of_eq_some hsource)
  have hne : item.subtitleFile ≠ q := ne_of_free hsource (firstFree_eq_some hq).2
  refine ⟨by rw [update_of_ne hne, update_self], fun e he hpresent => ?_,
    fun later hlater hsome => ?_⟩
  · rw [OpItem.present_update e _ q content []] at hpresent
    exact hcompletes q hq e he hpresent
  · by_cases hq : later.videoFile = q
    · rw [hq, update_self]
      rfl
    · rw [update_of_ne hq, update_of_ne (hvideos later hlater)]
      exact hsome

/-- **One step** leaves what is left to be done without it. -/
theorem Remaining.step {done rest : List OpItem} (hmode : config.relocationMode ≠ .copy)
    (h : Remaining cache (item :: rest) files)
    (hrest : ∀ later ∈ rest, later ∈ cache.matchOperations)
    (hstep : Resumable config cache.matchOperations done rest item files)
    (hcarry : item.carryOut config files = .ok files') : Remaining cache rest files' := by
  obtain ⟨hgone, hcompletes, hvideos⟩ := hstep.move hmode hcarry
  refine ⟨?_, fun later hlater =>
    hvideos later hlater (h.videos later (List.mem_cons_of_mem _ hlater))⟩
  -- what is present now was present before
  have hshrink : ∀ {l : List OpItem}, (∀ e ∈ l, e ∈ cache.matchOperations) →
      l.filter (fun e => e.present files') =
        (l.filter fun e => e.present files).filter fun e => e.present files' := by
    intro l hl
    rw [List.filter_filter]
    refine List.filter_congr fun e he => ?_
    rw [Bool.eq_iff_iff, Bool.and_eq_true]
    exact ⟨fun hpresent => ⟨hpresent, hcompletes e (hl e he) hpresent⟩, fun h => h.1⟩
  have habsent : ¬ item.present files' = true := by
    rw [OpItem.present_iff, hgone]
    exact fun h => Bool.false_ne_true h.2
  have hplan : (cache.matchOperations.filter fun e => e.present files) =
      (item :: rest).filter fun e => e.present files := h.plan
  rw [CacheData.plan, hshrink fun _ he => he, hplan, hshrink hrest, List.filter_cons]
  split
  · rw [List.filter_cons_of_neg habsent]
  · rfl

/-- The steps of a run, as a second run would have to mind them. -/
def Steps (config : PlanConfig) (cache : CacheData) (files : FileSystem) : Prop :=
  ∀ before item after files', cache.plan files = before ++ item :: after →
    before.foldlM (OpItem.carryOut config) files = .ok files' →
    Resumable config cache.matchOperations before after item files'

theorem mem_of_plan {before after : List OpItem} (h : cache.plan files = before ++ after) :
    ∀ item ∈ after, item ∈ cache.matchOperations ∧ item.present files = true := by
  intro item hitem
  have hmem : item ∈ cache.plan files := h ▸ List.mem_append_right _ hitem
  exact List.mem_filter.1 hmem

/-- **At every step the plan is what is left to be done**, where moves are made. -/
theorem remaining_of_steps (hmode : config.relocationMode ≠ .copy)
    (hsteps : Steps config cache files) {before after : List OpItem}
    (hplan : cache.plan files = before ++ after)
    (hrun : before.foldlM (OpItem.carryOut config) files = .ok files') :
    Remaining cache after files' := by
  refine Run.foldlM_along (P := fun _ after files => Remaining cache after files)
    ⟨?_, fun item hitem => ?_⟩ (fun before item after t t' hl hbefore hremaining hcarry => ?_)
    hplan hrun
  · exact (List.filter_eq_self.2 fun item hitem => (List.mem_filter.1 hitem).2).symm
  · exact (OpItem.present_iff.1 (List.mem_filter.1 hitem).2).1
  · exact hremaining.step hmode (fun later hlater =>
      (mem_of_plan hl later (List.mem_cons_of_mem _ hlater)).1)
      (hsteps before item after t hl hbefore) hcarry

/-- **Leaving out what is gone makes no difference.** -/
theorem foldlM_present (hmode : config.relocationMode ≠ .copy) (hsteps : Steps config cache files)
    {before after : List OpItem} {final : FileSystem} (hplan : cache.plan files = before ++ after)
    (hbefore : before.foldlM (OpItem.carryOut config) files = .ok files')
    (hafter : after.foldlM (OpItem.carryOut config) files' = .ok final) :
    (after.filter fun item => item.present files').foldlM (OpItem.carryOut config) files' =
      .ok final := by
  have hvideos := (remaining_of_steps hmode hsteps hplan hbefore).videos
  refine (Run.foldlM_along (l := after) (P := fun made rest t =>
    (made.filter fun item => item.present files').foldlM (OpItem.carryOut config) files' = .ok t ∧
      CompletesNothing after files' t ∧ ∀ item ∈ rest, (t item.videoFile).isSome)
    ⟨rfl, fun _ _ h => h, hvideos⟩ (fun made item rest t t' hl hmade hinv hcarry => ?_)
    (after.append_nil.symm) hafter).1
  obtain ⟨hfiltered, hcompletes, hthere⟩ := hinv
  have hall : cache.plan files = (before ++ made) ++ item :: rest := by
    rw [hplan, hl, List.append_assoc]
  have hstep := hsteps _ item rest t hall (Run.foldlM_ok_append.2 ⟨files', hbefore, hmade⟩)
  obtain ⟨-, hnothing, hkept⟩ := hstep.move hmode hcarry
  have hvideo := hthere item List.mem_cons_self
  refine ⟨?_, fun e he hpresent => hcompletes e he (hnothing e (mem_of_plan hplan e he).1 hpresent),
    fun later hlater => hkept later hlater (hthere later (List.mem_cons_of_mem _ hlater))⟩
  rw [List.filter_append]
  by_cases hpresent : item.present files' = true
  · rw [List.filter_cons_of_pos hpresent, Run.foldlM_ok_append]
    exact ⟨t, hfiltered, Run.foldlM_ok_cons.2 ⟨t', hcarry, Run.foldlM_ok_nil.2 rfl⟩⟩
  · rw [List.filter_cons_of_neg hpresent, List.filter_nil, List.append_nil]
    -- what was gone at first is gone still
    have hmem : item ∈ after := hl ▸ List.mem_append_right _ List.mem_cons_self
    have hgone : t item.subtitleFile = none := by
      by_contra hsome
      exact hpresent (hcompletes item hmem
        (OpItem.present_iff.2 ⟨hvideo, Option.isSome_iff_ne_none.2 hsome⟩))
    rw [OpItem.carryOut_idle hmode hgone hcarry]
    exact hfiltered

/-- **A second run of moves finishes the first.** -/
theorem resumes_of_moves (hmode : config.relocationMode ≠ .copy) (hsteps : Steps config cache files)
    {before after : List OpItem} {final : FileSystem} (hplan : cache.plan files = before ++ after)
    (hbefore : before.foldlM (OpItem.carryOut config) files = .ok files')
    (hafter : after.foldlM (OpItem.carryOut config) files' = .ok final) :
    (cache.plan files').foldlM (OpItem.carryOut config) files' = .ok final := by
  rw [(remaining_of_steps hmode hsteps hplan hbefore).plan]
  exact foldlM_present hmode hsteps hplan hbefore hafter

/-! ## Copies -/

/-- Copies made leave the plan as it was, and read nothing that they write
later. -/
structure Copied (config : PlanConfig) (cache : CacheData) (start : FileSystem)
    (done : List OpItem) (files : FileSystem) : Prop where
  plan : cache.plan files = cache.plan start
  later : (done.map (OpItem.copied config)).Pairwise fun m m' => m.1 ≠ some m'.2

/-- An item in the plan has its subtitle. -/
theorem isSome_subtitle (h : item ∈ cache.plan files) : (files item.subtitleFile).isSome :=
  (OpItem.present_iff.1 (List.mem_filter.1 h).2).2

theorem copied_of_steps (hmode : config.relocationMode = .copy) (hsteps : Steps config cache files)
    {before after : List OpItem} (hplan : cache.plan files = before ++ after)
    (hrun : before.foldlM (OpItem.carryOut config) files = .ok files') :
    Copied config cache files before files' := by
  refine Run.foldlM_along (P := fun before _ t => Copied config cache files before t)
    ⟨rfl, .nil⟩ (fun before item after t t' hl hbefore hcopied hcarry => ?_) hplan hrun
  have hstep := hsteps before item after t hl hbefore
  rw [Resumable, if_pos hmode] at hstep
  obtain ⟨hskip, hread, hcompletes⟩ := hstep
  have hmem : item ∈ cache.plan t := by
    rw [hcopied.plan, hl]
    exact List.mem_append_right _ List.mem_cons_self
  obtain ⟨content, hsource⟩ := Option.isSome_iff_exists.1 (isSome_subtitle hmem)
  obtain ⟨-, rfl⟩ := (OpItem.carryOut_copy hmode hskip hsource).1 hcarry
  have hvalue : Assignments.value (some []) t (item.copied config) =
      some (if item.subtitleFile = item.target config then [] else content) :=
    OpItem.value_copied hsource
  refine ⟨?_, ?_⟩
  · rw [← hcopied.plan]
    refine List.filter_congr fun e he => ?_
    rw [Bool.eq_iff_iff]
    constructor
    · intro hpresent
      refine hcompletes e he ?_
      rw [OpItem.present_update e t _ []
        (if item.subtitleFile = item.target config then [] else content), ← hvalue]
      exact hpresent
    · intro hpresent
      obtain ⟨hvideo, hsubtitle⟩ := OpItem.present_iff.1 hpresent
      have hread : (Assignments.value (some []) t (item.copied config)).isSome := by
        rw [hvalue]
        rfl
      exact OpItem.present_iff.2 ⟨isSome_assign _ hread hvideo, isSome_assign _ hread hsubtitle⟩
  · rw [List.map_append, List.pairwise_append]
    refine ⟨hcopied.later, List.pairwise_singleton _ _, fun m hm m' hm' => ?_⟩
    obtain ⟨earlier, hearlier, rfl⟩ := List.mem_map.1 hm
    obtain rfl := List.mem_singleton.1 hm'
    exact OpItem.copied_fst_ne (hread earlier hearlier)

/-- **A second run of copies finishes the first.** -/
theorem resumes_of_copies (hmode : config.relocationMode = .copy)
    (hsteps : Steps config cache files)
    {before after : List OpItem} {final : FileSystem} (hplan : cache.plan files = before ++ after)
    (hbefore : before.foldlM (OpItem.carryOut config) files = .ok files')
    (hafter : after.foldlM (OpItem.carryOut config) files' = .ok final) :
    (cache.plan files').foldlM (OpItem.carryOut config) files' = .ok final := by
  have hcopied := copied_of_steps hmode hsteps hplan hbefore
  have hrun : (cache.plan files).foldlM (OpItem.carryOut config) files = .ok final := by
    rw [hplan]
    exact Run.foldlM_ok_append.2 ⟨files', hbefore, hafter⟩
  rcases hitems : cache.plan files with - | ⟨item, items⟩
  · rw [hitems] at hplan
    obtain ⟨rfl, rfl⟩ := List.append_eq_nil_iff.1 hplan.symm
    rw [hcopied.plan, hitems]
    exact hafter
  have hstep := hsteps [] item items files hitems rfl
  rw [Resumable, if_pos hmode] at hstep
  have hsources : ∀ item ∈ cache.plan files, (files item.subtitleFile).isSome := fun _ h =>
    isSome_subtitle h
  have hsources' : ∀ item ∈ cache.plan files', (files' item.subtitleFile).isSome := fun _ h =>
    isSome_subtitle h
  obtain ⟨htargets, rfl⟩ := (foldlM_copies hmode hstep.1 hsources).1 hrun
  obtain ⟨-, rfl⟩ := (foldlM_copies hmode hstep.1 fun item hitem =>
    hsources item (hplan ▸ List.mem_append_left _ hitem)).1 hbefore
  have hstable : Assignments.Stable (before.map (OpItem.copied config)) := by
    refine ⟨hcopied.later, fun m hm => ?_⟩
    obtain ⟨earlier, -, rfl⟩ := List.mem_map.1 hm
    exact OpItem.copied_fst_ne id
  refine (foldlM_copies hmode hstep.1 hsources').2 ?_
  rw [hcopied.plan]
  refine ⟨htargets, ?_⟩
  rw [hplan, List.map_append, Assignments.assign_append, Assignments.assign_append,
    Assignments.assign_idem hstable]

/-! ## Copies under numbered names -/

/-- A copy that does not write over anything makes a file. -/
theorem OpItem.carryOut_numbered (hmode : config.relocationMode = .copy)
    (hpolicy : config.conflictResolution ≠ .skip) (h : item.carryOut config files = .ok files') :
    ∃ q content, files q = none ∧ files' = update files q (some content) := by
  have hop : (item.operation config).relocationMode = .copy := hmode
  obtain ⟨task, disk₁, hplan, hrun⟩ := Program.bind_eq_ok.1 ((OpItem.carryOut_eq_ok none).1 h)
  rw [planTask, if_pos hop, createCopyTask] at hplan
  split at hplan
  · cases hplan
  · obtain ⟨q, disk₂, hresolve, hplan⟩ := Program.bind_eq_ok.1 hplan
    obtain ⟨rfl, -, hfree⟩ := resolveTargetConflict_eq_ok hresolve
    cases hplan
    obtain ⟨content, -, hfiles⟩ :=
      executeCopyWithRenameOperation_eq_ok (mapError_eq_ok (mapError_eq_ok hrun))
    exact ⟨q, _, hfree hpolicy, hfiles⟩

/-- Files are added, and none is taken away. -/
structure Adds (files files' : FileSystem) (added : List Path) : Prop where
  nodup : added.Nodup
  fresh : ∀ p ∈ added, files p = none
  present : ∀ p, (files' p).isSome ↔ (files p).isSome ∨ p ∈ added

theorem Adds.notMem {added : List Path} (h : Adds files files' added)
    (hp : (files p).isSome) : p ∉ added := by
  intro hmem
  rw [h.fresh p hmem] at hp
  cases hp

theorem Adds.trans {files₁ : FileSystem} {added added' : List Path} (h : Adds files files₁ added)
    (h' : Adds files₁ files' added') : Adds files files' (added ++ added') := by
  have hdisjoint : ∀ p ∈ added, p ∉ added' := fun p hp =>
    h'.notMem ((h.present p).2 (Or.inr hp))
  refine ⟨List.nodup_append.2 ⟨h.nodup, h'.nodup, fun p hp p' hp' heq =>
    hdisjoint p hp (heq ▸ hp')⟩, fun p hp => ?_, fun p => ?_⟩
  · rcases List.mem_append.1 hp with hp | hp
    · exact h.fresh p hp
    · by_contra hne
      exact h'.notMem ((h.present p).2 (Or.inl (Option.isSome_iff_ne_none.2 hne))) hp
  · rw [h'.present, h.present, List.mem_append, or_assoc]

/-- As many as there are. -/
theorem Adds.length_le {added added' : List Path} (h : Adds files files' added)
    (h' : Adds files files' added') : added.length ≤ added'.length := by
  refine h.nodup.length_le_of_subset fun p hp => ?_
  exact ((h'.present p).1 ((h.present p).2 (Or.inr hp))).resolve_left fun hsome =>
    h.notMem hsome hp

/-- A plan only grows. -/
theorem Adds.length_plan_le {added : List Path} (h : Adds files files' added) (cache : CacheData) :
    (cache.plan files).length ≤ (cache.plan files').length := by
  refine (List.monotone_filter_right _ fun item hitem => ?_).length_le
  obtain ⟨hvideo, hsubtitle⟩ := OpItem.present_iff.1 hitem
  exact OpItem.present_iff.2 ⟨(h.present _).2 (Or.inl hvideo), (h.present _).2 (Or.inl hsubtitle)⟩

/-- **A run of such copies** makes as many files. -/
theorem adds_of_foldlM (hmode : config.relocationMode = .copy)
    (hpolicy : config.conflictResolution ≠ .skip) :
    ∀ {items : List OpItem} {files : FileSystem},
      items.foldlM (OpItem.carryOut config) files = .ok files' →
      ∃ added, Adds files files' added ∧ added.length = items.length
  | [], files, hrun => by
    obtain rfl := Run.foldlM_ok_nil.1 hrun
    exact ⟨[], ⟨.nil, fun p hp => (List.not_mem_nil hp).elim, fun p => by simp⟩, rfl⟩
  | item :: items, files, hrun => by
    obtain ⟨files₁, hcarry, hrest⟩ := Run.foldlM_ok_cons.1 hrun
    obtain ⟨q, content, hfree, rfl⟩ := OpItem.carryOut_numbered hmode hpolicy hcarry
    obtain ⟨added, hadds, hlength⟩ := adds_of_foldlM hmode hpolicy hrest
    have hone : Adds files (update files q (some content)) [q] := by
      refine ⟨List.nodup_singleton q, fun p hp => List.mem_singleton.1 hp ▸ hfree, fun p => ?_⟩
      rw [List.mem_singleton]
      by_cases hp : p = q
      · rw [hp, update_self]
        exact iff_of_true rfl (Or.inr rfl)
      · rw [update_of_ne hp]
        exact ⟨Or.inl, fun h => h.resolve_right hp⟩
    exact ⟨q :: added, hone.trans hadds, congrArg Nat.succ hlength⟩

/-- **Copies that do not write over anything never resume**: a second run makes
the files of the first once more. -/
theorem not_resumes_of_numbered (hmode : config.relocationMode = .copy)
    (hpolicy : config.conflictResolution ≠ .skip) (hbackup : config.backupEnabled = false)
    (hok : (applyCachedOperations config hasJournal world cache journal).outcome = .ok ())
    (hplan : cache.plan world.files ≠ []) (hk : 0 < k) {hasJournal' : Bool} {world' : World}
    {journal' : Option (List JournalEntry)} (hworld : world'.files =
      (interruptedAfter k config hasJournal world cache journal).disk.files)
    (hok' : (applyCachedOperations config hasJournal' world' cache journal').outcome = .ok ()) :
    (applyCachedOperations config hasJournal' world' cache journal').disk.files ≠
      (applyCachedOperations config hasJournal world cache journal).disk.files := by
  intro heq
  have hrun := (applyCachedOperations_iff hbackup).1 ⟨hok, rfl⟩
  have hagain := (applyCachedOperations_iff hbackup).1 ⟨hok', heq⟩
  have hsplit := hrun
  rw [← List.take_append_drop k (cache.plan world.files), Run.foldlM_ok_append] at hsplit
  obtain ⟨files', hbefore, -⟩ := hsplit
  rw [((interruptedAfter_iff hbackup).2 hbefore).2] at hworld
  rw [hworld] at hagain
  obtain ⟨all, hall, hlength⟩ := adds_of_foldlM hmode hpolicy hrun
  obtain ⟨first, hfirst, hlength₁⟩ := adds_of_foldlM hmode hpolicy hbefore
  obtain ⟨second, hsecond, hlength₂⟩ := adds_of_foldlM hmode hpolicy hagain
  -- what the two runs make is more than what one makes
  have hle := (hfirst.trans hsecond).length_le hall
  have hgrows := hfirst.length_plan_le cache
  have hpos := List.length_pos_iff.2 hplan
  rw [List.length_append, hlength, hlength₁, hlength₂, List.length_take] at hle
  omega

/-! ## Every interruption -/

/-- **Replaying once more finishes a replay**, wherever that was interrupted: it
goes through, and leaves the files that the first would have left. -/
def Resumes (config : PlanConfig) (cache : CacheData) (world : World) (hasJournal : Bool)
    (journal : Option (List JournalEntry)) : Prop :=
  ∀ (k : ℕ) (hasJournal' : Bool) (world' : World) (journal' : Option (List JournalEntry)),
    world'.files = (interruptedAfter k config hasJournal world cache journal).disk.files →
    (applyCachedOperations config hasJournal' world' cache journal').outcome = .ok () ∧
      (applyCachedOperations config hasJournal' world' cache journal').disk.files =
        (applyCachedOperations config hasJournal world cache journal).disk.files

/-- Every step of a replay is one that a second run need not mind. -/
def StepsResumable (config : PlanConfig) (cache : CacheData) (world : World) (hasJournal : Bool)
    (journal : Option (List JournalEntry)) : Prop :=
  ∀ done item rest, cache.plan world.files = done ++ item :: rest →
    Resumable config cache.matchOperations done rest item
      (interruptedAfter done.length config hasJournal world cache journal).disk.files

/-- What is asked of the steps, of the run on the files alone. -/
theorem StepsResumable.steps (hbackup : config.backupEnabled = false)
    (h : StepsResumable config cache world hasJournal journal) :
    Steps config cache world.files := by
  intro done item rest files' hplan hdone
  have htake : (cache.plan world.files).take done.length = done := by rw [hplan, List.take_left]
  have hfiles : (interruptedAfter done.length config hasJournal world cache journal).disk.files =
      files' := ((interruptedAfter_iff hbackup).2 (htake.symm ▸ hdone)).2
  rw [← hfiles]
  exact h done item rest hplan

/-- **When a replay can be interrupted.** A run whose steps a second run need not
mind resumes; copies that do not write over their targets resume only then,
which is when there are none. -/
theorem resumes_of_resumable (config : PlanConfig) (cache : CacheData) (world : World)
    (hasJournal : Bool) (journal : Option (List JournalEntry))
    (hbackup : config.backupEnabled = false)
    (hok : (applyCachedOperations config hasJournal world cache journal).outcome = .ok ()) :
    (StepsResumable config cache world hasJournal journal →
      Resumes config cache world hasJournal journal) ∧
    (config.relocationMode = .copy → config.conflictResolution ≠ .skip →
      (Resumes config cache world hasJournal journal ↔
        StepsResumable config cache world hasJournal journal)) := by
  have hresumes : StepsResumable config cache world hasJournal journal →
      Resumes config cache world hasJournal journal := by
    intro hsteps k hasJournal' world' journal' hworld
    have hrun := (applyCachedOperations_iff hbackup).1 ⟨hok, rfl⟩
    have hplan : cache.plan world.files =
        (cache.plan world.files).take k ++ (cache.plan world.files).drop k :=
      (List.take_append_drop k _).symm
    rw [hplan, Run.foldlM_ok_append] at hrun
    obtain ⟨files', hbefore, hafter⟩ := hrun
    rw [((interruptedAfter_iff hbackup).2 hbefore).2] at hworld
    rw [applyCachedOperations_iff hbackup, hworld]
    by_cases hmode : config.relocationMode = .copy
    · exact resumes_of_copies hmode (hsteps.steps hbackup) hplan hbefore hafter
    · exact resumes_of_moves hmode (hsteps.steps hbackup) hplan hbefore hafter
  refine ⟨hresumes, fun hmode hpolicy => ⟨fun h => ?_, hresumes⟩⟩
  have hnone : cache.plan world.files = [] := by
    by_contra hplan
    obtain ⟨hok', hfiles⟩ := h 1 hasJournal { world with
      files := (interruptedAfter 1 config hasJournal world cache journal).disk.files } journal rfl
    exact not_resumes_of_numbered hmode hpolicy hbackup hok hplan Nat.one_pos rfl hok' hfiles
  intro done item rest hplan
  rw [hnone] at hplan
  exact absurd hplan.symm (List.append_ne_nil_of_right_ne_nil _ (List.cons_ne_nil _ _))

/-- A cache of two subtitles for the video that they are not beside. -/
def filmCache : CacheData where
  cacheVersion := currentCacheVersion
  directory := []
  fileSnapshot := []
  matchOperations := [("/subs/a.srt", "movie.srt"), ("/subs/b.srt", "movie.de.srt")].map
    fun (subtitle, name) => {
      videoFile := Path.ofText "/films/movie.mkv".toList
      subtitleFile := Path.ofText (String.toList subtitle)
      newSubtitleName := String.toList name
      confidence := 1
      reasoning := [] }
  createdAt := 0
  aiModelUsed := []
  configHash := []
  originalRelocationMode := []
  originalBackupEnabled := false

/-- An engine without backups. -/
def replayConfig (relocationMode : FileRelocationMode) (conflictResolution : ConflictResolution) :
    PlanConfig :=
  { (filmCall relocationMode 0 [] []).config with conflictResolution := conflictResolution }

/-- Both are moved, the second of them by a second run. -/
theorem resumes_of_resumable_film :
    (filmCache.plan filmWorld.files).length = 2 ∧
      Resumes (replayConfig .move .autoRename) filmCache filmWorld true none := by
  have hitems : filmCache.plan filmWorld.files = filmCache.matchOperations := by decide +kernel
  refine ⟨congrArg List.length hitems, (resumes_of_resumable (replayConfig .move .autoRename)
    filmCache filmWorld true none rfl (by decide +kernel)).1 ?_⟩
  intro done item rest hplan
  rw [hitems] at hplan
  rcases done with - | ⟨first, - | ⟨second, done⟩⟩
  · obtain ⟨rfl, rfl⟩ := List.cons.inj hplan
    decide +kernel
  · obtain ⟨rfl, hrest⟩ := List.cons.inj hplan
    obtain ⟨rfl, rfl⟩ := List.cons.inj hrest
    decide +kernel
  · have hlength := congrArg List.length hplan
    simp [filmCache] at hlength

/-- **A copy that was made is made once more**, under a numbered name. -/
theorem copied_once_more :
    ¬ ∀ (config : PlanConfig) (cache : CacheData) (world : World) (hasJournal : Bool)
      (journal : Option (List JournalEntry)),
      config.conflictResolution ≠ .prompt → config.backupEnabled = false →
      (applyCachedOperations config hasJournal world cache journal).outcome = .ok () →
      Resumes config cache world hasJournal journal := by
  intro h
  let config := replayConfig .copy .autoRename
  let once := interruptedAfter 1 config true filmWorld filmCache none
  have hok : (applyCachedOperations config true filmWorld filmCache none).outcome = .ok () := by
    decide +kernel
  obtain ⟨-, hfiles⟩ := h config filmCache filmWorld true none (by decide) rfl hok 1 true
    { filmWorld with files := once.disk.files } none rfl
  have hnumbered := congrFun hfiles (Path.ofText "/films/movie.1.srt".toList)
  revert hnumbered
  decide +kernel

end SubxCore
