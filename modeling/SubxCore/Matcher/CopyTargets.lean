import SubxCore.Matcher.Cache
import SubxCore.Matcher.Progress
/-!
# Targets of copies

Whether an operation has a target depends on its mode and the two
directories, whether the executor asks for one on the mode alone. So a plan
in copy mode can be executed without a missing target exactly when no
subtitle of it lies beside its video (`copyTargets_iff`). This is so for
the plan of a reply, for a plan out of the cache and for one that is
reconstructed, which is why the three are taken together (`Plan`).
-/

namespace SubxCore

open Text MatchOperation

variable {hasher : Hasher} {call : Call} {config : PlanConfig} {world : World}
variable {mode : FileRelocationMode} {session session' : Session} {audit : MatchAudit}
variable {op : MatchOperation} {ops : List MatchOperation} {item : OpItem} {n : ℕ}
variable {files : FileSystem} {videos subtitles : List MediaFile}

/-! ## The pairs of a plan -/

/-- The video and the subtitle of an operation. -/
def MatchOperation.pair (op : MatchOperation) : Path × Path :=
  (op.videoFile.path, op.subtitleFile.path)

/-- The pair a proposal is about, if it is confident enough and names two files
of the request. -/
def proposedPair (config : PlanConfig) (videos subtitles : List MediaFile) (aiMatch : FileMatch) :
    Option (Path × Path) :=
  if aiMatch.confidence < config.confidenceThreshold then none
  else
    match findMediaFileById videos aiMatch.videoFileId,
      findMediaFileById subtitles aiMatch.subtitleFileId with
    | some video, some subtitle => some (video.path, subtitle.path)
    | _, _ => none

/-- The pairs in a cache whose files are there. -/
def CacheData.pairs (data : CacheData) (files : FileSystem) : List (Path × Path) :=
  (data.matchOperations.filter fun item => item.present files).map fun item =>
    (item.videoFile, item.subtitleFile)

/-- The pairs the provider proposes to a call. -/
def Call.proposedPairs (call : Call) : List (Path × Path) :=
  match analysisRequest call.config call.world.files call.videos call.subtitles with
  | .error _ => []
  | .ok request =>
    match call.provider request with
    | .error _ => []
    | .ok reply =>
      reply.fileMatches.filterMap (proposedPair call.config call.videos call.subtitles)

/-- The pairs a call is about: those in the cache, when it answers. -/
def Call.pairs (hasher : Hasher) (call : Call) (cache : Option CacheData) : List (Path × Path) :=
  if call.videos = [] ∨ call.subtitles = [] then []
  else
    match cache with
    | none => call.proposedPairs
    | some data =>
      if data.Answers (call.key hasher) then data.pairs call.world.files else call.proposedPairs

/-- **A plan**, and the pairs it is about: what a call returns, or what is
reconstructed from a cache. -/
inductive Plan (config : PlanConfig) : List (Path × Path) → List MatchOperation → Prop
  | matched (hasher : Hasher) (call : Call) (session session' : Session) (audit : MatchAudit) :
      call.config = config →
      (matchFileListWithAudit hasher call).exec session = (.ok audit, session') →
      Plan config (call.pairs hasher session.cache) audit.operations
  | reconstructed (world : World) (data : CacheData) :
      Plan config (data.pairs world.files) (reconstructOperationsFromCache config world data)

/-- **No subtitle of a copy lies beside its video**, and the videos lie in
directories. -/
def SeparateDirectories (config : PlanConfig) (pairs : List (Path × Path)) : Prop :=
  config.relocationMode = .copy →
    ∀ pair ∈ pairs, pair.1.parent.isSome ∧ pair.2.parent ≠ pair.1.parent

instance (config : PlanConfig) (pairs : List (Path × Path)) :
    Decidable (SeparateDirectories config pairs) := by
  unfold SeparateDirectories
  infer_instance

/-! ## The operations of a plan -/

/-- What is true of the operations of any plan. -/
structure Targeted (config : PlanConfig) (op : MatchOperation) : Prop where
  relocationMode : op.relocationMode = config.relocationMode
  target : op.relocationTargetPath.isSome ↔
    requiresRelocation config.relocationMode op.videoFile.path op.subtitleFile.path = true ∧
      op.videoFile.path.parent.isSome
  extension : '/' ∉ op.subtitleFile.extension

theorem slash_not_mem_extension (path : Path) : '/' ∉ path.extension.getD [] := by
  unfold Path.extension
  rcases path.fileName with - | name
  · exact List.not_mem_nil
  have hslash := name.isFileName.2.2.2
  rw [Option.bind_some, Path.splitExtension]
  split
  · next before after hsplit =>
    split
    · exact List.not_mem_nil
    · rw [(rsplitOnce_eq_some hsplit).1, List.mem_append, not_or, List.mem_cons, not_or] at hslash
      exact hslash.2.2
  · exact List.not_mem_nil

/-- The extension of a media file has no separator. -/
theorem slash_not_mem_of_mediaFileType {extension : Text} {fileType : MediaFileType}
    (h : mediaFileType extension = some fileType) : '/' ∉ extension := by
  have hextensions : ∀ e ∈ videoExtensions ++ subtitleExtensions, '/' ∉ e := by decide
  exact hextensions extension (mem_extensions h)

/-- An operation for two files as a plan makes it. -/
theorem targeted_of_relocationTarget (hmode : op.relocationMode = config.relocationMode)
    (htarget : relocationTarget config.relocationMode op.videoFile.path op.subtitleFile.path
      op.newSubtitleName = .ok op.relocationTargetPath)
    (hextension : '/' ∉ op.subtitleFile.extension) : Targeted config op := by
  refine ⟨hmode, ?_, hextension⟩
  unfold relocationTarget at htarget
  split at htarget
  · next hrequires =>
    split at htarget
    · cases htarget
    · next dir hparent =>
      rw [← Except.ok.inj htarget, hparent]
      exact ⟨fun _ => ⟨hrequires, rfl⟩, fun _ => rfl⟩
  · next hrequires =>
    rw [← Except.ok.inj htarget]
    exact ⟨fun h => absurd h Bool.false_ne_true, fun h => absurd h.1 hrequires⟩

theorem IsPlanned.targeted (h : IsPlanned config files op) : Targeted config op :=
  targeted_of_relocationTarget h.relocationMode h.target
    (slash_not_mem_of_mediaFileType h.subtitle.fileType)

theorem targeted_of_rebuildOperation
    (h : rebuildOperation config.relocationMode world n item = .ok op) : Targeted config op := by
  obtain ⟨videoName, subtitleName, -, -, hplan⟩ := rebuildOperation_eq_ok h
  obtain ⟨target, htarget, rfl⟩ := planOperation_eq_ok hplan
  exact targeted_of_relocationTarget rfl htarget
    (slash_not_mem_toLowercase (slash_not_mem_extension item.subtitleFile))

theorem targeted_reconstructOperation (config : PlanConfig) (world : World) (n : ℕ)
    (item : OpItem) : Targeted config (reconstructOperation config.relocationMode world n item) := by
  refine ⟨rfl, ?_, slash_not_mem_toLowercase (slash_not_mem_extension item.subtitleFile)⟩
  unfold reconstructOperation replayedFile
  dsimp only
  split
  · next hrequires => rw [Option.isSome_map, hrequires, eq_self, true_and]
  · next hrequires => exact ⟨fun h => absurd h Bool.false_ne_true, fun h => absurd h.1 hrequires⟩

theorem targeted_of_mem_reconstructFrom : ∀ {items : List OpItem} {n : ℕ},
    ∀ op ∈ reconstructFrom config.relocationMode world n items, Targeted config op
  | [], _, op, hop => by cases hop
  | item :: items, n, op, hop => by
    unfold reconstructFrom at hop
    split at hop
    · rcases List.mem_cons.1 hop with rfl | hop
      · exact targeted_reconstructOperation config world n item
      · exact targeted_of_mem_reconstructFrom op hop
    · exact targeted_of_mem_reconstructFrom op hop

/-- **The operations of any plan.** -/
theorem Plan.targeted {pairs : List (Path × Path)} (h : Plan config pairs ops) :
    ∀ op ∈ ops, Targeted config op := by
  intro op hop
  cases h with
  | matched hasher call session session' audit hconfig h =>
    subst hconfig
    rcases exec_eq_ok h with ⟨-, rfl, -⟩ | ⟨-, ⟨ops, hhit, rfl, -⟩ | ⟨-, hafresh⟩⟩
    · cases hop
    · obtain ⟨-, ⟨hnone, -⟩ | ⟨data, ops', -, -, hsome, hrebuild⟩⟩ := checkFileListCache_eq_ok hhit
      · cases hnone
      obtain rfl := Option.some.inj hsome
      obtain ⟨item, -, -, k, hitem⟩ := exists_of_mem_rebuildFrom hrebuild op hop
      exact targeted_of_rebuildOperation hitem
    · obtain ⟨_, reply, -, -, hplan, -⟩ := matchAfresh_eq_ok hafresh
      exact (isPlanned_of_planOperations (isInventory_scanFileList _ _ _) hplan op hop).targeted
  | reconstructed world data => exact targeted_of_mem_reconstructFrom op hop

/-! ## The pairs of the operations -/

theorem pair_of_rebuildOperation (h : rebuildOperation mode world n item = .ok op) :
    op.pair = (item.videoFile, item.subtitleFile) := by
  obtain ⟨videoName, subtitleName, -, -, hplan⟩ := rebuildOperation_eq_ok h
  obtain ⟨target, -, rfl⟩ := planOperation_eq_ok hplan
  rfl

theorem map_pair_of_rebuildFrom : ∀ {items : List OpItem} {n : ℕ} {ops : List MatchOperation},
    rebuildFrom mode world n items = .ok ops →
      ops.map pair = (items.filter fun item => item.present world.files).map fun item =>
        (item.videoFile, item.subtitleFile)
  | [], _, _, h => by
    cases h
    rfl
  | item :: items, n, _, h => by
    unfold rebuildFrom at h
    split at h
    · next hpresent =>
      obtain ⟨op, hop, h⟩ := Run.bind_eq_ok.1 h
      obtain ⟨ops, hops, h⟩ := Run.bind_eq_ok.1 h
      cases h
      rw [List.filter_cons_of_pos hpresent, List.map_cons, List.map_cons,
        pair_of_rebuildOperation hop, map_pair_of_rebuildFrom hops]
    · next hpresent =>
      rw [List.filter_cons_of_neg hpresent]
      exact map_pair_of_rebuildFrom h

theorem map_pair_reconstructFrom (mode : FileRelocationMode) (world : World) :
    ∀ (items : List OpItem) (n : ℕ),
      (reconstructFrom mode world n items).map pair =
        (items.filter fun item => item.present world.files).map fun item =>
          (item.videoFile, item.subtitleFile)
  | [], _ => rfl
  | item :: items, n => by
    unfold reconstructFrom
    split
    · next hpresent =>
      rw [List.filter_cons_of_pos hpresent, List.map_cons, List.map_cons,
        map_pair_reconstructFrom mode world items (n + 2)]
      rfl
    · next hpresent =>
      rw [List.filter_cons_of_neg hpresent]
      exact map_pair_reconstructFrom mode world items n

/-- A proposal makes an operation when it proposes a pair, and one for it. -/
theorem proposedPair_of_assembleMatch {aiMatch : FileMatch}
    {made : MatchOperation ⊕ RejectedCandidate}
    (h : assembleMatch config videos subtitles aiMatch = .ok made) :
    proposedPair config videos subtitles aiMatch =
      made.elim (fun op => some op.pair) fun _ => none := by
  rcases made with op | candidate
  · obtain ⟨hconfidence, video, subtitle, hvideo, hsubtitle, hplan⟩ := assembleMatch_eq_inl h
    obtain ⟨target, -, rfl⟩ := planOperation_eq_ok hplan
    rw [proposedPair, if_neg (not_lt.2 hconfidence), hvideo, hsubtitle]
    rfl
  · unfold assembleMatch at h
    unfold proposedPair
    dsimp only at h
    split at h
    · next hbelow => rw [if_pos hbelow]; rfl
    · next hbelow =>
      rw [if_neg hbelow]
      split at h
      · next video subtitle hvideo hsubtitle =>
        rcases hplan : planOperation config.relocationMode video subtitle
          (generateSubtitleName video subtitle aiMatch) aiMatch.confidence aiMatch.matchFactors
          with err | op
        · rw [hplan] at h
          cases h
        · rw [hplan] at h
          cases h
      · next hnone =>
        rcases hvideo : findMediaFileById videos aiMatch.videoFileId with - | video
        · rfl
        rcases hsubtitle : findMediaFileById subtitles aiMatch.subtitleFileId with - | subtitle
        · rfl
        · exact (hnone video subtitle hvideo hsubtitle).elim

theorem map_pair_of_assemble : ∀ {reply : List FileMatch} {audit : MatchAudit},
    assemble config videos subtitles reply = .ok audit →
      audit.operations.map pair = reply.filterMap (proposedPair config videos subtitles)
  | [], _, h => by
    cases h
    rfl
  | aiMatch :: reply, _, h => by
    obtain ⟨made, hmade, h⟩ := Run.bind_eq_ok.1 h
    obtain ⟨audit, hassemble, h⟩ := Run.bind_eq_ok.1 h
    have hpair := proposedPair_of_assembleMatch hmade
    have ih := map_pair_of_assemble hassemble
    rcases made with op | candidate
    · cases h
      rw [List.filterMap_cons_some hpair, List.map_cons, ih]
    · cases h
      rw [List.filterMap_cons_none hpair]
      exact ih

theorem map_pair_of_planOperations {reply : MatchResult}
    (h : planOperations config files videos subtitles reply = .ok audit) :
    audit.operations.map pair =
      reply.fileMatches.filterMap (proposedPair config videos subtitles) := by
  obtain ⟨assembled, hassemble, h⟩ := Run.bind_eq_ok.1 h
  obtain ⟨operations, happly, h⟩ := Run.bind_eq_ok.1 h
  cases h
  rw [← map_pair_of_assemble hassemble]
  exact applyUniqueTargetPaths_map (fun _ _ _ => rfl) happly

/-- **The operations of a plan are for its pairs.** -/
theorem Plan.map_pair {pairs : List (Path × Path)} (h : Plan config pairs ops) :
    ops.map MatchOperation.pair = pairs := by
  cases h with
  | matched hasher call session session' audit hconfig h =>
    unfold Call.pairs
    rcases exec_eq_ok h with ⟨hempty, rfl, -⟩ | ⟨hfiles, ⟨ops, hhit, rfl, -⟩ | ⟨hmiss, hafresh⟩⟩
    · rw [if_pos hempty]
      rfl
    · obtain ⟨-, ⟨hnone, -⟩ | ⟨data, ops', hcache, hanswers, hsome, hrebuild⟩⟩ :=
        checkFileListCache_eq_ok hhit
      · cases hnone
      obtain rfl := Option.some.inj hsome
      rw [if_neg hfiles, hcache]
      dsimp only
      rw [if_pos hanswers]
      exact map_pair_of_rebuildFrom hrebuild
    · obtain ⟨request, reply, hrequest, hreply, hplan, -⟩ := matchAfresh_eq_ok hafresh
      have hproposed : call.proposedPairs = audit.operations.map MatchOperation.pair := by
        unfold Call.proposedPairs
        rw [hrequest]
        dsimp only
        rw [hreply]
        exact (map_pair_of_planOperations hplan).symm
      obtain ⟨-, ⟨-, hnot⟩ | ⟨data, ops', -, -, hsome, -⟩⟩ := checkFileListCache_eq_ok hmiss
      · rw [if_neg hfiles]
        split
        · exact hproposed.symm
        · next data hcache =>
          rw [if_neg (hnot data hcache)]
          exact hproposed.symm
      · cases hsome
  | reconstructed world data => exact map_pair_reconstructFrom _ world data.matchOperations 0

/-! ## Reaching an operation -/

/-- A file at every path. -/
def Full (files : FileSystem) : Prop := ∀ p, (files p).isSome

theorem Full.update (h : Full files) (p : Path) (content : Bytes) :
    Full (Function.update files p (some content)) := by
  intro q
  by_cases hq : q = p
  · rw [hq, Function.update_self]
    rfl
  · rw [Function.update_of_ne hq]
    exact h q

/-- Where every path has a file, a copy over one goes through. -/
theorem executeCopyWithRenameOperation_of_full (h : Full files) (source target : Path) :
    ∃ files', (executeCopyWithRenameOperation source target).exec (.sound files) =
      (.ok (), .sound files') ∧ Full files' := by
  obtain ⟨content, hcontent⟩ := Option.isSome_iff_exists.1 (h source)
  exact ⟨_, executeCopyWithRenameOperation_healthy hcontent target, h.update target _⟩

/-- **A copy with a target goes through there**, and leaves a file at every
path. -/
theorem applyOperation_of_full {config : MatchConfig} {target : Path}
    (hskip : config.conflictResolution = .skip) (h : Full files)
    (hmode : op.relocationMode = .copy) (htarget : op.relocationTargetPath = some target) :
    ∃ done files', (applyOperation config op).exec (.sound files) = (.ok done, .sound files') ∧
      Full files' := by
  have hbackup : (makeBackup config op).exec (.sound files) = (.ok none, .sound files) := by
    rw [makeBackup, if_neg (fun hmove => by rw [hmode] at hmove; cases hmove.1)]
    rfl
  have hplan : (planTask config op).exec (.sound files) =
      (.ok (.copyWithRename op.source target), .sound files) := by
    have hexists : (fileExists target : Engine Bool).exec (.sound files) =
        (.ok true, .sound files) := by
      unfold fileExists
      rw [Program.exec_step]
      exact congrArg (fun b => (Except.ok b, Disk.sound files)) (h target)
    have hresolve : (unwrap (resolveTargetConflict config.conflictResolution target)).exec
        (.sound files) = (.ok target, .sound files) := by
      unfold unwrap resolveTargetConflict
      rw [Program.exec_mapError, Program.exec_bind_of_ok hexists, if_pos rfl, hskip]
      rfl
    rw [planTask, if_pos hmode, createCopyTask, htarget]
    dsimp only
    rw [Program.exec_bind_of_ok hresolve]
    rfl
  obtain ⟨files', hcopy, hfull⟩ := executeCopyWithRenameOperation_of_full h op.source target
  have hrun : (runTask (.copyWithRename op.source target)).exec (.sound files) =
      (.ok (), .sound files') := by
    unfold runTask ProcessingOperation.execute
    rw [Program.exec_mapError, Program.exec_mapError, hcopy]
    rfl
  refine ⟨⟨op, none, .copyWithRename op.source target, .sound files, .sound files, .sound files'⟩,
    files', ?_, hfull⟩
  rw [applyOperation_of_makeBackup hbackup, Program.exec_bind_of_ok hplan,
    Program.exec_bind_of_ok (show currentDisk.exec (.sound files) = (.ok _, .sound files) from rfl),
    Program.exec_bind_of_ok hrun,
    Program.exec_bind_of_ok (show currentDisk.exec (.sound files') = (.ok _, .sound files') from rfl)]
  rfl

/-- **So a copy without a target is reached**, the ones before it going
through. -/
theorem begins_of_full {config : MatchConfig} (hskip : config.conflictResolution = .skip) :
    ∀ {ops : List MatchOperation} {applied : List AppliedOperation} {files : FileSystem},
      Full files → (∀ op ∈ ops, op.relocationMode = .copy) →
      (∃ op ∈ ops, op.relocationTargetPath = none) →
      ∃ op d, Begins config false ops applied (.sound files) op d ∧ op.relocationMode = .copy ∧
        op.relocationTargetPath = none
  | [], _, _, _, _, ⟨_, hop, _⟩ => (List.not_mem_nil hop).elim
  | op :: ops, applied, files, hfull, hmodes, hmissing => by
    rcases htarget : op.relocationTargetPath with - | target
    · exact ⟨op, _, .first, hmodes op List.mem_cons_self, htarget⟩
    obtain ⟨done, files', happly, hfull'⟩ :=
      applyOperation_of_full hskip hfull (hmodes op List.mem_cons_self) htarget
    have hrest : ∃ op' ∈ ops, op'.relocationTargetPath = none := by
      obtain ⟨op', hop', hnone⟩ := hmissing
      rcases List.mem_cons.1 hop' with rfl | hop'
      · rw [htarget] at hnone
        cases hnone
      · exact ⟨op', hop', hnone⟩
    have ih : ∃ op' d, Begins config false ops (applied ++ [done]) (.sound files') op' d ∧
        op'.relocationMode = .copy ∧ op'.relocationTargetPath = none :=
      begins_of_full hskip hfull' (fun op' hop' => hmodes op' (List.mem_cons_of_mem op hop')) hrest
    obtain ⟨op', d, hbegins, hcopy, hnone⟩ := ih
    exact ⟨op', d, .later happly rfl hbegins, hcopy, hnone⟩

/-! ## When copies have targets -/

/-- A conflict that cannot be resolved: once its backup is made, the target of
the operation is a file, and the policy is to ask, or to number it and no
number can be had. -/
def Conflict (config : MatchConfig) (op : MatchOperation) (disk : Disk) : Prop :=
  ∃ backup disk' base, (makeBackup config op).exec disk = (.ok backup, disk') ∧
    conflictBase op = some base ∧ ¬ Resolvable config.conflictResolution base disk'

/-- Every copy that a batch begins has a target. -/
def CopiesHaveTargets (ops : List MatchOperation) : Prop :=
  ∀ config hasJournal disk op d, Begins config hasJournal ops [] disk op d →
    op.relocationMode = .copy → op.relocationTargetPath.isSome

/-- A batch panics on conflicts alone. -/
def PanicsOnConflictsOnly (ops : List MatchOperation) : Prop :=
  ∀ config hasJournal dryRun disk,
    Panicked (executeOperations config hasJournal ops dryRun disk) →
      ∃ op d, Begins config hasJournal ops [] disk op d ∧ Conflict config op d

theorem mem_of_begins {config : MatchConfig} {hasJournal : Bool} {applied : List AppliedOperation}
    {disk d : Disk} (h : Begins config hasJournal ops applied disk op d) : op ∈ ops := by
  induction h with
  | first => exact List.mem_cons_self
  | later _ _ _ ih => exact List.mem_cons_of_mem _ ih

theorem resolvable_of_skip {base : Path} {disk : Disk} : Resolvable .skip base disk :=
  fun _ => ⟨by decide, fun hpolicy => by cases hpolicy⟩

/-- An operation of a plan that cannot be planned is a copy without a target,
or a conflict. -/
theorem Targeted.conflict {exec : MatchConfig} {disk : Disk} (h : Targeted config op)
    (htarget : op.relocationMode = .copy → op.relocationTargetPath.isSome)
    (hnot : ¬ Plannable exec op disk) : Conflict exec op disk := by
  by_contra hconflict
  refine hnot ⟨htarget, fun _ _ => h.extension, fun backup disk' hbackup base hbase => ?_⟩
  by_contra hresolvable
  exact hconflict ⟨backup, disk', base, hbackup, hbase, hresolvable⟩

/-- The copies of a plan have targets exactly when its subtitles lie elsewhere. -/
theorem Plan.separate_iff {pairs : List (Path × Path)} (h : Plan config pairs ops) :
    SeparateDirectories config pairs ↔
      ∀ op ∈ ops, op.relocationMode = .copy → op.relocationTargetPath.isSome := by
  have htargeted := h.targeted
  unfold SeparateDirectories
  rw [← h.map_pair]
  constructor
  · intro hseparate op hop hcopy
    obtain ⟨hmode, htarget, -⟩ := htargeted op hop
    rw [hmode] at hcopy
    obtain ⟨hparent, hne⟩ := hseparate hcopy op.pair (List.mem_map_of_mem hop)
    rw [htarget, hcopy]
    exact ⟨decide_eq_true hne, hparent⟩
  · intro hcopies hcopy pair hpair
    obtain ⟨op, hop, rfl⟩ := List.mem_map.1 hpair
    obtain ⟨hmode, htarget, -⟩ := htargeted op hop
    obtain ⟨hrequires, hparent⟩ := htarget.1 (hcopies op hop (hmode.trans hcopy))
    rw [hcopy] at hrequires
    exact ⟨hparent, of_decide_eq_true hrequires⟩

/-- **When a plan can be executed without a missing target.** Exactly when no
subtitle of a copy lies beside its video: then every copy that is begun, by
any engine and on any disk, has a target, and no batch panics but on a
conflict it cannot resolve. -/
theorem copyTargets_iff (config : PlanConfig) (pairs : List (Path × Path))
    (ops : List MatchOperation) (hplan : Plan config pairs ops) :
    (CopiesHaveTargets ops ↔ SeparateDirectories config pairs) ∧
      (PanicsOnConflictsOnly ops ↔ SeparateDirectories config pairs) := by
  have htargeted := hplan.targeted
  -- an engine that skips conflicts, on a disk with a file at every path
  let skipping : MatchConfig := ⟨false, .copy, .skip⟩
  have hreached : ¬ SeparateDirectories config pairs → ∃ op d,
      Begins skipping false ops [] (.sound fun _ => some []) op d ∧ op.relocationMode = .copy ∧
        op.relocationTargetPath = none := by
    intro hseparate
    rw [hplan.separate_iff] at hseparate
    push Not at hseparate
    obtain ⟨op, hop, hcopy, hnone⟩ := hseparate
    have hmode := (htargeted op hop).relocationMode.symm.trans hcopy
    refine begins_of_full rfl (fun _ => rfl)
      (fun op' hop' => (htargeted op' hop').relocationMode.trans hmode) ⟨op, hop, ?_⟩
    exact Option.not_isSome_iff_eq_none.1 hnone
  refine ⟨⟨fun hcopies => ?_, fun hseparate => ?_⟩, ⟨fun hpanics => ?_, fun hseparate => ?_⟩⟩
  · by_contra hnot
    obtain ⟨op, d, hbegins, hcopy, hnone⟩ := hreached hnot
    have hsome := hcopies _ _ _ op d hbegins hcopy
    rw [hnone] at hsome
    cases hsome
  · intro exec hasJournal disk op d hbegins
    exact hplan.separate_iff.1 hseparate op (mem_of_begins hbegins)
  · by_contra hnot
    obtain ⟨op, d, hbegins, hcopy, hnone⟩ := hreached hnot
    have hplannable : ¬ Plannable skipping op d := by
      intro hp
      have hsome := hp.copyTarget hcopy
      rw [hnone] at hsome
      cases hsome
    obtain ⟨op', d', -, backup, disk', base, -, -, hresolvable⟩ := hpanics skipping false false _
      ((panicked_executeFrom_iff ops [] _).2 ⟨op, d, hbegins, hplannable⟩)
    exact hresolvable resolvable_of_skip
  · intro exec hasJournal dryRun disk hpanicked
    rcases dryRun with - | -
    · obtain ⟨op, d, hbegins, hnot⟩ := (panicked_executeFrom_iff ops [] disk).1 hpanicked
      have hop := mem_of_begins hbegins
      exact ⟨op, d, hbegins, (htargeted op hop).conflict (hplan.separate_iff.1 hseparate op hop) hnot⟩
    · obtain ⟨panic, hpanic⟩ := hpanicked
      cases hpanic

/-- Two copies from another directory. -/
theorem copyTargets_iff_film :
    let call := filmCall .copy (1 / 2) filmPaths [(['0'], ['1'], 1), (['0'], ['2'], 1)]
    ∃ audit session', (matchFileListWithAudit plainHasher call).exec ⟨none, []⟩ =
        (.ok audit, session') ∧ audit.operations.length = 2 ∧
      CopiesHaveTargets audit.operations ∧ PanicsOnConflictsOnly audit.operations := by
  intro call
  have hrun : ((matchFileListWithAudit plainHasher call).exec ⟨none, []⟩).1.toOption.map
      (fun audit => audit.operations.length) = some 2 := by decide +kernel
  have hseparate : SeparateDirectories call.config (call.pairs plainHasher none) := by
    decide +kernel
  rcases hexec : (matchFileListWithAudit plainHasher call).exec ⟨none, []⟩ with
    ⟨stop | audit, session'⟩
  · rw [hexec] at hrun
    cases hrun
  · rw [hexec] at hrun
    obtain ⟨hcopies, hpanics⟩ := copyTargets_iff call.config _ audit.operations
      (.matched plainHasher call ⟨none, []⟩ session' audit rfl hexec)
    exact ⟨audit, session', rfl, Option.some.inj hrun, hcopies.2 hseparate, hpanics.2 hseparate⟩

/-- **A copy of a subtitle that lies beside its video is a panic.** -/
theorem matched_copy_panics :
    ¬ ∀ (hasher : Hasher) (call : Call) (session session' : Session) (audit : MatchAudit),
      (matchFileListWithAudit hasher call).exec session = (.ok audit, session') →
      ∀ (hasJournal : Bool) (disk : Disk),
        ¬ Panicked (executeOperations call.config.toMatchConfig hasJournal audit.operations false
          disk) := by
  intro h
  let call := filmCall .copy (1 / 2) (["/films/movie.mkv", "/films/c.srt"].map fun p =>
    Path.ofText p.toList) [(['0'], ['1'], 1)]
  have hrun : ((matchFileListWithAudit plainHasher call).exec ⟨none, []⟩).1.toOption.map
      (fun audit => (executeOperations call.config.toMatchConfig false audit.operations false
        (.sound call.world.files)).outcome) = some (.error (.panicked .unwrapNone)) := by
    decide +kernel
  rcases hexec : (matchFileListWithAudit plainHasher call).exec ⟨none, []⟩ with
    ⟨stop | audit, session'⟩
  · rw [hexec] at hrun
    cases hrun
  · rw [hexec] at hrun
    exact h plainHasher call ⟨none, []⟩ session' audit hexec false (.sound call.world.files)
      ⟨.unwrapNone, Option.some.inj hrun⟩

end SubxCore
