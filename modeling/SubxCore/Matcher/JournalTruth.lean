import SubxCore.Matcher.Audit
/-!
# Whether the journal is true

An entry is made from the task as it was planned, while the task settles
conflicts by itself. What the entry says of the disk right after the
operation is so exactly when the task had nothing to settle: no file was in
the way of the backup or at the destination when the task started, or one
that does no harm (`entryTrue_iff_undisturbed`).
-/

namespace SubxCore

open Text Function

variable {config : MatchConfig} {op : MatchOperation} {disk disk' : Disk} {content : Bytes}
variable {hasJournal : Bool} {ops : List MatchOperation} {applied : List AppliedOperation}
variable {a : AppliedOperation} {source target b : Path}

/-- **An entry is true** of the disk right after its operation: the destination
and the backup have the content of the source before, and the source is
there when it was copied, or is the destination. -/
def EntryTrue (a : AppliedOperation) : Prop :=
  ∃ content, a.before.files a.entry.source = some content ∧
    a.after.files a.entry.destination = some content ∧
    (∀ b, a.entry.backupPath = some b → a.after.files b = some content) ∧
    ((a.after.files a.entry.source).isSome ↔
      a.entry.operationType = .copied ∨ a.entry.source = a.entry.destination)

/-- **Nothing disturbed an operation** on a subtitle with some content. -/
structure Undisturbed (a : AppliedOperation) (content : Bytes) : Prop where
  /-- The subtitle was there. -/
  source : a.before.files a.entry.source = some content
  /-- No file was in the way of the backup, or an earlier one with the same
  content. -/
  backup : ∀ b, a.backupPath = some b → a.before.files b = none ∨
    b ≠ a.entry.source ∧ a.before.files b = some content
  /-- A copy did not go over the subtitle itself. -/
  copy : a.entry.operationType = .copied → a.entry.source ≠ a.entry.destination ∨ content = []
  /-- No file was at the destination when the subtitle was to be moved there, or
  another one with the same content. -/
  move : a.entry.operationType ≠ .copied → a.planned.files a.entry.destination = none ∨
    a.entry.source ≠ a.entry.destination ∧ a.planned.files a.entry.destination = some content

/-! ## The parts of an operation -/

/-- The backup and the task of an operation that was carried out. -/
theorem applyOperation_eq_ok (h : (applyOperation config op).exec disk = (.ok a, disk')) :
    a.operation = op ∧ a.before = disk ∧ a.after = disk' ∧ ∃ disk₁,
      (makeBackup config op).exec disk = (.ok a.backupPath, disk₁) ∧
      (planTask config op).exec disk₁ = (.ok a.task, a.planned) ∧
      (runTask a.task).exec a.planned = (.ok (), disk') := by
  unfold applyOperation at h
  rw [Program.exec_bind_of_ok (show currentDisk.exec disk = (.ok disk, disk) from rfl)] at h
  obtain ⟨backupPath, disk₁, hbackup, h⟩ := Program.bind_eq_ok.1 h
  obtain ⟨task, disk₂, hplan, h⟩ := Program.bind_eq_ok.1 h
  rw [Program.exec_bind_of_ok (show currentDisk.exec disk₂ = (.ok disk₂, disk₂) from rfl)] at h
  obtain ⟨u, disk₃, hrun, h⟩ := Program.bind_eq_ok.1 h
  cases h
  exact ⟨rfl, rfl, rfl, disk₁, hbackup, hplan, hrun⟩

/-- A task that went through, without the text of its errors. -/
theorem mapError_eq_ok {α ε ε' : Type} {x : Program Disk ε α} {f : ε → ε'} {r : α}
    (h : (Program.mapError f x).exec disk = (.ok r, disk')) : x.exec disk = (.ok r, disk') := by
  rw [Program.exec_mapError] at h
  rcases hx : x.exec disk with ⟨err | r', disk₁⟩
  · rw [hx] at h
    cases h
  · rw [hx] at h
    cases h
    rfl

/-- **A backup that was made**: no file but the first free one changed. -/
theorem makeBackup_eq_ok_files {backupPath : Option Path}
    (hsource : disk.files op.source = some content)
    (h : (makeBackup config op).exec disk = (.ok backupPath, disk')) :
    (backupPath = none ∧ disk' = disk) ∨ ∃ b q, backupPath = some b ∧ op.relocationMode = .move ∧
      FirstFree disk.files (numberedPaths b) q ∧
      disk'.files = update disk.files q (some content) := by
  unfold makeBackup at h
  split at h
  · next hmove =>
    right
    unfold createBackupTask at h
    split at h
    · cases h
    obtain ⟨task, disk₁, htask, h⟩ := Program.bind_eq_ok.1 h
    cases htask
    obtain ⟨u, disk₂, hrun, h⟩ := Program.bind_eq_ok.1 h
    cases h
    obtain ⟨q, hfree, hfiles⟩ := copyInto_eq_ok hsource (mapError_eq_ok (mapError_eq_ok hrun))
    exact ⟨_, q, rfl, hmove.1, hfree, hfiles⟩
  · cases h
    exact Or.inl ⟨rfl, rfl⟩

/-- What making a backup leaves of the files it finds. -/
theorem makeBackup_files {backupPath : Option Path} {p : Path} {bytes : Bytes}
    (h : (makeBackup config op).exec disk = (.ok backupPath, disk'))
    (hp : disk.files p = some bytes) : disk'.files p = some bytes := by
  have hkept : FilesKept (fun _ => False) disk _ := makeBackup_kept config op disk
  rw [h] at hkept
  exact hkept p bytes hp id

/-- The task of an operation, and what planning it leaves. -/
theorem planTask_eq_ok_files {task : ProcessingOperation}
    (h : (planTask config op).exec disk = (.ok task, disk')) :
    (∀ p bytes, disk.files p = some bytes → disk'.files p = some bytes) ∧
      ∃ target, (op.relocationMode = .copy ∧ task = .copyWithRename op.source target) ∨
        (op.relocationMode ≠ .copy ∧ task = .renameFile op.source target) := by
  obtain ⟨hkept, hplanned⟩ := planTask_spec (fun _ => False) h
  refine ⟨fun p bytes hp => hkept p bytes hp id, ?_⟩
  cases hplanned task rfl with
  | @copy target hmode _ => exact ⟨target, Or.inl ⟨hmode, rfl⟩⟩
  | @rename target hmode => exact ⟨target, Or.inr ⟨hmode, rfl⟩⟩

/-! ## One entry -/

/-- The backup is true when no other file was in its way. -/
theorem backup_iff {q : Path} (hsource : disk.files source = some content)
    (hfree : FirstFree disk.files (numberedPaths b) q)
    (hfiles : disk'.files = update disk.files q (some content)) :
    (b ≠ source ∧ disk'.files b = some content) ↔
      disk.files b = none ∨ b ≠ source ∧ disk.files b = some content := by
  rcases hb : disk.files b with - | bytes
  · have hq : q = b := hfree.eq_head hb
    have hne : b ≠ source := (ne_of_free hsource hb).symm
    rw [hfiles, hq, update_self]
    simp [hne]
  · have hne : b ≠ q := ne_of_free hb hfree.free
    rw [hfiles, update_of_ne hne, hb]
    simp

/-- And stays true while every file but the source is kept. -/
theorem after_backup_iff {before after : FileSystem} {q : Path} (hgone : after source = none)
    (hfree : FirstFree before (numberedPaths b) q)
    (hfiles : disk.files = update before q (some content))
    (hrest : ∀ p bytes, p ≠ source → disk.files p = some bytes → after p = some bytes) :
    after b = some content ↔ b ≠ source ∧ disk.files b = some content := by
  have hsome : ∃ bytes, disk.files b = some bytes := by
    rcases hb : before b with - | bytes
    · exact ⟨content, by rw [hfiles, hfree.eq_head hb, update_self]⟩
    · have hne : b ≠ q := ne_of_free hb hfree.free
      exact ⟨bytes, by rw [hfiles, update_of_ne hne, hb]⟩
  obtain ⟨bytes, hbytes⟩ := hsome
  by_cases heq : b = source
  · subst heq
    rw [hgone]
    simp
  · rw [hrest b bytes heq hbytes, hbytes]
    simp [heq]

/-- A copy leaves its source, and the content of it at the target unless it
went over a source that is not empty. -/
theorem copied_files (hsource : disk.files source = some content)
    (h : (executeCopyWithRenameOperation source target).exec disk = (.ok (), disk')) :
    (disk'.files source).isSome ∧
      (disk'.files target = some content ↔ source ≠ target ∨ content = []) := by
  obtain ⟨bytes, hbytes, hfiles⟩ := executeCopyWithRenameOperation_eq_ok h
  obtain rfl := Option.some.inj (hsource.symm.trans hbytes)
  rw [hfiles, update_self]
  by_cases heq : source = target
  · subst heq
    rw [update_self]
    simp [eq_comm]
  · rw [update_of_ne heq, hsource, if_neg heq]
    simp [heq]

/-- A move leaves no source, the files it finds elsewhere, and the content of
the source at the target where no other one was in the way. -/
theorem moved_files (hsource : disk.files source = some content)
    (h : (moveInto source target).exec disk = (.ok (), disk')) :
    disk'.files source = none ∧
      (disk'.files target = some content ↔
        disk.files target = none ∨ source ≠ target ∧ disk.files target = some content) ∧
      ∀ p bytes, p ≠ source → disk.files p = some bytes → disk'.files p = some bytes := by
  obtain ⟨q, hfree, hfiles⟩ := moveInto_eq_ok hsource h
  have hkeep : ∀ p bytes, disk.files p = some bytes → p ≠ q := by
    rintro p bytes hp rfl
    rw [hfree.free] at hp
    cases hp
  rw [hfiles]
  refine ⟨?_, ?_, fun p bytes hne hp => ?_⟩
  · rw [update_of_ne (hkeep _ _ hsource), update_self]
  · rcases htarget : disk.files target with - | bytes
    · rw [hfree.eq_head htarget, update_self]
      simp
    · rw [update_of_ne (hkeep _ _ htarget)]
      by_cases heq : source = target
      · subst heq
        rw [update_self]
        simp
      · rw [update_of_ne (Ne.symm heq), htarget]
        simp [heq]
  · rw [update_of_ne (hkeep _ _ hp), update_of_ne hne, hp]

theorem undisturbed_iff : Undisturbed a content ↔
    a.before.files a.entry.source = some content ∧
      (∀ b, a.backupPath = some b → a.before.files b = none ∨
        b ≠ a.entry.source ∧ a.before.files b = some content) ∧
      (a.entry.operationType = .copied → a.entry.source ≠ a.entry.destination ∨ content = []) ∧
      (a.entry.operationType ≠ .copied → a.planned.files a.entry.destination = none ∨
        a.entry.source ≠ a.entry.destination ∧
          a.planned.files a.entry.destination = some content) :=
  ⟨fun h => ⟨h.source, h.backup, h.copy, h.move⟩, fun ⟨hs, hb, hc, hm⟩ => ⟨hs, hb, hc, hm⟩⟩

/-- **An entry is true exactly when nothing disturbed its operation.** -/
theorem entryTrue_iff_of_applyOperation
    (h : (applyOperation config op).exec disk = (.ok a, disk')) :
    EntryTrue a ↔ ∃ content, Undisturbed a content := by
  obtain ⟨hop, hbefore, hafter, disk₁, hbackup, hplan, hrun⟩ := applyOperation_eq_ok h
  obtain ⟨hkept, target, htask⟩ := planTask_eq_ok_files hplan
  rcases a with ⟨op', backupPath, task, before, planned, after⟩
  dsimp only at hop hbefore hafter hbackup hplan hrun hkept htask
  subst hop hbefore hafter
  refine exists_congr fun content => ?_
  rw [undisturbed_iff]
  rcases htask with ⟨hmode, rfl⟩ | ⟨hmode, rfl⟩
  · refine and_congr_right fun (hsource : before.files op'.source = some content) => ?_
    have hplanned := hkept _ _ (makeBackup_files hbackup hsource)
    obtain ⟨hsome, htarget⟩ := copied_files hplanned (mapError_eq_ok (mapError_eq_ok hrun))
    -- an operation that copies makes no backup
    have hnone : backupPath = none := by
      rcases makeBackup_eq_ok_files hsource hbackup with ⟨hnone, -⟩ | ⟨b, q, -, hmove, -⟩
      · exact hnone
      · rw [hmode] at hmove
        cases hmove
    subst hnone
    simp only [AppliedOperation.entry, journalFields]
    rw [htarget]
    simp [hsome]
  · refine and_congr_right fun (hsource : before.files op'.source = some content) => ?_
    have hplanned := hkept _ _ (makeBackup_files hbackup hsource)
    obtain ⟨hgone, htarget, hrest⟩ := moved_files hplanned (mapError_eq_ok (mapError_eq_ok hrun))
    have hkind : (if op'.relocationMode = .move then JournalOperationType.moved else .renamed) ≠
        .copied := by
      split <;> decide
    have hapart : planned.files target = none ∨ op'.source ≠ target ∧
        planned.files target = some content → op'.source ≠ target := by
      rintro (hfree | ⟨hne, -⟩) rfl
      · rw [hplanned] at hfree
        cases hfree
      · exact hne rfl
    have hbackups : (∀ b, backupPath = some b → after.files b = some content) ↔
        ∀ b, backupPath = some b → before.files b = none ∨
          b ≠ op'.source ∧ before.files b = some content := by
      rcases makeBackup_eq_ok_files hsource hbackup with ⟨rfl, -⟩ | ⟨b, q, rfl, -, hfree, hfiles⟩
      · simp
      · simp only [Option.some.injEq, forall_eq']
        rw [← backup_iff hsource hfree hfiles]
        exact after_backup_iff hgone hfree hfiles fun p bytes hne hp =>
          hrest p bytes hne (hkept p bytes hp)
    simp only [AppliedOperation.entry, journalFields]
    rw [hgone, htarget, hbackups]
    constructor
    · rintro ⟨hclear, hb, -⟩
      exact ⟨hb, fun hcopied => absurd hcopied hkind, fun _ => hclear⟩
    · rintro ⟨hb, -, hclear⟩
      refine ⟨hclear hkind, hb, ?_⟩
      simp [hkind, hapart (hclear hkind)]

/-! ## The entries of a batch -/

/-- The operations carried out were carried out. -/
theorem exists_of_mem_executeFrom : ∀ {ops : List MatchOperation}
    {applied : List AppliedOperation} {disk : Disk},
    a ∈ (executeFrom config hasJournal ops applied disk).applied →
      a ∈ applied ∨ ∃ op d d', (applyOperation config op).exec d = (.ok a, d')
  | [], _, _, h => Or.inl h
  | op :: ops, applied, disk, h => by
    unfold executeFrom at h
    rcases happly : (applyOperation config op).exec disk with ⟨stop | done, disk₁⟩
    · rw [happly] at h
      exact Or.inl h
    rw [happly] at h
    dsimp only at h
    have hmem : a ∈ applied ++ [done] →
        a ∈ applied ∨ ∃ op d d', (applyOperation config op).exec d = (.ok a, d') := by
      intro ha
      rcases List.mem_append.1 ha with ha | ha
      · exact Or.inl ha
      · obtain rfl := List.mem_singleton.1 ha
        exact Or.inr ⟨op, disk, disk₁, happly⟩
    rcases hpersist : (persist hasJournal (applied ++ [done])).exec disk₁ with ⟨stop | u, disk₂⟩
    · rw [hpersist] at h
      exact hmem h
    · rw [hpersist] at h
      rcases exists_of_mem_executeFrom h with ha | hex
      · exact hmem ha
      · exact Or.inr hex

/-- **An entry of the journal is true exactly when nothing disturbed its
operation**, in every batch, whatever the policy and whichever calls fail. -/
theorem entryTrue_iff_undisturbed (config : MatchConfig) (hasJournal : Bool)
    (ops : List MatchOperation) (disk : Disk) (a : AppliedOperation)
    (h : a ∈ (executeOperations config hasJournal ops false disk).applied) :
    EntryTrue a ↔ ∃ content, Undisturbed a content := by
  rcases exists_of_mem_executeFrom h with hnil | ⟨op, d, d', happly⟩
  · cases hnil
  · exact entryTrue_iff_of_applyOperation happly

/-- A copy around a file that is in the way: its entry is true. -/
theorem entryTrue_iff_undisturbed_occupiedTarget :
    ∃ a ∈ (executeOperations ⟨false, .copy, .autoRename⟩ true
        [copyOperation "/subs/a.srt".toList "/films/movie.srt".toList] false
        (.sound occupiedTarget)).applied,
      EntryTrue a := by
  have hrun : (executeOperations ⟨false, .copy, .autoRename⟩ true
      [copyOperation "/subs/a.srt".toList "/films/movie.srt".toList] false
      (.sound occupiedTarget)).applied.map (fun a => (a.before.files a.entry.source,
        a.backupPath, a.entry.operationType, decide (a.entry.source = a.entry.destination))) =
      [(some [1, 2], none, .copied, false)] := by
    decide +kernel
  obtain ⟨a, ha, hfields⟩ := List.mem_map.1 (hrun ▸ List.mem_singleton_self _)
  simp only [Prod.mk.injEq, decide_eq_false_iff_not] at hfields
  obtain ⟨hsource, hbackup, hkind, hne⟩ := hfields
  refine ⟨a, ha, (entryTrue_iff_undisturbed ⟨false, .copy, .autoRename⟩ true _
    (.sound occupiedTarget) a ha).2 ⟨[1, 2], hsource, fun b hb => ?_, fun _ => Or.inl hne,
      fun hmoved => absurd hkind hmoved⟩⟩
  rw [hbackup] at hb
  cases hb

/-- A subtitle that has its new name already. -/
def renameToOwnName : MatchOperation :=
  { copyOperation "/films/movie.srt".toList "/films/movie.srt".toList with
    relocationMode := .none
    relocationTargetPath := none
    requiresRelocation := false }

/-- **A subtitle renamed to its own name** is moved to a numbered one, and the
entry says that it stayed. -/
theorem renameToOwnName_entry_false :
    ¬ ∀ (config : MatchConfig) (hasJournal : Bool) (ops : List MatchOperation) (disk : Disk),
      config.conflictResolution ≠ .prompt →
        ∀ a ∈ (executeOperations config hasJournal ops false disk).applied, EntryTrue a := by
  intro h
  have hrun : (executeOperations ⟨false, .none, .autoRename⟩ true [renameToOwnName] false
      (.sound occupiedTarget)).applied.map (fun a => a.after.files a.entry.destination) =
      [none] := by
    decide +kernel
  obtain ⟨a, ha, hgone⟩ := List.mem_map.1 (hrun ▸ List.mem_singleton_self _)
  obtain ⟨content, -, hdestination, -⟩ := h ⟨false, .none, .autoRename⟩ true [renameToOwnName]
    (.sound occupiedTarget) (by decide) a ha
  rw [hgone] at hdestination
  cases hdestination

end SubxCore
