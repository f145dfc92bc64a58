import SubxCore.Matcher.Disk
import SubxCore.Common.Decimal
/-!
# File tasks

The units of work that copy, back up and move a subtitle. A target that is
in the way is never written over by a task that creates its file
atomically: the file goes to the first numbered name that is free.
`executeCopyWithRename` is the one that does not ask: it truncates what it
finds.
-/

namespace SubxCore

open Text Decimal Function

/-! ## Conflicts -/

/-- The target with a number before its extension. -/
def numberedPath (target : Path) (i : ℕ) : Path :=
  let stem := target.fileStem.getD "file".toList
  let ext := target.extension.getD []
  (target.parent.getD [.curDir]).join
    (if ext = [] then stem ++ '.' :: decimal i else stem ++ '.' :: decimal i ++ '.' :: ext)

/-- A target and the numbered names tried after it. -/
def numberedPaths (target : Path) : List Path :=
  target :: (List.range' 1 999).map (numberedPath target)

/-- The first of some paths that can be created. -/
def createFirst : List Path → Io Path
  | [] => throw (.other "Could not resolve filename conflict".toList)
  | p :: ps => do
    match ← Program.attempt (atomicCreateFile p) with
    | .ok () => return p
    | .error .alreadyExists => createFirst ps
    | .error err => throw err

/-- `resolve_filename_conflict`, of the tasks. -/
def resolveFilenameConflict (target : Path) : Io Path := createFirst (numberedPaths target)

/-! ## The tasks -/

/-- A call on the parent directory, if there is one. -/
def withParent (p : Path) (call : Path → Io Unit) : Io Unit :=
  match p.parent with
  | some parent => call parent
  | none => pure ()

/-- A file streamed into a new one. -/
def streamInto (source target : Path) : Io Unit := do
  let finalTarget ← resolveFilenameConflict target
  withParent finalTarget validateWriteTarget
  openFile source
  ioCopy source finalTarget

/-- A file copied to a new one. -/
def copyInto (source target : Path) : Io Unit := do
  withParent target createDirAll
  streamInto source target

/-- A file renamed, if nothing is in the way; whether that went through. -/
def renameIfFree (source target : Path) : Io Bool := do
  if ← fileExists target then return false
  else
    match ← Program.attempt (renameFile source target) with
    | .ok () => return true
    | .error _ => return false

/-- A file moved to a new one: renamed, or else copied and removed. -/
def moveInto (source target : Path) : Io Unit := do
  withParent target createDirAll
  if ← renameIfFree source target then return ()
  else
    streamInto source target
    syncAll
    removeFile source

/-- `execute_copy_operation`. -/
def executeCopyOperation (source target : Path) : Io Unit := copyInto source target

/-- `execute_create_backup_operation`. -/
def executeCreateBackupOperation (source backup : Path) : Io Unit := copyInto source backup

/-- `execute_move_operation`. -/
def executeMoveOperation (source target : Path) : Io Unit := moveInto source target

/-- `execute_rename_file_operation`. -/
def executeRenameFileOperation (source target : Path) : Io Unit := moveInto source target

/-- `copy_file_cifs_safe`. -/
def copyFileCifsSafe (source destination : Path) : Io Unit := do
  openFile source
  createFile destination
  ioCopy source destination

/-- `execute_copy_with_rename_operation`. -/
def executeCopyWithRenameOperation (source target : Path) : Io Unit := do
  withParent target createDirAll
  copyFileCifsSafe source target

/-- `ProcessingOperation`, of files. -/
inductive ProcessingOperation
  | copyToVideoFolder (source target : Path)
  | moveToVideoFolder (source target : Path)
  | copyWithRename (source target : Path)
  | createBackup (source backup : Path)
  | renameFile (source target : Path)
  deriving DecidableEq, Repr

/-- `FileProcessingTask::execute`; the error is the message of a failed
task. -/
def ProcessingOperation.execute : ProcessingOperation → Program Disk Text Unit
  | .copyToVideoFolder source target =>
    (executeCopyOperation source target).mapError fun err => "Copy failed: ".toList ++ err.display
  | .moveToVideoFolder source target =>
    (executeMoveOperation source target).mapError fun err => "Move failed: ".toList ++ err.display
  | .copyWithRename source target =>
    (executeCopyWithRenameOperation source target).mapError fun err =>
      "Copy failed: ".toList ++ err.display
  | .createBackup source backup =>
    (executeCreateBackupOperation source backup).mapError fun err =>
      "Backup failed: ".toList ++ err.display
  | .renameFile source target =>
    (executeRenameFileOperation source target).mapError fun err =>
      "Rename failed: ".toList ++ err.display

/-- What an operation that reserves its target does: whether it removes the
source, the source, and the target. -/
structure Delivery where
  moves : Bool
  source : Path
  target : Path
  deriving DecidableEq, Repr

/-- The delivery of an operation; the one that does not reserve its target has
none. -/
def ProcessingOperation.delivery : ProcessingOperation → Option Delivery
  | .copyToVideoFolder source target => some ⟨false, source, target⟩
  | .moveToVideoFolder source target => some ⟨true, source, target⟩
  | .copyWithRename _ _ => none
  | .createBackup source backup => some ⟨false, source, backup⟩
  | .renameFile source target => some ⟨true, source, target⟩

/-! ## What is kept -/

/-- Every file is kept as it is, those that may be lost aside. -/
def FilesKept (lost : Path → Prop) (disk disk' : Disk) : Prop :=
  ∀ p content, disk.files p = some content → ¬ lost p → disk'.files p = some content

variable {lost : Path → Prop} {disk disk' : Disk} {p q source target : Path} {ps : List Path}
variable {content : Bytes} {u : Unit}

instance : Std.Refl (FilesKept lost) := ⟨fun _ _ _ h _ => h⟩

theorem FilesKept.trans {disk₁ : Disk} (h : FilesKept lost disk disk₁)
    (h' : FilesKept lost disk₁ disk') : FilesKept lost disk disk' :=
  fun p content hp hlost => h' p content (h p content hp hlost) hlost

instance : IsTrans Disk (FilesKept lost) := ⟨fun _ _ _ => FilesKept.trans⟩

theorem FilesKept.of_eq (h : disk'.files = disk.files) : FilesKept lost disk disk' :=
  fun _ _ hp _ => h ▸ hp

/-- A new file loses nothing. -/
theorem FilesKept.of_update_new {content? : Option Bytes} (hp : disk.files p = none)
    (h : disk'.files = update disk.files p content?) : FilesKept lost disk disk' := by
  intro r content hr _
  have hne : r ≠ p := ne_of_free hr hp
  rw [h, update_of_ne hne, hr]

/-- A file that may be lost may be written. -/
theorem FilesKept.of_update_lost {content? : Option Bytes} (hp : lost p)
    (h : disk'.files = update disk.files p content?) : FilesKept lost disk disk' := by
  intro r content hr hlost
  have hne : r ≠ p := by
    rintro rfl
    exact hlost hp
  rw [h, update_of_ne hne, hr]

theorem FilesKept.mono {lost' : Path → Prop} (h : FilesKept lost disk disk')
    (himp : ∀ p, lost p → lost' p) : FilesKept lost' disk disk' :=
  fun p content hp hlost => h p content hp fun hl => hlost (himp p hl)

/-! ## The first free path -/

/-- The first of some paths without a file. -/
def FirstFree (files : FileSystem) (ps : List Path) (q : Path) : Prop :=
  ∃ before after, ps = before ++ q :: after ∧ (∀ r ∈ before, (files r).isSome) ∧ files q = none

theorem FirstFree.mem {files : FileSystem} (h : FirstFree files ps q) : q ∈ ps := by
  obtain ⟨before, after, rfl, -, -⟩ := h
  exact List.mem_append_right _ List.mem_cons_self

theorem FirstFree.free {files : FileSystem} (h : FirstFree files ps q) : files q = none := by
  obtain ⟨-, -, -, -, hq⟩ := h
  exact hq

/-- A free path is the first free one of any that start with it. -/
theorem FirstFree.eq_head {files : FileSystem} (h : FirstFree files (p :: ps) q)
    (hp : files p = none) : q = p := by
  obtain ⟨before, after, heq, hbefore, -⟩ := h
  rcases before with - | ⟨r, before⟩
  · exact (List.cons.inj heq).1.symm
  · obtain ⟨rfl, -⟩ := List.cons.inj heq
    have hsome := hbefore p List.mem_cons_self
    rw [hp] at hsome
    cases hsome

theorem createFirst_eq_ok : ∀ {ps : List Path} {disk : Disk},
    (createFirst ps).exec disk = (.ok q, disk') →
      FirstFree disk.files ps q ∧ disk'.files = update disk.files q (some [])
  | [], _, h => by cases h
  | p :: ps, disk, h => by
    rw [createFirst] at h
    obtain ⟨r, disk₁, hattempt, h⟩ := Program.bind_eq_ok.1 h
    rw [Program.exec_attempt] at hattempt
    rcases hcreate : (atomicCreateFile p).exec disk with ⟨err | u, disk₂⟩
    · rw [hcreate] at hattempt
      cases hattempt
      have hfiles := fileCall_eq_error hcreate
      rcases err with - | - | message
      · -- something is in the way: the next one
        obtain ⟨⟨before, after, rfl, hbefore, hq⟩, hdisk'⟩ := createFirst_eq_ok h
        rw [hfiles] at hbefore hq hdisk'
        refine ⟨⟨p :: before, after, rfl, fun r hr => ?_, hq⟩, hdisk'⟩
        rcases List.mem_cons.1 hr with rfl | hr
        · exact atomicCreateFile_alreadyExists hcreate
        · exact hbefore r hr
      · cases h
      · cases h
    · rw [hcreate] at hattempt
      cases hattempt
      cases h
      obtain ⟨hp, hfiles⟩ := atomicCreateFile_eq_ok hcreate
      exact ⟨⟨[], ps, rfl, fun r hr => (List.not_mem_nil hr).elim, hp⟩, hfiles⟩

theorem createFirst_eq_error : ∀ {ps : List Path} {disk : Disk} {err : IoError},
    (createFirst ps).exec disk = (.error err, disk') → disk'.files = disk.files
  | [], _, _, h => by
    cases h
    rfl
  | p :: ps, disk, err, h => by
    rw [createFirst, Program.exec_bind, Program.exec_attempt] at h
    rcases hcreate : (atomicCreateFile p).exec disk with ⟨err' | u, disk₂⟩
    · rw [hcreate] at h
      have hfiles := fileCall_eq_error hcreate
      rcases err' with - | - | message
      · exact (createFirst_eq_error h).trans hfiles
      · cases h
        exact hfiles
      · cases h
        exact hfiles
    · rw [hcreate] at h
      cases h

/-! ## Streaming, copying, moving -/

/-- A file copied to is there, whether the copy went through or not. -/
theorem ioCopy_isSome {r : Except IoError Unit}
    (h : (ioCopy source target).exec disk = (r, disk')) :
    (disk'.files target).isSome := by
  unfold ioCopy systemCall at h
  rw [Program.exec_step] at h
  dsimp only at h
  split at h
  · cases h
    dsimp only
    rw [update_self]
    rfl
  · next hact =>
    cases h
    cases hact
    dsimp only
    rw [update_self]
    rfl
  · next hact => cases hact

theorem withParent_files {call : Path → Io Unit}
    (hcall : ∀ parent disk, ((call parent).exec disk).2.files = disk.files) (p : Path)
    (disk : Disk) :
    ((withParent p call).exec disk).2.files = disk.files := by
  unfold withParent
  split
  · exact hcall _ _
  · rfl

/-- A step that leaves the files, and the rest of a run. -/
theorem exec_bind_of_files {α β : Type} {x : Io α} {f : α → Io β} {r : Except IoError β}
    (hx : (x.exec disk).2.files = disk.files) (h : (x >>= f).exec disk = (r, disk')) :
    (∃ err, r = .error err ∧ disk'.files = disk.files) ∨
      ∃ a disk₁, x.exec disk = (.ok a, disk₁) ∧ disk₁.files = disk.files ∧
        (f a).exec disk₁ = (r, disk') := by
  rw [Program.exec_bind] at h
  rcases hrun : x.exec disk with ⟨err | a, disk₁⟩
  · rw [hrun] at h hx
    cases h
    exact Or.inl ⟨err, rfl, hx⟩
  · rw [hrun] at h hx
    exact Or.inr ⟨a, disk₁, rfl, hx, h⟩

/-- **A file is streamed into the first free name**, and nothing is lost,
whether that goes through or not. -/
theorem streamInto_spec {r : Except IoError Unit}
    (h : (streamInto source target).exec disk = (r, disk')) :
    disk'.files = disk.files ∨
      ∃ q content?, FirstFree disk.files (numberedPaths target) q ∧
        disk'.files = update disk.files q content? ∧
        (r = .ok () → ∃ content, update disk.files q (some []) source = some content ∧
          content? = some content) := by
  unfold streamInto at h
  rw [Program.exec_bind] at h
  rcases hcreate : (resolveFilenameConflict target).exec disk with ⟨err | q, disk₁⟩
  · rw [hcreate] at h
    cases h
    exact Or.inl (createFirst_eq_error hcreate)
  rw [hcreate] at h
  dsimp only at h
  obtain ⟨hfree, hfiles₁⟩ := createFirst_eq_ok hcreate
  refine Or.inr ⟨q, disk'.files q, hfree, ?_⟩
  have hplaced : ∀ {files : FileSystem}, files = update disk.files q (some []) →
      files = update disk.files q (files q) := by
    rintro files rfl
    rw [update_self]
  rcases exec_bind_of_files (withParent_files validateWriteTarget_files q disk₁) h with
    ⟨err, rfl, hfiles⟩ | ⟨_, disk₂, -, hfiles₂, h⟩
  · exact ⟨hplaced (hfiles.trans hfiles₁), fun h => by cases h⟩
  rcases exec_bind_of_files (openFile_files source disk₂) h with
    ⟨err, rfl, hfiles⟩ | ⟨_, disk₃, hopen, hfiles₃, h⟩
  · exact ⟨hplaced (hfiles.trans (hfiles₂.trans hfiles₁)), fun h => by cases h⟩
  obtain ⟨-, content, hcontent⟩ := openFile_eq_ok hopen
  rw [hfiles₂, hfiles₁] at hcontent hfiles₃
  rcases r with err | u
  · refine ⟨?_, fun h => by cases h⟩
    unfold ioCopy systemCall at h
    rw [Program.exec_step] at h
    dsimp only at h
    split at h
    · cases h
      dsimp only
      rw [hfiles₃, update_idem, update_self]
    · cases h
    · next hact => cases hact
  · have hfiles := ioCopy_eq_ok h
    rw [hfiles₃, hcontent, Option.getD_some, update_idem] at hfiles
    rw [hfiles, update_self]
    exact ⟨rfl, fun _ => ⟨content, hcontent, rfl⟩⟩

/-- Streaming loses nothing. -/
theorem streamInto_kept (source target : Path) (disk : Disk) :
    FilesKept lost disk ((streamInto source target).exec disk).2 := by
  rcases h : (streamInto source target).exec disk with ⟨r, disk'⟩
  rcases streamInto_spec h with hfiles | ⟨q, content?, hfree, hfiles, -⟩
  · exact .of_eq hfiles
  · exact .of_update_new hfree.free hfiles

/-- What was streamed is the source, or the new file itself where there was no
source. -/
theorem streamInto_eq_ok_cases (h : (streamInto source target).exec disk = (.ok u, disk')) :
    ∃ q content, FirstFree disk.files (numberedPaths target) q ∧
      disk'.files = update disk.files q (some content) ∧
      (disk.files source = some content ∨ source = q) := by
  unfold streamInto at h
  obtain ⟨q, disk₁, hcreate, h⟩ := Program.bind_eq_ok.1 h
  obtain ⟨hfree, hfiles₁⟩ := createFirst_eq_ok hcreate
  obtain ⟨_, disk₂, hvalid, h⟩ := Program.bind_eq_ok.1 h
  have hfiles₂ : disk₂.files = disk₁.files := by
    have := withParent_files validateWriteTarget_files q disk₁
    rwa [hvalid] at this
  obtain ⟨_, disk₃, hopen, h⟩ := Program.bind_eq_ok.1 h
  obtain ⟨hfiles₃, content, hcontent⟩ := openFile_eq_ok hopen
  rw [hfiles₂, hfiles₁] at hcontent hfiles₃
  refine ⟨q, content, hfree, ?_, ?_⟩
  · rw [ioCopy_eq_ok h, hfiles₃, hcontent, Option.getD_some, update_idem]
  · by_cases heq : source = q
    · exact Or.inr heq
    · rw [update_of_ne heq] at hcontent
      exact Or.inl hcontent

theorem streamInto_eq_ok (hsource : disk.files source = some content)
    (h : (streamInto source target).exec disk = (.ok u, disk')) :
    ∃ q, FirstFree disk.files (numberedPaths target) q ∧
      disk'.files = update disk.files q (some content) := by
  obtain ⟨q, content', hfree, hfiles, hcontent | rfl⟩ := streamInto_eq_ok_cases h
  · obtain rfl := Option.some.inj (hsource.symm.trans hcontent)
    exact ⟨q, hfree, hfiles⟩
  · rw [hfree.free] at hsource
    cases hsource

/-- What the creation of directories leaves to be done. -/
theorem exec_withParent_createDirAll {α : Type} {f : Unit → Io α} {r : Except IoError α}
    (h : (withParent p createDirAll >>= f).exec disk = (r, disk')) :
    (∃ err, r = .error err ∧ disk'.files = disk.files) ∨
      ∃ disk₁, disk₁.files = disk.files ∧ (f ()).exec disk₁ = (r, disk') := by
  rcases exec_bind_of_files (withParent_files createDirAll_files p disk) h with
    herr | ⟨_, disk₁, -, hfiles, h⟩
  · exact Or.inl herr
  · exact Or.inr ⟨disk₁, hfiles, h⟩

/-- Copying to a new file loses nothing. -/
theorem copyInto_kept (source target : Path) (disk : Disk) :
    FilesKept lost disk ((copyInto source target).exec disk).2 := by
  rcases h : (copyInto source target).exec disk with ⟨r, disk'⟩
  rcases exec_withParent_createDirAll h with ⟨err, -, hfiles⟩ | ⟨disk₁, hfiles, h⟩
  · exact .of_eq hfiles
  · have hkept : FilesKept lost disk₁ _ := streamInto_kept source target disk₁
    rw [h] at hkept
    exact fun p content hp hlost => hkept p content (hfiles ▸ hp) hlost

theorem copyInto_eq_ok (hsource : disk.files source = some content)
    (h : (copyInto source target).exec disk = (.ok u, disk')) :
    ∃ q, FirstFree disk.files (numberedPaths target) q ∧
      disk'.files = update disk.files q (some content) := by
  rcases exec_withParent_createDirAll h with ⟨err, herr, -⟩ | ⟨disk₁, hfiles, h⟩
  · cases herr
  · rw [← hfiles] at hsource ⊢
    exact streamInto_eq_ok hsource h

/-- A renaming that goes through, in place of one that does not. -/
theorem renameIfFree_cases {r : Except IoError Bool}
    (h : (renameIfFree source target).exec disk = (r, disk')) :
    (r = .ok true ∧ disk.files target = none ∧ ∃ content, disk.files source = some content ∧
      disk'.files = update (update disk.files source none) target (some content)) ∨
    (r = .ok false ∧ disk'.files = disk.files) := by
  unfold renameIfFree at h
  rw [Program.exec_bind] at h
  unfold fileExists at h
  rw [Program.exec_step] at h
  dsimp only at h
  split at h
  · cases h
    exact Or.inr ⟨rfl, rfl⟩
  · next hexists =>
    rw [Program.exec_bind, Program.exec_attempt] at h
    rcases hrename : (renameFile source target).exec disk with ⟨err | u, disk₁⟩
    · rw [hrename] at h
      cases h
      exact Or.inr ⟨rfl, fileCall_eq_error hrename⟩
    · rw [hrename] at h
      cases h
      obtain ⟨content, hsource, hfiles⟩ := renameFile_eq_ok hrename
      refine Or.inl ⟨rfl, ?_, content, hsource, hfiles⟩
      rwa [Bool.not_eq_true, Option.isSome_eq_false_iff, Option.isNone_iff_eq_none] at hexists

/-- **Moving a file loses no other.** -/
theorem moveInto_kept (source target : Path) (disk : Disk) :
    FilesKept (· = source) disk ((moveInto source target).exec disk).2 := by
  rcases h : (moveInto source target).exec disk with ⟨r, disk'⟩
  rcases exec_withParent_createDirAll h with ⟨err, -, hfiles⟩ | ⟨disk₁, hfiles, h⟩
  · exact .of_eq hfiles
  refine FilesKept.trans (.of_eq hfiles) (?_ : FilesKept (· = source) disk₁ disk')
  rw [Program.exec_bind] at h
  rcases hrename : (renameIfFree source target).exec disk₁ with ⟨b, disk₂⟩
  rw [hrename] at h
  rcases renameIfFree_cases hrename with ⟨rfl, hfree, content, -, hfiles₂⟩ | ⟨rfl, hfiles₂⟩
  · cases h
    intro p content' hp hne
    have hpt : p ≠ target := ne_of_free hp hfree
    rw [hfiles₂, update_of_ne hpt, update_of_ne hne, hp]
  · refine FilesKept.trans (.of_eq hfiles₂) (?_ : FilesKept (· = source) disk₂ disk')
    have hkeeps : Program.Keeps (FilesKept (· = source))
        (streamInto source target >>= fun _ => syncAll >>= fun _ => removeFile source) := by
      refine .bind (streamInto_kept source target) fun _ =>
        .bind (fun disk => .of_eq (syncAll_files disk)) fun _ => ?_
      intro disk
      rcases hremove : (removeFile source).exec disk with ⟨err | u, disk'⟩
      · exact .of_eq (fileCall_eq_error hremove)
      · exact .of_update_lost rfl (removeFile_eq_ok hremove)
    have hkept := hkeeps disk₂
    rw [show (streamInto source target >>= fun _ => syncAll >>= fun _ => removeFile source).exec
      disk₂ = (r, disk') from h] at hkept
    exact hkept

/-- **A file moved is at the first free name and no longer where it was.** -/
theorem moveInto_eq_ok (hsource : disk.files source = some content)
    (h : (moveInto source target).exec disk = (.ok u, disk')) :
    ∃ q, FirstFree disk.files (numberedPaths target) q ∧
      disk'.files = update (update disk.files source none) q (some content) := by
  rcases exec_withParent_createDirAll h with ⟨err, herr, -⟩ | ⟨disk₁, hfiles, h⟩
  · cases herr
  rw [← hfiles] at hsource ⊢
  rw [Program.exec_bind] at h
  rcases hrename : (renameIfFree source target).exec disk₁ with ⟨b, disk₂⟩
  rw [hrename] at h
  rcases renameIfFree_cases hrename with ⟨rfl, hfree, content', hsource', hfiles₂⟩ | ⟨rfl, hfiles₂⟩
  · cases h
    obtain rfl := Option.some.inj (hsource'.symm.trans hsource)
    exact ⟨target, ⟨[], _, rfl, fun r hr => (List.not_mem_nil hr).elim, hfree⟩, hfiles₂⟩
  · rw [← hfiles₂] at hsource ⊢
    obtain ⟨_, disk₃, hstream, h⟩ := Program.bind_eq_ok.1 h
    obtain ⟨q, hfree, hfiles₃⟩ := streamInto_eq_ok hsource hstream
    obtain ⟨_, disk₄, hsync, h⟩ := Program.bind_eq_ok.1 h
    have hfiles₄ : disk₄.files = disk₃.files := by
      have := syncAll_files disk₃
      rwa [hsync] at this
    have hne : q ≠ source := (ne_of_free hsource hfree.free).symm
    refine ⟨q, hfree, ?_⟩
    rw [removeFile_eq_ok h, hfiles₄, hfiles₃, update_comm hne]

/-- A move of a file that is not there, where it goes through, makes the file
and removes it. -/
theorem moveInto_eq_ok_of_none (hsource : disk.files source = none)
    (h : (moveInto source target).exec disk = (.ok u, disk')) : disk'.files = disk.files := by
  rcases exec_withParent_createDirAll h with ⟨err, herr, -⟩ | ⟨disk₁, hfiles, h⟩
  · cases herr
  rw [← hfiles] at hsource ⊢
  rw [Program.exec_bind] at h
  rcases hrename : (renameIfFree source target).exec disk₁ with ⟨b, disk₂⟩
  rw [hrename] at h
  rcases renameIfFree_cases hrename with ⟨rfl, -, content, hcontent, -⟩ | ⟨rfl, hfiles₂⟩
  · rw [hsource] at hcontent
    cases hcontent
  rw [← hfiles₂] at hsource ⊢
  obtain ⟨_, disk₃, hstream, h⟩ := Program.bind_eq_ok.1 h
  obtain ⟨q, content, -, hfiles₃, hcontent | rfl⟩ := streamInto_eq_ok_cases hstream
  · rw [hsource] at hcontent
    cases hcontent
  obtain ⟨_, disk₄, hsync, h⟩ := Program.bind_eq_ok.1 h
  have hfiles₄ : disk₄.files = disk₃.files := by
    have := syncAll_files disk₃
    rwa [hsync] at this
  rw [removeFile_eq_ok h, hfiles₄, hfiles₃, update_idem, ← hsource, update_eq_self]

/-- Copying over a file loses that file, and no other. -/
theorem executeCopyWithRenameOperation_kept (source target : Path) (disk : Disk) :
    FilesKept (· = target) disk ((executeCopyWithRenameOperation source target).exec disk).2 := by
  have hkeeps : Program.Keeps (FilesKept (· = target)) (copyFileCifsSafe source target) := by
    refine .bind (fun disk => .of_eq (openFile_files source disk)) fun _ =>
      .bind (fun disk => ?_) fun _ disk => ?_
    · rcases hcreate : (createFile target).exec disk with ⟨err | u, disk'⟩
      · exact .of_eq (fileCall_eq_error hcreate)
      · exact .of_update_lost rfl (createFile_eq_ok hcreate)
    · rcases hcopy : (ioCopy source target).exec disk with ⟨err | u, disk'⟩
      · unfold ioCopy systemCall at hcopy
        rw [Program.exec_step] at hcopy
        dsimp only at hcopy
        split at hcopy
        · cases hcopy
          exact .of_update_lost rfl rfl
        · cases hcopy
        · next hact => cases hact
      · exact .of_update_lost rfl (ioCopy_eq_ok hcopy)
  rcases h : (executeCopyWithRenameOperation source target).exec disk with ⟨r, disk'⟩
  rcases exec_withParent_createDirAll h with ⟨err, -, hfiles⟩ | ⟨disk₁, hfiles, h⟩
  · exact .of_eq hfiles
  · have hkept := hkeeps disk₁
    rw [h] at hkept
    exact fun p content hp hlost => hkept p content (hfiles ▸ hp) hlost

/-- **What a copy over a file leaves there**: the source, which is empty by
then when it is that file. -/
theorem executeCopyWithRenameOperation_eq_ok
    (h : (executeCopyWithRenameOperation source target).exec disk = (.ok u, disk')) :
    ∃ content, disk.files source = some content ∧
      disk'.files = update disk.files target (some (if source = target then [] else content)) := by
  rcases exec_withParent_createDirAll h with ⟨err, herr, -⟩ | ⟨disk₁, hfiles, h⟩
  · cases herr
  obtain ⟨_, disk₂, hopen, h⟩ := Program.bind_eq_ok.1 h
  obtain ⟨hfiles₂, content, hsource⟩ := openFile_eq_ok hopen
  obtain ⟨_, disk₃, hcreate, h⟩ := Program.bind_eq_ok.1 h
  rw [hfiles] at hfiles₂ hsource
  refine ⟨content, hsource, ?_⟩
  rw [ioCopy_eq_ok h, createFile_eq_ok hcreate, hfiles₂, update_idem]
  split
  · next heq => rw [heq, update_self, Option.getD_some]
  · next hne => rw [update_of_ne hne, hsource, Option.getD_some]

/-! ## On a healthy disk -/

variable {files : FileSystem} {journal : Option (List JournalEntry)}

/-- The first of some paths without a file, if there is one. -/
def firstFree (files : FileSystem) (ps : List Path) : Option Path :=
  ps.find? fun p => (files p).isNone

theorem firstFree_eq_some (h : firstFree files ps = some q) : q ∈ ps ∧ files q = none := by
  unfold firstFree at h
  have hfree := List.find?_some h
  exact ⟨List.mem_of_find?_eq_some h, Option.isNone_iff_eq_none.1 hfree⟩

theorem firstFree_cons_of_free (h : files p = none) : firstFree files (p :: ps) = some p :=
  List.find?_cons_of_pos (by rw [h]; rfl)

theorem firstFree_cons_of_taken (h : files p = some content) :
    firstFree files (p :: ps) = firstFree files ps :=
  List.find?_cons_of_neg (by rw [h]; exact Bool.false_ne_true)

theorem FirstFree.firstFree_eq (h : FirstFree files ps q) : firstFree files ps = some q := by
  obtain ⟨before, after, rfl, hbefore, hq⟩ := h
  refine List.find?_eq_some_iff_append.2 ⟨by rw [hq]; rfl, before, after, rfl, fun r hr => ?_⟩
  rw [Option.isNone_eq_false_iff.2 (hbefore r hr)]
  rfl

theorem withParent_createDirAll_healthy (p : Path) :
    (withParent p createDirAll).exec (.healthy files journal) =
      (.ok (), .healthy files journal) := by
  unfold withParent
  split
  · exact createDirAll_healthy files journal _
  · rfl

/-- **Creating a file** takes the first free path, and fails when there is none. -/
theorem createFirst_healthy : ∀ ps, (createFirst ps).exec (.healthy files journal) =
    match firstFree files ps with
    | some q => (.ok q, .healthy (update files q (some [])) journal)
    | none => (.error (.other "Could not resolve filename conflict".toList), .healthy files journal)
  | [] => rfl
  | p :: ps => by
    rw [createFirst, Program.exec_bind, Program.exec_attempt, atomicCreateFile_healthy]
    rcases hp : files p with - | content
    · rw [firstFree_cons_of_free hp]
      rfl
    · rw [firstFree_cons_of_taken hp]
      exact createFirst_healthy ps

/-- A file in a directory is in its own. -/
theorem withParent_validateWriteTarget_healthy (hparent : p.parent ≠ some []) :
    (withParent p validateWriteTarget).exec (.healthy files journal) =
      (.ok (), .healthy files journal) := by
  unfold withParent
  split
  · next parent hp =>
    have hne : parent ≠ [] := by
      rintro rfl
      exact hparent hp
    rw [validateWriteTarget_healthy, if_neg hne]
  · rfl

/-- A file streamed into a new one, in a directory. -/
theorem streamInto_healthy (hsource : files source = some content)
    (hq : firstFree files (numberedPaths target) = some q) (hparent : q.parent ≠ some []) :
    (streamInto source target).exec (.healthy files journal) =
      (.ok (), .healthy (update files q (some content)) journal) := by
  have hne : source ≠ q := ne_of_free hsource (firstFree_eq_some hq).2
  have hopen : update files q (some []) source = some content := by rw [update_of_ne hne, hsource]
  have hcreate : (resolveFilenameConflict target).exec (.healthy files journal) =
      (.ok q, .healthy (update files q (some [])) journal) := by
    rw [resolveFilenameConflict, createFirst_healthy, hq]
  unfold streamInto
  rw [Program.exec_bind_of_ok hcreate,
    Program.exec_bind_of_ok (withParent_validateWriteTarget_healthy hparent),
    Program.exec_bind_of_ok (openFile_healthy hopen), ioCopy_healthy, update_idem, hopen]
  rfl

/-- And where that fails. -/
theorem firstFree_of_streamInto (h : (streamInto source target).exec (.healthy files journal) =
    (.ok u, disk')) :
    ∃ q, firstFree files (numberedPaths target) = some q ∧ q.parent ≠ some [] := by
  unfold streamInto at h
  obtain ⟨q, disk₁, hcreate, h⟩ := Program.bind_eq_ok.1 h
  rw [resolveFilenameConflict, createFirst_healthy] at hcreate
  obtain ⟨_, disk₂, hvalid, -⟩ := Program.bind_eq_ok.1 h
  rcases hq : firstFree files (numberedPaths target) with - | q'
  · rw [hq] at hcreate
    cases hcreate
  · rw [hq] at hcreate
    cases hcreate
    refine ⟨q, rfl, fun hparent => ?_⟩
    rw [withParent, hparent] at hvalid
    dsimp only at hvalid
    rw [validateWriteTarget_healthy, if_pos rfl] at hvalid
    cases hvalid

theorem copyInto_healthy : (copyInto source target).exec (.healthy files journal) =
    (streamInto source target).exec (.healthy files journal) := by
  unfold copyInto
  rw [Program.exec_bind_of_ok (withParent_createDirAll_healthy target)]

/-- A file moved to a free path. -/
theorem moveInto_healthy (hsource : files source = some content) (htarget : files target = none) :
    (moveInto source target).exec (.healthy files journal) =
      (.ok (), .healthy (update (update files source none) target (some content)) journal) := by
  have hrename : (renameIfFree source target).exec (.healthy files journal) =
      (.ok true, .healthy (update (update files source none) target (some content)) journal) := by
    have hexists : (fileExists target : Io Bool).exec (.healthy files journal) =
        (.ok false, .healthy files journal) := by
      rw [fileExists_healthy, htarget]
      rfl
    unfold renameIfFree
    rw [Program.exec_bind_of_ok hexists, if_neg Bool.false_ne_true, Program.exec_bind,
      Program.exec_attempt, renameFile_healthy hsource]
    rfl
  unfold moveInto
  rw [Program.exec_bind_of_ok (withParent_createDirAll_healthy target),
    Program.exec_bind_of_ok hrename, if_pos rfl]
  rfl

/-- A file copied over another. -/
theorem executeCopyWithRenameOperation_healthy (hsource : files source = some content)
    (target : Path) :
    (executeCopyWithRenameOperation source target).exec (.healthy files journal) =
      (.ok (), .healthy (update files target (some (if source = target then [] else content)))
        journal) := by
  have hread : (update files target (some []) source).getD [] =
      if source = target then [] else content := by
    split
    · next heq => rw [heq, update_self, Option.getD_some]
    · next hne => rw [update_of_ne hne, hsource, Option.getD_some]
  unfold executeCopyWithRenameOperation copyFileCifsSafe
  rw [Program.exec_bind_of_ok (withParent_createDirAll_healthy target),
    Program.exec_bind_of_ok (openFile_healthy hsource),
    Program.exec_bind_of_ok (createFile_healthy files journal target), ioCopy_healthy, update_idem,
    hread]

end SubxCore
