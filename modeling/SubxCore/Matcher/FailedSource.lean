import SubxCore.Matcher.Task
/-!
# Sources that cannot be opened

Tasks that copy, back up, move or rename create their file before they open
the source. A task is split there: `reserve` ends with the new file, still
empty, and `deliver` begins with that file in place. A task that fails
leaves the files as they were only when it had reserved none
(`failed_files_iff`), so one that fails at its source never does.
-/

namespace SubxCore

open Text Function

variable {disk disk' disk₁ : Disk} {q : Path} {task : Delivery} {op : ProcessingOperation}
variable {message : Text} {err : IoError}

/-! ## The two halves of a task -/

/-- The renaming that a task that moves its source tries first. -/
def tryRename (task : Delivery) : Io Bool :=
  if task.moves then renameIfFree task.source task.target else pure false

/-- A task up to its new file; there is none where the source was renamed. -/
def reserve (task : Delivery) : Io (Option Path) := do
  withParent task.target createDirAll
  let renamed ← tryRename task
  if renamed then return none
  else
    let finalTarget ← resolveFilenameConflict task.target
    return some finalTarget

/-- A task from its new file on. -/
def deliver (task : Delivery) (finalTarget : Path) : Io Unit := do
  withParent finalTarget validateWriteTarget
  openFile task.source
  ioCopy task.source finalTarget
  if task.moves then
    syncAll
    removeFile task.source

/-- Both. -/
def reserveThenDeliver (task : Delivery) : Io Unit := do
  match ← reserve task with
  | some finalTarget => deliver task finalTarget
  | none => return ()

theorem copyInto_eq (source target : Path) :
    copyInto source target = reserveThenDeliver ⟨false, source, target⟩ := by
  simp only [copyInto, streamInto, reserveThenDeliver, reserve, tryRename, deliver, bind_assoc,
    pure_bind, Bool.false_eq_true, if_false]
  simp

theorem moveInto_eq (source target : Path) :
    moveInto source target = reserveThenDeliver ⟨true, source, target⟩ := by
  simp only [moveInto, streamInto, reserveThenDeliver, reserve, tryRename, deliver, bind_assoc,
    if_true]
  congr 1
  funext _
  congr 1
  funext renamed
  cases renamed
  · simp
  · simp

/-- **The operations that reserve their target** are their two halves. -/
theorem execute_eq_reserveThenDeliver (h : op.delivery = some task) :
    ∃ text : IoError → Text, op.execute = (reserveThenDeliver task).mapError text := by
  rcases op with ⟨s, t⟩ | ⟨s, t⟩ | ⟨s, t⟩ | ⟨s, t⟩ | ⟨s, t⟩
  · cases h
    exact ⟨_, by rw [← copyInto_eq]; rfl⟩
  · cases h
    exact ⟨_, by rw [← moveInto_eq]; rfl⟩
  · cases h
  · cases h
    exact ⟨_, by rw [← copyInto_eq]; rfl⟩
  · cases h
    exact ⟨_, by rw [← moveInto_eq]; rfl⟩

/-! ## What each half leaves -/

theorem tryRename_cases {r : Except IoError Bool}
    (h : (tryRename task).exec disk = (r, disk')) :
    r = .ok true ∨ (r = .ok false ∧ disk'.files = disk.files) := by
  unfold tryRename at h
  split at h
  · rcases renameIfFree_cases h with ⟨htrue, -⟩ | hfalse
    · exact Or.inl htrue
    · exact Or.inr hfalse
  · cases h
    exact Or.inr ⟨rfl, rfl⟩

/-- **What is reserved** is the first free path, where an empty file is made;
otherwise the source was renamed, or the files are left. -/
theorem reserve_cases {r : Except IoError (Option Path)}
    (h : (reserve task).exec disk = (r, disk₁)) :
    (∃ err, r = .error err ∧ disk₁.files = disk.files) ∨ r = .ok none ∨
      ∃ q, r = .ok (some q) ∧ FirstFree disk.files (numberedPaths task.target) q ∧
        disk₁.files = update disk.files q (some []) := by
  rcases exec_withParent_createDirAll h with herr | ⟨disk₂, hfiles₂, h⟩
  · exact Or.inl herr
  rw [← hfiles₂]
  rcases hrename : (tryRename task).exec disk₂ with ⟨renamed, disk₃⟩
  rcases tryRename_cases hrename with rfl | ⟨rfl, hfiles₃⟩
  · rw [Program.exec_bind_of_ok hrename] at h
    cases h
    exact Or.inr (Or.inl rfl)
  rw [Program.exec_bind_of_ok hrename] at h
  rw [← hfiles₃]
  rcases hresolve : (resolveFilenameConflict task.target).exec disk₃ with ⟨err | q, disk₄⟩
  · rw [if_neg Bool.false_ne_true, Program.exec_bind_of_error hresolve] at h
    cases h
    exact Or.inl ⟨err, rfl, createFirst_eq_error hresolve⟩
  · rw [if_neg Bool.false_ne_true, Program.exec_bind_of_ok hresolve] at h
    cases h
    exact Or.inr (Or.inr ⟨q, rfl, createFirst_eq_ok hresolve⟩)

/-- **A file that is there is there after a delivery that fails.** -/
theorem deliver_eq_error (hq : (disk.files q).isSome)
    (h : (deliver task q).exec disk = (.error err, disk')) : (disk'.files q).isSome := by
  rcases exec_bind_of_files (withParent_files validateWriteTarget_files q disk) h with
    ⟨-, -, hfiles⟩ | ⟨_, disk₂, -, hfiles₂, h⟩
  · rwa [hfiles]
  rcases exec_bind_of_files (openFile_files task.source disk₂) h with
    ⟨-, -, hfiles⟩ | ⟨_, disk₃, -, hfiles₃, h⟩
  · rwa [hfiles, hfiles₂]
  rcases hcopy : (ioCopy task.source q).exec disk₃ with ⟨err' | u, disk₄⟩
  · rw [Program.exec_bind_of_error hcopy] at h
    cases h
    exact ioCopy_isSome hcopy
  rw [Program.exec_bind_of_ok hcopy] at h
  have hcopied : (disk₄.files q).isSome := ioCopy_isSome hcopy
  split at h
  · rcases exec_bind_of_files (syncAll_files disk₄) h with
      ⟨-, -, hfiles⟩ | ⟨_, disk₅, -, hfiles₅, h⟩
    · rwa [hfiles]
    · rwa [fileCall_eq_error h, hfiles₅]
  · cases h

/-- **A task that fails** leaves the files as they were when it had reserved no
file, and only then. -/
theorem failed_files_iff (hop : op.delivery = some task)
    (h : op.execute.exec disk = (.error message, disk')) :
    disk'.files = disk.files ↔ ∀ q disk₁, (reserve task).exec disk ≠ (.ok (some q), disk₁) := by
  obtain ⟨text, hexecute⟩ := execute_eq_reserveThenDeliver hop
  rw [hexecute, Program.exec_mapError] at h
  rcases hrun : (reserveThenDeliver task).exec disk with ⟨err | u, disk''⟩
  swap
  · rw [hrun] at h
    cases h
  rw [hrun] at h
  cases h
  unfold reserveThenDeliver at hrun
  rcases hreserve : (reserve task).exec disk with ⟨r, disk₁⟩
  rcases reserve_cases hreserve with ⟨err', rfl, hfiles⟩ | rfl | ⟨q, rfl, hfree, hfiles⟩
  · rw [Program.exec_bind_of_error hreserve] at hrun
    cases hrun
    refine iff_of_true hfiles fun q disk₂ h => ?_
    cases h
  · rw [Program.exec_bind_of_ok hreserve] at hrun
    cases hrun
  · rw [Program.exec_bind_of_ok hreserve] at hrun
    -- the new file stays, and there was none at its path
    refine iff_of_false (fun hsame => ?_) fun h => h q disk₁ rfl
    have hthere := deliver_eq_error (by rw [hfiles, update_self]; rfl) hrun
    rw [hsame, hfree.free] at hthere
    cases hthere

/-! ## Failing at the source -/

/-- A task reaches the opening of its source, and that fails. -/
def FailsOnSource (task : Delivery) (disk : Disk) : Prop :=
  ∃ q disk₁ disk₂ err disk₃, (reserve task).exec disk = (.ok (some q), disk₁) ∧
    (withParent q validateWriteTarget).exec disk₁ = (.ok (), disk₂) ∧
    (openFile task.source).exec disk₂ = (.error err, disk₃)

/-- **A task that fails on its source leaves an empty file**, at the first free
path. -/
theorem failsOnSource_leaves_file (hop : op.delivery = some task) (h : FailsOnSource task disk) :
    ∃ message disk' q, op.execute.exec disk = (.error message, disk') ∧
      FirstFree disk.files (numberedPaths task.target) q ∧
      disk'.files = update disk.files q (some []) ∧ disk'.files ≠ disk.files := by
  obtain ⟨q, disk₁, disk₂, err, disk₃, hreserve, hvalid, hopen⟩ := h
  obtain ⟨text, hexecute⟩ := execute_eq_reserveThenDeliver hop
  have hrun : (reserveThenDeliver task).exec disk = (.error err, disk₃) := by
    unfold reserveThenDeliver
    rw [Program.exec_bind_of_ok hreserve]
    dsimp only
    unfold deliver
    rw [Program.exec_bind_of_ok hvalid, Program.exec_bind_of_error hopen]
  have hfailed : op.execute.exec disk = (.error (text err), disk₃) := by
    rw [hexecute, Program.exec_mapError, hrun]
    rfl
  have hfree : FirstFree disk.files (numberedPaths task.target) q ∧
      disk₁.files = update disk.files q (some []) := by
    rcases reserve_cases hreserve with ⟨err', hr, -⟩ | hr | ⟨q', hr, hspec⟩
    · cases hr
    · cases hr
    · cases hr
      exact hspec
  refine ⟨_, disk₃, q, hfailed, hfree.1, ?_, fun hsame => ?_⟩
  · have hfiles₂ := withParent_files validateWriteTarget_files q disk₁
    rw [hvalid] at hfiles₂
    rw [fileCall_eq_error hopen, hfiles₂, hfree.2]
  · exact (failed_files_iff hop hfailed).1 hsame q disk₁ hreserve

variable {files : FileSystem} {journal : Option (List JournalEntry)}

theorem tryRename_healthy (hsource : files task.source = none) :
    (tryRename task).exec (.healthy files journal) = (.ok false, .healthy files journal) := by
  unfold tryRename
  split
  · unfold renameIfFree
    rw [Program.exec_bind, fileExists_healthy]
    dsimp only
    split
    · rfl
    · rw [Program.exec_bind, Program.exec_attempt, renameFile, fileCall_healthy, hsource]
      rfl
  · rfl

/-- A source that is missing makes a task fail on it, on a disk where nothing else
does, unless the first free path is the source. -/
theorem failsOnSource_healthy (hsource : files task.source = none)
    (hq : firstFree files (numberedPaths task.target) = some q) (hne : q ≠ task.source)
    (hparent : q.parent ≠ some []) : FailsOnSource task (.healthy files journal) := by
  refine ⟨q, .healthy (update files q (some [])) journal,
    .healthy (update files q (some [])) journal, .notFound,
    .healthy (update files q (some [])) journal, ?_, ?_, ?_⟩
  · have hcreate : (resolveFilenameConflict task.target).exec (.healthy files journal) =
        (.ok q, .healthy (update files q (some [])) journal) := by
      rw [resolveFilenameConflict, createFirst_healthy, hq]
    unfold reserve
    rw [Program.exec_bind_of_ok (withParent_createDirAll_healthy task.target),
      Program.exec_bind_of_ok (tryRename_healthy hsource), if_neg Bool.false_ne_true,
      Program.exec_bind_of_ok hcreate]
    rfl
  · exact withParent_validateWriteTarget_healthy hparent
  · rw [openFile, fileCall_healthy, update_of_ne hne.symm, hsource]

/-- A source that is there is delivered to the first free path, in a directory. -/
theorem reserveThenDeliver_healthy {content : Bytes} (hsource : files task.source = some content)
    (hq : firstFree files (numberedPaths task.target) = some q) (hparent : q.parent ≠ some []) :
    (reserveThenDeliver task).exec (.healthy files journal) =
      (.ok (), .healthy (update (if task.moves then update files task.source none else files) q
        (some content)) journal) := by
  obtain ⟨moves, source, target⟩ := task
  cases moves with
  | false => rw [← copyInto_eq, copyInto_healthy, streamInto_healthy hsource hq hparent]; rfl
  | true =>
    rw [← moveInto_eq]
    rcases htarget : files target with - | old
    · -- renamed
      rw [numberedPaths, firstFree_cons_of_free htarget] at hq
      obtain rfl := Option.some.inj hq
      exact moveInto_healthy hsource htarget
    · have hrename : (renameIfFree source target).exec (.healthy files journal) =
          (.ok false, .healthy files journal) := by
        unfold renameIfFree
        rw [Program.exec_bind, fileExists_healthy, htarget]
        rfl
      have hne : q ≠ source := (ne_of_free hsource (firstFree_eq_some hq).2).symm
      have hthere : update files q (some content) source = some content := by
        rw [update_of_ne hne.symm]
        exact hsource
      unfold moveInto
      rw [Program.exec_bind_of_ok (withParent_createDirAll_healthy target),
        Program.exec_bind_of_ok hrename, if_neg Bool.false_ne_true,
        Program.exec_bind_of_ok (streamInto_healthy hsource hq hparent), syncAll,
        Program.exec_bind_of_ok fileCall_healthy, removeFile_healthy hthere, update_comm hne]
      rfl

/-- A backup of a file that is not there. -/
theorem failsOnSource_leaves_file_backup :
    ∃ message disk' q,
      (ProcessingOperation.createBackup (Path.ofText "/films/movie.srt".toList)
        (Path.ofText "/films/movie.srt.backup".toList)).execute.exec (.sound fun _ => none) =
          (.error message, disk') ∧
      FirstFree (Disk.sound fun _ => none).files
        (numberedPaths (Path.ofText "/films/movie.srt.backup".toList)) q ∧
      disk'.files = update (Disk.sound fun _ => none).files q (some []) ∧
      disk'.files ≠ (Disk.sound fun _ => none).files :=
  have hfails : FailsOnSource ⟨false, Path.ofText "/films/movie.srt".toList,
      Path.ofText "/films/movie.srt.backup".toList⟩ (.sound fun _ => none) :=
    failsOnSource_healthy rfl (firstFree_cons_of_free rfl) (by decide) (by decide)
  failsOnSource_leaves_file rfl hfails

/-- **A missing source leaves an empty file**: where a copy fails because there is
nothing to copy, its target was not there and now is. -/
theorem missing_source_leaves_file :
    ((ProcessingOperation.copyToVideoFolder (Path.ofText "/subs/movie.srt".toList)
        (Path.ofText "/films/movie.srt".toList)).execute.exec (.sound fun _ => none)).1 =
      .error "Copy failed: No such file or directory (os error 2)".toList ∧
    ((ProcessingOperation.copyToVideoFolder (Path.ofText "/subs/movie.srt".toList)
        (Path.ofText "/films/movie.srt".toList)).execute.exec (.sound fun _ => none)).2.files
      (Path.ofText "/films/movie.srt".toList) = some [] ∧
    (Disk.sound fun _ => none).files (Path.ofText "/films/movie.srt".toList) = none := by
  decide +kernel

end SubxCore
