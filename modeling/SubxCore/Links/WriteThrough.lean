import SubxCore.Links.TargetDirectory
/-!
# Writing through links

A file task is to write through no link, and to change nothing outside the directory of
its target. Tasks that create their file exclusively do so. A copy with a new name
truncates whatever its target leads to: it does so exactly where its target is no link
that a file can be opened through (`neverWritesThroughLink_iff`).
-/

namespace SubxCore

namespace Links

open LinkTree Function Program
open DirTree (Below)
open Archive (Location)

variable {v : Volume} {dir l src : Location} {c c' : Contents} {p source target : Path}
variable {o : Opened} {bytes : Bytes}

/-! ## Copying with a new name -/

/-- A link that a file can be opened through for writing: the entry, and the file. -/
structure Contents.LeadsThrough (c : Contents) (p : Path) (o : Opened) : Prop where
  entry : c.locate false p = .ok o.entry
  link : ∃ target, c.tree o.entry = some (.link target)
  file : c.locate true p = .ok o.file
  noWay : NoWay (c.tree o.file)

theorem Contents.LeadsThrough.file_ne_entry (h : c.LeadsThrough p o) : o.file ≠ o.entry := by
  obtain ⟨target, hlink⟩ := h.link
  intro heq
  exact h.noWay.ne_link target (heq ▸ hlink)

/-- Creating a file truncates or makes what its path leads to. -/
theorem create_eq_ok_iff : c.create p = .ok (o, c') ↔
    c.locate true p = .ok o.file ∧ NoWay (c.tree o.file) ∧ c.locate false p = .ok o.entry ∧
      c' = c.write o [] := by
  unfold Contents.create
  rw [Run.bind_eq_ok]
  constructor
  · rintro ⟨l, hl, h⟩
    split at h
    · cases h
    · cases h
    · next hdirectory hlink =>
      obtain ⟨entry, hentry, h⟩ := Run.bind_eq_ok.1 h
      cases h
      refine ⟨hl, (noWay_or (c.tree l)).resolve_right ?_, hentry, rfl⟩
      rintro (hnode | ⟨target, hnode⟩)
      · exact hdirectory hnode
      · exact hlink target hnode
  · rintro ⟨hl, hno, hentry, rfl⟩
    refine ⟨o.file, hl, ?_⟩
    split
    · next hnode => exact absurd hnode hno.ne_directory
    · next target hnode => exact absurd hnode (hno.ne_link target)
    · exact Run.bind_eq_ok.2 ⟨o.entry, hentry, rfl⟩

/-- **What a copy with a new name may have done**: the file that its target leads to
holds the beginning of what is copied, and nothing else has changed. -/
structure Truncated (v : Volume) (source target : Path) (src : Location) (o : Opened)
    (c : Contents) : Prop where
  opens : v.start.Opens source src
  file : v.start.locate true target = .ok o.file
  noWay : NoWay (v.tree o.file)
  entry : v.start.locate false target = .ok o.entry
  tree : ∃ bytes, c.tree = update v.tree o.file (some (.file bytes)) ∧
    (bytes = [] ∨ ∃ content, v.tree src = some (.file content) ∧ bytes <+: content)
  writes : ∀ w ∈ c.writes, w = o

/-- Nothing, or that. -/
def CopiedOver (v : Volume) (source target : Path) (c : Contents) : Prop :=
  c = v.start ∨ ∃ src o, Truncated v source target src o c

/-- A file just truncated holds nothing, and then what is copied. -/
theorem Truncated.write (h : Truncated v source target src o (v.start.write o []))
    {content : Bytes} (hsrc : (v.start.write o []).tree src = some (.file content))
    (hbytes : bytes <+: content) :
    Truncated v source target src o ((v.start.write o []).write o bytes) := by
  refine { h with tree := ⟨bytes, ?_, ?_⟩, writes := fun w hw => ?_ }
  · rw [Contents.write_tree, Contents.write_tree, update_idem]
    rfl
  · -- a source that is the truncated file itself has nothing left to give
    by_cases heq : src = o.file
    · rw [Contents.write_tree, heq, update_self] at hsrc
      cases hsrc
      exact .inl (List.prefix_nil.1 hbytes)
    · rw [Contents.write_tree, update_of_ne heq] at hsrc
      exact .inr ⟨content, hsrc, hbytes⟩
  · rcases List.mem_append.1 hw with hw | hw
    · exact h.writes w hw
    · exact List.mem_singleton.1 hw

/-- **A copy with a new name** does nothing else, whether it goes through or not. -/
theorem triple_executeCopyWithRenameOperation (hdir : v.start.LiesIn target dir) :
    Triple (On (· = v.start)) (executeCopyWithRenameOperation source target)
      (fun _ => On (CopiedOver v source target)) fun _ => On (CopiedOver v source target) := by
  refine .bind ((triple_createDirAll fun _ hc => hc ▸ hdir).weaken_error fun _ _ hs => .inl hs)
    fun _ => ?_
  refine .bind (triple_openFile.weaken_error fun _ _ hs => .inl hs) fun src => ?_
  refine .bind (Q := fun o => On fun c =>
      c = v.start.write o [] ∧ Truncated v source target src o c)
    ((triple_plainCall fun c o c' hc h => ?_).weaken_error fun _ _ hs => .inl hs.1) fun o => ?_
  · obtain ⟨rfl, hopens⟩ := hc
    obtain ⟨hfile, hno, hentry, rfl⟩ := create_eq_ok_iff.1 h
    refine ⟨rfl, hopens, hfile, hno, hentry, ⟨[], rfl, .inl rfl⟩, fun w hw => ?_⟩
    exact List.mem_singleton.1 hw
  · refine triple_call (fun fault c hc => ?_) (fun c u c' hc h => ?_)
      fun c _ hc _ => .inr ⟨src, o, hc.2⟩
    · obtain ⟨rfl, htruncated⟩ := hc
      split
      · next content hsrc =>
        exact .inr ⟨src, o, htruncated.write hsrc (List.take_prefix _ _)⟩
      · exact .inr ⟨src, o, htruncated⟩
    · obtain ⟨rfl, htruncated⟩ := hc
      split at h
      · next content hsrc =>
        cases h
        exact .inr ⟨src, o, htruncated.write hsrc List.prefix_rfl⟩
      · cases h

/-- What is opened through no link is a file of the directory. -/
theorem Truncated.direct (h : Truncated v source target src o c)
    (hdir : v.start.LiesIn target dir) (hnot : ¬ v.start.LeadsThrough target o) :
    Direct v dir o := by
  have hlink : ∀ t, v.tree o.entry ≠ some (.link t) :=
    fun t ht => hnot ⟨h.entry, ⟨t, ht⟩, h.file, h.noWay⟩
  rcases hname : target.fileName with - | name
  · obtain ⟨l, hdirectory, hlocate⟩ := locate_nameless v.grown hdir hname
    obtain rfl := Except.ok.inj ((hlocate true).symm.trans h.file)
    exact absurd hdirectory h.noWay.ne_directory
  · have hentry : v.start.locate false target = .ok (dir ++ [name]) :=
      locate_name hdir hname fun h => by cases h
    have hown := Except.ok.inj (hentry.symm.trans h.entry)
    have hfile : v.start.locate true target = .ok (dir ++ [name]) :=
      locate_name hdir hname fun _ t => hown ▸ hlink t
    have hfile := Except.ok.inj (hfile.symm.trans h.file)
    exact ⟨⟨name, hfile.symm⟩, h.noWay, hfile.symm.trans hown⟩

theorem Truncated.eq_of_ne (h : Truncated v source target src o c) (hl : l ≠ o.file) :
    c.tree l = v.tree l := by
  obtain ⟨bytes, htree, -⟩ := h.tree
  rw [htree, update_of_ne hl]

theorem Direct.below (h : Direct v dir o) : Below dir o.file := by
  obtain ⟨name, hname⟩ := h.named
  rw [hname]
  exact below_concat dir name

/-! ## A copy through a link -/

/-- What a copy leaves, with the failure it meets, if any. -/
theorem contents_ioCopy (c : Contents) (src : Location) (o : Opened) (faults : ℕ → Option Fault) :
    ((ioCopy src o).exec ⟨c, faults⟩).2.contents =
      match c.tree src with
      | some (.file bytes) =>
        c.write o ((faults 0).elim bytes fun fault => bytes.take fault.written)
      | _ => c := by
  rw [ioCopy, call, exec_step]
  dsimp only
  rcases faults 0 with - | fault <;> rcases c.tree src with - | - | bytes | target <;> rfl

/-- **A copy with a new name gets to the copying**, when no call fails before: the
directory is there, the source is opened, and so is the file behind the link. -/
theorem exists_exec_executeCopyWithRename (hdir : v.start.LiesIn target dir)
    (hopens : v.start.Opens source src) (hleads : v.start.LeadsThrough target o) :
    ∃ k, ∀ faults : ℕ → Option Fault, (∀ n < k, faults n = none) →
      (executeCopyWithRenameOperation source target).exec ⟨v.start, faults⟩ =
        (ioCopy src o).exec ⟨v.start.write o [], fun n => faults (n + k)⟩ := by
  obtain ⟨parent, hparent, hresolve, hdirectory⟩ := hdir
  obtain ⟨made, hmade⟩ : ∃ made, made = if parent = [] then 0 else 1 := ⟨_, rfl⟩
  refine ⟨made + 2, fun faults hfaults => ?_⟩
  have hmake : (withParent target createDirAll).exec ⟨v.start, faults⟩ =
      (.ok (), ⟨v.start, fun n => faults (n + made)⟩) := by
    rw [withParent, hparent, hmade]
    exact exec_createDirAll hresolve hdirectory faults
  have hopen : (openFile source).exec ⟨v.start, fun n => faults (n + made)⟩ =
      (.ok src, ⟨v.start, fun n => faults (n + 1 + made)⟩) := by
    refine exec_plainCall_of_ok (hfaults _ (by omega)) (Run.bind_eq_ok.2 ⟨src, hopens.1, ?_⟩)
    obtain ⟨node, hnode⟩ := Option.ne_none_iff_exists'.1 hopens.2
    rw [hnode]
  have hcreate : (createFile target).exec ⟨v.start, fun n => faults (n + 1 + made)⟩ =
      (.ok o, ⟨v.start.write o [], fun n => faults (n + 1 + 1 + made)⟩) :=
    exec_plainCall_of_ok (hfaults _ (by omega))
      (create_eq_ok_iff.2 ⟨hleads.file, hleads.noWay, hleads.entry, rfl⟩)
  have hcalls : (fun n => faults (n + (made + 2))) = fun n => faults (n + 1 + 1 + made) :=
    funext fun n => congrArg faults (by omega)
  rw [executeCopyWithRenameOperation, exec_bind_of_ok hmake, copyFileCifsSafe,
    exec_bind_of_ok hopen, exec_bind_of_ok hcreate, hcalls]

/-! ## The tasks that keep to it -/

/-- The contents after a task. -/
def after (v : Volume) (op : ProcessingOperation) (faults : ℕ → Option Fault) : Contents :=
  ((execute op).exec ⟨v.start, faults⟩).2.contents

/-- **A task writes through no link**, whatever calls fail. -/
def WritesDirectly (v : Volume) (op : ProcessingOperation) : Prop :=
  ∀ faults, ∀ w ∈ (after v op faults).writes, w.file = w.entry

/-- **A task creates and changes nothing outside a directory**, whatever calls fail,
apart from the removal of its source. -/
def KeepsOutside (v : Volume) (op : ProcessingOperation) (dir : Location) : Prop :=
  ∀ faults, KeptOutside v dir op.source (after v op faults)

/-- A copy with a new name has a target that no file is opened through, or a source
that is not opened. -/
def LinkSafe (v : Volume) (op : ProcessingOperation) : Prop :=
  ∀ source target, op = .copyWithRename source target →
    ∀ src o, v.start.Opens source src → ¬ v.start.LeadsThrough target o

/-- Or the file behind the link lies in the directory, or is empty, like what would be
copied to it. -/
def OutsideSafe (v : Volume) (op : ProcessingOperation) (dir : Location) : Prop :=
  ∀ source target, op = .copyWithRename source target →
    ∀ src o, v.start.Opens source src → v.start.LeadsThrough target o →
      Below dir o.file ∨ v.tree o.file = some (.file []) ∧
        ∀ content, v.tree src = some (.file content) → content = []

variable {op : ProcessingOperation} {faults : ℕ → Option Fault}

/-- What a program comes to either way, its errors renamed. -/
theorem of_triple {P R : Contents → Prop} {x : Call Unit} {f : IoError → Text}
    (h : Triple (On P) x (fun _ => On R) fun _ => On R) (hc : P c) :
    R ((x.mapError f).exec ⟨c, faults⟩).2.contents := by
  have hrun := h ⟨c, faults⟩ hc
  rw [exec_mapError]
  rcases hexec : x.exec ⟨c, faults⟩ with ⟨err | u, s⟩
  · rw [hexec] at hrun
    exact hrun
  · rw [hexec] at hrun
    exact hrun

/-- A task ends as it should, or has copied over what its target leads to. -/
theorem done_or_copiedOver (hdir : v.start.LiesIn op.target dir) (faults : ℕ → Option Fault) :
    Done v dir op.source (after v op faults) ∨
      ∃ source target, op = .copyWithRename source target ∧
        CopiedOver v source target (after v op faults) := by
  have hready : Ready v dir v.start := .start v dir
  cases op with
  | copyToVideoFolder source target =>
    exact .inl ((of_triple (triple_copyInto hdir) hready).done source)
  | moveToVideoFolder source target => exact .inl (of_triple (triple_moveInto hdir) hready)
  | copyWithRename source target =>
    exact .inr ⟨source, target, rfl,
      of_triple (triple_executeCopyWithRenameOperation hdir) rfl⟩
  | createBackup source backup =>
    exact .inl ((of_triple (triple_copyInto hdir) hready).done source)
  | renameFile source target => exact .inl (of_triple (triple_moveInto hdir) hready)

/-- **A safe task ends as it should.** -/
theorem LinkSafe.done (hsafe : LinkSafe v op) (hdir : v.start.LiesIn op.target dir)
    (faults : ℕ → Option Fault) : Done v dir op.source (after v op faults) := by
  rcases done_or_copiedOver hdir faults with hdone | ⟨source, target, rfl, hstart | ⟨src, o, h⟩⟩
  · exact hdone
  · rw [hstart]
    exact (Ready.start v dir).done source
  · have hdirect := h.direct hdir (hsafe source target rfl src o h.opens)
    refine ⟨fun w hw => h.writes w hw ▸ hdirect.entry, fun l hl => .inl (h.eq_of_ne ?_)⟩
    rintro rfl
    exact hl hdirect.below

theorem OutsideSafe.keptOutside (hsafe : OutsideSafe v op dir)
    (hdir : v.start.LiesIn op.target dir) : KeepsOutside v op dir := by
  intro faults l hl
  rcases done_or_copiedOver hdir faults with hdone | ⟨source, target, rfl, hstart | ⟨src, o, h⟩⟩
  · exact hdone.outside l hl
  · exact .inl (by rw [hstart]; rfl)
  by_cases hne : l = o.file
  · subst hne
    by_cases hleads : v.start.LeadsThrough target o
    · obtain ⟨hempty, hsource⟩ :=
        (hsafe source target rfl src o h.opens hleads).resolve_left hl
      obtain ⟨bytes, htree, hbytes⟩ := h.tree
      have hnil : bytes = [] := by
        rcases hbytes with rfl | ⟨content, hcontent, hbegins⟩
        · rfl
        · rw [hsource content hcontent] at hbegins
          exact List.prefix_nil.1 hbegins
      exact .inl (by rw [htree, update_self, hnil, hempty])
    · exact absurd (h.direct hdir hleads).below hl
  · exact .inl (h.eq_of_ne hne)

/-- The run in which a single call fails, and writes nothing. -/
def failingAt (k : ℕ) : ℕ → Option Fault := fun n => if n = k then some ⟨[], 0⟩ else none

/-- **A task that keeps to its directory is safe.** -/
theorem KeepsOutside.outsideSafe (hkeeps : KeepsOutside v op dir)
    (hdir : v.start.LiesIn op.target dir) : OutsideSafe v op dir := by
  rintro source target rfl src o hopens hleads
  obtain ⟨k, hk⟩ := exists_exec_executeCopyWithRename hdir hopens hleads
  -- whatever the file behind the link holds in the end, it held before
  have hheld : ∀ (faults : ℕ → Option Fault) bytes, (∀ n < k, faults n = none) →
      ((ioCopy src o).exec ⟨v.start.write o [], fun n => faults (n + k)⟩).2.contents.tree o.file =
        some (.file bytes) → ¬ Below dir o.file → v.tree o.file = some (.file bytes) := by
    intro faults bytes hfaults hbytes hbelow
    rw [← hk faults hfaults] at hbytes
    rcases hkeeps faults o.file hbelow with heq | ⟨own, -, -, hnone⟩
    · exact heq.symm.trans hbytes
    · exact absurd (hnone.symm.trans hbytes).symm (Option.some_ne_none _)
  by_cases hbelow : Below dir o.file
  · exact .inl hbelow
  -- a copy that fails at once leaves the file empty, one that goes through the source
  have hempty : v.tree o.file = some (.file []) := by
    refine hheld (failingAt k) [] (fun n hn => if_neg hn.ne) ?_ hbelow
    rw [contents_ioCopy, failingAt, Nat.zero_add, if_pos rfl]
    split
    · rw [Contents.write_tree, update_self]
      rfl
    · rw [Contents.write_tree, update_self]
  refine .inr ⟨hempty, fun content hcontent => ?_⟩
  by_contra hne
  have hsrc : src ≠ o.file := by
    rintro rfl
    rw [hempty] at hcontent
    cases hcontent
    exact hne rfl
  have hfull : v.tree o.file = some (.file content) := by
    refine hheld (fun _ => none) content (fun _ _ => rfl) ?_ hbelow
    have hread : (v.start.write o []).tree src = some (.file content) := by
      rw [Contents.write_tree, update_of_ne hsrc]
      exact hcontent
    rw [contents_ioCopy, hread]
    exact update_self ..
  rw [hempty] at hfull
  cases hfull
  exact hne rfl

/-- **A task that writes through no link is safe.** -/
theorem WritesDirectly.linkSafe (hdirect : WritesDirectly v op)
    (hdir : v.start.LiesIn op.target dir) : LinkSafe v op := by
  rintro source target rfl src o hopens hleads
  obtain ⟨k, hk⟩ := exists_exec_executeCopyWithRename hdir hopens hleads
  refine hleads.file_ne_entry (hdirect (fun _ => none) o ?_)
  have hwrites : ∀ c : Contents, o ∈ c.writes →
      o ∈ ((ioCopy src o).exec ⟨c, fun _ => none⟩).2.contents.writes := by
    intro c hc
    rw [contents_ioCopy]
    split
    · exact List.mem_append_left _ hc
    · exact hc
  have hopened : o ∈ (v.start.write o []).writes := List.mem_append_right _ List.mem_cons_self
  have hmem := hwrites _ hopened
  rw [← hk (fun _ => none) fun _ _ => rfl] at hmem
  exact hmem

/-- **Which tasks write through no link, and change nothing outside the directory of
their target.** -/
theorem neverWritesThroughLink_iff (v : Volume) (op : ProcessingOperation) (dir : Location)
    (hdir : v.start.LiesIn op.target dir) :
    (WritesDirectly v op ∧ KeepsOutside v op dir ↔ LinkSafe v op) ∧
      (KeepsOutside v op dir ↔ OutsideSafe v op dir) := by
  refine ⟨⟨fun h => h.1.linkSafe hdir, fun hsafe => ⟨fun faults => ?_, fun faults => ?_⟩⟩,
    ⟨fun h => h.outsideSafe hdir, fun hsafe => hsafe.keptOutside hdir⟩⟩
  · exact (hsafe.done hdir faults).direct
  · exact (hsafe.done hdir faults).outside

/-! ## A link to a file elsewhere -/

def filmsName : FileName := ⟨"films".toList, by decide⟩

def linkName : FileName := ⟨"linked.srt".toList, by decide⟩

def notesName : FileName := ⟨"notes.txt".toList, by decide⟩

def subtitleName : FileName := ⟨"fresh.srt".toList, by decide⟩

/-- A directory of films, in it a link to some notes, and a subtitle. -/
def linkedVolume : Volume where
  tree := treeOf
    [([], .directory), ([filmsName], .directory),
      ([filmsName, linkName], .link [.top, .down notesName]),
      ([notesName], .file [9]), ([subtitleName], .file [1])]
  cwd := []
  grown := grown_treeOf rfl (by decide)
  cwd_isDirectory := rfl

/-- The path of the link. -/
def linkPath : Path := [.rootDir, .normal filmsName, .normal linkName]

/-- And of the subtitle. -/
def subtitlePath : Path := [.rootDir, .normal subtitleName]

theorem linkPath_liesIn : linkedVolume.start.LiesIn linkPath [filmsName] :=
  ⟨[.rootDir, .normal filmsName], rfl, rfl, rfl⟩

theorem moveToVideoFolder_over_link :
    WritesDirectly linkedVolume (.moveToVideoFolder subtitlePath linkPath) ∧
      KeepsOutside linkedVolume (.moveToVideoFolder subtitlePath linkPath) [filmsName] :=
  (neverWritesThroughLink_iff linkedVolume (.moveToVideoFolder subtitlePath linkPath) [filmsName]
    linkPath_liesIn).1.2 fun _ _ h => by cases h

/-- A copy with a new name puts the subtitle where the notes were. -/
theorem copyWithRename_through_link :
    let op := ProcessingOperation.copyWithRename subtitlePath linkPath
    linkedVolume.start.LiesIn op.target [filmsName] ∧
      linkedVolume.tree [notesName] = some (.file [9]) ∧
      (after linkedVolume op fun _ => none).tree [notesName] = some (.file [1]) ∧
      ¬ WritesDirectly linkedVolume op ∧ ¬ KeepsOutside linkedVolume op [filmsName] := by
  intro op
  have hafter : (after linkedVolume op fun _ => none).tree [notesName] = some (.file [1]) := rfl
  refine ⟨linkPath_liesIn, rfl, hafter, fun hdirect => ?_, fun hkeeps => ?_⟩
  · have hwrite := hdirect (fun _ => none) ⟨[filmsName, linkName], [notesName]⟩ (by decide +kernel)
    exact absurd hwrite (by decide)
  · have hbelow : ¬ Below [filmsName] [notesName] := by
      rintro ⟨names, -, h⟩
      exact absurd (List.cons.inj h).1 (by decide)
    rcases hkeeps (fun _ => none) [notesName] hbelow with heq | ⟨own, -, -, hnone⟩
    · exact absurd (hafter.symm.trans heq) (by decide)
    · exact absurd (hafter.symm.trans hnone) (by decide)

end Links

end SubxCore
