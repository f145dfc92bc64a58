import SubxCore.Links.LinkedTasks
/-!
# The directory of a target

Where a task is meant to write: the directory that the parent of its target leads to.
What is created exclusively is a new file of that directory, and what is renamed to it
takes the place of a link, so what copies and moves by these two keeps to it (`Ready`,
`Done`), whatever calls fail and wherever links lead.
-/

namespace SubxCore

namespace Links

open LinkTree Function Program
open DirTree (Below Step)
open Archive (Location steps componentStep)

variable {v : Volume} {dir l src : Location} {c c' : Contents} {p source target : Path}
variable {o : Opened} {followLast : Bool} {name : FileName} {bytes : Bytes}

/-! ## The directory of a target -/

/-- A path lies in a directory: that is where its parent leads. -/
def Contents.LiesIn (c : Contents) (p : Path) (dir : Location) : Prop :=
  ∃ parent, p.parent = some parent ∧
    resolve c.tree true Contents.maxLinks c.cwd (steps parent) = .ok dir ∧
    c.tree dir = some .directory

theorem eq_concat_of_parent {parent : Path} (h : p.parent = some parent) :
    ∃ last, p = parent ++ [last] ∧ p.getLast? = some last := by
  unfold Path.parent at h
  split at h
  · cases h
  · cases h
  · next last _ hlast =>
    obtain rfl := Option.some.inj h
    exact ⟨last, (List.dropLast_append_getLast? _ hlast).symm, hlast⟩

/-- A path in a directory leads on from there. -/
theorem exists_locate (h : c.LiesIn p dir) : ∃ last n, p.getLast? = some last ∧
    ∀ followLast, c.locate followLast p =
      (resolve c.tree followLast n dir [componentStep last]).mapError obstacleError := by
  obtain ⟨parent, hparent, hresolve, hdir⟩ := h
  obtain ⟨last, hp, hlast⟩ := eq_concat_of_parent hparent
  obtain ⟨n, hn⟩ := exists_resolve_append hdir (List.cons_ne_nil (componentStep last) []) hresolve
  refine ⟨last, n, hlast, fun followLast => ?_⟩
  have hne : p ≠ [] := hp ▸ List.append_ne_nil_of_right_ne_nil parent (List.cons_ne_nil last [])
  rw [Contents.locate, if_neg hne, ← hn followLast, hp, steps, List.map_append]
  rfl

/-- The name of a path is that of an entry of its directory. -/
theorem locate_name (h : c.LiesIn p dir) (hname : p.fileName = some name)
    (hlink : followLast = true → ∀ target, c.tree (dir ++ [name]) ≠ some (.link target)) :
    c.locate followLast p = .ok (dir ++ [name]) := by
  obtain ⟨last, n, hlast, hlocate⟩ := exists_locate h
  have hnormal : last = .normal name := by
    unfold Path.fileName at hname
    rw [hlast] at hname
    split at hname
    · next name' heq =>
      obtain rfl := Option.some.inj heq
      rw [Option.some.inj hname]
    · cases hname
  rw [hlocate, hnormal, componentStep, resolve_down hlink]
  rfl

/-- A path without a name of its own leads to a directory. -/
theorem locate_nameless (hgrown : Grown c.tree) (h : c.LiesIn p dir) (hname : p.fileName = none) :
    ∃ l, c.tree l = some .directory ∧ ∀ followLast, c.locate followLast p = .ok l := by
  obtain ⟨last, n, hlast, hlocate⟩ := exists_locate h
  have hstep : IsNameless (componentStep last) := by
    rintro name hdown
    cases last with
    | normal name' =>
      rw [Path.fileName, hlast] at hname
      cases hname
    | rootDir | curDir | parentDir => cases hdown
  obtain ⟨-, -, -, hdir⟩ := h
  refine ⟨(componentStep last).lead dir, hgrown.directory_lead hdir hstep, fun followLast => ?_⟩
  rw [hlocate, resolve_nameless hstep]
  rfl

/-- What is numbered lies where the target does. -/
theorem liesIn_of_mem_numberedPaths (h : c.LiesIn target dir) (hp : p ∈ numberedPaths target) :
    c.LiesIn p dir := by
  obtain ⟨parent, hparent, hdir⟩ := h
  exact ⟨parent, parent_of_mem_numberedPaths_of_parent hparent hp, hdir⟩

theorem locate_eq_ok_of_sameWays (hcwd : c'.cwd = c.cwd) (h : SameWays c.tree c'.tree)
    (hl : c.locate followLast p = .ok l) : c'.locate followLast p = .ok l := by
  unfold Contents.locate at hl ⊢
  split at hl
  · cases hl
  · next hp =>
    rw [if_neg hp, hcwd, Run.mapError_eq_ok]
    exact resolve_eq_ok_of_sameWays h (Run.mapError_eq_ok.1 hl)

/-! ## A directory that is there -/

/-- **A directory that is there is not made**: `create_dir_all` asks once, unless the
path is empty, and changes nothing. -/
theorem exec_createDirAll
    (hp : resolve c.tree true Contents.maxLinks c.cwd (steps p) = .ok dir)
    (hdir : c.tree dir = some .directory) (faults : ℕ → Option Fault) :
    (createDirAll p).exec ⟨c, faults⟩ =
      (.ok (), ⟨c, fun n => faults (n + if p = [] then 0 else 1)⟩) := by
  rcases hlength : p.length with - | n
  · obtain rfl := List.length_eq_zero_iff.1 hlength
    rfl
  have hne : p ≠ [] := by
    rintro rfl
    cases hlength
  obtain ⟨l, hl, hnode⟩ := exists_resolve_false hdir hp
  obtain ⟨node, hnode⟩ := Option.ne_none_iff_exists'.1 hnode
  have hisDir : c.isDir p = true := by
    rw [Contents.isDir, Contents.locate, if_neg hne, hp]
    exact decide_eq_true hdir
  obtain ⟨err, herr, hmake⟩ : ∃ err, (err = .alreadyExists ∨ ∃ message, err = .other message) ∧
      (makeDirectory p).exec ⟨c, faults⟩ = (.error err, ⟨c, fun n => faults (n + 1)⟩) := by
    have hlocate : c.locate false p = .ok l := by
      rw [Contents.locate, if_neg hne, hl]
      rfl
    refine exec_plainCall_of_error ?_
    simp only [hlocate, bind, Except.bind, hnode]
  have hlook : (look (·.isDir p)).exec ⟨c, fun n => faults (n + 1)⟩ =
      (.ok true, ⟨c, fun n => faults (n + 1)⟩) := by
    rw [look, exec_step, hisDir]
  rw [createDirAll, hlength, createDirs, if_neg hne, exec_bind, exec_attempt, hmake, if_neg hne]
  -- that it is there already, or whatever else: it is a directory
  rcases herr with rfl | ⟨message, rfl⟩
  · exact exec_bind_of_ok hlook
  · exact exec_bind_of_ok hlook

/-! ## What a task may have done -/

/-- **On the way**: the volume as it was, but for files of one directory where no way
led on, and every write made to the entry that was named. -/
structure Ready (v : Volume) (dir : Location) (c : Contents) : Prop where
  cwd : c.cwd = v.cwd
  placed : ∀ l, c.tree l = v.tree l ∨
    (∃ name, l = dir ++ [name]) ∧ NoWay (v.tree l) ∧ NoWay (c.tree l)
  direct : ∀ w ∈ c.writes, w.file = w.entry

/-- Outside a directory a volume is as it was, or its source has been removed. -/
def KeptOutside (v : Volume) (dir : Location) (source : Path) (c : Contents) : Prop :=
  ∀ l, ¬ Below dir l → c.tree l = v.tree l ∨
    ∃ own, v.start.locate false source = .ok own ∧ own <+: l ∧ c.tree l = none

/-- **In the end**: every write made to the entry that was named, and nothing changed
outside the directory but for the removal of the source. -/
structure Done (v : Volume) (dir : Location) (source : Path) (c : Contents) : Prop where
  direct : ∀ w ∈ c.writes, w.file = w.entry
  outside : KeptOutside v dir source c

/-- A file of a directory, open by its own name. -/
structure Direct (v : Volume) (dir : Location) (o : Opened) : Prop where
  named : ∃ name, o.file = dir ++ [name]
  noWay : NoWay (v.tree o.file)
  entry : o.file = o.entry

theorem Ready.start (v : Volume) (dir : Location) : Ready v dir v.start :=
  ⟨rfl, fun _ => .inl rfl, fun _ h => absurd h List.not_mem_nil⟩

theorem Ready.sameWays (h : Ready v dir c) : SameWays v.tree c.tree :=
  fun l => (h.placed l).imp_right And.right

/-- Paths lead where they led before. -/
theorem Ready.locate_iff (h : Ready v dir c) :
    c.locate followLast p = .ok l ↔ v.start.locate followLast p = .ok l :=
  ⟨locate_eq_ok_of_sameWays h.cwd.symm h.sameWays.symm, locate_eq_ok_of_sameWays h.cwd h.sameWays⟩

theorem below_concat (dir : Location) (name : FileName) : Below dir (dir ++ [name]) :=
  DirTree.below_of_ne_nil (List.cons_ne_nil name [])

theorem Ready.eq_of_not_below (h : Ready v dir c) (hl : ¬ Below dir l) : c.tree l = v.tree l := by
  refine (h.placed l).resolve_right ?_
  rintro ⟨⟨name, rfl⟩, -⟩
  exact hl (below_concat dir name)

theorem Ready.done (h : Ready v dir c) (source : Path) : Done v dir source c :=
  ⟨h.direct, fun _ hl => .inl (h.eq_of_not_below hl)⟩

theorem noWay_file : NoWay (some (.file bytes) : Option (Node FileName Bytes)) :=
  fun _ h => ⟨bytes, (Option.some.inj h).symm⟩

/-- Writing to a file of the directory by its own name keeps to it. -/
theorem Ready.write (h : Ready v dir c) (ho : Direct v dir o) (bytes : Bytes) :
    Ready v dir (c.write o bytes) := by
  refine ⟨h.cwd, fun l => ?_, fun w hw => ?_⟩
  · by_cases hl : l = o.file
    · subst hl
      refine .inr ⟨ho.named, ho.noWay, ?_⟩
      rw [Contents.write_tree, update_self]
      exact noWay_file
    · rw [Contents.write_tree, update_of_ne hl]
      exact h.placed l
  · rcases List.mem_append.1 hw with hw | hw
    · exact h.direct w hw
    · rw [List.mem_singleton.1 hw]
      exact ho.entry

/-! ## Calls that keep to it -/

/-- **An exclusively created file** is a new one of the directory. -/
theorem triple_atomicCreateFile (hdir : v.start.LiesIn p dir) :
    Triple (On (Ready v dir)) (atomicCreateFile p)
      (fun o => On fun c => Ready v dir c ∧ Direct v dir o) fun _ => On (Ready v dir) := by
  refine triple_plainCall fun c o c' hc h => ?_
  obtain ⟨l, hl, h⟩ := Run.bind_eq_ok.1 h
  split at h
  · cases h
  next hnone =>
  cases h
  have hl := hc.locate_iff.1 hl
  rcases hname : p.fileName with - | name
  · -- without a name of its own the path leads to a directory, which is still there
    obtain ⟨l', hdirectory, hlocate⟩ := locate_nameless v.grown hdir hname
    obtain rfl := Except.ok.inj ((hlocate false).symm.trans hl)
    rw [hc.sameWays.eq_of_not_noWay fun hno => hno.ne_directory hdirectory] at hnone
    exact absurd (hdirectory.symm.trans hnone) (Option.some_ne_none _)
  · have hlocate : v.start.locate false p = .ok (dir ++ [name]) :=
      locate_name hdir hname fun h => by cases h
    obtain rfl := Except.ok.inj (hlocate.symm.trans hl)
    have hno : NoWay (v.tree (dir ++ [name])) :=
      hc.sameWays.symm.noWay (by rw [hnone]; exact fun _ h => by cases h)
    have hdirect : Direct v dir ⟨dir ++ [name], dir ++ [name]⟩ := ⟨⟨name, rfl⟩, hno, rfl⟩
    exact ⟨hc.write hdirect [], hdirect⟩

theorem triple_createFirst {ps : List Path} (hps : ∀ p ∈ ps, v.start.LiesIn p dir) :
    Triple (On (Ready v dir)) (createFirst ps)
      (fun r => On fun c => Ready v dir c ∧ Direct v dir r.2) fun _ => On (Ready v dir) := by
  induction ps with
  | nil => exact .throw fun _ hs => hs
  | cons p ps ih =>
    obtain ⟨hp, hps⟩ := List.forall_mem_cons.1 hps
    refine .bind (Q := fun r => On fun c => Ready v dir c ∧ ∀ o, r = .ok o → Direct v dir o)
      (.attempt ((triple_atomicCreateFile hp).weaken (fun _ h => h) ?_ ?_)) fun r => ?_
    · exact fun o s hs => ⟨hs.1, fun _ h => Except.ok.inj h ▸ hs.2⟩
    · exact fun err s hs => ⟨hs, fun _ h => by cases h⟩
    · split
      · next file => exact .pure fun s hs => ⟨hs.1, hs.2 file rfl⟩
      · exact (ih hps).weaken_pre fun _ hs => hs.1
      · exact .throw fun _ hs => hs.1

/-- **A copy** into a file of the directory. -/
theorem triple_ioCopy (ho : Direct v dir o) :
    Triple (On (Ready v dir)) (ioCopy src o) (fun _ => On (Ready v dir))
      fun _ => On (Ready v dir) := by
  refine triple_call (fun fault c hc => ?_) (fun c a c' hc h => ?_) fun _ _ hc _ => hc
  · split
    · exact hc.write ho _
    · exact hc
  · split at h
    · cases h
      exact hc.write ho _
    · cases h

/-- **Streaming** goes to a new file of the directory. -/
theorem triple_streamInto (hdir : v.start.LiesIn target dir) :
    Triple (On (Ready v dir)) (streamInto source target) (fun _ => On (Ready v dir))
      fun _ => On (Ready v dir) := by
  refine .bind (triple_createFirst fun p hp => liesIn_of_mem_numberedPaths hdir hp) fun r => ?_
  -- which file was created is fixed from here on
  refine .each fun s hs => ?_
  have ho := hs.2
  refine (?_ : Triple (On (Ready v dir)) _ _ _).weaken_pre fun _ heq => heq ▸ hs.1
  refine .bind (triple_withParent fun _ _ => triple_validateWriteTarget) fun _ => ?_
  refine .bind triple_openFile fun src => ?_
  exact (triple_ioCopy ho).weaken_pre fun _ hs => hs.1

theorem triple_createDirAll {P : Contents → Prop} (hP : ∀ c, P c → c.LiesIn target dir) :
    Triple (On P) (withParent target createDirAll) (fun _ => On P) fun _ => On P := by
  rintro ⟨c, faults⟩ hs
  obtain ⟨parent, hparent, hresolve, hdir⟩ := hP c hs
  rw [withParent, hparent]
  dsimp only
  rw [exec_createDirAll hresolve hdir]
  exact hs

/-- Where a path lies is the same on the way. -/
theorem Ready.liesIn (h : Ready v dir c) (hdir : v.start.LiesIn p dir) : c.LiesIn p dir := by
  obtain ⟨parent, hparent, hresolve, hdirectory⟩ := hdir
  refine ⟨parent, hparent, ?_, ?_⟩
  · rw [h.cwd]
    exact resolve_eq_ok_of_sameWays h.sameWays hresolve
  · exact (h.sameWays.eq_of_not_noWay fun hno => hno.ne_directory hdirectory).trans hdirectory

/-- **Copying** keeps to the directory. -/
theorem triple_copyInto (hdir : v.start.LiesIn target dir) :
    Triple (On (Ready v dir)) (copyInto source target) (fun _ => On (Ready v dir))
      fun _ => On (Ready v dir) :=
  .bind (triple_createDirAll fun _ hc => hc.liesIn hdir) fun _ => triple_streamInto hdir

/-! ## Moving -/

/-- What is moved to an entry of the directory leaves nothing else changed. -/
theorem Ready.done_moved (h : Ready v dir c) {own : Location}
    (hown : v.start.locate false source = .ok own) (name : FileName) :
    Done v dir source (c.moved own (dir ++ [name])) := by
  refine ⟨fun w hw => ?_, fun l hl => ?_⟩
  · rcases List.mem_append.1 hw with hw | hw
    · exact h.direct w hw
    · rw [List.mem_singleton.1 hw]
  · -- outside the directory the move can only have taken the source away
    have hgoal : ¬ dir ++ [name] <+: l := by
      rintro ⟨names, rfl⟩
      refine hl ⟨name :: names, List.cons_ne_nil name names, ?_⟩
      rw [List.append_assoc]
      rfl
    rcases move_of_not_prefix c.tree own hgoal with heq | ⟨hbegins, hnone⟩
    · exact .inl (heq.trans (h.eq_of_not_below hl))
    · exact .inr ⟨own, hown, hbegins, hnone⟩

/-- A renaming that goes through does nothing, or moves what is there. -/
theorem rename_eq_ok {own goal : Location} {u : Unit} (h : c.rename own goal = .ok (u, c')) :
    c' = c ∨ c' = c.moved own goal := by
  unfold Contents.rename at h
  split at h
  · cases h
  · split at h
    · cases h
    · cases h
      exact .inr rfl
  · split at h
    · cases h
      exact .inl rfl
    · cases h
  · cases h
  · cases h
  · split at h
    · cases h
      exact .inl rfl
    · cases h
      exact .inr rfl

/-- **A renaming** takes the place of an entry of the directory. -/
theorem triple_renameFile (hdir : v.start.LiesIn target dir) :
    Triple (On (Ready v dir)) (renameFile source target) (fun _ => On (Done v dir source))
      fun _ => On (Ready v dir) := by
  refine triple_plainCall fun c u c' hc h => ?_
  obtain ⟨own, hown, h⟩ := Run.bind_eq_ok.1 h
  obtain ⟨goal, hgoal, h⟩ := Run.bind_eq_ok.1 h
  split at h
  · cases h
  next hnames =>
  rw [Bool.or_eq_true, not_or, Option.isNone_iff_eq_none, Option.isNone_iff_eq_none] at hnames
  obtain ⟨name, hname⟩ := Option.ne_none_iff_exists'.1 hnames.2
  have hlocate : v.start.locate false target = .ok (dir ++ [name]) :=
    locate_name hdir hname fun h => by cases h
  obtain rfl := Except.ok.inj (hlocate.symm.trans (hc.locate_iff.1 hgoal))
  rcases rename_eq_ok h with rfl | rfl
  · exact hc.done source
  · exact hc.done_moved (hc.locate_iff.1 hown) name

/-- **A removal** takes the source away. -/
theorem triple_removeFile :
    Triple (On (Ready v dir)) (removeFile source) (fun _ => On (Done v dir source))
      fun _ => On (Ready v dir) := by
  refine triple_plainCall fun c u c' hc h => ?_
  obtain ⟨own, hown, h⟩ := Run.bind_eq_ok.1 h
  split at h
  · cases h
  · cases h
  cases h
  refine ⟨hc.direct, fun l hl => ?_⟩
  by_cases heq : l = own
  · exact .inr ⟨own, hc.locate_iff.1 hown, heq ▸ List.prefix_rfl, by rw [heq]; exact update_self ..⟩
  · exact .inl ((update_of_ne heq _ _).trans (hc.eq_of_not_below hl))

theorem triple_renameIfFree (hdir : v.start.LiesIn target dir) :
    Triple (On (Ready v dir)) (renameIfFree source target)
      (fun renamed => On fun c => if renamed then Done v dir source c else Ready v dir c)
      fun _ => On (Ready v dir) := by
  refine .bind triple_look fun found => ?_
  split
  · exact .pure fun _ hs => hs.1
  refine .bind (Q := fun r => On fun c =>
    match r with
    | .ok _ => Done v dir source c
    | .error _ => Ready v dir c)
    (.attempt ((triple_renameFile hdir).weaken_pre fun _ hs => hs.1)) fun r => ?_
  split
  · exact .pure fun _ hs => hs
  · exact .pure fun _ hs => hs

/-- **Moving** keeps to the directory, and takes the source away. -/
theorem triple_moveInto (hdir : v.start.LiesIn target dir) :
    Triple (On (Ready v dir)) (moveInto source target) (fun _ => On (Done v dir source))
      fun _ => On (Done v dir source) := by
  have hfailed : ∀ s, On (Ready v dir) s → On (Done v dir source) s := fun _ hs => hs.done source
  refine .bind ((triple_createDirAll fun _ hc => hc.liesIn hdir).weaken_error fun _ => hfailed)
    fun _ => ?_
  refine .bind ((triple_renameIfFree hdir).weaken_error fun _ => hfailed) fun renamed => ?_
  split
  · exact .pure fun _ hs => hs
  · refine .bind ((triple_streamInto hdir).weaken_error fun _ => hfailed) fun _ => ?_
    refine .bind (triple_syncAll.weaken_error fun _ => hfailed) fun _ => ?_
    exact triple_removeFile.weaken_error fun _ => hfailed

end Links

end SubxCore
