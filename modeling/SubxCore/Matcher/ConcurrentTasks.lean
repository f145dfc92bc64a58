import SubxCore.Matcher.FailedSource
import SubxCore.Matcher.NumberedPaths
import SubxCore.Common.Machine
/-!
# Tasks side by side

Tasks that deliver files, each taking its file-system steps while the others
take theirs. Files are told from their names here: a task writes to the file
it has made, whatever has become of the name. A name that is claimed by an
exclusive create is not lost to another task; one that is claimed by a
renaming can be, when another task has taken it since it was found free. As
long as no renaming meets a file, nothing is lost (`Reachable.nothingLost`).
-/

namespace SubxCore

namespace Deliveries

open Text Function

variable {ι : Type} [DecidableEq ι]

/-! ## States -/

/-- A file, whatever its name: one that was there at first, under the name it
had then, or the one that a task has made. -/
inductive Inode (ι : Type)
  | original (p : Path)
  | made (i : ι)
  deriving DecidableEq, Repr

/-- Where a task is: what it does next, or how it has ended. -/
inductive Stage (ι : Type)
  | check
  | rename
  | create (k : ℕ)
  | openSource (output : Path)
  | copy (output : Path) (source : Inode ι)
  | sync (output : Path)
  | remove (output : Path)
  | succeeded (output : Path)
  | failed
  deriving DecidableEq, Repr

/-- The names of files, what the files hold, and where each task is. -/
structure State (ι : Type) where
  entry : Path → Option (Inode ι)
  bytes : Inode ι → Bytes
  stage : ι → Stage ι

namespace State

/-- The files by their names. -/
def files (s : State ι) : FileSystem := fun p => (s.entry p).map s.bytes

/-- A task goes on. -/
def goTo (s : State ι) (i : ι) (stage : Stage ι) : State ι :=
  { s with stage := update s.stage i stage }

end State

/-- The files as they are at first, with no task begun. Only a task that moves
its source looks whether its target is free. -/
def initial (tasks : ι → Delivery) (files : FileSystem) : State ι where
  entry p := (files p).map fun _ => .original p
  bytes x :=
    match x with
    | .original p => (files p).getD []
    | .made _ => []
  stage i := if (tasks i).moves then .check else .create 0

/-- The next step of a task. -/
def advance (tasks : ι → Delivery) (s : State ι) (i : ι) : State ι :=
  let task := tasks i
  match s.stage i with
  | .check => s.goTo i (if (s.entry task.target).isSome then .create 0 else .rename)
  | .rename =>
    match s.entry task.source with
    | some x =>
      { s.goTo i (.succeeded task.target) with
        entry := update (update s.entry task.source none) task.target (some x) }
    -- the renaming fails, and the task falls through
    | none => s.goTo i (.create 0)
  | .create k =>
    match (numberedPaths task.target)[k]? with
    | some p =>
      match s.entry p with
      | some _ => s.goTo i (.create (k + 1))
      | none => { s.goTo i (.openSource p) with entry := update s.entry p (some (.made i)) }
    | none => s.goTo i .failed
  | .openSource p =>
    match s.entry task.source with
    | some x => s.goTo i (.copy p x)
    | none => s.goTo i .failed
  | .copy p x =>
    { s.goTo i (if task.moves then .sync p else .succeeded p) with
      bytes := update s.bytes (.made i) (s.bytes x) }
  | .sync p => s.goTo i (.remove p)
  | .remove p =>
    match s.entry task.source with
    | some _ => { s.goTo i (.succeeded p) with entry := update s.entry task.source none }
    | none => s.goTo i .failed
  | .succeeded _ => s
  | .failed => s

/-- A task that has come to an end. -/
def Stage.isOver : Stage ι → Bool
  | .succeeded _ => true
  | .failed => true
  | _ => false

/-- Any task that has not ended takes its next step. -/
def machine (tasks : ι → Delivery) : Machine (State ι) ι where
  enabled s i := (s.stage i).isOver = false
  effect := advance tasks

variable {tasks : ι → Delivery} {files : FileSystem} {s : State ι} {i j : ι} {p : Path}
variable {x : Inode ι}

/-- The states that some interleaving of the tasks reaches. -/
abbrev Reachable (tasks : ι → Delivery) (files : FileSystem) (s : State ι) : Prop :=
  (machine tasks).Reaches (initial tasks files) s

/-! ## What is asked -/

/-- **Nothing is lost**: a task that has succeeded has left the content of its
source at a path of its own, and the files that were there, those that are
moved aside, are there as they were. -/
structure NothingLost (tasks : ι → Delivery) (files : FileSystem) (s : State ι) : Prop where
  delivered : ∀ i p, s.stage i = .succeeded p → s.files p = files (tasks i).source
  distinct : ∀ i j p, s.stage i = .succeeded p → s.stage j = .succeeded p → i = j
  kept : ∀ p content, files p = some content →
    (∀ i, (tasks i).moves → (tasks i).source ≠ p) → s.files p = some content

/-- A renaming meets no file. -/
def RenamesFree (tasks : ι → Delivery) (s : State ι) (i : ι) : Prop :=
  s.stage i = .rename → s.entry (tasks i).target = none

/-! ## What one step leaves -/

@[simp] theorem State.goTo_entry (stage : Stage ι) : (s.goTo i stage).entry = s.entry := rfl

@[simp] theorem State.goTo_bytes (stage : Stage ι) : (s.goTo i stage).bytes = s.bytes := rfl

@[simp] theorem State.goTo_stage_self (stage : Stage ι) : (s.goTo i stage).stage i = stage := by
  unfold goTo
  exact update_self ..

theorem State.goTo_stage_of_ne (stage : Stage ι) (h : j ≠ i) :
    (s.goTo i stage).stage j = s.stage j := by
  unfold goTo
  exact update_of_ne h ..

omit [DecidableEq ι] in
theorem made_ne_original : Inode.made i ≠ .original p := fun h => by cases h

/-- The source of a task is where it was. -/
def AtSource (tasks : ι → Delivery) (s : State ι) (i : ι) : Prop :=
  s.entry (tasks i).source = some (.original (tasks i).source)

/-- The files that a task may leave at its output. -/
def Owns (tasks : ι → Delivery) (i : ι) (x : Inode ι) : Prop :=
  x = .made i ∨ x = .original (tasks i).source

/-- What is so of a task at each of its stages. -/
def Stage.Accords (tasks : ι → Delivery) (s : State ι) (i : ι) : Stage ι → Prop
  | .check | .rename => (tasks i).moves ∧ AtSource tasks s i
  | .create _ => AtSource tasks s i
  | .openSource p => AtSource tasks s i ∧ s.entry p = some (.made i)
  | .copy p x => AtSource tasks s i ∧ s.entry p = some (.made i) ∧
      x = .original (tasks i).source
  | .sync p | .remove p => (tasks i).moves ∧ AtSource tasks s i ∧ s.entry p = some (.made i) ∧
      s.bytes (.made i) = s.bytes (.original (tasks i).source)
  | .succeeded p => ∃ x, Owns tasks i x ∧ s.entry p = some x ∧
      s.bytes x = s.bytes (.original (tasks i).source)
  | .failed => True

/-- Each task accords with where it is. -/
def Accords (tasks : ι → Delivery) (s : State ι) (i : ι) : Prop := (s.stage i).Accords tasks s i

/-- A task goes on alone. -/
theorem advance_stage_of_ne (h : j ≠ i) : (advance tasks s i).stage j = s.stage j := by
  unfold advance
  dsimp only
  repeat' split
  all_goals first
    | exact State.goTo_stage_of_ne _ h
    | rfl

/-- It writes to the file it has made. -/
theorem advance_bytes (h : x ≠ .made i) : (advance tasks s i).bytes x = s.bytes x := by
  unfold advance
  dsimp only
  repeat' split
  all_goals first
    | exact update_of_ne h ..
    | rfl

/-- **What a name holds after a step**: the file it held, if that was not the
source the task takes away. -/
theorem advance_entry (hacc : Accords tasks s i) (hfree : RenamesFree tasks s i)
    (hp : s.entry p = some x) (hx : (tasks i).moves → x ≠ .original (tasks i).source) :
    (advance tasks s i).entry p = some x := by
  -- the source of a task that moves is where it was, and holds another file
  have hsource : (tasks i).moves → AtSource tasks s i → p ≠ (tasks i).source := by
    rintro hmoves hat rfl
    exact hx hmoves (Option.some.inj (hp.symm.trans hat))
  unfold Accords at hacc
  unfold advance
  dsimp only
  rcases hstage : s.stage i with - | - | k | q | ⟨q, y⟩ | q | q | q | -
  · exact hp
  · obtain ⟨hmoves, hat⟩ := hstage ▸ hacc
    dsimp only
    rw [hat]
    have htarget : p ≠ (tasks i).target := by
      rintro rfl
      rw [hfree hstage] at hp
      cases hp
    exact (update_of_ne htarget ..).trans ((update_of_ne (hsource hmoves hat) ..).trans hp)
  · dsimp only
    split
    · next q hq =>
      split
      · exact hp
      · next hnone =>
        have hne : p ≠ q := by
          rintro rfl
          rw [hnone] at hp
          cases hp
        exact (update_of_ne hne ..).trans hp
    · exact hp
  · dsimp only
    split
    · exact hp
    · exact hp
  · exact hp
  · exact hp
  · obtain ⟨hmoves, hat, -⟩ := hstage ▸ hacc
    dsimp only
    rw [hat]
    exact (update_of_ne (hsource hmoves hat) ..).trans hp
  · exact hp
  · exact hp

/-! ## Each task accords -/

/-- The others leave what a task has. -/
theorem accords_of_ne (hdistinct : Injective fun i => (tasks i).source) (hne : j ≠ i)
    (hacc : Accords tasks s i) (hfree : RenamesFree tasks s i) (h : Accords tasks s j) :
    Accords tasks (advance tasks s i) j := by
  -- what a task owns is neither what another has made nor that one's source
  have hforeign : ∀ {x}, Owns tasks j x → x ≠ .made i ∧ x ≠ .original (tasks i).source := by
    rintro x (rfl | rfl)
    · exact ⟨fun heq => hne (Inode.made.inj heq), made_ne_original⟩
    · exact ⟨made_ne_original.symm, fun heq => hne (hdistinct (Inode.original.inj heq))⟩
  have hentry : ∀ {p x}, Owns tasks j x → s.entry p = some x →
      (advance tasks s i).entry p = some x := fun hx hp =>
    advance_entry hacc hfree hp fun _ => (hforeign hx).2
  have hbytes : ∀ {x}, Owns tasks j x → (advance tasks s i).bytes x = s.bytes x := fun hx =>
    advance_bytes (hforeign hx).1
  have hsource : AtSource tasks s j → AtSource tasks (advance tasks s i) j := hentry (Or.inr rfl)
  unfold Accords at h ⊢
  rw [advance_stage_of_ne hne]
  generalize s.stage j = stage at h ⊢
  rcases stage with - | - | k | q | ⟨q, y⟩ | q | q | q | -
  · exact ⟨h.1, hsource h.2⟩
  · exact ⟨h.1, hsource h.2⟩
  · exact hsource h
  · exact ⟨hsource h.1, hentry (Or.inl rfl) h.2⟩
  · exact ⟨hsource h.1, hentry (Or.inl rfl) h.2.1, h.2.2⟩
  · obtain ⟨hmoves, hat, hq, hcontent⟩ := h
    refine ⟨hmoves, hsource hat, hentry (Or.inl rfl) hq, ?_⟩
    rw [hbytes (Or.inl rfl), hbytes (Or.inr rfl), hcontent]
  · obtain ⟨hmoves, hat, hq, hcontent⟩ := h
    refine ⟨hmoves, hsource hat, hentry (Or.inl rfl) hq, ?_⟩
    rw [hbytes (Or.inl rfl), hbytes (Or.inr rfl), hcontent]
  · obtain ⟨x, hx, hq, hcontent⟩ := h
    refine ⟨x, hx, hentry hx hq, ?_⟩
    rw [hbytes hx, hbytes (Or.inr rfl), hcontent]
  · trivial

/-- A task that goes on accords with where it gets. -/
theorem accords_update {entry : Path → Option (Inode ι)} {bytes : Inode ι → Bytes}
    {stage : Stage ι} (h : stage.Accords tasks ⟨entry, bytes, update s.stage i stage⟩ i) :
    Accords tasks ⟨entry, bytes, update s.stage i stage⟩ i := by
  show Stage.Accords tasks ⟨entry, bytes, update s.stage i stage⟩ i (update s.stage i stage i)
  rwa [update_self]

/-- **One step of a task.** -/
theorem accords_self (hacc : Accords tasks s i) : Accords tasks (advance tasks s i) i := by
  have h := hacc
  unfold Accords at h
  unfold advance
  dsimp only
  rcases hstage : s.stage i with - | - | k | q | ⟨q, y⟩ | q | q | q | -
  · rw [hstage] at h
    obtain ⟨hmoves, hat⟩ := h
    dsimp only
    split
    · exact accords_update hat
    · exact accords_update ⟨hmoves, hat⟩
  · rw [hstage] at h
    obtain ⟨hmoves, hat⟩ := h
    dsimp only
    rw [hat]
    exact accords_update ⟨_, Or.inr rfl, update_self .., rfl⟩
  · rw [hstage] at h
    have hat : AtSource tasks s i := h
    dsimp only
    split
    · next q hq =>
      split
      · exact accords_update hat
      · next hnone =>
        refine accords_update ⟨?_, update_self ..⟩
        have hne : (tasks i).source ≠ q := by
          rintro rfl
          cases hnone.symm.trans hat
        exact (update_of_ne hne ..).trans hat
    · exact accords_update trivial
  · rw [hstage] at h
    obtain ⟨hat, hq⟩ := h
    dsimp only
    rw [hat]
    exact accords_update ⟨hat, hq, rfl⟩
  · rw [hstage] at h
    obtain ⟨hat, hq, rfl⟩ := h
    dsimp only
    -- the write is to the file that was made, so the source still holds what was read
    have hcontent : update s.bytes (.made i) (s.bytes (.original (tasks i).source)) (.made i) =
        update s.bytes (.made i) (s.bytes (.original (tasks i).source))
          (.original (tasks i).source) := by
      rw [update_self, update_of_ne made_ne_original.symm]
    split
    · next hmoves => exact accords_update ⟨hmoves, hat, hq, hcontent⟩
    · exact accords_update ⟨_, Or.inl rfl, hq, hcontent⟩
  · rw [hstage] at h
    exact accords_update h
  · rw [hstage] at h
    obtain ⟨hmoves, hat, hq, hcontent⟩ := h
    dsimp only
    rw [hat]
    refine accords_update ⟨_, Or.inl rfl, ?_, hcontent⟩
    have hne : q ≠ (tasks i).source := by
      rintro rfl
      cases hq.symm.trans hat
    exact (update_of_ne hne ..).trans hq
  · exact hacc
  · exact hacc

/-! ## Every run -/

/-- What is so in every state that is reached. -/
structure Invariant (tasks : ι → Delivery) (files : FileSystem) (s : State ι) : Prop where
  accords : ∀ i, Accords tasks s i
  bytes : ∀ p, s.bytes (.original p) = (files p).getD []
  kept : ∀ p, (files p).isSome → (∀ i, (tasks i).moves → (tasks i).source ≠ p) →
    s.entry p = some (.original p)

omit [DecidableEq ι] in
theorem invariant_initial (hexists : ∀ i, (files (tasks i).source).isSome) :
    Invariant tasks files (initial tasks files) := by
  have hentry : ∀ p, (files p).isSome → (initial tasks files).entry p = some (.original p) := by
    intro p hp
    obtain ⟨content, hp⟩ := Option.isSome_iff_exists.1 hp
    unfold initial
    dsimp only
    rw [hp]
    rfl
  refine ⟨fun i => ?_, fun p => rfl, fun p hp _ => hentry p hp⟩
  have hat : AtSource tasks (initial tasks files) i := hentry _ (hexists i)
  unfold Accords
  rw [show (initial tasks files).stage i = if (tasks i).moves then .check else .create 0 from rfl]
  split
  · next hmoves => exact ⟨hmoves, hat⟩
  · exact hat

/-- **One step of any task.** -/
theorem Invariant.advance (hdistinct : Injective fun i => (tasks i).source)
    (h : Invariant tasks files s) (hfree : RenamesFree tasks s i) :
    Invariant tasks files (advance tasks s i) := by
  refine ⟨fun j => ?_, fun p => ?_, fun p hp hsource => ?_⟩
  · by_cases hne : j = i
    · rw [hne]
      exact accords_self (h.accords i)
    · exact accords_of_ne hdistinct hne (h.accords i) hfree (h.accords j)
  · rw [advance_bytes made_ne_original.symm, h.bytes]
  · refine advance_entry (h.accords i) hfree (h.kept p hp hsource) fun hmoves heq => ?_
    exact hsource i hmoves (Inode.original.inj heq).symm

omit [DecidableEq ι] in
/-- The invariant is what is asked. -/
theorem Invariant.nothingLost (hexists : ∀ i, (files (tasks i).source).isSome)
    (hdistinct : Injective fun i => (tasks i).source) (h : Invariant tasks files s) :
    NothingLost tasks files s := by
  have houtput : ∀ i p, s.stage i = .succeeded p → ∃ x, Owns tasks i x ∧ s.entry p = some x ∧
      s.bytes x = s.bytes (.original (tasks i).source) := by
    intro i p hstage
    have hacc := h.accords i
    unfold Accords at hacc
    rwa [hstage] at hacc
  refine ⟨fun i p hstage => ?_, fun i j p hi hj => ?_, fun p content hp hsource => ?_⟩
  · obtain ⟨x, -, hx, hcontent⟩ := houtput i p hstage
    obtain ⟨content, hsource⟩ := Option.isSome_iff_exists.1 (hexists i)
    rw [State.files, hx, Option.map_some, hcontent, h.bytes, hsource, Option.getD_some]
  · obtain ⟨x, hx, hpx, -⟩ := houtput i p hi
    obtain ⟨y, hy, hpy, -⟩ := houtput j p hj
    obtain rfl := Option.some.inj (hpx.symm.trans hpy)
    -- one file at one path: it tells which task has left it
    rcases hx with rfl | rfl
    · rcases hy with heq | heq
      · exact Inode.made.inj heq
      · cases heq
    · rcases hy with heq | heq
      · cases heq
      · exact hdistinct (Inode.original.inj heq)
  · have hentry := h.kept p (Option.isSome_of_eq_some hp) hsource
    rw [State.files, hentry, Option.map_some, h.bytes, hp, Option.getD_some]

/-- **As long as no renaming meets a file, nothing is lost**, whatever the order
in which the tasks take their steps. -/
theorem nothingLost_of_renamesFree (hexists : ∀ i, (files (tasks i).source).isSome)
    (hdistinct : Injective fun i => (tasks i).source)
    (h : ((machine tasks).restrict (RenamesFree tasks)).Reaches (initial tasks files) s) :
    NothingLost tasks files s := by
  have hinv : Invariant tasks files s := by
    refine h.invariant (invariant_initial hexists) ?_
    rintro t i - ⟨-, hfree⟩ hinv
    exact hinv.advance hdistinct hfree
  exact hinv.nothingLost hexists hdistinct

/-! ## A task on its own -/

/-- One task takes its steps, and no other. -/
abbrev Alone (tasks : ι → Delivery) (files : FileSystem) (i : ι) (s : State ι) : Prop :=
  ((machine tasks).restrict fun _ j => j = i).Reaches (initial tasks files) s

variable {q : Path} {content : Bytes} {before after : List Path} {entry : Path → Option (Inode ι)}
variable {bytes : Inode ι → Bytes} {stages : ι → Stage ι} {stage : Stage ι} {k : ℕ} {s' : State ι}
variable {op : ProcessingOperation}

theorem Alone.step (h : Alone tasks files i s) (hover : (s.stage i).isOver = false)
    (hstep : Deliveries.advance tasks s i = s') : Alone tasks files i s' :=
  hstep ▸ Machine.Reaches.step h ⟨hover, rfl⟩

theorem Alone.step_of_stage (h : Alone tasks files i ⟨entry, bytes, update stages i stage⟩)
    (hover : stage.isOver = false)
    (hstep : Deliveries.advance tasks ⟨entry, bytes, update stages i stage⟩ i = s') :
    Alone tasks files i s' :=
  h.step (by dsimp only; rwa [update_self]) hstep

omit [DecidableEq ι] in
theorem initial_entry (h : files p = some content) :
    (initial tasks files).entry p = some (.original p) := by
  unfold initial
  dsimp only
  rw [h]
  rfl

omit [DecidableEq ι] in
theorem initial_entry_of_none (h : files p = none) : (initial tasks files).entry p = none := by
  unfold initial
  dsimp only
  rw [h]
  rfl

/-- A task whose target is taken, or that does not look, comes to create a file. -/
theorem alone_create_zero (htarget : (tasks i).moves → (files (tasks i).target).isSome) :
    Alone tasks files i ((initial tasks files).goTo i (.create 0)) := by
  have hstage : (initial tasks files).stage i = if (tasks i).moves then .check else .create 0 := rfl
  by_cases hmoves : (tasks i).moves
  · rw [if_pos hmoves] at hstage
    obtain ⟨content, htarget⟩ := Option.isSome_iff_exists.1 (htarget hmoves)
    refine Alone.step Machine.Reaches.refl (by rw [hstage]; rfl) ?_
    unfold advance
    dsimp only
    rw [hstage]
    dsimp only
    rw [initial_entry htarget]
    rfl
  · rw [if_neg hmoves] at hstage
    have hself : (initial tasks files).goTo i (.create 0) = initial tasks files := by
      unfold State.goTo
      rw [← hstage, update_eq_self]
    rw [hself]
    exact Machine.Reaches.refl

/-- It goes past the paths that are taken. -/
theorem alone_create (htarget : (tasks i).moves → (files (tasks i).target).isSome)
    (hpaths : numberedPaths (tasks i).target = before ++ q :: after)
    (hbefore : ∀ r ∈ before, (files r).isSome) :
    ∀ k ≤ before.length, Alone tasks files i ((initial tasks files).goTo i (.create k))
  | 0, _ => alone_create_zero htarget
  | k + 1, hk => by
    have hprevious := alone_create htarget hpaths hbefore k (Nat.le_of_succ_le hk)
    have hlookup : (numberedPaths (tasks i).target)[k]? = some before[k] := by
      rw [hpaths, List.getElem?_append_left hk, List.getElem?_eq_getElem hk]
    obtain ⟨content, htaken⟩ := Option.isSome_iff_exists.1
      (hbefore before[k] (List.getElem_mem hk))
    refine hprevious.step (by rw [State.goTo_stage_self]; rfl) ?_
    unfold advance
    rw [State.goTo_stage_self]
    dsimp only
    rw [hlookup]
    dsimp only
    rw [State.goTo_entry, initial_entry htaken]
    dsimp only
    unfold State.goTo
    rw [update_idem]

omit [DecidableEq ι] in
/-- A name that is given to another file, or to none. -/
theorem files_update (y : Option (Inode ι)) :
    State.files ⟨update entry p y, bytes, stages⟩ =
      update (State.files ⟨entry, bytes, stages⟩) p (y.map bytes) := by
  funext r
  unfold State.files
  dsimp only
  by_cases hr : r = p
  · rw [hr, update_self, update_self]
  · rw [update_of_ne hr, update_of_ne hr]

omit [DecidableEq ι] in
theorem files_initial (stages : ι → Stage ι) :
    State.files ⟨(initial tasks files).entry, (initial tasks files).bytes, stages⟩ = files := by
  funext p
  unfold State.files initial
  dsimp only
  rcases hp : files p with - | content
  · rfl
  · rw [Option.map_some, Option.map_some]
    dsimp only
    rw [hp, Option.getD_some]

/-- The files after an exclusive create and a write through the handle. -/
theorem files_made (content : Bytes) :
    State.files ⟨update (initial tasks files).entry q (some (.made i)),
      update (initial tasks files).bytes (.made i) content, stages⟩ =
        update files q (some content) := by
  rw [files_update, Option.map_some, update_self]
  congr 1
  funext p
  unfold State.files initial
  dsimp only
  rcases hp : files p with - | old
  · rfl
  · rw [Option.map_some, Option.map_some, update_of_ne made_ne_original.symm]
    dsimp only
    rw [hp, Option.getD_some]

theorem advance_openSource (h : entry (tasks i).source = some x) :
    advance tasks ⟨entry, bytes, update stages i (.openSource q)⟩ i =
      ⟨entry, bytes, update stages i (.copy q x)⟩ := by
  unfold advance
  dsimp only
  rw [update_self]
  dsimp only
  rw [h]
  dsimp only [State.goTo]
  rw [update_idem]

theorem advance_copy :
    advance tasks ⟨entry, bytes, update stages i (.copy q x)⟩ i =
      ⟨entry, update bytes (.made i) (bytes x),
        update stages i (if (tasks i).moves then .sync q else .succeeded q)⟩ := by
  unfold advance
  dsimp only
  rw [update_self]
  dsimp only [State.goTo]
  rw [update_idem]

theorem advance_sync :
    advance tasks ⟨entry, bytes, update stages i (.sync q)⟩ i =
      ⟨entry, bytes, update stages i (.remove q)⟩ := by
  unfold advance
  dsimp only
  rw [update_self]
  dsimp only [State.goTo]
  rw [update_idem]

theorem advance_remove (h : entry (tasks i).source = some x) :
    advance tasks ⟨entry, bytes, update stages i (.remove q)⟩ i =
      ⟨update entry (tasks i).source none, bytes, update stages i (.succeeded q)⟩ := by
  unfold advance
  dsimp only
  rw [update_self]
  dsimp only
  rw [h]
  dsimp only [State.goTo]
  rw [update_idem]

/-- A task that creates its file, from there on. -/
theorem alone_deliver (hsource : files (tasks i).source = some content) (hq : files q = none)
    (h : Alone tasks files i ((initial tasks files).goTo i (.create k)))
    (hlookup : (numberedPaths (tasks i).target)[k]? = some q) :
    ∃ s, Alone tasks files i s ∧ s.stage i = .succeeded q ∧
      s.files = update (if (tasks i).moves then update files (tasks i).source none else files) q
        (some content) := by
  have hne : (tasks i).source ≠ q := ne_of_free hsource hq
  have hat : update (initial tasks files).entry q (some (.made i)) (tasks i).source =
      some (.original (tasks i).source) := by
    rw [update_of_ne hne]
    exact initial_entry hsource
  have hread : (initial tasks files).bytes (.original (tasks i).source) = content := by
    unfold initial
    dsimp only
    rw [hsource, Option.getD_some]
  have hcreated : Alone tasks files i
      ⟨update (initial tasks files).entry q (some (.made i)), (initial tasks files).bytes,
        update (initial tasks files).stage i (.openSource q)⟩ := by
    refine h.step (by rw [State.goTo_stage_self]; rfl) ?_
    unfold advance
    rw [State.goTo_stage_self]
    dsimp only
    rw [hlookup]
    dsimp only
    rw [State.goTo_entry, initial_entry_of_none hq]
    dsimp only [State.goTo]
    rw [update_idem]
  have hopened := hcreated.step_of_stage rfl (advance_openSource hat)
  have hcopied := hopened.step_of_stage rfl advance_copy
  rw [hread] at hcopied
  by_cases hmoves : (tasks i).moves
  · rw [if_pos hmoves] at hcopied ⊢
    have hsynced := hcopied.step_of_stage rfl advance_sync
    have hremoved := hsynced.step_of_stage rfl (advance_remove hat)
    refine ⟨_, hremoved, update_self .., ?_⟩
    rw [files_update, files_made, Option.map_none, update_comm hne]
  · rw [if_neg hmoves] at hcopied ⊢
    exact ⟨_, hcopied, update_self .., files_made content⟩

/-- A task that renames. -/
theorem alone_rename (hmoves : (tasks i).moves) (hsource : files (tasks i).source = some content)
    (htarget : files (tasks i).target = none) :
    ∃ s, Alone tasks files i s ∧ s.stage i = .succeeded (tasks i).target ∧
      s.files = update (update files (tasks i).source none) (tasks i).target (some content) := by
  have hstage : (initial tasks files).stage i = .check := if_pos hmoves
  have hchecked : Alone tasks files i ((initial tasks files).goTo i .rename) := by
    refine Alone.step Machine.Reaches.refl (by rw [hstage]; rfl) ?_
    unfold advance
    dsimp only
    rw [hstage]
    dsimp only
    rw [initial_entry_of_none htarget]
    rfl
  have hrenamed : Alone tasks files i
      ⟨update (update (initial tasks files).entry (tasks i).source none) (tasks i).target
          (some (.original (tasks i).source)), (initial tasks files).bytes,
        update (initial tasks files).stage i (.succeeded (tasks i).target)⟩ := by
    refine hchecked.step (by rw [State.goTo_stage_self]; rfl) ?_
    unfold advance
    rw [State.goTo_stage_self]
    dsimp only
    rw [State.goTo_entry, initial_entry hsource]
    dsimp only [State.goTo]
    rw [update_idem]
  refine ⟨_, hrenamed, update_self .., ?_⟩
  rw [files_update, files_update, files_initial, Option.map_none, Option.map_some]
  unfold initial
  dsimp only
  rw [hsource, Option.getD_some]

/-- **A task on its own** does what it does when executed. -/
theorem alone_execute (hop : op.delivery = some (tasks i))
    (hsource : files (tasks i).source = some content)
    (hq : firstFree files (numberedPaths (tasks i).target) = some q)
    (hparent : q.parent ≠ some []) :
    ∃ s, Alone tasks files i s ∧ s.stage i = .succeeded q ∧
      op.execute.exec (.healthy files none) = (.ok (), .healthy s.files none) := by
  obtain ⟨text, hexecute⟩ := execute_eq_reserveThenDeliver hop
  rw [hexecute, Program.exec_mapError, reserveThenDeliver_healthy hsource hq hparent]
  obtain ⟨hmem, hfree⟩ := firstFree_eq_some hq
  by_cases hrename : (tasks i).moves ∧ files (tasks i).target = none
  · obtain ⟨hmoves, htarget⟩ := hrename
    rw [numberedPaths, firstFree_cons_of_free htarget] at hq
    obtain rfl := Option.some.inj hq
    obtain ⟨s, hs, hstage, hfiles⟩ := alone_rename hmoves hsource htarget
    exact ⟨s, hs, hstage, by rw [hfiles, if_pos hmoves]; rfl⟩
  · have htarget : (tasks i).moves → (files (tasks i).target).isSome := fun hmoves =>
      Option.isSome_iff_ne_none.2 fun hnone => hrename ⟨hmoves, hnone⟩
    obtain ⟨-, before, after, hpaths, hbefore⟩ := List.find?_eq_some_iff_append.1 hq
    have hcreate := alone_create htarget hpaths
      (fun r hr => by simpa using hbefore r hr) before.length le_rfl
    have hlookup : (numberedPaths (tasks i).target)[before.length]? = some q := by
      rw [hpaths, List.getElem?_append_right le_rfl, Nat.sub_self, List.getElem?_cons_zero]
    obtain ⟨s, hs, hstage, hfiles⟩ := alone_deliver hsource hfree hcreate hlookup
    exact ⟨s, hs, hstage, by rw [hfiles]; rfl⟩

/-! ## Runs on fixed files -/

instance (s : State ι) (i : ι) : Decidable ((machine tasks).enabled s i) :=
  inferInstanceAs (Decidable ((s.stage i).isOver = false))

instance (s : State ι) (i : ι) : Decidable (RenamesFree tasks s i) :=
  inferInstanceAs (Decidable (s.stage i = .rename → s.entry (tasks i).target = none))

instance (s : State ι) (i : ι) :
    Decidable (((machine tasks).restrict (RenamesFree tasks)).enabled s i) :=
  inferInstanceAs (Decidable ((machine tasks).enabled s i ∧ RenamesFree tasks s i))

/-- Two subtitles, each renamed to the name of one film. -/
def twoRenames (second : Bool) : Delivery :=
  if second then ⟨true, Path.ofText "/subs/b.srt".toList, Path.ofText "/films/movie.srt".toList⟩
  else ⟨true, Path.ofText "/subs/a.srt".toList, Path.ofText "/films/movie.srt".toList⟩

/-- The subtitles, with different content. -/
def twoSubtitles (p : Path) : Option Bytes :=
  if p = Path.ofText "/subs/a.srt".toList then some [97]
  else if p = Path.ofText "/subs/b.srt".toList then some [98]
  else none

theorem twoRenames_injective : Injective fun i => (twoRenames i).source := by
  unfold Injective
  decide +kernel

/-- One after the other, the second gets a number. -/
theorem nothingLost_of_renamesFree_inTurn :
    ∃ s, s.stage false = .succeeded (Path.ofText "/films/movie.srt".toList) ∧
      s.stage true = .succeeded (Path.ofText "/films/movie.1.srt".toList) ∧
      NothingLost twoRenames twoSubtitles s := by
  have hrun : (((machine twoRenames).restrict (RenamesFree twoRenames)).run
      (initial twoRenames twoSubtitles)
      [false, false, true, true, true, true, true, true, true]).any (fun s => decide
        (s.stage false = .succeeded (Path.ofText "/films/movie.srt".toList) ∧
          s.stage true = .succeeded (Path.ofText "/films/movie.1.srt".toList))) = true := by
    decide +kernel
  obtain ⟨s, hs, hstages⟩ := Machine.exists_reaches_of_run hrun
  obtain ⟨hfirst, hsecond⟩ := of_decide_eq_true hstages
  exact ⟨s, hfirst, hsecond,
    nothingLost_of_renamesFree (by decide +kernel) twoRenames_injective hs⟩

/-- **Renamed over**: both tasks find the name free, and the second takes it from
the first, whose subtitle is lost. -/
theorem renames_lose_a_file :
    ¬ ∀ (tasks : Bool → Delivery) (files : FileSystem),
      (∀ i, (files (tasks i).source).isSome) → (Injective fun i => (tasks i).source) →
      (∀ i j, i ≠ j → (tasks i).source ∉ numberedPaths (tasks j).target) →
      ∀ s, Reachable tasks files s → NothingLost tasks files s := by
  intro hclaim
  have hrun : ((machine twoRenames).run (initial twoRenames twoSubtitles)
      [false, true, false, true]).any (fun s => decide
        (s.stage false = .succeeded (Path.ofText "/films/movie.srt".toList) ∧
          s.stage true = .succeeded (Path.ofText "/films/movie.srt".toList))) = true := by
    decide +kernel
  obtain ⟨s, hs, hstages⟩ := Machine.exists_reaches_of_run hrun
  obtain ⟨hfirst, hsecond⟩ := of_decide_eq_true hstages
  have hapart : ∀ i j, i ≠ j → (twoRenames i).source ∉ numberedPaths (twoRenames j).target := by
    have hname : ∀ j, (twoRenames j).target.fileName.isSome := by decide +kernel
    have hparents : ∀ i j, (twoRenames i).source.parent ≠ (twoRenames j).target.parent := by
      decide +kernel
    exact fun i j _ hmem => hparents i j (parent_of_mem_numberedPaths (hname j) hmem)
  have hlost := hclaim twoRenames twoSubtitles (by decide +kernel) twoRenames_injective hapart s hs
  exact Bool.false_ne_true (hlost.distinct _ _ _ hfirst hsecond)

end Deliveries

end SubxCore
