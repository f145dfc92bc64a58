import SubxCore.Archive.Effects
/-!
# What an extraction stays within

The location that a name denotes below the destination, and the invariant of
an extraction into a directory: the destination stays one, and everything done
is done strictly below it. An entry with a name that is refused leaves the
storage alone; it is counted by the limits like any other, before its name is
looked at.
-/

namespace SubxCore

namespace Archive

open DirTree Function Program

variable {κ : Type} {s s' : Storage} {dest rest : Path} {root l ns : Location} {name : Text}
variable {f : Format κ} {overflowChecks : Bool} {destCanonical : Path}
variable {loop loop' : Loop} {entry : Entry κ}

/-! ## Names below the destination -/

/-- Where a name leads, below the directory it is joined to. -/
def within (name : Text) : Option Location := descend [] (steps (Path.ofText name))

theorem steps_append (p q : Path) : steps (p ++ q) = steps p ++ steps q := List.map_append

/-- No piece between separators is a root. -/
theorem top_notMem_pieces : Step.top ∉ steps ((name.splitOn '/').filterMap Path.component) := by
  intro h
  obtain ⟨c, hc, hstep⟩ := List.mem_map.1 h
  obtain ⟨piece, -, hpiece⟩ := List.mem_filterMap.1 hc
  unfold Path.component at hpiece
  split at hpiece
  · cases hpiece
    cases hstep
  · split at hpiece
    · cases hpiece
      cases hstep
    · cases hpiece

/-- Joining a name that leads somewhere below appends to the path. -/
theorem join_of_within (dest : Path) (h : within name = some ns) :
    ∃ rest, dest.join name = dest ++ rest ∧ descend [] (steps rest) = some ns := by
  unfold within Path.ofText at h
  unfold Path.join
  by_cases hhead : name.head? = some '/'
  · rw [if_pos hhead] at h
    cases h
  · rw [if_neg hhead] at h
    have hpieces : descend [] (steps ((name.splitOn '/').filterMap Path.component)) = some ns := by
      split at h
      · exact h
      · exact h
    by_cases hdest : dest = []
    · subst hdest
      refine ⟨Path.ofText name, if_pos (.inr rfl), ?_⟩
      unfold Path.ofText
      rw [if_neg hhead]
      exact h
    · exact ⟨_, if_neg (not_or.2 ⟨hhead, hdest⟩), hpieces⟩

/-- A relative name without parent directories leads below. -/
theorem within_isSome_of_isRelative (h : IsRelative name) : (within name).isSome := by
  have hsteps : ∀ {c}, c ∈ Path.ofText name → componentStep c ≠ .top ∧ componentStep c ≠ .up := by
    intro c hc
    cases c with
    | rootDir =>
      unfold Path.ofText at hc
      rw [if_neg h.1] at hc
      rcases List.mem_append.1 hc with hc | hc
      · split at hc
        · cases List.mem_singleton.1 hc
        · cases hc
      · exact absurd (List.mem_map_of_mem (f := componentStep) hc) top_notMem_pieces
    | curDir => simp [componentStep]
    | parentDir => exact absurd hc h.2
    | normal name => simp [componentStep]
  refine descend_isSome (fun htop => ?_) fun hup => ?_
  · obtain ⟨c, hc, heq⟩ := List.mem_map.1 htop
    exact (hsteps hc).1 heq
  · obtain ⟨c, hc, heq⟩ := List.mem_map.1 hup
    exact (hsteps hc).2 heq

/-- **A format that keeps names below the destination.** -/
def Format.Encloses (f : Format κ) : Prop :=
  ∀ name name', f.entryPath name = some name' → (within name').isSome

theorem encloses_of_isRelative
    (h : ∀ name, f.entryPath name = if IsRelative name then some name else none) :
    f.Encloses := by
  intro name name' hname
  rw [h] at hname
  split at hname
  · next hrelative =>
    cases hname
    exact within_isSome_of_isRelative hrelative
  · cases hname

theorem tarGzFormat_encloses (archive : Path) : (tarGzFormat archive).Encloses :=
  encloses_of_isRelative fun _ => rfl

theorem sevenZipFormat_encloses (otherDisplay : Text → Text) (archive : Path) :
    (sevenZipFormat otherDisplay archive).Encloses :=
  encloses_of_isRelative fun _ => rfl

/-- A target is a name joined to the destination. -/
theorem exists_of_target_eq_some {target : PathBuf}
    (h : f.target dest destCanonical name s = some target) :
    ∃ name', f.entryPath name = some name' ∧ target = joined dest name' := by
  obtain ⟨base, -, heq⟩ := f.target_eq dest destCanonical name s
  rw [heq] at h
  obtain ⟨name', hname', htarget⟩ := Option.bind_eq_some_iff.1 h
  unfold joinWithin at htarget
  split at htarget
  · cases htarget
    exact ⟨name', hname', rfl⟩
  · split at htarget
    · cases htarget
      exact ⟨name', hname', rfl⟩
    · cases htarget

/-! ## The destination -/

/-- The destination is a directory. -/
def Ready (dest : Path) (root : Location) (s : Storage) : Prop :=
  walk s.tree s.cwd (steps dest) = some root ∧ s.tree root = some .directory

/-- A walk to a directory goes through directories only. -/
theorem directory_of_below {tree : Tree FileName Bytes} {here there : Location}
    {some all : List (Step FileName)} (hsome : some <+: all)
    (hwalk : walk tree here all = .some there) (hthere : tree there = .some .directory) :
    tree (goal here some) = .some .directory := by
  induction some generalizing here all with
  | nil =>
    cases all with
    | nil => exact Option.some.inj hwalk ▸ hthere
    | cons step all => exact (walk_cons_eq_some hwalk).1
  | cons step some ih =>
    obtain ⟨more, rfl⟩ := hsome
    exact ih (List.prefix_append some more) (walk_cons_eq_some hwalk).2

/-- **What is not a directory on the way to a target** lies below the
destination. -/
theorem below_of_goal (hready : Ready dest root s) (hrest : (descend [] (steps rest)).isSome)
    {some : List (Step FileName)} (hsome : some <+: steps (dest ++ rest))
    (hnot : s.tree (goal s.cwd some) ≠ .some .directory) : Below root (goal s.cwd some) := by
  obtain ⟨hwalk, hroot⟩ := hready
  rw [steps_append] at hsome
  rcases List.prefix_or_prefix_of_prefix hsome (List.prefix_append ..) with hle | ⟨more, rfl⟩
  · exact absurd (directory_of_below hle hwalk hroot) hnot
  · obtain ⟨after, hafter⟩ := (List.prefix_append_right_inj _).1 hsome
    rw [← hafter] at hrest
    obtain ⟨ns, hns⟩ := Option.isSome_iff_exists.1 (descend_isSome_of_append hrest)
    have hgoal : goal s.cwd (steps dest ++ more) = root ++ ns := by
      rw [goal_append, ← eq_goal_of_walk hwalk, ← goal_of_descend hns, List.append_nil]
    rw [hgoal] at hnot ⊢
    refine below_of_ne_nil fun hnil => hnot ?_
    rw [hnil, List.append_nil]
    exact hroot

/-- Directories stay when others are made. -/
theorem MadeDirectories.directory {p : Path} (h : MadeDirectories s p s')
    (hl : s.tree l = some .directory) : s'.tree l = some .directory := by
  obtain ⟨ls, -, hs'⟩ := h
  rw [hs'.tree, leave_madeDirectory]
  split
  · rfl
  · exact hl

theorem leave_written (tree : Tree FileName Bytes) (l : Location) (bytes : Bytes) :
    leave tree [.createdFile l, .wrote l bytes] = update tree l (some (.file bytes)) :=
  update_idem ..

/-- What is where once a file is written. -/
theorem Evolves.tree_written {ls : List Location} {bytes : Bytes}
    (h : Evolves s (ls.map .madeDirectory ++ [.createdFile l, .wrote l bytes]) s') :
    s'.tree = update (leave s.tree (ls.map .madeDirectory)) l (some (.file bytes)) := by
  rw [h.tree, leave, List.foldl_append]
  exact leave_written _ l bytes

/-- Directories stay when a file is written. -/
theorem Written.directory {p : Path} {bytes : Bytes} (h : Written s p bytes s')
    (hl : s.tree l = some .directory) : s'.tree l = some .directory := by
  obtain ⟨ls, l', -, -, hnot, hs'⟩ := h
  have hleave : leave s.tree (ls.map .madeDirectory) l = some .directory := by
    rw [leave_madeDirectory]
    split
    · rfl
    · exact hl
  have hne : l ≠ l' := by
    rintro rfl
    exact hnot hleave
  rw [hs'.tree_written, update_of_ne hne]
  exact hleave

/-- The destination stays one, when directories stay. -/
theorem Ready.evolves {effects : List Effect} (h : Ready dest root s)
    (hs' : Evolves s effects s')
    (hmore : ∀ l, s.tree l = some .directory → s'.tree l = some .directory) :
    Ready dest root s' := by
  refine ⟨?_, hmore root h.2⟩
  rw [hs'.cwd]
  exact walk_mono hmore h.1

theorem Ready.canonicalOr (h : Ready dest root s) : s.canonicalOr dest = canonicalPath root := by
  unfold Storage.canonicalOr Storage.canonicalize
  rw [h.1, Option.filter_some, h.2]
  rfl

/-- Where the target of a name that leads below is. -/
theorem goal_joined (h : Ready dest root s) {ns : Location} (hname : within name = some ns) :
    goal s.cwd (steps (joined dest name).path) = root ++ ns := by
  obtain ⟨rest, hjoin, hrest⟩ := join_of_within dest hname
  rw [joined, hjoin, steps_append, goal_append, ← eq_goal_of_walk h.1, ← goal_of_descend hrest,
    List.append_nil]

/-- **The second look lets every enclosed name through**, where the destination
is a directory. -/
theorem target_eq_joined (hf : f.Encloses) (h : Ready dest root s)
    (hdest : destCanonical = canonicalPath root) {name' : Text}
    (hname : f.entryPath name = some name') :
    f.target dest destCanonical name s = some (joined dest name') := by
  obtain ⟨base, hbase, heq⟩ := f.target_eq dest destCanonical name s
  have hbase : base = canonicalPath root := by
    rcases hbase with rfl | rfl
    · exact hdest
    · exact h.canonicalOr
  rw [heq, hname, Option.bind_some, joinWithin]
  split
  · rfl
  · next l hl =>
    obtain ⟨ns, hns⟩ := Option.isSome_iff_exists.1 (hf name name' hname)
    unfold Storage.canonicalize at hl
    have hwalk := (Option.filter_eq_some_iff.1 hl).1
    rw [eq_goal_of_walk hwalk, goal_joined h hns, hbase, if_pos]
    exact ⟨ns.map .normal, by simp [canonicalPath]⟩

/-! ## The invariant -/

variable {tree : Tree FileName Bytes}

/-- The destination is a directory, all that was done was done below it, and
outside there is what there was. -/
structure Confined (dest : Path) (root : Location) (tree : Tree FileName Bytes) (s : Storage) :
    Prop where
  ready : Ready dest root s
  below : ∀ e ∈ s.history, Below root e.location
  outside : ∀ l, ¬ Below root l → s.tree l = tree l

theorem Confined.evolves {effects : List Effect} (h : Confined dest root tree s)
    (hs' : Evolves s effects s')
    (hmore : ∀ l, s.tree l = some .directory → s'.tree l = some .directory)
    (hbelow : ∀ e ∈ effects, Below root e.location) : Confined dest root tree s' := by
  refine ⟨h.ready.evolves hs' hmore, fun e he => ?_, fun l hl => ?_⟩
  · rw [hs'.history] at he
    rcases List.mem_append.1 he with he | he
    · exact h.below e he
    · exact hbelow e he
  · rw [hs'.tree, leave_of_notMem (l := l) fun e he heq => hl (heq ▸ hbelow e he)]
    exact h.outside l hl

/-- The directories made on the way to a target lie below the destination. -/
theorem below_of_missing {ls : List Location} (hready : Ready dest root s)
    (hrest : (descend [] (steps rest)).isSome)
    (hls : Missing s s.cwd (steps (dest ++ rest)) ls) {e : Effect}
    (he : e ∈ ls.map Effect.madeDirectory) : Below root e.location := by
  obtain ⟨l, hl, rfl⟩ := List.mem_map.1 he
  obtain ⟨hnone, some, hsome, rfl⟩ := hls l hl
  exact below_of_goal hready hrest hsome (by rw [hnone]; exact (Option.some_ne_none _).symm)

theorem Confined.made (h : Confined dest root tree s) (hrest : (descend [] (steps rest)).isSome)
    (hs' : MadeDirectories s (dest ++ rest) s') : Confined dest root tree s' := by
  have hmore : ∀ l, s.tree l = some .directory → s'.tree l = some .directory :=
    fun _ hl => hs'.directory hl
  obtain ⟨ls, hls, hs'⟩ := hs'
  exact h.evolves hs' hmore fun e he => below_of_missing h.ready hrest hls he

theorem Confined.written {bytes : Bytes} (h : Confined dest root tree s)
    (hrest : (descend [] (steps rest)).isSome) (hs' : Written s (dest ++ rest) bytes s') :
    Confined dest root tree s' := by
  have hmore : ∀ l, s.tree l = some .directory → s'.tree l = some .directory :=
    fun _ hl => hs'.directory hl
  obtain ⟨ls, l, hls, hwalk, hnot, hs'⟩ := hs'
  have hfile : Below root l := by
    have hl := eq_goal_of_walk hwalk
    rw [hl] at hnot ⊢
    refine below_of_goal h.ready hrest (List.prefix_refl _) fun hdir => hnot ?_
    rw [leave_madeDirectory, hdir, ite_self]
  refine h.evolves hs' hmore fun e he => ?_
  rcases List.mem_append.1 he with he | he
  · exact below_of_missing h.ready hrest hls he
  · rcases List.mem_cons.1 he with rfl | he
    · exact hfile
    · rw [List.mem_singleton.1 he]
      exact hfile

/-- The path of a target continues the destination downwards. -/
theorem exists_rest_of_target (hf : f.Encloses) {target : PathBuf}
    (h : f.target dest destCanonical name s = some target) :
    ∃ rest, target.path = dest ++ rest ∧ (descend [] (steps rest)).isSome := by
  obtain ⟨name', hname', rfl⟩ := exists_of_target_eq_some h
  obtain ⟨ns, hns⟩ := Option.isSome_iff_exists.1 (hf name name' hname')
  obtain ⟨rest, hjoin, hrest⟩ := join_of_within dest hns
  exact ⟨rest, hjoin, Option.isSome_of_eq_some hrest⟩

/-- **An entry handled keeps the invariant.** -/
theorem Confined.handled (hf : f.Encloses) (h : Confined dest root tree s)
    (hs' : Handled f overflowChecks dest destCanonical loop entry s loop' s') :
    Confined dest root tree s' := by
  cases hs' with
  | skipped => exact h
  | directory _ hmade =>
    rcases hmade with rfl | ⟨target, htarget, hmade⟩
    · exact h
    · obtain ⟨rest, hpath, hrest⟩ := exists_rest_of_target hf htarget
      exact h.made hrest (hpath ▸ hmade)
  | refused => exact h
  | extracted _ _ htarget hwritten =>
    obtain ⟨rest, hpath, hrest⟩ := exists_rest_of_target hf htarget
    exact h.written hrest (hpath ▸ hwritten)

/-- **So does an entry abandoned.** -/
theorem Confined.abandoned (hf : f.Encloses) (h : Confined dest root tree s)
    (hs' : Abandoned f overflowChecks dest destCanonical loop entry s s') :
    Confined dest root tree s' := by
  cases hs' with
  | limit => exact h
  | directories htarget hmade =>
    obtain ⟨rest, hpath, hrest⟩ := exists_rest_of_target hf htarget
    exact h.made hrest (hpath ▸ hmade)
  | content _ _ htarget hwritten =>
    obtain ⟨rest, hpath, hrest⟩ := exists_rest_of_target hf htarget
    exact h.written hrest (hpath ▸ hwritten)

/-- **An extraction keeps to its destination**, whether it goes through or not. -/
theorem confined_extract (hf : f.Encloses) (hready : Ready dest root s) (hstart : s.history = [])
    (items : List (Item κ)) :
    Confined dest root s.tree ((extract f overflowChecks dest items).exec s).2 := by
  have hconfined : Confined dest root s.tree s :=
    ⟨hready, fun e he => absurd he (hstart ▸ List.not_mem_nil), fun _ _ => rfl⟩
  have htriple : Triple (· = s) (extract f overflowChecks dest items)
      (fun _ => Confined dest root s.tree) fun _ => Confined dest root s.tree :=
    triple_extract (P := fun _ _ _ => Confined dest root s.tree) hconfined
      (fun _ _ _ _ _ _ _ h hs' => h.handled hf hs') (fun _ _ _ _ _ _ h hs' => h.abandoned hf hs')
      (fun _ _ _ _ _ h => h) fun _ _ _ h => h
  rcases hrun : (extract f overflowChecks dest items).exec s with ⟨e | paths, s'⟩
  · exact htriple.of_error rfl hrun
  · exact htriple.of_ok rfl hrun

/-! ## Refused names -/

/-- What an entry with a name that is refused does to the loop: its kind
decides whether it is counted. -/
def countEntry (f : Format κ) (overflowChecks : Bool) (loop : Loop) (entry : Entry κ) :
    Except Stop Loop :=
  match f.disposition entry.kind with
  | .extract =>
    ((loop.limits.checkEntry overflowChecks entry.size).mapError (describeLimit f)).map
      fun limits => { loop with limits }
  | _ => .ok loop

/-- **A refused name** leaves the storage as it is; the extraction goes on
unless the limits stop it. -/
theorem extractEntries_of_refused (hname : f.entryPath entry.name = none) (i : ℕ)
    (items : List (Item κ)) :
    (extractEntries f overflowChecks dest destCanonical i (.ok entry :: items) loop).exec s =
      match countEntry f overflowChecks loop entry with
      | .ok loop' =>
        (extractEntries f overflowChecks dest destCanonical (i + 1) items loop').exec s
      | .error stop => (.error stop, s) := by
  have htarget : f.target dest destCanonical entry.name s = none := by
    obtain ⟨base, -, heq⟩ := f.target_eq dest destCanonical entry.name s
    rw [heq, hname]
    rfl
  have hlook : (look (ε := Stop) (f.target dest destCanonical entry.name)).exec s =
      (.ok none, s) := by
    rw [look, exec_step, htarget]
  rw [extractEntries]
  unfold extractEntry countEntry
  cases f.disposition entry.kind with
  | skip => rfl
  | makeDirectory =>
    refine exec_bind_of_ok ?_
    rw [exec_bind_of_ok hlook]
    rfl
  | extract =>
    cases loop.limits.checkEntry overflowChecks entry.size with
    | error stop => rfl
    | ok limits =>
      refine exec_bind_of_ok ?_
      refine (exec_bind_of_ok (exec_ofExcept _)).trans ?_
      rw [exec_bind_of_ok hlook]
      rfl

/-- The loop over some entries and others after them. -/
theorem exec_extractEntries_append (i : ℕ) (items items' : List (Item κ)) (loop : Loop) :
    (extractEntries f overflowChecks dest destCanonical i (items ++ items') loop).exec s =
      match (extractEntries f overflowChecks dest destCanonical i items loop).exec s with
      | (.ok loop', s') =>
        (extractEntries f overflowChecks dest destCanonical (i + items.length) items' loop').exec s'
      | (.error stop, s') => (.error stop, s') := by
  induction items generalizing i loop s with
  | nil => rfl
  | cons item items ih =>
    rcases item with error | entry
    · rfl
    rw [List.cons_append, extractEntries, extractEntries]
    rcases hrun : (extractEntry f overflowChecks dest destCanonical loop entry).exec s with
      ⟨stop | loop', s'⟩
    · rw [exec_bind_of_error hrun, exec_bind_of_error hrun]
    · rw [exec_bind_of_ok hrun, exec_bind_of_ok hrun, ih, List.length_cons, Nat.add_assoc,
        Nat.add_comm 1]

/-- **An archive that the crate fails to read on** is extracted up to there. -/
theorem exec_extract_of_unread (items : List (Item κ)) (error : IoError) :
    (extract f overflowChecks dest (items ++ [.error error])).exec s =
      match (extract f overflowChecks dest items).exec s with
      | (.ok _, s') => (.error (.failed (f.describe (.read items.length) error)), s')
      | (.error stop, s') => (.error stop, s') := by
  have hlook : (look (ε := Stop) (·.canonicalOr dest)).exec s = (.ok (s.canonicalOr dest), s) := rfl
  rw [extract, extract, exec_bind_of_ok hlook, exec_bind_of_ok hlook, exec_bind, exec_bind,
    exec_extractEntries_append]
  rcases (extractEntries f overflowChecks dest (s.canonicalOr dest) 0 items
    ⟨.new, []⟩).exec s with ⟨stop | loop, s'⟩
  · rfl
  · rw [Nat.zero_add]
    rfl

/-- What the crate for 7-Zip archives does with the names of entries: it joins each
to the destination itself, before the entry is looked at here, and does not join one
that leads up. An archive with a name that it does not join ends, after some of the
other entries, in an error that says so. -/
structure SevenZipCrate where
  joins : Text → Bool
  joins_parentDir : ∀ name, .parentDir ∈ Path.ofText name → joins name = false
  yields : List (Entry SevenZipKind) → List (Item SevenZipKind)
  yields_unsafe : ∀ entries, (∃ entry ∈ entries, joins entry.name = false) →
    ∃ (seen : List (Entry SevenZipKind)) (error : IoError),
    yields entries = seen.map .ok ++ [.error error] ∧
      (∀ entry ∈ seen, entry ∈ entries ∧ joins entry.name = true) ∧
      "unsafe entry path".toList <:+: error.display

/-- **Extractions of tar-gzip and 7-Zip archives are confined.** All that is
done to the storage is done strictly below the destination, and the rest of
the tree stays as it was. Of a tar-gzip archive, an absolute name, or one with a
parent directory, leaves the storage alone, and the entries after it are
extracted from there unless the limits, which count it first, stop the
extraction. A 7-Zip archive with a name that the crate does not join, as one with
a parent directory, is not extracted: some of its other entries are, and then, or
before, the extraction fails. An absolute name that it does join is left out. -/
theorem extractions_confined (archive : Path) (otherDisplay : Text → Text) (crate : SevenZipCrate)
    (hready : Ready dest root s) (hstart : s.history = []) :
    (∀ items, Confined dest root s.tree
        ((extractTarGz archive overflowChecks dest items).exec s).2) ∧
      (∀ items, Confined dest root s.tree
        ((extract7z otherDisplay archive overflowChecks dest items).exec s).2) ∧
      (∀ destCanonical i entry items loop s', ¬ IsRelative entry.name →
        (extractEntries (tarGzFormat archive) overflowChecks dest destCanonical i
            (.ok entry :: items) loop).exec s' =
          match countEntry (tarGzFormat archive) overflowChecks loop entry with
          | .ok loop' => (extractEntries (tarGzFormat archive) overflowChecks dest destCanonical
              (i + 1) items loop').exec s'
          | .error stop => (.error stop, s')) ∧
      (∀ entries, (∃ entry ∈ entries, crate.joins entry.name = false) →
        ∃ (seen : List (Entry SevenZipKind)) (error : IoError),
        (∀ entry ∈ seen, entry ∈ entries ∧ crate.joins entry.name = true) ∧
        "unsafe entry path".toList <:+: error.display ∧
        (extract7z otherDisplay archive overflowChecks dest (crate.yields entries)).exec s =
          match (extract7z otherDisplay archive overflowChecks dest (seen.map .ok)).exec s with
          | (.ok _, s') => (.error (.failed error), s')
          | (.error stop, s') => (.error stop, s')) ∧
      ∀ destCanonical i entry items loop s', entry.name.head? = some '/' →
        (extractEntries (sevenZipFormat otherDisplay archive) overflowChecks dest destCanonical i
            (.ok entry :: items) loop).exec s' =
          match countEntry (sevenZipFormat otherDisplay archive) overflowChecks loop entry with
          | .ok loop' => (extractEntries (sevenZipFormat otherDisplay archive) overflowChecks dest
              destCanonical (i + 1) items loop').exec s'
          | .error stop => (.error stop, s') := by
  refine ⟨confined_extract (tarGzFormat_encloses archive) hready hstart,
    confined_extract (sevenZipFormat_encloses otherDisplay archive) hready hstart, ?_, ?_, ?_⟩
  · intro destCanonical i entry items loop s' hname
    exact extractEntries_of_refused (if_neg hname) i items
  · intro entries hunsafe
    obtain ⟨seen, error, hyields, hseen, herror⟩ := crate.yields_unsafe entries hunsafe
    refine ⟨seen, error, hseen, herror, ?_⟩
    rw [hyields]
    exact exec_extract_of_unread (seen.map .ok) error
  · intro destCanonical i entry items loop s' hname
    exact extractEntries_of_refused (if_neg fun hrelative => hrelative.1 hname) i items

/-- The directory `/d`. -/
def sampleDir : FileName := ⟨['d'], by decide⟩

/-- A storage with the empty directory `/d`. -/
def sampleStorage : Storage where
  tree l := if l = [] ∨ l = [sampleDir] then some .directory else none
  cwd := []
  faults _ := none
  history := []

/-- A file of a tar-gzip archive. -/
def sampleEntry (name : Text) (size : UInt64) (data : Bytes) : Item EntryType :=
  .ok ⟨.regular, name, size, data, none⟩

/-- A crate that reads the entries in their order, up to a name that leads up. -/
def sampleCrate : SevenZipCrate where
  joins name := decide (.parentDir ∉ Path.ofText name)
  joins_parentDir name hname := decide_eq_false (not_not_intro hname)
  yields entries :=
    let seen := entries.takeWhile fun entry => decide (.parentDir ∉ Path.ofText entry.name)
    seen.map .ok ++ if seen = entries then [] else [.error (.other "unsafe entry path".toList)]
  yields_unsafe := by
    rintro entries ⟨entry, hentry, hname⟩
    refine ⟨_, _, congrArg _ (if_neg fun hall => ?_), fun e he => ⟨?_, ?_⟩, List.infix_refl _⟩
    · rw [List.takeWhile_eq_self_iff] at hall
      exact Bool.false_ne_true (hname.symm.trans (hall entry hentry))
    · exact (List.takeWhile_prefix _).subset he
    · have hjoined := List.mem_takeWhile_imp he
      exact hjoined

/-- A file of a 7-Zip archive. -/
def sampleSevenZipEntry (name : Text) (data : Bytes) : Entry SevenZipKind :=
  ⟨⟨false, false, false, 0⟩, name, 1, data, none⟩

/-- Of a name that leads up between two others, the one before it is extracted. -/
theorem extractions_confined_sample :
    Confined (canonicalPath [sampleDir]) [sampleDir] sampleStorage.tree
        ((extractTarGz [] false (canonicalPath [sampleDir]) [sampleEntry ['a'] 1 [0]]).exec
          sampleStorage).2 ∧
      ∃ stop, ((extract7z id [] false (canonicalPath [sampleDir]) (sampleCrate.yields
        [sampleSevenZipEntry ['a'] [0], sampleSevenZipEntry "../x".toList [1],
          sampleSevenZipEntry ['b'] [2]])).exec sampleStorage).1 = .error stop := by
  have hready : Ready (canonicalPath [sampleDir]) [sampleDir] sampleStorage := ⟨rfl, rfl⟩
  obtain ⟨htar, -, -, hunsafe, -⟩ :=
    @extractions_confined sampleStorage _ _ false [] id sampleCrate hready rfl
  refine ⟨htar _, ?_⟩
  obtain ⟨seen, error, -, -, hrun⟩ := hunsafe
    [sampleSevenZipEntry ['a'] [0], sampleSevenZipEntry "../x".toList [1],
      sampleSevenZipEntry ['b'] [2]] ⟨_, List.mem_cons_of_mem _ (List.mem_cons_self ..), by decide⟩
  rw [hrun]
  rcases (extract7z id [] false (canonicalPath [sampleDir]) (seen.map .ok)).exec sampleStorage with
    ⟨stop | paths, s'⟩
  · exact ⟨stop, rfl⟩
  · exact ⟨_, rfl⟩

/-- An absolute name stops the extraction of the entry after it, which is
extracted where it comes alone. -/
theorem refused_name_stops :
    ¬ IsRelative ['/', 'x'] ∧
      ((extractTarGz [] false (canonicalPath [sampleDir])
        [sampleEntry ['/', 'x'] 1073741825 [], sampleEntry ['a'] 1 [0]]).exec sampleStorage).1 =
        .error (.failed (.other "Archive exceeds maximum expanded size (1 GiB)".toList)) ∧
      ((extractTarGz [] false (canonicalPath [sampleDir])
        [sampleEntry ['/', 'x'] 1073741825 [], sampleEntry ['a'] 1 [0]]).exec
          sampleStorage).2.history = [] ∧
      ((extractTarGz [] false (canonicalPath [sampleDir]) [sampleEntry ['a'] 1 [0]]).exec
        sampleStorage).1 = .ok [canonicalPath [sampleDir, ⟨['a'], by decide⟩]] := by
  decide +kernel

end Archive

end SubxCore
