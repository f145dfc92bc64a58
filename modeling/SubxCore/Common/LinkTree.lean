import SubxCore.Common.Tree
/-!
# Directory trees with links

Nodes at locations, as in a plain tree, and links, which are steps to be gone instead
of theirs, from the directory the link is in. A path is gone through from a directory;
so many links are followed on the way, and at its end one is followed or not. A path
that begins at a directory leads on from there (`exists_resolve_append`), and where
files come and go it leads where it led before (`resolve_eq_ok_of_sameWays`).
-/

namespace LinkTree

open DirTree (Step)

universe u v

/-- What is at a location. -/
inductive Node (ν : Type u) (β : Type v)
  | directory
  | file (content : β)
  | link (target : List (Step ν))
  deriving DecidableEq, Repr

/-- A tree: what is where. -/
abbrev Tree (ν : Type u) (β : Type v) := List ν → Option (Node ν β)

/-- Why a path leads nowhere. -/
inductive Obstacle
  | missing
  | notDirectory
  | tooManyLinks
  deriving DecidableEq, Repr

variable {ν : Type u} {β : Type v} {tree tree' : Tree ν β} {followLast : Bool} {n : ℕ}
variable {here there dir l : List ν} {steps rest target : List (Step ν)} {step : Step ν} {name : ν}
variable {onLink onLink' : List ν → List (Step ν) → Except Obstacle (List ν)}

/-- Steps gone from a directory, with what to do at a link that is followed. The last
of them may lead to where nothing is. -/
def goThrough (tree : Tree ν β) (followLast : Bool)
    (onLink : List ν → List (Step ν) → Except Obstacle (List ν)) :
    List ν → List (Step ν) → Except Obstacle (List ν)
  | here, [] => .ok here
  | here, .down name :: steps =>
    match tree (here ++ [name]) with
    -- a link is gone from where it is, and what is left of the path from its end
    | some .directory => goThrough tree followLast onLink (here ++ [name]) steps
    | some (.link target) =>
      if steps.isEmpty && !followLast then .ok (here ++ [name]) else onLink here (target ++ steps)
    | some (.file _) => if steps.isEmpty then .ok (here ++ [name]) else .error .notDirectory
    | none => if steps.isEmpty then .ok (here ++ [name]) else .error .missing
  | here, step :: steps => goThrough tree followLast onLink (step.lead here) steps

/-- Where steps lead, when no more than some number of links is followed. -/
def resolve (tree : Tree ν β) (followLast : Bool) :
    ℕ → List ν → List (Step ν) → Except Obstacle (List ν)
  | 0 => goThrough tree followLast fun _ _ => .error .tooManyLinks
  | n + 1 => goThrough tree followLast (resolve tree followLast n)

/-- What a link that is followed comes to. -/
def linked (tree : Tree ν β) (followLast : Bool) :
    ℕ → List ν → List (Step ν) → Except Obstacle (List ν)
  | 0 => fun _ _ => .error .tooManyLinks
  | n + 1 => resolve tree followLast n

theorem resolve_eq (n : ℕ) :
    resolve tree followLast n = goThrough tree followLast (linked tree followLast n) := by
  cases n <;> rfl

/-- The root is a directory, and whatever is somewhere is in a directory. -/
structure Grown (tree : Tree ν β) : Prop where
  root : tree [] = some .directory
  parent : ∀ l name, tree (l ++ [name]) ≠ none → tree l = some .directory

/-- A tree given by its entries. -/
def treeOf [DecidableEq ν] (entries : List (List ν × Node ν β)) : Tree ν β := fun l =>
  entries.lookup l

/-- A tree is grown when each of its entries is in a directory. -/
theorem grown_treeOf [DecidableEq ν] {entries : List (List ν × Node ν β)}
    (hroot : treeOf entries [] = some .directory)
    (hentries : ∀ e ∈ entries, treeOf entries e.1.dropLast = some .directory) :
    Grown (treeOf entries) := by
  refine ⟨hroot, fun l name hne => ?_⟩
  obtain ⟨node, hnode⟩ := Option.ne_none_iff_exists'.1 hne
  obtain ⟨before, after, rfl, -⟩ := List.lookup_eq_some_iff.1 hnode
  have hparent := hentries (l ++ [name], node) (List.mem_append_right _ List.mem_cons_self)
  rwa [List.dropLast_concat] at hparent

/-- A step that names nothing. -/
def IsNameless (step : Step ν) : Prop := ∀ name, step ≠ .down name

/-! ## One step -/

/-- What is under a name decides where it leads. -/
theorem goThrough_down : goThrough tree followLast onLink here (.down name :: steps) =
    match tree (here ++ [name]) with
    | some .directory => goThrough tree followLast onLink (here ++ [name]) steps
    | some (.link target) =>
      if steps.isEmpty && !followLast then .ok (here ++ [name]) else onLink here (target ++ steps)
    | some (.file _) => if steps.isEmpty then .ok (here ++ [name]) else .error .notDirectory
    | none => if steps.isEmpty then .ok (here ++ [name]) else .error .missing := rfl

theorem goThrough_directory (h : tree (here ++ [name]) = some .directory) :
    goThrough tree followLast onLink here (.down name :: steps) =
      goThrough tree followLast onLink (here ++ [name]) steps := by
  rw [goThrough_down, h]

theorem goThrough_link (h : tree (here ++ [name]) = some (.link target)) :
    goThrough tree followLast onLink here (.down name :: steps) =
      if steps.isEmpty && !followLast then .ok (here ++ [name])
      else onLink here (target ++ steps) := by
  rw [goThrough_down, h]

theorem goThrough_nameless (h : IsNameless step) :
    goThrough tree followLast onLink here (step :: steps) =
      goThrough tree followLast onLink (step.lead here) steps := by
  cases step with
  | down name => exact absurd rfl (h name)
  | top | stay | up => rfl

/-- A nameless step from a directory leads to one. -/
theorem Grown.directory_lead (hgrown : Grown tree) (hdir : tree dir = some .directory)
    (h : IsNameless step) : tree (step.lead dir) = some .directory := by
  cases step with
  | down name => exact absurd rfl (h name)
  | top => exact hgrown.root
  | stay => exact hdir
  | up =>
    rcases List.eq_nil_or_concat' dir with rfl | ⟨l, name, rfl⟩
    · exact hgrown.root
    · have hparent := hgrown.parent l name (by rw [hdir]; exact Option.some_ne_none _)
      rwa [Step.lead, List.dropLast_concat]

/-- The last name of a path is where it leads, unless it is that of a link that is
followed. -/
theorem resolve_down
    (h : followLast = true → ∀ target, tree (dir ++ [name]) ≠ some (.link target)) :
    resolve tree followLast n dir [.down name] = .ok (dir ++ [name]) := by
  rw [resolve_eq, goThrough_down]
  split
  · rfl
  · next target hlink =>
    cases followLast with
    | false => rfl
    | true => exact absurd hlink (h rfl target)
  · rfl
  · rfl

theorem resolve_nameless (h : IsNameless step) :
    resolve tree followLast n dir [step] = .ok (step.lead dir) := by
  rw [resolve_eq, goThrough_nameless h]
  rfl

/-! ## Where no way leads on -/

/-- Neither a directory nor a link. -/
def NoWay (node : Option (Node ν β)) : Prop := ∀ n ∈ node, ∃ content, n = .file content

theorem NoWay.ne_directory {node : Option (Node ν β)} (h : NoWay node) :
    node ≠ some .directory := by
  rintro rfl
  obtain ⟨content, hcontent⟩ := h _ rfl
  cases hcontent

theorem NoWay.ne_link {node : Option (Node ν β)} (h : NoWay node) (target : List (Step ν)) :
    node ≠ some (.link target) := by
  rintro rfl
  obtain ⟨content, hcontent⟩ := h _ rfl
  cases hcontent

theorem noWay_or (node : Option (Node ν β)) :
    NoWay node ∨ node = some .directory ∨ ∃ target, node = some (.link target) := by
  rcases node with - | - | content | target
  · exact .inl fun _ h => by cases h
  · exact .inr (.inl rfl)
  · exact .inl fun _ h => ⟨content, (Option.some.inj h).symm⟩
  · exact .inr (.inr ⟨target, rfl⟩)

/-- Where no way leads on, a path ends or leads nowhere. -/
theorem goThrough_of_noWay (h : NoWay (tree (here ++ [name])))
    (hl : goThrough tree followLast onLink here (.down name :: steps) = .ok l) :
    steps = [] ∧ l = here ++ [name] := by
  rw [goThrough_down] at hl
  split at hl
  · next hnode => exact absurd hnode h.ne_directory
  · next target hnode => exact absurd hnode (h.ne_link target)
  all_goals
    split at hl
    · next hempty => exact ⟨List.isEmpty_iff.1 hempty, (Except.ok.inj hl).symm⟩
    · cases hl

theorem goThrough_end_of_noWay (h : NoWay (tree (here ++ [name]))) :
    goThrough tree followLast onLink here [.down name] = .ok (here ++ [name]) := by
  rw [goThrough_down]
  split
  · next hnode => exact absurd hnode h.ne_directory
  · next target hnode => exact absurd hnode (h.ne_link target)
  · rfl
  · rfl

/-- A path to a directory does not end where no way leads on. -/
theorem not_noWay_of_directory (hdir : tree dir = some .directory)
    (h : goThrough tree followLast onLink here (.down name :: steps) = .ok dir) :
    ¬ NoWay (tree (here ++ [name])) := by
  intro hno
  obtain ⟨-, rfl⟩ := goThrough_of_noWay hno h
  exact hno.ne_directory hdir

/-- A link on the way is followed. -/
theorem goThrough_link_of_ne_nil (h : tree (here ++ [name]) = some (.link target))
    (hsteps : followLast = true ∨ steps ≠ []) :
    goThrough tree followLast onLink here (.down name :: steps) =
      onLink here (target ++ steps) := by
  rw [goThrough_link h, if_neg]
  rcases hsteps with rfl | hsteps <;> simp [*]

/-! ## One path after another -/

theorem exists_goThrough_append (hdir : tree dir = some .directory) (hrest : rest ≠ [])
    (hlinked : ∀ here steps, linked tree true n here steps = .ok dir →
      ∃ m, ∀ followLast, linked tree followLast n here (steps ++ rest) =
        resolve tree followLast m dir rest)
    (h : goThrough tree true (linked tree true n) here steps = .ok dir) :
    ∃ m, ∀ followLast, goThrough tree followLast (linked tree followLast n) here (steps ++ rest) =
      resolve tree followLast m dir rest := by
  induction steps generalizing here with
  | nil =>
    obtain rfl := Except.ok.inj h
    exact ⟨n, fun followLast => by rw [resolve_eq, List.nil_append]⟩
  | cons step steps ih =>
    by_cases hstep : IsNameless step
    · rw [goThrough_nameless hstep] at h
      obtain ⟨m, hm⟩ := ih h
      exact ⟨m, fun followLast => by rw [List.cons_append, goThrough_nameless hstep, hm]⟩
    obtain ⟨name, rfl⟩ : ∃ name, step = .down name := by simpa [IsNameless] using hstep
    rcases noWay_or (tree (here ++ [name])) with hno | hnode | ⟨target, hnode⟩
    · exact absurd hno (not_noWay_of_directory hdir h)
    · rw [goThrough_directory hnode] at h
      obtain ⟨m, hm⟩ := ih h
      exact ⟨m, fun followLast => by rw [List.cons_append, goThrough_directory hnode, hm]⟩
    · -- the link and what is left of the path are one path, with a link fewer to follow
      rw [goThrough_link_of_ne_nil hnode (.inl rfl)] at h
      obtain ⟨m, hm⟩ := hlinked here (target ++ steps) h
      have hne : steps ++ rest ≠ [] := List.append_ne_nil_of_right_ne_nil steps hrest
      refine ⟨m, fun followLast => ?_⟩
      rw [List.cons_append, goThrough_link_of_ne_nil hnode (.inr hne), ← List.append_assoc, hm]

/-- **A path that begins at a directory leads on from there.** -/
theorem exists_resolve_append (hdir : tree dir = some .directory) (hrest : rest ≠ [])
    (h : resolve tree true n here steps = .ok dir) :
    ∃ m, ∀ followLast, resolve tree followLast n here (steps ++ rest) =
      resolve tree followLast m dir rest := by
  induction n generalizing here steps with
  | zero => exact exists_goThrough_append (n := 0) hdir hrest (fun _ _ h => by cases h) h
  | succ n ih => exact exists_goThrough_append (n := n + 1) hdir hrest (fun _ _ h => ih h) h

theorem exists_goThrough_false (hdir : tree dir = some .directory)
    (hlinked : ∀ here steps, linked tree true n here steps = .ok dir →
      ∃ l, linked tree false n here steps = .ok l ∧ tree l ≠ none)
    (h : goThrough tree true (linked tree true n) here steps = .ok dir) :
    ∃ l, goThrough tree false (linked tree false n) here steps = .ok l ∧ tree l ≠ none := by
  induction steps generalizing here with
  | nil =>
    obtain rfl := Except.ok.inj h
    exact ⟨here, rfl, by rw [hdir]; exact Option.some_ne_none _⟩
  | cons step steps ih =>
    by_cases hstep : IsNameless step
    · rw [goThrough_nameless hstep] at h ⊢
      exact ih h
    obtain ⟨name, rfl⟩ : ∃ name, step = .down name := by simpa [IsNameless] using hstep
    rcases noWay_or (tree (here ++ [name])) with hno | hnode | ⟨target, hnode⟩
    · exact absurd hno (not_noWay_of_directory hdir h)
    · rw [goThrough_directory hnode] at h ⊢
      exact ih h
    · rw [goThrough_link_of_ne_nil hnode (.inl rfl)] at h
      rw [goThrough_link hnode]
      split
      · exact ⟨_, rfl, by rw [hnode]; exact Option.some_ne_none _⟩
      · exact hlinked here _ h

/-- A path to a directory, or to a link that leads to one, names something. -/
theorem exists_resolve_false (hdir : tree dir = some .directory)
    (h : resolve tree true n here steps = .ok dir) :
    ∃ l, resolve tree false n here steps = .ok l ∧ tree l ≠ none := by
  induction n generalizing here steps with
  | zero => exact exists_goThrough_false (n := 0) hdir (fun _ _ h => by cases h) h
  | succ n ih => exact exists_goThrough_false (n := n + 1) hdir (fun _ _ h => ih h) h

/-! ## Files that come and go -/

/-- Trees with the same directories and links. -/
def SameWays (tree tree' : Tree ν β) : Prop :=
  ∀ l, tree' l = tree l ∨ NoWay (tree l) ∧ NoWay (tree' l)

theorem SameWays.symm (h : SameWays tree tree') : SameWays tree' tree :=
  fun l => (h l).imp Eq.symm And.symm

theorem SameWays.noWay (h : SameWays tree tree') (hno : NoWay (tree l)) : NoWay (tree' l) := by
  rcases h l with heq | ⟨-, hno'⟩
  · rwa [heq]
  · exact hno'

theorem SameWays.eq_of_not_noWay (h : SameWays tree tree') (hway : ¬ NoWay (tree l)) :
    tree' l = tree l :=
  (h l).resolve_right fun hno => hway hno.1

theorem goThrough_eq_ok_of_sameWays (h : SameWays tree tree')
    (hlinked : ∀ here steps, onLink here steps = .ok l → onLink' here steps = .ok l)
    (hl : goThrough tree followLast onLink here steps = .ok l) :
    goThrough tree' followLast onLink' here steps = .ok l := by
  induction steps generalizing here with
  | nil => exact hl
  | cons step steps ih =>
    by_cases hstep : IsNameless step
    · rw [goThrough_nameless hstep] at hl ⊢
      exact ih hl
    obtain ⟨name, rfl⟩ : ∃ name, step = .down name := by simpa [IsNameless] using hstep
    by_cases hno : NoWay (tree (here ++ [name]))
    · obtain ⟨rfl, rfl⟩ := goThrough_of_noWay hno hl
      exact goThrough_end_of_noWay (h.noWay hno)
    have heq := h.eq_of_not_noWay hno
    rcases (noWay_or (tree (here ++ [name]))).resolve_left hno with hnode | ⟨target, hnode⟩
    · rw [goThrough_directory hnode] at hl
      rw [goThrough_directory (heq.trans hnode)]
      exact ih hl
    · rw [goThrough_link hnode] at hl
      rw [goThrough_link (heq.trans hnode)]
      split at hl
      · next hlast =>
        rw [if_pos hlast]
        exact hl
      · next hlast =>
        rw [if_neg hlast]
        exact hlinked here _ hl

/-- **Where files come and go a path leads where it led before.** -/
theorem resolve_eq_ok_of_sameWays (h : SameWays tree tree')
    (hl : resolve tree followLast n here steps = .ok l) :
    resolve tree' followLast n here steps = .ok l := by
  induction n generalizing here steps with
  | zero => exact goThrough_eq_ok_of_sameWays h (fun _ _ h => by cases h) hl
  | succ n ih => exact goThrough_eq_ok_of_sameWays h (fun _ _ h => ih h) hl

/-! ## Moving -/

variable [DecidableEq ν] {source goal : List ν}

/-- A tree with what is at and below one location moved to another. -/
def move (tree : Tree ν β) (source goal : List ν) : Tree ν β := fun l =>
  if goal <+: l then tree (source ++ l.drop goal.length)
  else if source <+: l then none
  else tree l

/-- Away from the goal a move only takes away. -/
theorem move_of_not_prefix (tree : Tree ν β) (source : List ν) (h : ¬ goal <+: l) :
    move tree source goal l = tree l ∨ source <+: l ∧ move tree source goal l = none := by
  by_cases hsource : source <+: l
  · exact .inr ⟨hsource, by rw [move, if_neg h, if_pos hsource]⟩
  · exact .inl (by rw [move, if_neg h, if_neg hsource])

end LinkTree
