import Mathlib.Data.List.Infix
import Mathlib.Data.List.Basic
/-!
# Directory trees

Nodes at locations, where a location is the list of names from the root
down. A walk goes through directories only; as there are no links it ends,
when it gets there, where its steps say. Steps that never climb above where
they began lead to a location below it.
-/

namespace DirTree

universe u v

/-- A step of a walk. -/
inductive Step (ν : Type u)
  | top
  | stay
  | up
  | down (name : ν)
  deriving DecidableEq, Repr

/-- What is at a location. -/
inductive Node (β : Type v)
  | directory
  | file (content : β)
  deriving DecidableEq, Repr

/-- A tree: what is where. -/
abbrev Tree (ν : Type u) (β : Type v) := List ν → Option (Node β)

variable {ν : Type u} {β : Type v} {tree tree' : Tree ν β} {root here there names : List ν}
variable {steps steps' : List (Step ν)} {step : Step ν}

/-- Where a step leads. -/
def Step.lead : Step ν → List ν → List ν
  | .top, _ => []
  | .stay, here => here
  | .up, here => here.dropLast
  | .down name, here => here ++ [name]

/-- Where steps lead. -/
def goal (here : List ν) (steps : List (Step ν)) : List ν :=
  steps.foldl (fun here step => step.lead here) here

/-- A walk: every step is made from a directory. -/
def walk (tree : Tree ν β) : List ν → List (Step ν) → Option (List ν)
  | here, [] => some here
  | here, step :: steps =>
    match tree here with
    | some .directory => walk tree (step.lead here) steps
    | _ => none

/-- Where steps lead below a location, from names below it; nowhere, when
they climb above the location or start from the top. -/
def descend : List ν → List (Step ν) → Option (List ν)
  | names, [] => some names
  | _, .top :: _ => none
  | names, .stay :: steps => descend names steps
  | names, .up :: steps => if names = [] then none else descend names.dropLast steps
  | names, .down name :: steps => descend (names ++ [name]) steps

/-- A location strictly below another. -/
def Below (root there : List ν) : Prop := ∃ names, names ≠ [] ∧ there = root ++ names

/-! ## Walking -/

@[simp] theorem goal_nil : goal here [] = here := rfl

@[simp] theorem goal_cons : goal here (step :: steps) = goal (step.lead here) steps := rfl

theorem goal_append : goal here (steps ++ steps') = goal (goal here steps) steps' :=
  List.foldl_append

theorem walk_cons_of_directory (h : tree here = some .directory) :
    walk tree here (step :: steps) = walk tree (step.lead here) steps := by
  rw [walk, h]

theorem walk_cons_eq_some (h : walk tree here (step :: steps) = some there) :
    tree here = some .directory ∧ walk tree (step.lead here) steps = some there := by
  rw [walk] at h
  split at h
  · next hhere => exact ⟨hhere, h⟩
  · cases h

/-- **A walk ends where its steps lead.** -/
theorem eq_goal_of_walk (h : walk tree here steps = some there) : there = goal here steps := by
  induction steps generalizing here with
  | nil => exact (Option.some.inj h).symm
  | cons step steps ih => exact ih (walk_cons_eq_some h).2

/-- More directories stop no walk. -/
theorem walk_mono (hmore : ∀ l, tree l = some .directory → tree' l = some .directory)
    (h : walk tree here steps = some there) : walk tree' here steps = some there := by
  induction steps generalizing here with
  | nil => exact h
  | cons step steps ih =>
    obtain ⟨hhere, hwalk⟩ := walk_cons_eq_some h
    rw [walk_cons_of_directory (hmore here hhere)]
    exact ih hwalk

/-- A walk is any first part of it, and then the rest. -/
theorem walk_append_eq_some (h : walk tree here (steps ++ steps') = some there) :
    ∃ middle, walk tree here steps = some middle ∧ walk tree middle steps' = some there := by
  induction steps generalizing here with
  | nil => exact ⟨here, rfl, h⟩
  | cons step steps ih =>
    obtain ⟨hhere, hwalk⟩ := walk_cons_eq_some h
    obtain ⟨middle, hfirst, hrest⟩ := ih hwalk
    exact ⟨middle, (walk_cons_of_directory hhere).trans hfirst, hrest⟩

/-! ## Staying below -/

theorem descend_append : descend names (steps ++ steps') =
    (descend names steps).bind (descend · steps') := by
  induction steps generalizing names with
  | nil => rfl
  | cons step steps ih =>
    cases step with
    | top => rfl
    | stay => exact ih
    | up =>
      rw [List.cons_append, descend, descend]
      split
      · rfl
      · exact ih
    | down name => exact ih

/-- What begins a descent is one. -/
theorem descend_isSome_of_append (h : (descend names (steps ++ steps')).isSome) :
    (descend names steps).isSome := by
  rw [descend_append] at h
  exact Option.isSome_of_isSome_bind h

/-- **A descent, made from a location, leads below it.** -/
theorem goal_of_descend {names' : List ν} (h : descend names steps = some names') :
    goal (root ++ names) steps = root ++ names' := by
  induction steps generalizing names with
  | nil => rw [goal_nil, Option.some.inj h]
  | cons step steps ih =>
    cases step with
    | top => cases h
    | stay => exact ih h
    | up =>
      rw [descend] at h
      split at h
      · cases h
      · next hne =>
        rw [goal_cons, Step.lead, List.dropLast_append_of_ne_nil hne]
        exact ih h
    | down name =>
      rw [goal_cons, Step.lead, List.append_assoc]
      exact ih h

/-- Steps that neither climb nor start from the top are a descent. -/
theorem descend_isSome (htop : Step.top ∉ steps) (hup : Step.up ∉ steps) :
    (descend names steps).isSome := by
  induction steps generalizing names with
  | nil => rfl
  | cons step steps ih =>
    rw [List.mem_cons, not_or] at htop hup
    cases step with
    | top => exact absurd rfl htop.1
    | stay => exact ih htop.2 hup.2
    | up => exact absurd rfl hup.1
    | down name => exact ih htop.2 hup.2

theorem below_of_ne_nil (h : names ≠ []) : Below root (root ++ names) := ⟨names, h, rfl⟩

end DirTree
