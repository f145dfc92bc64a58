import Mathlib.Data.List.Basic
import Mathlib.Data.List.Induction
/-!
# Machines

A system of many parties is a machine of guarded actions: an action is
enabled in some states, and takes each of these to one other. A state is
reached by any sequence of enabled actions, which is any interleaving of
what the parties do. An invariant holds at first and is kept by every
action; a machine restricted to fewer steps reaches fewer states.
-/

universe u v

/-- A machine of guarded actions. -/
structure Machine (σ : Type u) (α : Type v) where
  enabled : σ → α → Prop
  effect : σ → α → σ

namespace Machine

variable {σ : Type u} {α : Type v} {M : Machine σ α} {s t : σ} {a : α} {as : List α}

/-- The states reached from one. -/
inductive Reaches (M : Machine σ α) (s : σ) : σ → Prop
  | refl : Reaches M s s
  | step {t : σ} {a : α} : Reaches M s t → M.enabled t a → Reaches M s (M.effect t a)

/-- **The invariant rule.** What holds at first, and is kept by every action
enabled in a state that is reached, holds in every state that is. -/
theorem Reaches.invariant {P : σ → Prop} (hinit : P s)
    (hstep : ∀ t a, M.Reaches s t → M.enabled t a → P t → P (M.effect t a))
    (h : M.Reaches s t) : P t := by
  induction h with
  | refl => exact hinit
  | step ht ha ih => exact hstep _ _ ht ha ih

theorem Reaches.trans {u : σ} (h : M.Reaches s t) (h' : M.Reaches t u) : M.Reaches s u := by
  induction h' with
  | refl => exact h
  | step _ ha ih => exact ih.step ha

/-- A machine with fewer steps. -/
def restrict (M : Machine σ α) (ok : σ → α → Prop) : Machine σ α where
  enabled s a := M.enabled s a ∧ ok s a
  effect := M.effect

/-- It reaches fewer states. -/
theorem Reaches.of_restrict {ok : σ → α → Prop} (h : (M.restrict ok).Reaches s t) :
    M.Reaches s t := by
  induction h with
  | refl => exact Reaches.refl
  | step _ ha ih => exact ih.step ha.1

/-! ## Runs that are carried out -/

variable [∀ s a, Decidable (M.enabled s a)]

/-- Some actions one after the other. -/
def run (M : Machine σ α) [∀ s a, Decidable (M.enabled s a)] : σ → List α → Option σ
  | s, [] => some s
  | s, a :: as => if M.enabled s a then M.run (M.effect s a) as else none

theorem run_cons_eq_some :
    M.run s (a :: as) = some t ↔ M.enabled s a ∧ M.run (M.effect s a) as = some t := by
  rw [run]
  by_cases ha : M.enabled s a
  · rw [if_pos ha, and_iff_right ha]
  · simp [ha]

/-- A run is any first part of it, and then the rest. -/
theorem run_append_eq_some : ∀ {as bs : List α} {s t : σ},
    M.run s (as ++ bs) = some t ↔ ∃ u, M.run s as = some u ∧ M.run u bs = some t
  | [], bs, s, t => by
    rw [List.nil_append, run]
    exact ⟨fun h => ⟨s, rfl, h⟩, fun ⟨u, hu, h⟩ => Option.some.inj hu ▸ h⟩
  | a :: as, bs, s, t => by
    rw [List.cons_append, run_cons_eq_some, run_append_eq_some]
    constructor
    · rintro ⟨ha, u, hu, h⟩
      exact ⟨u, run_cons_eq_some.2 ⟨ha, hu⟩, h⟩
    · rintro ⟨u, hu, h⟩
      obtain ⟨ha, hu⟩ := run_cons_eq_some.1 hu
      exact ⟨ha, u, hu, h⟩

/-- What a run leads to is reached. -/
theorem Reaches.run : ∀ {as : List α} {t u : σ}, M.Reaches s t → M.run t as = some u →
    M.Reaches s u
  | [], _, _, ht, hrun => Option.some.inj hrun ▸ ht
  | _ :: _, _, _, ht, hrun =>
    have ⟨ha, hrest⟩ := run_cons_eq_some.1 hrun
    (ht.step ha).run hrest

/-- A run that leads to a state with some property shows that such a state is
reached. -/
theorem exists_reaches_of_run {p : σ → Bool} (h : (M.run s as).any p = true) :
    ∃ t, M.Reaches s t ∧ p t = true := by
  obtain ⟨t, hrun, hp⟩ := (Option.any_eq_true _ _).1 h
  exact ⟨t, Reaches.refl.run hrun, hp⟩

/-- A run goes through a state. -/
def Visits (M : Machine σ α) [∀ s a, Decidable (M.enabled s a)] (s : σ) (as : List α) (t : σ) :
    Prop :=
  ∃ before after, as = before ++ after ∧ M.run s before = some t

/-- A run takes a step in a state. -/
def Takes (M : Machine σ α) [∀ s a, Decidable (M.enabled s a)] (s : σ) (as : List α) (t : σ)
    (a : α) : Prop :=
  ∃ before after, as = before ++ a :: after ∧ M.run s before = some t ∧ M.enabled t a

theorem Takes.visits (h : M.Takes s as t a) : M.Visits s as t := by
  obtain ⟨before, after, has, hrun, -⟩ := h
  exact ⟨before, _, has, hrun⟩

/-- The first step of a run, and those that follow. -/
theorem takes_cons {b : α} : M.Takes s (a :: as) t b ↔
    M.enabled s a ∧ (t = s ∧ b = a ∨ M.Takes (M.effect s a) as t b) := by
  constructor
  · rintro ⟨- | ⟨a', before⟩, after, has, hrun, hb⟩
    · cases has
      cases hrun
      exact ⟨hb, Or.inl ⟨rfl, rfl⟩⟩
    · cases has
      obtain ⟨ha, hrun⟩ := run_cons_eq_some.1 hrun
      exact ⟨ha, Or.inr ⟨before, after, rfl, hrun, hb⟩⟩
  · rintro ⟨ha, ⟨rfl, rfl⟩ | ⟨before, after, rfl, hrun, hb⟩⟩
    · exact ⟨[], as, rfl, rfl, ha⟩
    · exact ⟨a :: before, after, rfl, run_cons_eq_some.2 ⟨ha, hrun⟩, hb⟩

/-- Whether the steps of a run are all of one kind, step by step. -/
def allSteps (M : Machine σ α) [∀ s a, Decidable (M.enabled s a)] (ok : σ → α → Bool) :
    σ → List α → Bool
  | _, [] => true
  | s, a :: as => if M.enabled s a then ok s a && M.allSteps ok (M.effect s a) as else true

theorem of_allSteps {ok : σ → α → Bool} : ∀ {as : List α} {s : σ}, M.allSteps ok s as = true →
    ∀ t a, M.Takes s as t a → ok t a = true
  | [], _, _, _, _, ⟨before, after, has, _⟩ => by
    cases before <;> cases has
  | a :: as, s, h, t, b, htakes => by
    obtain ⟨ha, hstep⟩ := takes_cons.1 htakes
    rw [allSteps, if_pos ha, Bool.and_eq_true] at h
    rcases hstep with ⟨rfl, rfl⟩ | hstep
    · exact h.1
    · exact of_allSteps h.2 t b hstep

/-- **A run whose steps are all of one kind** goes through states that such steps
reach. -/
theorem Visits.reaches {ok : σ → α → Prop} (hok : ∀ t a, M.Takes s as t a → ok t a)
    (h : M.Visits s as t) : (M.restrict ok).Reaches s t := by
  obtain ⟨before, after, has, hrun⟩ := h
  induction before using List.reverseRecOn generalizing after t with
  | nil =>
    cases hrun
    exact Reaches.refl
  | append_singleton before a ih =>
    obtain ⟨u, hu, hlast⟩ := run_append_eq_some.1 hrun
    obtain ⟨ha, hnil⟩ := run_cons_eq_some.1 hlast
    cases hnil
    rw [List.append_assoc, List.singleton_append] at has
    exact (ih (a :: after) has hu).step ⟨ha, hok u a ⟨before, after, has, hu, ha⟩⟩

end Machine
