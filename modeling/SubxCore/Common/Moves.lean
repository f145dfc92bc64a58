import Mathlib.Data.List.Nodup
import Mathlib.Logic.Function.Basic
/-!
# Moves

Things lie at places, at most one at each, and are moved one after the
other. A move takes the thing at its source to its target, or to some other
free place when its target is taken; what lies at hidden places may change
meanwhile. When no two moves share a source or a target, and every target is
free once the sources before it are, each thing ends at its target. Where
things can be told apart, that is also necessary.
-/

namespace Moves

universe u v

open Function

variable {α : Type u} {β : Type v} [DecidableEq α]

/-- What one move leaves at the places that are not hidden. -/
inductive Step (hidden : α → Prop) (f : α → Option β) (m : α × α) (g : α → Option β) : Prop
  /-- There was nothing to move. -/
  | idle : f m.1 = none → (∀ p, ¬ hidden p → g p = f p) → Step hidden f m g
  /-- The thing is at a place that was free, the target if that was. -/
  | moved (q : α) : (f m.1).isSome → ¬ hidden q → f q = none → (f m.2 = none → q = m.2) →
      (∀ p, ¬ hidden p → g p = update (update f m.1 none) q (f m.1) p) → Step hidden f m g

/-- Moves one after the other. -/
inductive Run (hidden : α → Prop) : (α → Option β) → List (α × α) → (α → Option β) → Prop
  | nil {f : α → Option β} : Run hidden f [] f
  | cons {f g f' : α → Option β} {m : α × α} {ms : List (α × α)} :
      Step hidden f m g → Run hidden g ms f' → Run hidden f (m :: ms) f'

/-- Every target is free once the sources before it are. -/
def Vacated : (α → Option β) → List (α × α) → Prop
  | _, [] => True
  | f, m :: ms => f m.2 = none ∧ Vacated (update f m.1 none) ms

instance decidableVacated [DecidableEq β] :
    (f : α → Option β) → (ms : List (α × α)) → Decidable (Vacated f ms)
  | _, [] => inferInstanceAs (Decidable True)
  | f, m :: ms =>
    @instDecidableAnd _ _ (inferInstanceAs (Decidable (f m.2 = none)))
      (decidableVacated (update f m.1 none) ms)

/-- **Moves that do not get in each other's way.** -/
structure Orderly (f : α → Option β) (ms : List (α × α)) : Prop where
  sources : (ms.map Prod.fst).Nodup
  targets : (ms.map Prod.snd).Nodup
  present : ∀ m ∈ ms, (f m.1).isSome
  vacated : Vacated f ms

instance [DecidableEq β] (f : α → Option β) (ms : List (α × α)) : Decidable (Orderly f ms) :=
  decidable_of_iff ((ms.map Prod.fst).Nodup ∧ (ms.map Prod.snd).Nodup ∧
      (∀ m ∈ ms, (f m.1).isSome) ∧ Vacated f ms)
    ⟨fun ⟨hs, ht, hp, hv⟩ => ⟨hs, ht, hp, hv⟩, fun h => ⟨h.sources, h.targets, h.present, h.vacated⟩⟩

variable {hidden : α → Prop} {f g f' : α → Option β} {m : α × α} {ms : List (α × α)} {p : α}

/-! ## One move -/

/-- Only the targets matter. -/
theorem Vacated.congr : ∀ {ms : List (α × α)} {f g : α → Option β}, Vacated f ms →
    (∀ m ∈ ms, g m.2 = f m.2) → Vacated g ms
  | [], _, _, _, _ => trivial
  | m :: ms, f, g, ⟨hfree, hrest⟩, hsame => by
    refine ⟨(hsame m List.mem_cons_self).trans hfree, hrest.congr fun m' hm' => ?_⟩
    by_cases heq : m'.2 = m.1
    · rw [heq, update_self, update_self]
    · rw [update_of_ne heq, update_of_ne heq, hsame m' (List.mem_cons_of_mem m hm')]

/-- A thing that is not moved stays. -/
theorem Step.kept (h : Step hidden f m g) (hp : ¬ hidden p) (hsome : (f p).isSome)
    (hne : p ≠ m.1) : g p = f p := by
  cases h with
  | idle _ hg => exact hg p hp
  | moved q _ _ hq _ hg =>
    have hpq : p ≠ q := by
      rintro rfl
      rw [hq] at hsome
      cases hsome
    rw [hg p hp, update_of_ne hpq, update_of_ne hne]

/-- A move to a free target. -/
theorem Step.of_free (h : Step hidden f m g) (hsome : (f m.1).isSome) (hfree : f m.2 = none)
    (hp : ¬ hidden p) : g p = update (update f m.1 none) m.2 (f m.1) p := by
  cases h with
  | idle hnone _ =>
    rw [hnone] at hsome
    cases hsome
  | moved q _ _ _ htarget hg => rw [hg p hp, htarget hfree]

/-- A thing is at one place only, the hidden ones aside. -/
def AtOnePlace (hidden : α → Prop) (f : α → Option β) (b : β) : Prop :=
  ∀ p p', ¬ hidden p → ¬ hidden p' → f p = some b → f p' = some b → p = p'

/-- A move leaves it at one place. -/
theorem AtOnePlace.step {b : β} (hf : AtOnePlace hidden f b) (h : Step hidden f m g)
    (hm : ¬ hidden m.1) : AtOnePlace hidden g b := by
  cases h with
  | idle _ hg =>
    intro p p' hp hp' hb hb'
    exact hf p p' hp hp' ((hg p hp).symm.trans hb) ((hg p' hp').symm.trans hb')
  | moved q _ _ _ _ hg =>
    -- each place now, and where its thing was before
    have hback : ∀ p, ¬ hidden p → g p = some b →
        (p = q ∧ f m.1 = some b) ∨ (p ≠ q ∧ p ≠ m.1 ∧ f p = some b) := by
      intro p hp hb
      rw [hg p hp] at hb
      by_cases hpq : p = q
      · rw [hpq, update_self] at hb
        exact Or.inl ⟨hpq, hb⟩
      rw [update_of_ne hpq] at hb
      by_cases hpm : p = m.1
      · rw [hpm, update_self] at hb
        cases hb
      · rw [update_of_ne hpm] at hb
        exact Or.inr ⟨hpq, hpm, hb⟩
    intro p p' hp hp' hb hb'
    rcases hback p hp hb with ⟨rfl, hmoved⟩ | ⟨-, hne, hstayed⟩
    · rcases hback p' hp' hb' with ⟨rfl, -⟩ | ⟨-, hne', hstayed'⟩
      · rfl
      · exact absurd (hf p' m.1 hp' hm hstayed' hmoved) hne'
    · rcases hback p' hp' hb' with ⟨rfl, hmoved'⟩ | ⟨-, -, hstayed'⟩
      · exact absurd (hf p m.1 hp hm hstayed hmoved') hne
      · exact hf p p' hp hp' hstayed hstayed'

/-- **After an orderly move the rest is orderly**, and the things to be moved
are where they were. -/
theorem Orderly.tail (h : Orderly f (m :: ms)) (hstep : Step hidden f m g)
    (hvisible : ∀ m' ∈ m :: ms, ¬ hidden m'.1 ∧ ¬ hidden m'.2) :
    Orderly g ms ∧ g m.2 = f m.1 ∧ ∀ m' ∈ ms, g m'.1 = f m'.1 := by
  have hsources := List.nodup_cons.1 h.sources
  have htargets := List.nodup_cons.1 h.targets
  obtain ⟨hfree, hvacated⟩ := h.vacated
  have hvisible' : ∀ m' ∈ ms, ¬ hidden m'.1 ∧ ¬ hidden m'.2 := fun m' hm' =>
    hvisible m' (List.mem_cons_of_mem m hm')
  have hpresent : ∀ m' ∈ ms, (f m'.1).isSome := fun m' hm' =>
    h.present m' (List.mem_cons_of_mem m hm')
  have hmoved : ∀ p, ¬ hidden p → g p = update (update f m.1 none) m.2 (f m.1) p := fun p hp =>
    hstep.of_free (h.present m List.mem_cons_self) hfree hp
  have hsame : ∀ m' ∈ ms, g m'.1 = f m'.1 := fun m' hm' =>
    hstep.kept (hvisible' m' hm').1 (hpresent m' hm') fun heq =>
      hsources.1 (heq ▸ List.mem_map_of_mem hm')
  refine ⟨⟨hsources.2, htargets.2, fun m' hm' => ?_, hvacated.congr fun m' hm' => ?_⟩, ?_, hsame⟩
  · rw [hsame m' hm']
    exact hpresent m' hm'
  · have hne : m'.2 ≠ m.2 := fun heq => htargets.1 (heq ▸ List.mem_map_of_mem hm')
    rw [hmoved _ (hvisible' m' hm').2, update_of_ne hne]
  · rw [hmoved _ (hvisible m List.mem_cons_self).2, update_self]

/-! ## Moves one after the other -/

/-- A thing that no move takes stays. -/
theorem Run.kept (h : Run hidden f ms f') (hp : ¬ hidden p) (hsome : (f p).isSome)
    (hne : ∀ m ∈ ms, p ≠ m.1) : f' p = f p := by
  induction h with
  | nil => rfl
  | @cons f g f' m ms hstep _ ih =>
    have hfirst := hstep.kept hp hsome (hne m List.mem_cons_self)
    rw [ih (hfirst ▸ hsome) fun m' hm' => hne m' (List.mem_cons_of_mem m hm'), hfirst]

/-- A thing that is at one place only is so at the end. -/
theorem Run.atOnePlace {b : β} (h : Run hidden f ms f') (hvisible : ∀ m ∈ ms, ¬ hidden m.1)
    (hf : AtOnePlace hidden f b) : AtOnePlace hidden f' b := by
  induction h with
  | nil => exact hf
  | @cons f g f' m ms hstep _ ih =>
    exact ih (fun m' hm' => hvisible m' (List.mem_cons_of_mem m hm'))
      (hf.step hstep (hvisible m List.mem_cons_self))

/-- **Orderly moves take each thing to its target.** -/
theorem Run.placed (h : Run hidden f ms f') (horderly : Orderly f ms)
    (hvisible : ∀ m ∈ ms, ¬ hidden m.1 ∧ ¬ hidden m.2) : ∀ m ∈ ms, f' m.2 = f m.1 := by
  induction h with
  | nil =>
    intro m hm
    cases hm
  | @cons f g f' m ms hstep hrun ih =>
    obtain ⟨hrest, hplaced, hsame⟩ := horderly.tail hstep hvisible
    intro m' hm'
    rcases List.mem_cons.1 hm' with rfl | hm'
    · -- what it found at its target, nothing takes from there
      have hfree := horderly.vacated.1
      have hsome : (g m'.2).isSome := hplaced ▸ horderly.present m' List.mem_cons_self
      rw [hrun.kept (hvisible m' List.mem_cons_self).2 hsome fun m'' hm'' heq => ?_, hplaced]
      have hpresent := horderly.present m'' (List.mem_cons_of_mem m' hm'')
      rw [← heq, hfree] at hpresent
      cases hpresent
    · rw [ih hrest (fun m'' hm'' => hvisible m'' (List.mem_cons_of_mem m hm'')) m' hm', hsame m' hm']

/-- A place that is free, and no target, stays free. -/
theorem Run.free (h : Run hidden f ms f') (horderly : Orderly f ms)
    (hvisible : ∀ m ∈ ms, ¬ hidden m.1 ∧ ¬ hidden m.2) (hp : ¬ hidden p) (hnone : f p = none)
    (hne : ∀ m ∈ ms, p ≠ m.2) : f' p = none := by
  induction h with
  | nil => exact hnone
  | @cons f g f' m ms hstep _ ih =>
    have hfree : g p = none := by
      rw [hstep.of_free (horderly.present m List.mem_cons_self) horderly.vacated.1 hp,
        update_of_ne (hne m List.mem_cons_self)]
      by_cases hpm : p = m.1
      · rw [hpm, update_self]
      · rw [update_of_ne hpm, hnone]
    exact ih (horderly.tail hstep hvisible).1
      (fun m' hm' => hvisible m' (List.mem_cons_of_mem m hm')) hfree
      fun m' hm' => hne m' (List.mem_cons_of_mem m hm')

/-- **Orderly moves leave their sources empty**, where no source is a target. -/
theorem Run.emptied (h : Run hidden f ms f') (horderly : Orderly f ms)
    (hvisible : ∀ m ∈ ms, ¬ hidden m.1 ∧ ¬ hidden m.2)
    (hapart : ∀ m ∈ ms, ∀ m' ∈ ms, m.1 ≠ m'.2) : ∀ m ∈ ms, f' m.1 = none := by
  induction h with
  | nil =>
    intro m hm
    cases hm
  | @cons f g f' m ms hstep hrun ih =>
    have hrest := (horderly.tail hstep hvisible).1
    have hvisible' : ∀ m' ∈ ms, ¬ hidden m'.1 ∧ ¬ hidden m'.2 := fun m' hm' =>
      hvisible m' (List.mem_cons_of_mem m hm')
    intro m' hm'
    rcases List.mem_cons.1 hm' with rfl | hm'
    · have hsource := (hvisible m' List.mem_cons_self).1
      refine hrun.free hrest hvisible' hsource ?_ fun m'' hm'' =>
        hapart m' List.mem_cons_self m'' (List.mem_cons_of_mem m' hm'')
      rw [hstep.of_free (horderly.present m' List.mem_cons_self) horderly.vacated.1 hsource,
        update_of_ne (hapart m' List.mem_cons_self m' List.mem_cons_self), update_self]
    · exact ih hrest hvisible' (fun a ha b hb => hapart a (List.mem_cons_of_mem m ha) b
        (List.mem_cons_of_mem m hb)) m' hm'

/-- A first move whose thing ends at its target finds it free, when that thing
is at one place only. -/
theorem Run.free_of_placed {b : β} (hstep : Step hidden f m g) (hrun : Run hidden g ms f')
    (hvisible : ∀ m' ∈ m :: ms, ¬ hidden m'.1 ∧ ¬ hidden m'.2)
    (hpresent : ∀ m' ∈ ms, (f m'.1).isSome) (hb : f m.1 = some b) (hone : AtOnePlace hidden f b)
    (hplaced : f' m.2 = some b) : f m.2 = none := by
  have hm := hvisible m List.mem_cons_self
  by_contra htaken
  cases id hstep with
  | idle hnone _ =>
    rw [hb] at hnone
    cases hnone
  | moved q _ hq hfree _ hg =>
    -- it is elsewhere, and nothing takes it from there
    have hgq : g q = some b := by rw [hg q hq, update_self, hb]
    have hkept : f' q = some b := by
      rw [hrun.kept hq (Option.isSome_of_eq_some hgq) fun m' hm' heq => ?_, hgq]
      have hsome := hpresent m' hm'
      rw [← heq, hfree] at hsome
      cases hsome
    have hend := (Run.cons hstep hrun).atOnePlace (fun m' hm' => (hvisible m' hm').1) hone
    exact htaken (hend q m.2 hq hm.2 hkept hplaced ▸ hfree)

/-- **And only orderly moves do**, when their targets are distinct and each thing
is at one place only. -/
theorem Run.orderly (h : Run hidden f ms f')
    (hvisible : ∀ m ∈ ms, ¬ hidden m.1 ∧ ¬ hidden m.2) (hpresent : ∀ m ∈ ms, (f m.1).isSome)
    (hone : ∀ m ∈ ms, ∀ b ∈ f m.1, AtOnePlace hidden f b)
    (htargets : (ms.map Prod.snd).Nodup) (hplaced : ∀ m ∈ ms, f' m.2 = f m.1) : Orderly f ms := by
  induction h with
  | nil => exact ⟨List.nodup_nil, List.nodup_nil, hpresent, trivial⟩
  | @cons f g f' m ms hstep hrun ih =>
    have hm := hvisible m List.mem_cons_self
    have hvisible' : ∀ m' ∈ ms, ¬ hidden m'.1 ∧ ¬ hidden m'.2 := fun m' hm' =>
      hvisible m' (List.mem_cons_of_mem m hm')
    have hpresent' : ∀ m' ∈ ms, (f m'.1).isSome := fun m' hm' =>
      hpresent m' (List.mem_cons_of_mem m hm')
    have hnodup := List.nodup_cons.1 htargets
    obtain ⟨b, hb⟩ := Option.isSome_iff_exists.1 (hpresent m List.mem_cons_self)
    have hbone := hone m List.mem_cons_self b hb
    have hfree : f m.2 = none := Run.free_of_placed hstep hrun hvisible hpresent' hb hbone
      ((hplaced m List.mem_cons_self).trans hb)
    -- a thing that is moved twice would be at two targets
    have hfresh : m.1 ∉ ms.map Prod.fst := by
      intro hmem
      obtain ⟨m', hm', heq⟩ := List.mem_map.1 hmem
      have hend := (Run.cons hstep hrun).atOnePlace (fun m' hm' => (hvisible m' hm').1) hbone
      have hthere := hplaced m' (List.mem_cons_of_mem m hm')
      rw [heq, hb] at hthere
      have hsame : m'.2 = m.2 := hend m'.2 m.2 (hvisible' m' hm').2 hm.2 hthere
        ((hplaced m List.mem_cons_self).trans hb)
      exact hnodup.1 (hsame ▸ List.mem_map_of_mem hm')
    have hsame : ∀ m' ∈ ms, g m'.1 = f m'.1 := fun m' hm' =>
      hstep.kept (hvisible' m' hm').1 (hpresent' m' hm') fun heq =>
        hfresh (heq ▸ List.mem_map_of_mem hm')
    have hrest : Orderly g ms := by
      refine ih hvisible' (fun m' hm' => ?_) (fun m' hm' b' hb' => ?_) hnodup.2 fun m' hm' => ?_
      · rw [hsame m' hm']
        exact hpresent' m' hm'
      · rw [hsame m' hm'] at hb'
        exact (hone m' (List.mem_cons_of_mem m hm') b' hb').step hstep hm.1
      · rw [hsame m' hm', hplaced m' (List.mem_cons_of_mem m hm')]
    refine ⟨List.nodup_cons.2 ⟨hfresh, hrest.sources⟩, htargets, hpresent, hfree,
      hrest.vacated.congr fun m' hm' => ?_⟩
    have hne : m'.2 ≠ m.2 := fun heq => hnodup.1 (heq ▸ List.mem_map_of_mem hm')
    rw [hstep.of_free (hpresent m List.mem_cons_self) hfree (hvisible' m' hm').2, update_of_ne hne]

end Moves
