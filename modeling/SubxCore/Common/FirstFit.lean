import Mathlib.Data.List.Find
import Mathlib.Data.List.Nodup
import Mathlib.Data.List.Forall2
/-!
# First come, first served

Items come one after the other, each with the list of the slots it would
take, best first, and each is given the first of them that is not taken
yet. When every item gets a slot, the slots are distinct.
-/

namespace FirstFit

universe u

variable {α : Type u} [DecidableEq α] {options : List α} {items : List (List α)}
variable {taken slots : List α}

/-- The first slot of an item that is still free. -/
def pick (options taken : List α) : Option α := options.find? fun slot => slot ∉ taken

/-- The slots that the items are given, beside those taken already; none when
an item finds no free one. -/
def serve : List (List α) → List α → Option (List α)
  | [], _ => some []
  | options :: items, taken =>
    (pick options taken).bind fun slot => (serve items (slot :: taken)).map (slot :: ·)

theorem pick_eq_some {slot : α} (h : pick options taken = some slot) :
    slot ∈ options ∧ slot ∉ taken := by
  unfold pick at h
  have hfree := List.find?_some h
  exact ⟨List.mem_of_find?_eq_some h, of_decide_eq_true hfree⟩

theorem pick_cons_of_notMem {slot : α} (h : slot ∉ taken) :
    pick (slot :: options) taken = some slot := List.find?_cons_of_pos (decide_eq_true h)

theorem pick_cons_of_mem {slot : α} (h : slot ∈ taken) :
    pick (slot :: options) taken = pick options taken :=
  List.find?_cons_of_neg fun hnot => of_decide_eq_true hnot h

/-- Picking among the slots with some property. -/
theorem pick_filter {p q : α → Bool}
    (h : ∀ slot ∈ options, q slot = true ↔ p slot = true ∧ slot ∉ taken) :
    pick (options.filter p) taken = options.find? q := by
  unfold pick
  rw [List.find?_filter]
  refine List.find?_congr fun slot hslot => ?_
  rw [Bool.eq_iff_iff, h slot hslot, decide_eq_true_eq, decide_eq_true_eq]

theorem serve_cons {options : List α} (h : serve (options :: items) taken = some slots) :
    ∃ slot rest, slots = slot :: rest ∧ pick options taken = some slot ∧
      serve items (slot :: taken) = some rest := by
  rw [serve] at h
  obtain ⟨slot, hpick, h⟩ := Option.bind_eq_some_iff.1 h
  obtain ⟨rest, hrest, rfl⟩ := Option.map_eq_some_iff.1 h
  exact ⟨slot, rest, rfl, hpick, hrest⟩

/-- Everyone is served when the first is, and then the others. -/
theorem serve_cons_isSome {options : List α} : (serve (options :: items) taken).isSome ↔
    ∃ slot, pick options taken = some slot ∧ (serve items (slot :: taken)).isSome := by
  rw [serve]
  rcases pick options taken with - | slot
  · simp
  · simp

/-- **The slots given are distinct**, each among those its item would take,
and none was taken before. -/
theorem serve_spec : ∀ {items : List (List α)} {taken slots : List α},
    serve items taken = some slots →
      List.Forall₂ (fun options slot => slot ∈ options) items slots ∧ slots.Nodup ∧
        ∀ slot ∈ slots, slot ∉ taken
  | [], _, _, h => by
    cases h
    exact ⟨.nil, List.nodup_nil, fun _ h => by cases h⟩
  | options :: items, taken, _, h => by
    obtain ⟨slot, rest, rfl, hpick, hrest⟩ := serve_cons h
    obtain ⟨hmem, hfree⟩ := pick_eq_some hpick
    obtain ⟨hall, hnodup, hfresh⟩ := serve_spec hrest
    refine ⟨.cons hmem hall, List.nodup_cons.2 ⟨fun hin => ?_, hnodup⟩, fun s hs => ?_⟩
    · exact hfresh slot hin List.mem_cons_self
    · rcases List.mem_cons.1 hs with rfl | hs
      · exact hfree
      · exact fun hin => hfresh s hs (List.mem_cons_of_mem _ hin)

end FirstFit
