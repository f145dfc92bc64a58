import SubxCore.Common.Increasing
import SubxCore.Common.Text
import Mathlib.Data.List.FinRange
/-!
# Identifiers in the order of time

`Uuidv7Generator`: a UUID of version 7 is taken from the clock until one is later
than the last one handed out. The clock is the list of the UUIDs that
`Uuid::now_v7` gives, call by call, with whatever times they embed; sleeping between
two calls shows in nothing else. A call that has used the clock up is still waiting.
-/

namespace SubxCore

open Increasing

/-- `Uuid`. -/
structure Uuid where
  bytes : Vector UInt8 16
  deriving DecidableEq, Repr

/-- `unix_time_ms`. -/
def unixTimeMs (id : Uuid) : ℕ :=
  id.bytes[0].toNat <<< 40 ||| id.bytes[1].toNat <<< 32 ||| id.bytes[2].toNat <<< 24 |||
    id.bytes[3].toNat <<< 16 ||| id.bytes[4].toNat <<< 8 ||| id.bytes[5].toNat

/-- `Uuidv7Generator`. -/
structure Uuidv7Generator where
  lastUnixTsMs : Option ℕ
  deriving DecidableEq, Repr

namespace Uuidv7Generator

/-- `Uuidv7Generator::new`. -/
def new : Uuidv7Generator := ⟨none⟩

/-- `Uuidv7Generator::next_id`, and what it leaves of the clock. -/
def nextId (g : Uuidv7Generator) : List Uuid → Option (Uuid × Uuidv7Generator × List Uuid)
  | [] => none
  | id :: clock =>
    let ts := unixTimeMs id
    match g.lastUnixTsMs with
    -- not later: sleep, and ask again
    | some last => if ts ≤ last then g.nextId clock else some (id, ⟨some ts⟩, clock)
    | none => some (id, ⟨some ts⟩, clock)

/-- A UUID that the generator hands out. -/
def Later (g : Uuidv7Generator) (id : Uuid) : Prop := ∀ last ∈ g.lastUnixTsMs, last < unixTimeMs id

variable {g g' : Uuidv7Generator} {id : Uuid} {clock rest : List Uuid}

theorem nextId_cons_of_later (h : g.Later id) :
    g.nextId (id :: clock) = some (id, ⟨some (unixTimeMs id)⟩, clock) := by
  rw [nextId]
  split
  · next last hlast => rw [if_neg (h last hlast).not_ge]
  · rfl

theorem nextId_cons_of_not_later (h : ¬ g.Later id) : g.nextId (id :: clock) = g.nextId clock := by
  obtain ⟨last, hlast, hle⟩ : ∃ last ∈ g.lastUnixTsMs, unixTimeMs id ≤ last := by
    simpa [Later] using h
  rw [nextId, hlast]
  exact if_pos hle

/-- **The first UUID that is later than the last one** is handed out. -/
theorem nextId_eq_some_iff : g.nextId clock = some (id, g', rest) ↔
    ∃ early, clock = early ++ id :: rest ∧ (∀ id' ∈ early, ¬ g.Later id') ∧ g.Later id ∧
      g' = ⟨some (unixTimeMs id)⟩ := by
  induction clock with
  | nil =>
    refine iff_of_false (fun h => by cases h) ?_
    rintro ⟨early, h, -⟩
    exact List.append_ne_nil_of_right_ne_nil early (List.cons_ne_nil id rest) h.symm
  | cons id₀ clock ih =>
    by_cases hlater : g.Later id₀
    · rw [nextId_cons_of_later hlater]
      constructor
      · intro h
        cases h
        exact ⟨[], rfl, fun _ h => absurd h List.not_mem_nil, hlater, rfl⟩
      · rintro ⟨early, hclock, hearly, -, rfl⟩
        rcases early with - | ⟨id₁, early⟩
        · cases hclock
          rfl
        · obtain ⟨rfl, -⟩ := List.cons.inj hclock
          exact absurd hlater (hearly id₀ List.mem_cons_self)
    · rw [nextId_cons_of_not_later hlater, ih]
      constructor
      · rintro ⟨early, rfl, hearly, h⟩
        exact ⟨id₀ :: early, rfl, List.forall_mem_cons.2 ⟨hlater, hearly⟩, h⟩
      · rintro ⟨early, hclock, hearly, hid, hg'⟩
        rcases early with - | ⟨id₁, early⟩
        · obtain ⟨rfl, -⟩ := List.cons.inj hclock
          exact absurd hid hlater
        · obtain ⟨rfl, hrest⟩ := List.cons.inj hclock
          exact ⟨early, hrest, (List.forall_mem_cons.1 hearly).2, hid, hg'⟩

/-- **A call returns as soon as the clock is later** than at the last one. -/
theorem nextId_isSome_iff : (g.nextId clock).isSome ↔ ∃ id ∈ clock, g.Later id := by
  induction clock with
  | nil => simp [nextId]
  | cons id clock ih =>
    by_cases hlater : g.Later id
    · rw [nextId_cons_of_later hlater]
      exact iff_of_true rfl ⟨id, List.mem_cons_self, hlater⟩
    · rw [nextId_cons_of_not_later hlater, ih]
      simp [hlater]

/-- What a call hands out is issued in the order of time. -/
theorem issues_nextId (h : g.nextId clock = some (id, g', rest)) :
    Issues unixTimeMs g.lastUnixTsMs [id] g'.lastUnixTsMs ∧ (id :: rest).Sublist clock := by
  obtain ⟨early, rfl, -, hlater, rfl⟩ := nextId_eq_some_iff.1 h
  exact ⟨.single hlater, List.sublist_append_right early (id :: rest)⟩

end Uuidv7Generator

/-! ## The text of a UUID -/

/-- A hexadecimal digit. -/
def hexDigit (n : ℕ) : Char := if n < 10 then Char.ofNat (48 + n) else Char.ofNat (87 + n)

/-- The two digits of a byte. -/
def hexByte (b : UInt8) : Text := [hexDigit (b.toNat / 16), hexDigit (b.toNat % 16)]

/-- A UUID in the form `67e55044-10b1-426f-9247-bb680e5fe0c8`. -/
def hyphenatedForm (id : Uuid) : Text :=
  (List.finRange 16).flatMap fun i =>
    (if i.val ∈ [4, 6, 8, 10] then ['-'] else []) ++ hexByte id.bytes[i]

theorem hexDigit_injOn : ∀ m < 16, ∀ n < 16, hexDigit m = hexDigit n → m = n := by decide

theorem hexByte_injective : Function.Injective hexByte := by
  intro a b h
  obtain ⟨hhigh, hlow⟩ := List.cons.inj h
  have ha := a.toNat_lt
  have hb := b.toNat_lt
  have hdiv := hexDigit_injOn _ (by omega) _ (by omega) hhigh
  have hmod := hexDigit_injOn _ (Nat.mod_lt _ (by decide)) _ (Nat.mod_lt _ (by decide))
    (List.cons.inj hlow).1
  refine UInt8.toNat_inj.1 ?_
  omega

/-- Pieces of known lengths are told from all of them together. -/
theorem flatMap_inj_of_length {α β : Type} {f g : α → List β}
    (hlength : ∀ a, (f a).length = (g a).length) :
    ∀ {l : List α}, l.flatMap f = l.flatMap g → ∀ a ∈ l, f a = g a
  | [], _, _, h => absurd h List.not_mem_nil
  | a :: l, h, b, hb => by
    rw [List.flatMap_cons, List.flatMap_cons] at h
    obtain ⟨hhead, htail⟩ := List.append_inj h (hlength a)
    rcases List.mem_cons.1 hb with rfl | hb
    · exact hhead
    · exact flatMap_inj_of_length hlength htail b hb

/-- **Different UUIDs have different texts.** -/
theorem hyphenatedForm_injective : Function.Injective hyphenatedForm := by
  rintro ⟨a⟩ ⟨b⟩ h
  have hbytes : ∀ i : Fin 16, a[i] = b[i] := by
    intro i
    have hpiece := flatMap_inj_of_length (fun i => by simp [hexByte]) h i (List.mem_finRange i)
    exact hexByte_injective (List.append_cancel_left hpiece)
  rw [Vector.ext fun i hi => hbytes ⟨i, hi⟩]

end SubxCore
