import SubxCore.Common.Matches
import SubxCore.Formats.Clock
/-!
# Captured timing fields

A timing line is found by its pattern, and the fields the pattern captures
are then read as numbers. The pattern takes every decimal digit of Unicode,
the reader only ASCII, so a field may be captured that cannot be read; the
length of a field is never the reason.
-/

namespace SubxCore

open Text Decimal Regex

variable {sep : Char} {gs caps : List Text} {g : Text}

/-- A captured field: two or three decimal digits. -/
structure IsField (g : Text) : Prop where
  ne_nil : g ≠ []
  short : g.length ≤ 3
  digits : ∀ c ∈ g, digit c = true

/-- Every field is in ASCII. -/
def AsciiFields (caps : List Text) : Prop := ∀ g ∈ caps, ∀ c ∈ g, c.isDigit = true

instance : Decidable (AsciiFields caps) :=
  inferInstanceAs (Decidable (∀ g ∈ caps, ∀ c ∈ g, c.isDigit = true))

/-- A group of digits captures a field. -/
theorem groups_cons_field {n : ℕ} {rs : List Regex} (hn : n < 3)
    (h : (seqs (group (rep digit (n + 1)) :: rs)).Groups gs) :
    ∃ g rest, gs = g :: rest ∧ IsField g ∧ (seqs rs).Groups rest := by
  obtain ⟨g, rest, rfl, hg, hrest⟩ := groups_cons_group (anchorFree_rep _) (fun _ => groups_rep.1) h
  obtain ⟨hlen, hdigits⟩ := language_rep.1 hg
  exact ⟨g, rest, rfl, ⟨List.ne_nil_of_length_eq_add_one hlen, by omega, hdigits⟩, hrest⟩

/-- A timestamp captures four fields. -/
theorem groups_clockRegex {next : List Regex} (h : (seqs (clockRegex sep next)).Groups gs) :
    ∃ fields rest, gs = fields ++ rest ∧ fields.length = 4 ∧ (∀ g ∈ fields, IsField g) ∧
      (seqs next).Groups rest := by
  obtain ⟨hours, gs, rfl, hhours, h⟩ := groups_cons_field (by decide) h
  obtain ⟨minutes, gs, rfl, hminutes, h⟩ := groups_cons_field (by decide) (groups_cons_chr h)
  obtain ⟨seconds, gs, rfl, hseconds, h⟩ := groups_cons_field (by decide) (groups_cons_chr h)
  obtain ⟨millis, gs, rfl, hmillis, h⟩ := groups_cons_field (by decide) (groups_cons_chr h)
  exact ⟨[hours, minutes, seconds, millis], gs, rfl, rfl, by simp [*], h⟩

/-- **A timing line captures eight fields.** -/
theorem groups_timingRegex (h : (timingRegex sep).Groups gs) :
    gs.length = 8 ∧ ∀ g ∈ gs, IsField g := by
  obtain ⟨start, rest, rfl, hstart, hstarts, h⟩ := groups_clockRegex h
  obtain ⟨arrow, stops, rfl, harrow, h⟩ := h
  obtain ⟨stop, rest, rfl, hstop, hstops, h⟩ := groups_clockRegex h
  obtain rfl : rest = [] := h
  obtain rfl : arrow = [] := groups_lit.1 harrow
  rw [List.nil_append, List.append_nil]
  exact ⟨by simp [hstart, hstop], fun g hg => (List.mem_append.1 hg).elim (hstarts g) (hstops g)⟩

/-! ## Reading the fields -/

theorem exists_parseField_iff (wrap : ParseIntError → SubXError) {i : ℕ}
    (h : IsField (caps.getD (i - 1) [])) :
    (∃ n, parseField wrap caps i = .ok n) ↔ ∀ c ∈ caps.getD (i - 1) [], c.isDigit = true := by
  have hplus : (caps.getD (i - 1) []).head? ≠ some '+' := fun hhead =>
    absurd (h.digits '+' (List.mem_of_mem_head? hhead)) (by decide)
  have hpow : 10 ^ (caps.getD (i - 1) []).length ≤ 10 ^ 3 := Nat.pow_le_pow_right (by decide) h.short
  have hmax : 10 ^ 3 ≤ u64Max + 1 := by decide
  rw [← exists_parseUnsigned_iff h.ne_nil hplus (hpow.trans hmax)]
  exact exists_congr fun n => Run.mapError_eq_ok

theorem exists_parseClock_iff (wrap : ParseIntError → SubXError) {i : ℕ} :
    (∃ d, parseClock wrap caps i = .ok d) ↔
      ∀ k < 4, ∃ n, parseField wrap caps (i + k) = .ok n := by
  constructor
  · rintro ⟨d, h⟩
    obtain ⟨hours, hhours, h⟩ := Run.bind_eq_ok.1 h
    obtain ⟨minutes, hminutes, h⟩ := Run.bind_eq_ok.1 h
    obtain ⟨seconds, hseconds, h⟩ := Run.bind_eq_ok.1 h
    obtain ⟨millis, hmillis, -⟩ := Run.bind_eq_ok.1 h
    intro k hk
    match k, hk with
    | 0, _ => exact ⟨hours, hhours⟩
    | 1, _ => exact ⟨minutes, hminutes⟩
    | 2, _ => exact ⟨seconds, hseconds⟩
    | 3, _ => exact ⟨millis, hmillis⟩
  · intro h
    obtain ⟨hours, hhours⟩ := h 0 (by decide)
    obtain ⟨minutes, hminutes⟩ := h 1 (by decide)
    obtain ⟨seconds, hseconds⟩ := h 2 (by decide)
    obtain ⟨millis, hmillis⟩ := h 3 (by decide)
    rw [Nat.add_zero] at hhours
    exact ⟨_, by rw [parseClock, hhours, hminutes, hseconds, hmillis]; rfl⟩

/-- **The captured times are read exactly when their fields are in ASCII.** -/
theorem exists_parseClocks_iff (wrap : ParseIntError → SubXError)
    (h : (timingRegex sep).Groups caps) :
    ((∃ d, parseClock wrap caps 1 = .ok d) ∧ ∃ d, parseClock wrap caps 5 = .ok d) ↔
      AsciiFields caps := by
  obtain ⟨hlen, hfields⟩ := groups_timingRegex h
  have hget : ∀ k < 8, caps.getD k [] ∈ caps := fun k hk => by
    rw [List.getD_eq_getElem _ _ (hlen ▸ hk)]
    exact List.getElem_mem _
  have hread : ∀ k < 8, (∃ n, parseField wrap caps (k + 1) = .ok n) ↔
      ∀ c ∈ caps.getD k [], c.isDigit = true := fun k hk =>
    exists_parseField_iff wrap (hfields _ (hget k hk))
  rw [exists_parseClock_iff, exists_parseClock_iff]
  constructor
  · rintro ⟨hstart, hstop⟩ g hg
    obtain ⟨k, hk, rfl⟩ := List.getElem_of_mem hg
    rw [← List.getD_eq_getElem _ [] hk]
    rw [hlen] at hk
    refine (hread k hk).1 ?_
    by_cases hfirst : k < 4
    · rw [Nat.add_comm]
      exact hstart k hfirst
    · obtain ⟨j, rfl⟩ := Nat.exists_eq_add_of_le (not_lt.1 hfirst)
      rw [show 4 + j + 1 = 5 + j by omega]
      exact hstop j (by omega)
  · intro hall
    refine ⟨fun k hk => ?_, fun k hk => ?_⟩
    · rw [Nat.add_comm]
      exact (hread k (by omega)).2 (hall _ (hget k (by omega)))
    · rw [show 5 + k = 4 + k + 1 by omega]
      exact (hread (4 + k) (by omega)).2 (hall _ (hget _ (by omega)))

/-- A field that is read is below a thousand. -/
theorem lt_of_parseField (wrap : ParseIntError → SubXError) {i n : ℕ}
    (h : IsField (caps.getD (i - 1) [])) (hn : parseField wrap caps i = .ok n) : n < 1000 := by
  have hplus : (caps.getD (i - 1) []).head? ≠ some '+' := fun hhead =>
    absurd (h.digits '+' (List.mem_of_mem_head? hhead)) (by decide)
  rw [parseField, Run.mapError_eq_ok, parseUnsigned_eq_ok_iff h.ne_nil hplus] at hn
  obtain ⟨hdigits, -, rfl⟩ := hn
  exact (ofDigitChars_lt hdigits).trans_le (Nat.pow_le_pow_right (by decide) h.short)

/-- So a time that is read fits. -/
theorem asMillis_le_of_parseClock (wrap : ParseIntError → SubXError) {i : ℕ} {d : Duration}
    (h : ∀ k < 4, IsField (caps.getD (i + k - 1) [])) (hd : parseClock wrap caps i = .ok d) :
    d.asMillis ≤ u64Max := by
  obtain ⟨hours, hhours, hd⟩ := Run.bind_eq_ok.1 hd
  obtain ⟨minutes, hminutes, hd⟩ := Run.bind_eq_ok.1 hd
  obtain ⟨seconds, hseconds, hd⟩ := Run.bind_eq_ok.1 hd
  obtain ⟨millis, hmillis, hd⟩ := Run.bind_eq_ok.1 hd
  have h0 := lt_of_parseField wrap (h 0 (by decide)) hhours
  have h1 := lt_of_parseField wrap (h 1 (by decide)) hminutes
  have h2 := lt_of_parseField wrap (h 2 (by decide)) hseconds
  have h3 := lt_of_parseField wrap (h 3 (by decide)) hmillis
  rw [← Except.ok.inj hd, Duration.asMillis_fromMillis]
  have hmax : 3661001000 ≤ u64Max := by decide
  refine le_trans ?_ hmax
  omega

/-- Reading the times that were captured, if any were, fails exactly when a
field is not in ASCII. -/
theorem exists_readTimes_error_iff {α : Type} (wrap : ParseIntError → SubXError)
    (make : Duration → Duration → α) {fields : Option (List Text)}
    (h : ∀ caps, fields = some caps → (timingRegex sep).Groups caps) :
    (∃ e, (fields.elim (Except.ok none) fun caps => do
        let start ← parseClock wrap caps 1
        let stop ← parseClock wrap caps 5
        return some (make start stop)) = .error e) ↔
      ∃ caps, fields = some caps ∧ ¬ AsciiFields caps := by
  rcases fields with - | caps
  · simp
  rw [Run.exists_error_iff]
  simp only [Option.elim_some, Option.some.injEq, exists_eq_left', not_iff_not,
    ← exists_parseClocks_iff wrap (h caps rfl)]
  constructor
  · rintro ⟨cue, h⟩
    obtain ⟨start, hstart, h⟩ := Run.bind_eq_ok.1 h
    obtain ⟨stop, hstop, -⟩ := Run.bind_eq_ok.1 h
    exact ⟨⟨start, hstart⟩, stop, hstop⟩
  · rintro ⟨⟨start, hstart⟩, stop, hstop⟩
    exact ⟨_, Run.bind_eq_ok.2 ⟨start, hstart, Run.bind_eq_ok.2 ⟨stop, hstop, rfl⟩⟩⟩

end SubxCore
