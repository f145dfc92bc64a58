import SubxCore.Common.Regex
import SubxCore.Common.Run
import SubxCore.Formats.Types
import Mathlib.Data.List.Chain
import Mathlib.Data.List.GetD
/-!
# Clock times

The `HH:MM:SS` timestamps with milliseconds that SRT and VTT share, with
the separator before the milliseconds as a parameter: printing a
duration, the timing line of a cue, the pattern of a timing line, and
reading the captured fields. `run_timingRegex` and `parseClock_clock` are
the two halves of reading a printed line back.
-/

namespace SubxCore

open Text Decimal Regex

/-- `(\d{2}):(\d{2}):(\d{2}),(\d{3})`, with the given separator for the
comma, followed by another pattern. -/
def clockRegex (sep : Char) (next : List Regex) : List Regex :=
  [group (rep digit 2), chr ':', group (rep digit 2), chr ':', group (rep digit 2), chr sep,
    group (rep digit 3)] ++ next

/-- Two timestamps with an arrow between them. -/
def timingRegex (sep : Char) : Regex :=
  seqs (clockRegex sep ([lit " --> ".toList] ++ clockRegex sep []))

/-- A number of milliseconds as `HH:MM:SS` and milliseconds. -/
def clock (sep : Char) (totalMs : ℕ) : Text :=
  padded 2 (totalMs / 3600000) ++ ':' :: (padded 2 (totalMs % 3600000 / 60000) ++
    ':' :: (padded 2 (totalMs % 60000 / 1000) ++ sep :: padded 3 (totalMs % 1000)))

/-- A timing line, without its terminator. -/
def timingLine (sep : Char) (start stop : Duration) : Text :=
  clock sep start.asMillis ++ " --> ".toList ++ clock sep stop.asMillis

/-- A captured field as a `u64`. -/
def parseField (wrap : ParseIntError → SubXError) (caps : List Text) (group : ℕ) :
    Except SubXError ℕ :=
  (parseUnsigned u64Max (caps.getD (group - 1) [])).mapError wrap

/-- Four captured fields as a duration. -/
def parseClock (wrap : ParseIntError → SubXError) (caps : List Text) (startGroup : ℕ) :
    Except SubXError Duration := do
  let hours ← parseField wrap caps startGroup
  let minutes ← parseField wrap caps (startGroup + 1)
  let seconds ← parseField wrap caps (startGroup + 2)
  let milliseconds ← parseField wrap caps (startGroup + 3)
  return .fromMillis (hours * 3600000 + minutes * 60000 + seconds * 1000 + milliseconds)

/-- 100 hours, the end of the two-digit hours. -/
def hundredHours : Duration := .fromMillis (100 * 3600000)

theorem asMillis_lt_hundredHours {d : Duration} (h : d.nanos < hundredHours.nanos) :
    d.asMillis < 100 * 3600000 := by
  simp only [hundredHours, Duration.fromMillis] at h
  rw [Duration.asMillis]
  omega

variable {sep : Char} {ms : ℕ} {prev : Option Char} {s : Text}

/-! ## Printed fields match -/

/-- An ASCII digit is a decimal digit. -/
theorem digit_of_isDigit {c : Char} (h : c.isDigit = true) : digit c = true := by
  have hrange : 0x30 ≤ c.toNat ∧ c.toNat < 0x30 + 10 := by
    simp only [Char.isDigit, Bool.and_eq_true, decide_eq_true_eq] at h
    obtain ⟨h1, h2⟩ := h
    have h1 : (48 : UInt32).toNat ≤ c.val.toNat := h1
    have h2 : c.val.toNat ≤ (57 : UInt32).toNat := h2
    exact ⟨h1, Nat.lt_succ_of_le h2⟩
  rw [digit, digitZeros, List.any_cons, Bool.or_eq_true]
  exact .inl (by simpa using hrange)

/-- A field of the printed width is captured whole. -/
theorem takes_padded {w n : ℕ} (hw : 0 < w) (h : n < 10 ^ w) :
    Takes (group (rep digit w)) (padded w n) [padded w n] s :=
  (takes_rep (length_padded hw h) fun _ hc => digit_of_isDigit (isDigit_of_mem_padded hc)).group

/-- The captured fields of a printed time. -/
def clockFields (totalMs : ℕ) : List Text :=
  [padded 2 (totalMs / 3600000), padded 2 (totalMs % 3600000 / 60000),
    padded 2 (totalMs % 60000 / 1000), padded 3 (totalMs % 1000)]

/-- A printed time is captured field by field. -/
theorem takes_clock (sep : Char) (next : List Regex) {l : Text} {gs : List Text}
    (h : ms < 100 * 3600000)
    (hnext : Takes (seqs next) l gs s) :
    Takes (seqs (clockRegex sep next)) (clock sep ms ++ l) (clockFields ms ++ gs) s := by
  have hms := (takes_padded (w := 3) (n := ms % 1000) (by decide) (by omega)).cons hnext
  have hsec := (takes_padded (w := 2) (n := ms % 60000 / 1000) (by decide) (by omega)).cons
    ((takes_chr (c := sep)).cons hms)
  have hmin := (takes_padded (w := 2) (n := ms % 3600000 / 60000) (by decide) (by omega)).cons
    ((takes_chr (c := ':')).cons hsec)
  have hhour := (takes_padded (w := 2) (n := ms / 3600000) (by decide) (by omega)).cons
    ((takes_chr (c := ':')).cons hmin)
  simpa [clock, clockFields, clockRegex] using hhour

/-- A timing line matches in one way. -/
theorem takes_timingLine {start stop : Duration} (hstart : start.asMillis < 100 * 3600000)
    (hstop : stop.asMillis < 100 * 3600000) :
    Takes (timingRegex sep) (timingLine sep start stop)
      (clockFields start.asMillis ++ clockFields stop.asMillis) [] := by
  have hend := takes_clock sep [] (s := []) hstop takes_empty
  have harrow := (takes_lit " --> ".toList).cons hend
  have hline := takes_clock sep _ hstart harrow
  simpa [timingRegex, timingLine] using hline

/-- **A timing line is captured** where it stands at the start. -/
theorem captures_timingLine {start stop : Duration} (hstart : start.asMillis < 100 * 3600000)
    (hstop : stop.asMillis < 100 * 3600000) :
    (timingRegex sep).captures (timingLine sep start stop) =
      some (clockFields start.asMillis ++ clockFields stop.asMillis) := by
  have hline : (timingRegex sep).captures (timingLine sep start stop ++ []) = _ :=
    (takes_timingLine hstart hstop).captures
  rwa [List.append_nil] at hline

/-! ## Captured fields read back -/

theorem parseField_padded (wrap : ParseIntError → SubXError) {caps : List Text} {group w n : ℕ}
    (hcap : caps.getD (group - 1) [] = padded w n) (h : n ≤ u64Max) :
    parseField wrap caps group = .ok n := by
  rw [parseField, hcap, parseUnsigned_padded h]
  rfl

theorem parseField_decimal (wrap : ParseIntError → SubXError) (caps : List Text) (group : ℕ)
    {n : ℕ} (hcap : caps.getD (group - 1) [] = decimal n) (h : n ≤ u64Max) :
    parseField wrap caps group = .ok n := by
  rw [parseField, hcap, parseUnsigned_decimal h]
  rfl

/-- Captured fields are whole milliseconds. -/
theorem parseClock_eq_ok {wrap : ParseIntError → SubXError} {caps : List Text} {g : ℕ}
    {d : Duration} (h : parseClock wrap caps g = .ok d) : .fromMillis d.asMillis = d := by
  obtain ⟨hours, -, h⟩ := Run.bind_eq_ok.1 h
  obtain ⟨minutes, -, h⟩ := Run.bind_eq_ok.1 h
  obtain ⟨seconds, -, h⟩ := Run.bind_eq_ok.1 h
  obtain ⟨millis, -, h⟩ := Run.bind_eq_ok.1 h
  rw [← Except.ok.inj h, Duration.asMillis_fromMillis]

/-- **The captured fields of a printed time are the time**, read from the
group where they start. -/
theorem parseClock_clockFields (wrap : ParseIntError → SubXError) (pre post : List Text)
    (h : ms < 100 * 3600000) :
    parseClock wrap (pre ++ (clockFields ms ++ post)) (pre.length + 1) = .ok (.fromMillis ms) := by
  have hmax : 100 * 3600000 ≤ u64Max := by decide
  have hget : ∀ i, (pre ++ (clockFields ms ++ post)).getD (pre.length + 1 + i - 1) [] =
      (clockFields ms ++ post).getD i [] := by
    intro i
    rw [List.getD_append_right _ _ _ _ (by omega)]
    congr 1
    omega
  have hhour := parseField_padded wrap (hget 0) (n := ms / 3600000) (by omega)
  have hmin := parseField_padded wrap (hget 1) (n := ms % 3600000 / 60000) (by omega)
  have hsec := parseField_padded wrap (hget 2) (n := ms % 60000 / 1000) (by omega)
  have hms := parseField_padded wrap (hget 3) (n := ms % 1000) (by omega)
  have htotal : ms / 3600000 * 3600000 + ms % 3600000 / 60000 * 60000 +
      ms % 60000 / 1000 * 1000 + ms % 1000 = ms := by omega
  rw [Nat.add_zero] at hhour
  rw [parseClock, hhour, hmin, hsec, hms]
  simp only [bind, Except.bind, pure, Except.pure, htotal]

/-! ## The characters of a timing line -/

/-- A timestamp is made of digits, colons and the separator. -/
theorem mem_clock {c : Char} (h : c ∈ clock sep ms) : c.isDigit = true ∨ c = ':' ∨ c = sep := by
  simp only [clock, List.mem_append, List.mem_cons] at h
  rcases h with h | rfl | h | rfl | h | rfl | h
  · exact .inl (isDigit_of_mem_padded h)
  · exact .inr (.inl rfl)
  · exact .inl (isDigit_of_mem_padded h)
  · exact .inr (.inl rfl)
  · exact .inl (isDigit_of_mem_padded h)
  · exact .inr (.inr rfl)
  · exact .inl (isDigit_of_mem_padded h)

/-- And a timing line of those, blanks and the arrow. -/
theorem mem_timingLine {c : Char} {start stop : Duration} (h : c ∈ timingLine sep start stop) :
    c.isDigit = true ∨ c ∈ sep :: ": ->".toList := by
  have hclock : ∀ ms, c ∈ clock sep ms → c.isDigit = true ∨ c ∈ sep :: ": ->".toList := by
    intro ms hc
    rcases mem_clock hc with hd | rfl | rfl
    · exact .inl hd
    · exact .inr (by simp)
    · exact .inr (by simp)
  simp only [timingLine, List.mem_append] at h
  rcases h with (h | h) | h
  · exact hclock _ h
  · exact .inr (List.mem_cons_of_mem _ ((by decide : " --> ".toList ⊆ ": ->".toList) h))
  · exact hclock _ h

theorem not_mem_timingLine {c : Char} {start stop : Duration} (hdigit : c.isDigit = false)
    (hsep : c ∉ sep :: ": ->".toList) : c ∉ timingLine sep start stop := by
  intro h
  rcases mem_timingLine h with hd | hc
  · rw [hdigit] at hd
    exact Bool.false_ne_true hd
  · exact hsep hc

theorem timingLine_ne_nil {start stop : Duration} : timingLine sep start stop ≠ [] := by
  simp [timingLine, clock]

/-- It ends in the digits of the milliseconds. -/
theorem isDigit_getLast?_timingLine {start stop : Duration} :
    ∀ c ∈ (timingLine sep start stop).getLast?, c.isDigit = true := by
  obtain ⟨front, hfront⟩ : ∃ front,
      timingLine sep start stop = front ++ padded 3 (stop.asMillis % 1000) := by
    refine ⟨clock sep start.asMillis ++ " --> ".toList ++ (padded 2 (stop.asMillis / 3600000) ++
      ':' :: (padded 2 (stop.asMillis % 3600000 / 60000) ++
        ':' :: (padded 2 (stop.asMillis % 60000 / 1000) ++ [sep]))), ?_⟩
    simp [timingLine, clock]
  intro c hc
  rw [hfront, List.getLast?_append_of_ne_nil _ padded_ne_nil] at hc
  exact isDigit_of_mem_padded (List.mem_of_getLast? hc)

/-- No digit follows a minus sign there: the only ones are in the arrow. -/
theorem isChain_timingLine {start stop : Duration} (hsep : sep ≠ '-') :
    (timingLine sep start stop).IsChain fun a b => a = '-' → digit b = false := by
  have hminus : ∀ ms, '-' ∉ clock sep ms := by
    intro ms h
    rcases mem_clock h with hd | hc | hc
    · exact absurd hd (by decide)
    · exact absurd hc (by decide)
    · exact hsep hc.symm
  have hclock : ∀ ms, (clock sep ms).IsChain fun a b => a = '-' → digit b = false := by
    intro ms
    refine List.Pairwise.isChain (List.pairwise_of_forall_mem_list fun a ha b _ heq => ?_)
    subst heq
    exact absurd ha (hminus ms)
  have harrow : " --> ".toList.IsChain fun a b => a = '-' → digit b = false := by decide
  have hlast : ∀ ms, ∀ a ∈ (clock sep ms).getLast?, a ≠ '-' := by
    rintro ms a ha rfl
    exact hminus ms (List.mem_of_getLast? ha)
  rw [timingLine]
  refine ((hclock _).append harrow fun a ha b _ heq => absurd heq (hlast _ a ha)).append
    (hclock _) fun a ha b _ heq => ?_
  obtain rfl : a = ' ' := by
    rw [List.getLast?_append_of_ne_nil _ (by decide)] at ha
    simpa [eq_comm] using ha
  exact absurd heq (by decide)

/-- So no signed time starts inside one. -/
theorem run_minus_eq_nil {r t : Regex} {b : Text} {start stop : Duration} (hsep : sep ≠ '-')
    (hb : b <:+: timingLine sep start stop) :
    (seq (chr '-') (seq (seq (one digit) r) t)).run prev b = [] := by
  refine run_chr_seq_one_eq_nil fun d => ?_
  by_cases hpre : ['-', d] <+: b
  · have hchain := List.IsChain.infix (isChain_timingLine hsep) (hpre.isInfix.trans hb)
    exact .inr (List.isChain_pair.1 hchain rfl)
  · exact .inl hpre

end SubxCore
