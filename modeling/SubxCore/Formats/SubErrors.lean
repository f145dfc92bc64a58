import SubxCore.Common.Matches
import SubxCore.Formats.Sub
/-!
# What ends a SUB parse

The SUB parser skips a line that is no cue and a cue past 24 hours, and ends
the parse for an empty file and for a text over the cap. It also ends it for a
frame number that is no `u64`, before it could see how late the cue is.
-/

namespace SubxCore

open Text Decimal Regex

variable {content line s : Text} {caps : List Text}

/-- The number that ASCII digits stand for, however many there are. -/
def frameNumber (digits : Text) : ℕ := Nat.ofDigitChars 10 digits 0

/-- A captured frame number that is a `u64`. -/
def IsU64 (digits : Text) : Prop :=
  (∀ c ∈ digits, c.isDigit = true) ∧ frameNumber digits ≤ u64Max

instance : Decidable (IsU64 s) :=
  inferInstanceAs (Decidable ((∀ c ∈ s, c.isDigit = true) ∧ frameNumber s ≤ u64Max))

/-- The frame numbers and the text of a line `{digits}{digits}text`. -/
def subFields (line : Text) : Option (Text × Text × Text) :=
  (subLineRegex.captures (trim line)).map fun caps =>
    (caps.getD 0 [], caps.getD 1 [], caps.getD 2 [])

/-- The cue of a line, if the line is one and not past 24 hours. -/
def subCue (line : Text) : Option SubtitleEntry :=
  match subFields line with
  | none => none
  | some (start, stop, text) =>
    let startMs := frameToMs (frameNumber start) defaultSubFps
    let endMs := frameToMs (frameNumber stop) defaultSubFps
    if maxDurationMs < startMs ∨ maxDurationMs < endMs then none
    else some
      { index := 1
        startTime := .fromMillis startMs
        endTime := .fromMillis endMs
        text := replaceChar '|' ['\n'] text
        styling := none }

/-- The text of a line is over the cap. -/
def IsOversizedLine (line : Text) : Prop :=
  ∃ fields, subFields line = some fields ∧ maxCueBytes < byteLen fields.2.2

/-- The frame numbers of a line, if it has any, are each a `u64`. -/
def HasU64Frames (line : Text) : Prop :=
  ∀ fields, subFields line = some fields → IsU64 fields.1 ∧ IsU64 fields.2.1

/-- **What a SUB parse comes to.** It fails for an empty file and for a text over
the cap, and otherwise gives the cues of the lines that have one, numbered as
they come. -/
structure SubDisposition (content : Text) : Prop where
  error_iff : (∃ e, subParse content = .error e) ↔
    content = [] ∨ ∃ line ∈ lines content, IsOversizedLine line
  skips : ∀ subtitle, subParse content = .ok subtitle →
    subtitle.entries = numbered 0 ((lines content).filterMap subCue)

/-! ## One line -/

/-- The numbers of a line are runs of digits. -/
theorem digits_of_captures (h : subLineRegex.captures s = some caps) :
    ∃ start stop text, caps = [start, stop, text] ∧
      (start ≠ [] ∧ ∀ c ∈ start, digit c = true) ∧ stop ≠ [] ∧ ∀ c ∈ stop, digit c = true := by
  obtain ⟨a, b, rfl, ha, hline⟩ := groups_of_captures h
  obtain rfl : a = [] := ha
  have hanchor : (some' digit).AnchorFree := ⟨trivial, trivial⟩
  have hnone : ∀ hs, (some' digit).Groups hs → hs = [] := fun _ => groups_some'
  obtain ⟨start, b, rfl, hstart, hline⟩ := groups_cons_group hanchor hnone (groups_cons_chr hline)
  obtain ⟨stop, b, rfl, hstop, hline⟩ := groups_cons_group hanchor hnone
    (groups_cons_chr (groups_cons_chr hline))
  obtain ⟨text, b, rfl, -, hline⟩ := groups_cons_group (r := many (· != '\n')) trivial
    (fun _ => id) (groups_cons_chr hline)
  obtain rfl : b = [] := hline
  exact ⟨start, stop, text, rfl, language_some'.1 hstart, language_some'.1 hstop⟩

/-- A frame number is read exactly when it is a `u64`. -/
theorem parseField_eq_ok_iff (wrap : ParseIntError → SubXError) {i n : ℕ}
    (h : caps.getD (i - 1) [] ≠ [] ∧ ∀ c ∈ caps.getD (i - 1) [], digit c = true) :
    parseField wrap caps i = .ok n ↔
      IsU64 (caps.getD (i - 1) []) ∧ n = frameNumber (caps.getD (i - 1) []) := by
  have hplus : (caps.getD (i - 1) []).head? ≠ some '+' := fun hhead =>
    absurd (h.2 '+' (List.mem_of_mem_head? hhead)) (by decide)
  rw [parseField, Run.mapError_eq_ok, parseUnsigned_eq_ok_iff h.1 hplus, IsU64, frameNumber,
    and_assoc]

/-- **A line within the cap** comes to its cue, if its frame numbers are `u64`. -/
theorem subReadLine_eq_ok_iff {cue : Option SubtitleEntry} :
    subReadLine 0 line = .ok cue ↔
      ¬ IsOversizedLine line ∧ HasU64Frames line ∧ cue = subCue line := by
  rw [subReadLine]
  dsimp only
  rcases hcaps : subLineRegex.captures (trim line) with - | caps
  · -- no line of the format: it is skipped, blank or not
    have hfields : subFields line = none := by rw [subFields, hcaps]; rfl
    have hskip : (if trim line = [] then (return none : Except SubXError _) else return none) =
        .ok (none : Option SubtitleEntry) := by split <;> rfl
    dsimp only
    rw [hskip, subCue, hfields]
    simp [IsOversizedLine, HasU64Frames, hfields, eq_comm]
  have hblank : trim line ≠ [] := by
    intro hblank
    rw [hblank] at hcaps
    cases hcaps
  obtain ⟨start, stop, text, rfl, hstart, hstop⟩ := digits_of_captures hcaps
  have hfields : subFields line = some (start, stop, text) := by rw [subFields, hcaps]; rfl
  have hover : IsOversizedLine line ↔ maxCueBytes < byteLen text := by
    simp [IsOversizedLine, hfields]
  have hframes : HasU64Frames line ↔ IsU64 start ∧ IsU64 stop := by
    simp [HasU64Frames, hfields]
  have hstartField : ∀ n, parseField (fun e => subError e.message) [start, stop, text] 1 = .ok n ↔
      IsU64 start ∧ n = frameNumber start := fun n => parseField_eq_ok_iff _ hstart
  have hstopField : ∀ n, parseField (fun e => subError e.message) [start, stop, text] 2 = .ok n ↔
      IsU64 stop ∧ n = frameNumber stop := fun n => parseField_eq_ok_iff _ hstop
  rw [if_neg hblank, hover, hframes, subCue, hfields]
  dsimp only
  -- the cap comes before the frame numbers, and the 24 hours after them
  by_cases hbig : maxCueBytes < byteLen text
  · refine iff_of_false (fun h => ?_) fun h => h.1 hbig
    rw [List.getD_cons_succ, List.getD_cons_succ, List.getD_cons_zero, if_pos hbig] at h
    cases h
  rw [List.getD_cons_succ, List.getD_cons_succ, List.getD_cons_zero, if_neg hbig]
  simp only [hbig, not_false_eq_true, true_and]
  constructor
  · intro h
    obtain ⟨a, ha, h⟩ := Run.bind_eq_ok.1 h
    obtain ⟨b, hb, h⟩ := Run.bind_eq_ok.1 h
    obtain ⟨hu, rfl⟩ := (hstartField a).1 ha
    obtain ⟨hv, rfl⟩ := (hstopField b).1 hb
    refine ⟨⟨hu, hv⟩, ?_⟩
    split at h
    · next hlate => rw [if_pos hlate]; exact (Except.ok.inj h).symm
    · next hlate => rw [if_neg hlate]; exact (Except.ok.inj h).symm
  · rintro ⟨⟨hu, hv⟩, rfl⟩
    refine Run.bind_eq_ok.2 ⟨_, (hstartField _).2 ⟨hu, rfl⟩, Run.bind_eq_ok.2
      ⟨_, (hstopField _).2 ⟨hv, rfl⟩, ?_⟩⟩
    split <;> rfl

/-- The parser numbers the cues as they come. -/
theorem numbers_subReadLine : Numbers subReadLine := by
  intro count line
  unfold subReadLine
  dsimp only
  split
  · rfl
  rcases subLineRegex.captures (trim line) with - | caps
  · rfl
  dsimp only
  split
  · rfl
  rcases parseField (fun e => subError e.message) caps 1 with e | start
  · rfl
  rcases parseField (fun e => subError e.message) caps 2 with e | stop
  · rfl
  simp only [bind, Except.bind]
  split <;> rfl

/-! ## A whole file -/

/-- A file with something in it is read line by line. -/
theorem subParse_eq (hne : content ≠ []) :
    ∃ make : List SubtitleEntry → Subtitle, (∀ entries, (make entries).entries = entries) ∧
      subParse content = (readBlocks subReadLine 0 (lines content)).map make := by
  rw [subParse, if_neg hne]
  exact ⟨_, fun _ => rfl, rfl⟩

theorem exists_subReadLine_error_iff :
    (∃ e, subReadLine 0 line = .error e) ↔ IsOversizedLine line ∨ ¬ HasU64Frames line := by
  rw [Run.exists_error_iff]
  simp only [subReadLine_eq_ok_iff, exists_and_left, exists_eq, and_true]
  tauto

/-- **What ends a SUB parse.** -/
theorem subParse_error_iff (content : Text) :
    (∃ e, subParse content = .error e) ↔
      (content = [] ∨ ∃ line ∈ lines content, IsOversizedLine line) ∨
        ∃ line ∈ lines content, ¬ HasU64Frames line := by
  by_cases hne : content = []
  · subst hne
    exact iff_of_true ⟨_, rfl⟩ (.inl (.inl rfl))
  obtain ⟨make, -, hparse⟩ := subParse_eq hne
  simp only [hparse, Run.map_eq_error, numbers_subReadLine.readBlocks_eq_error_iff,
    exists_subReadLine_error_iff, or_iff_right hne]
  constructor
  · rintro ⟨line, hline, hbig | hframes⟩
    · exact .inl ⟨line, hline, hbig⟩
    · exact .inr ⟨line, hline, hframes⟩
  · rintro (⟨line, hline, hbig⟩ | ⟨line, hline, hframes⟩)
    · exact ⟨line, hline, .inl hbig⟩
    · exact ⟨line, hline, .inr hframes⟩

/-- The cues are those of the lines, numbered. -/
theorem subParse_entries {subtitle : Subtitle} (h : subParse content = .ok subtitle) :
    subtitle.entries = numbered 0 ((lines content).filterMap subCue) := by
  have hne : content ≠ [] := by
    rintro rfl
    cases h
  obtain ⟨make, hentries, hparse⟩ := subParse_eq hne
  rw [hparse, Run.map_eq_ok] at h
  obtain ⟨entries, hread, rfl⟩ := h
  obtain ⟨hok, rfl⟩ := numbers_subReadLine.readBlocks_eq_ok_iff.1 hread
  rw [hentries]
  congr 1
  refine List.filterMap_congr fun line hline => ?_
  obtain ⟨cue, hcue⟩ := hok line hline
  rw [hcue, (subReadLine_eq_ok_iff.1 hcue).2.2]
  rfl

/-- **Malformed lines are skipped** exactly when every frame number is a `u64`, or
the file is refused anyway. -/
theorem subDisposition_iff (content : Text) :
    SubDisposition content ↔
      (content = [] ∨ ∃ line ∈ lines content, IsOversizedLine line) ∨
        ∀ line ∈ lines content, HasU64Frames line := by
  have herror := subParse_error_iff content
  have hskips : SubDisposition content ↔ ((∃ e, subParse content = .error e) ↔
      content = [] ∨ ∃ line ∈ lines content, IsOversizedLine line) :=
    ⟨fun h => h.error_iff, fun h => ⟨h, fun _ => subParse_entries⟩⟩
  have hall : (∀ line ∈ lines content, HasU64Frames line) ↔
      ¬ ∃ line ∈ lines content, ¬ HasU64Frames line := by simp
  rw [hskips, herror, hall, or_iff_left_iff_imp, imp_iff_or_not]

/-- A frame number of twenty digits on both sides. -/
def hugeFrameLine : Text :=
  "\x7b99999999999999999999\x7d\x7b99999999999999999999\x7dTooBig".toList

/-- The line between two cues. -/
def hugeFrame : Text :=
  "\x7b0\x7d\x7b25\x7dGood\n".toList ++ hugeFrameLine ++ "\n\x7b50\x7d\x7b75\x7dAlsoGood\n".toList

/-- The file is small, and its parse ends with an error. -/
theorem not_subDisposition_hugeFrame :
    (∃ e, subParse hugeFrame = .error e) ∧ ¬ SubDisposition hugeFrame := by
  have hline : ¬ HasU64Frames hugeFrameLine := fun h =>
    absurd (h ("99999999999999999999".toList, "99999999999999999999".toList, "TooBig".toList) rfl).1
      (by decide)
  have herror : ∃ e, subParse hugeFrame = .error e :=
    (subParse_error_iff hugeFrame).2 (.inr ⟨hugeFrameLine, by decide, hline⟩)
  have hfits : ∀ line ∈ lines hugeFrame, ∀ fields, subFields line = some fields →
      byteLen fields.2.2 ≤ maxCueBytes := by decide
  refine ⟨herror, fun h => ?_⟩
  rcases h.error_iff.1 herror with hempty | ⟨line, hmem, fields, hfields, hbig⟩
  · exact absurd hempty (by decide)
  · exact absurd hbig (not_lt.2 (hfits line hmem fields hfields))

end SubxCore
