import SubxCore.Common.Matches
import SubxCore.Formats.Sub
/-!
# Reading back a written SUB file

A line that is a cue holds two numbers in braces and a text without line
feeds that ends in no white space (`subReadLine_eq_some`): the number of
milliseconds of a frame at 25 frames a second is exact, and so is the way
back. The line written for the cue is that line without leading zeros, and
is read as the same cue (`subReadLine_line`).
-/

namespace SubxCore

open Text Decimal Regex

/-- A cue of a SUB file: its frames, not past 24 hours, and its text as it
stands in the line. -/
structure SubCue where
  startFrame : ℕ
  endFrame : ℕ
  rawText : Text
  start_le : startFrame * 40 ≤ maxDurationMs
  end_le : endFrame * 40 ≤ maxDurationMs
  no_newline : '\n' ∉ rawText
  last : ∀ c ∈ rawText.getLast?, isWhitespace c = false
  cap : byteLen rawText ≤ maxCueBytes

/-- The line of a cue. -/
def SubCue.line (cue : SubCue) : Text := subLine cue.startFrame cue.endFrame cue.rawText

/-- The cue as it is read, at 25 frames a second. -/
def SubCue.entry (cue : SubCue) (number : ℕ) : SubtitleEntry where
  index := number
  startTime := .fromMillis (cue.startFrame * 40)
  endTime := .fromMillis (cue.endFrame * 40)
  text := replaceChar '|' ['\n'] cue.rawText
  styling := none

variable {c : Char} {s l : Text} {count frame : ℕ} {cue : SubCue}

/-! ## Frames and times -/

theorem roundToU64_natCast {n : ℕ} : roundToU64 n = min n u64Max := by
  rw [roundToU64, round_natCast, Int.toNat_natCast]

/-- A frame takes 40 milliseconds. -/
theorem frameToMs_default : frameToMs frame defaultSubFps = min (frame * 40) u64Max := by
  have hms : (frame * 1000 / defaultSubFps : ℚ) = (frame * 40 : ℕ) := by
    rw [defaultSubFps]
    push_cast
    ring
  rw [frameToMs, hms, roundToU64_natCast]

/-- **The frame of the time of a frame is the frame.** -/
theorem durationToFrame_default (h : frame * 40 ≤ maxDurationMs) :
    durationToFrame (.fromMillis (frame * 40)) defaultSubFps = frame := by
  have hframe : ((Duration.fromMillis (frame * 40)).nanos / 1000000000 * defaultSubFps : ℚ) =
      (frame : ℕ) := by
    rw [defaultSubFps, Duration.fromMillis]
    push_cast
    ring
  have hmax : maxDurationMs ≤ u64Max := by decide
  rw [durationToFrame, hframe, roundToU64_natCast]
  omega

/-! ## The pattern of a line -/

theorem anchorFree_frames : (seqs (frameRegex (frameRegex
    [group (many (· != '\n'))]))).AnchorFree := by
  simp [frameRegex, seqs, AnchorFree, chr, some']

/-- A number in braces is captured. -/
theorem prefers_frame {next : List Regex} {d m t : Text} {gs : List Text} (hne : d ≠ [])
    (hd : ∀ c ∈ d, digit c = true) (hnext : Prefers (seqs next) m gs t) :
    Prefers (seqs (frameRegex next)) ('{' :: (d ++ '}' :: m)) (d :: gs) t := by
  have hclose : ∀ c ∈ ('}' :: (m ++ t)).head?, digit c = false := by
    intro c hc
    obtain rfl : '}' = c := by simpa using hc
    decide
  have hbrace := (takes_chr (c := '}') (s := m ++ t)).prefers.cons hnext
  have hnumber := (prefers_some' (s := '}' :: (m ++ t)) hne hd hclose).group.cons hbrace
  have hopen := (takes_chr (c := '{') (s := d ++ (['}'] ++ m) ++ t)).prefers
  simpa [frameRegex] using hopen.cons hnumber

/-- The texts of the pattern are numbers in braces before those of the
rest. -/
theorem language_frame {next : List Regex} :
    (seqs (frameRegex next)).Language l ↔ ∃ d m, l = '{' :: (d ++ '}' :: m) ∧ d ≠ [] ∧
      (∀ c ∈ d, digit c = true) ∧ (seqs next).Language m := by
  constructor
  · rintro ⟨o, -, rfl, ho, d, -, rfl, hd, e, m, rfl, he, hm⟩
    obtain rfl := language_chr.1 ho
    obtain rfl := language_chr.1 he
    obtain ⟨hne, hd⟩ := language_some'.1 hd
    exact ⟨d, m, by simp, hne, hd, hm⟩
  · rintro ⟨d, m, rfl, hne, hd, hm⟩
    refine ⟨['{'], _, rfl, language_chr.2 rfl, d, _, rfl, ?_, ['}'], m, rfl, language_chr.2 rfl, hm⟩
    exact language_some'.2 ⟨hne, hd⟩

/-- **A line is captured whole.** -/
theorem captures_line {a b t : Text} (ha : a ≠ []) (hda : ∀ c ∈ a, digit c = true)
    (hb : b ≠ []) (hdb : ∀ c ∈ b, digit c = true) (ht : '\n' ∉ t) :
    subLineRegex.captures ('{' :: (a ++ '}' :: '{' :: (b ++ '}' :: t))) = some [a, b, t] := by
  have htext : ∀ c ∈ t, (c != '\n') = true := by
    intro c hc
    rw [bne_iff_ne]
    rintro rfl
    exact ht hc
  have htake : Prefers (group (many (· != '\n'))) t [t] ([] ++ []) :=
    (prefers_many htext (by simp)).group
  have hend : Prefers (seqs []) [] [] [] := takes_empty.prefers
  have hline := prefers_frame ha hda (prefers_frame hb hdb (htake.cons hend))
  have hcap := hline.captures_textStart
  simpa [subLineRegex] using hcap

/-- **And only such a line is.** -/
theorem captures_eq_some {caps : List Text} (hl : '\n' ∉ l)
    (h : subLineRegex.captures l = some caps) :
    ∃ a b t, l = '{' :: (a ++ '}' :: '{' :: (b ++ '}' :: t)) ∧ caps = [a, b, t] := by
  have hrun : (seqs (frameRegex (frameRegex [group (many (· != '\n'))]))).run none l ≠ [] := by
    rw [subLineRegex, Regex.captures, find_textStart] at h
    rintro hnil
    rw [hnil] at h
    cases h
  obtain ⟨p, ⟨u, rfl⟩, hp⟩ := (run_ne_nil_iff anchorFree_frames).1 hrun
  obtain ⟨a, m, rfl, ha, hda, hm⟩ := language_frame.1 hp
  obtain ⟨b, t, rfl, hb, hdb, -⟩ := language_frame.1 hm
  -- the text goes on to the end of the line, whatever is taken first
  have hline : '{' :: (a ++ '}' :: '{' :: (b ++ '}' :: t)) ++ u =
      '{' :: (a ++ '}' :: '{' :: (b ++ '}' :: (t ++ u))) := by simp
  rw [hline] at h hl ⊢
  have htext : '\n' ∉ t ++ u := by
    intro hn
    simp [List.mem_append.1 hn] at hl
  rw [captures_line ha hda hb hdb htext] at h
  exact ⟨a, b, t ++ u, rfl, (Option.some.inj h).symm⟩

/-! ## One line -/

/-- The last character of a text is the last of what it ends in. -/
theorem getLast?_of_suffix {t : Text} (h : t <:+ s) : ∀ c ∈ t.getLast?, c ∈ s.getLast? := by
  obtain ⟨u, rfl⟩ := h
  intro c hc
  have hne : t ≠ [] := by rintro rfl; simp at hc
  rwa [List.getLast?_append_of_ne_nil _ hne]

/-- **What is read from a line is a cue.** -/
theorem subReadLine_eq_some {e : SubtitleEntry} (hl : '\n' ∉ l)
    (h : subReadLine count l = .ok (some e)) : ∃ cue : SubCue, e = cue.entry (count + 1) := by
  rw [subReadLine] at h
  split at h
  · cases h
  split at h
  · cases h
  next cap hcap =>
  have htrim : '\n' ∉ trim l := fun hn => hl (infix_trim.subset hn)
  obtain ⟨a, b, t, htl, rfl⟩ := captures_eq_some htrim hcap
  have hraw : [a, b, t].getD 2 [] = t := rfl
  simp only [hraw] at h
  split at h
  · cases h
  next hbody =>
  obtain ⟨startFrame, -, h⟩ := Run.bind_eq_ok.1 h
  obtain ⟨endFrame, -, h⟩ := Run.bind_eq_ok.1 h
  split at h
  · cases h
  next hday =>
  rw [← Option.some.inj (Except.ok.inj h)]
  have htext : t <:+ trim l := ⟨'{' :: (a ++ '}' :: '{' :: (b ++ ['}'])), by rw [htl]; simp⟩
  have hmax : maxDurationMs < u64Max := by decide
  simp only [frameToDuration, frameToMs_default] at hday ⊢
  refine ⟨⟨startFrame, endFrame, t, by omega, by omega, fun hn => htrim (htext.subset hn),
    fun c hc => getLast?_trim (getLast?_of_suffix htext c hc), by omega⟩, ?_⟩
  rw [SubCue.entry, min_eq_left (by omega), min_eq_left (by omega)]

/-- A decimal is made of decimal digits. -/
theorem digit_of_mem_decimal {n : ℕ} : ∀ c ∈ decimal n, digit c = true :=
  fun _ hc => digit_of_isDigit (isDigit_of_mem_decimal hc)

/-- A written line has no white space at its ends. -/
theorem trim_line : trim cue.line = cue.line := by
  refine trim_eq_self (fun c hc => ?_) fun c hc => ?_
  · obtain rfl : '{' = c := by simpa [SubCue.line, subLine] using hc
    decide
  · by_cases ht : cue.rawText = []
    · have hlast : cue.line.getLast? = some '}' := by
        simp [SubCue.line, subLine, ht, List.getLast?_cons_of_ne_nil, List.getLast?_append]
      rw [hlast, Option.mem_some_iff] at hc
      rw [← hc]
      decide
    · have htext : cue.rawText <:+ cue.line := by
        refine ⟨'{' :: (decimal cue.startFrame ++ '}' :: '{' :: (decimal cue.endFrame ++ ['}'])), ?_⟩
        simp [SubCue.line, subLine]
      obtain ⟨u, hu⟩ := htext
      rw [← hu, List.getLast?_append_of_ne_nil _ ht] at hc
      exact cue.last c hc

/-- **A written line is read as its cue.** -/
theorem subReadLine_line : subReadLine count cue.line = .ok (some (cue.entry (count + 1))) := by
  have hcap : subLineRegex.captures cue.line =
      some [decimal cue.startFrame, decimal cue.endFrame, cue.rawText] :=
    captures_line decimal_ne_nil digit_of_mem_decimal decimal_ne_nil digit_of_mem_decimal
      cue.no_newline
  have hmax : maxDurationMs < u64Max := by decide
  have hstart := cue.start_le
  have hend := cue.end_le
  have hbody := cue.cap
  have hne : cue.line ≠ [] := List.cons_ne_nil _ _
  have h1 := parseField_decimal (fun e => subError e.message)
    [decimal cue.startFrame, decimal cue.endFrame, cue.rawText] 1 rfl
    (show cue.startFrame ≤ u64Max by omega)
  have h2 := parseField_decimal (fun e => subError e.message)
    [decimal cue.startFrame, decimal cue.endFrame, cue.rawText] 2 rfl
    (show cue.endFrame ≤ u64Max by omega)
  have hraw : [decimal cue.startFrame, decimal cue.endFrame, cue.rawText].getD 2 [] =
      cue.rawText := rfl
  rw [subReadLine, trim_line, if_neg hne, hcap]
  simp only [hraw]
  rw [if_neg (by omega), h1, h2]
  simp only [bind, Except.bind, pure, Except.pure, frameToDuration, frameToMs_default]
  rw [if_neg (by omega), min_eq_left (by omega), min_eq_left (by omega), SubCue.entry]

/-! ## A whole file -/

/-- The cues as they are read, the first of them numbered `number`. -/
def subEntries (number : ℕ) (cues : List SubCue) : List SubtitleEntry :=
  (cues.zipIdx number).map fun (cue, number) => cue.entry number

theorem subEntries_cons (number : ℕ) (cue : SubCue) (cues : List SubCue) :
    subEntries number (cue :: cues) = cue.entry number :: subEntries (number + 1) cues := rfl

/-- **What is read from a file are cues**, numbered as they come. -/
theorem exists_subEntries {ls : List Text} {entries : List SubtitleEntry}
    (hl : ∀ l ∈ ls, '\n' ∉ l) (h : readBlocks subReadLine count ls = .ok entries) :
    ∃ cues : List SubCue, entries = subEntries (count + 1) cues := by
  induction ls generalizing count entries with
  | nil =>
    obtain rfl := Except.ok.inj h
    exact ⟨[], rfl⟩
  | cons l ls ih =>
    simp only [List.mem_cons, forall_eq_or_imp] at hl
    obtain ⟨cue, hcue, h⟩ := Run.bind_eq_ok.1 h
    cases cue with
    | none => exact ih hl.2 h
    | some e =>
      obtain ⟨es, hes, h⟩ := Run.bind_eq_ok.1 h
      obtain rfl := Except.ok.inj h
      obtain ⟨cue, rfl⟩ := subReadLine_eq_some hl.1 hcue
      obtain ⟨cues, rfl⟩ := ih hl.2 hes
      exact ⟨cue :: cues, rfl⟩

/-- The bars come back for the line feeds. -/
theorem replaceChar_bar (h : '\n' ∉ s) :
    replaceChar '\n' ['|'] (replaceChar '|' ['\n'] s) = s := by
  induction s with
  | nil => rfl
  | cons c s ih =>
    rw [List.mem_cons, not_or] at h
    by_cases hc : c = '|'
    · subst hc
      rw [replaceChar_cons_self, List.singleton_append, replaceChar_cons_self, ih h.2]
      rfl
    · rw [replaceChar_cons_of_ne hc, replaceChar_cons_of_ne (Ne.symm h.1), ih h.2]

/-- Every cue is written as its line. -/
theorem subSerialize_subEntries {subtitle : Subtitle} {cues : List SubCue}
    (hfps : subtitle.metadata.frameRate = some defaultSubFps)
    (hentries : subtitle.entries = subEntries (count + 1) cues) :
    subSerialize subtitle = (cues.map SubCue.line).flatMap (· ++ ['\n']) := by
  rw [subSerialize, hfps, Option.getD_some, hentries]
  clear hentries
  induction cues generalizing count with
  | nil => rfl
  | cons cue cues ih =>
    have hline : subLine (durationToFrame (cue.entry (count + 1)).startTime defaultSubFps)
        (durationToFrame (cue.entry (count + 1)).endTime defaultSubFps)
        (replaceChar '\n' ['|'] (cue.entry (count + 1)).text) = cue.line := by
      simp only [SubCue.entry]
      rw [durationToFrame_default cue.start_le, durationToFrame_default cue.end_le,
        replaceChar_bar cue.no_newline, SubCue.line]
    rw [subEntries_cons, List.flatMap_cons, hline, ih]
    rfl

theorem readBlocks_lines (cues : List SubCue) (count : ℕ) :
    readBlocks subReadLine count (cues.map SubCue.line) = .ok (subEntries (count + 1) cues) := by
  induction cues generalizing count with
  | nil => rfl
  | cons cue cues ih => exact readBlocks_cue subReadLine_line (ih (count + 1))

theorem newline_not_mem_line : '\n' ∉ cue.line := by
  have hstart : '\n' ∉ decimal cue.startFrame := newline_not_mem_decimal
  have hend : '\n' ∉ decimal cue.endFrame := newline_not_mem_decimal
  simp [SubCue.line, subLine, hstart, hend, cue.no_newline]

theorem getLast?_line : cue.line.getLast? ≠ some '\r' := by
  rw [← trim_line]
  intro hlast
  exact absurd (getLast?_trim hlast) (by decide)

/-- The lines of a written file are the lines it was written from. -/
theorem lines_subLines (cues : List SubCue) :
    lines ((cues.map SubCue.line).flatMap (· ++ ['\n'])) = cues.map SubCue.line := by
  have hnewline : ∀ l ∈ cues.map SubCue.line, '\n' ∉ l := by
    intro l hl
    obtain ⟨cue, -, rfl⟩ := List.mem_map.1 hl
    exact newline_not_mem_line
  have hreturn : ∀ l ∈ cues.map SubCue.line, l.getLast? ≠ some '\r' := by
    intro l hl
    obtain ⟨cue, -, rfl⟩ := List.mem_map.1 hl
    exact getLast?_line
  have hlines := lines_flatMap_newline hnewline hreturn []
  rwa [List.append_nil, lines_nil, List.append_nil] at hlines

/-- **Writing and reading back.** A file that was read with at least one cue
is written as one that is read the same. -/
theorem subParse_subSerialize {content : Text} {subtitle : Subtitle}
    (h : subParse content = .ok subtitle) (hne : subtitle.entries ≠ []) :
    subParse (subSerialize subtitle) = .ok subtitle := by
  rw [subParse] at h
  split at h
  · cases h
  obtain ⟨entries, hentries, h⟩ := Run.bind_eq_ok.1 h
  obtain rfl := Except.ok.inj h
  obtain ⟨cues, rfl⟩ := exists_subEntries (fun l hl => newline_not_mem_of_mem_lines hl) hentries
  have hcues : cues ≠ [] := by rintro rfl; exact hne rfl
  obtain ⟨cue, more, rfl⟩ := List.exists_cons_of_ne_nil hcues
  have hfile : ((cue :: more).map SubCue.line).flatMap (· ++ ['\n']) ≠ [] := by
    simp [SubCue.line, subLine]
  rw [subSerialize_subEntries rfl rfl, subParse, if_neg hfile, lines_subLines, readBlocks_lines]
  rfl

/-- A file with leading zeros, a line that is no cue, a style code and bars
at the end. -/
def roughSub : Text := "\x7b0010\x7d\x7b25\x7d \x7by:i\x7d a|b||  \r\nx\n".toList

/-- Its one cue. -/
def roughSubCue : SubtitleEntry :=
  ⟨1, .fromMillis 400, .fromMillis 1000, " \x7by:i\x7d a\nb\n\n".toList, none⟩

theorem subParse_subSerialize_roughSub : ∃ subtitle, subParse roughSub = .ok subtitle ∧
    subtitle.entries = [roughSubCue] ∧ subParse (subSerialize subtitle) = .ok subtitle := by
  have hread : (subParse roughSub).map (·.entries) = .ok [roughSubCue] := by decide +kernel
  rcases h : subParse roughSub with e | subtitle
  · rw [h] at hread
    cases hread
  · rw [h] at hread
    have hentries : subtitle.entries = [roughSubCue] := Except.ok.inj hread
    exact ⟨subtitle, rfl, hentries, subParse_subSerialize h (by simp [hentries])⟩

end SubxCore
