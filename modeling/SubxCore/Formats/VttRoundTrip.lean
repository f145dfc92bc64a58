import SubxCore.Common.Matches
import SubxCore.Formats.Vtt
/-!
# Reading back a written VTT file

The serializer ends every cue with a blank line, but a cue without a text
already ends in a line feed: the blank line is then read one line early,
and a line feed is left at the start of the next block. Trimming takes it
away there (`splitStr_vttBlocks`, `trim_vttLeft_append`). A trimmed cue
starts with its number, so it is no header, note or style, and its first
line is an identifier; the file is read back cue for cue
(`vttParse_vttSerialize`).
-/

namespace SubxCore

open Text Decimal Regex

/-- What the serializer writes for a cue. -/
def vttBlock (entry : SubtitleEntry) : Text :=
  decimal entry.index ++ '\n' :: (timingLine '.' entry.startTime entry.endTime ++
    '\n' :: (entry.text ++ ['\n', '\n']))

/-- The lines of it, joined. -/
def vttLines (entry : SubtitleEntry) : Text :=
  decimal entry.index ++ '\n' :: (timingLine '.' entry.startTime entry.endTime ++
    if entry.text = [] then [] else '\n' :: entry.text)

/-- What is left of it after the first blank line. -/
def vttLeft (entry : SubtitleEntry) : Text := if entry.text = [] then ['\n'] else []

/-- A text that stays one block: no carriage return, no blank line, no line
feed at the start and no white space at the end. It may be empty. -/
structure IsVttText (t : Text) : Prop where
  no_return : '\r' ∉ t
  no_blank : NoBlankLine t
  head : t.head? ≠ some '\n'
  last : ∀ c ∈ t.getLast?, isWhitespace c = false

variable {entry : SubtitleEntry} {entries : List SubtitleEntry} {left s : Text} {count : ℕ}

theorem vttSerialize_eq (subtitle : Subtitle) :
    vttSerialize subtitle = "WEBVTT\n\n".toList ++ subtitle.entries.flatMap vttBlock := rfl

theorem vttBlock_eq : vttBlock entry = vttLines entry ++ (['\n', '\n'] ++ vttLeft entry) := by
  by_cases h : entry.text = []
  · simp [vttBlock, vttLines, vttLeft, h]
  · simp [vttBlock, vttLines, vttLeft, h]

theorem vttLeft_eq (entry : SubtitleEntry) : vttLeft entry = [] ∨ vttLeft entry = ['\n'] := by
  rw [vttLeft]
  split
  · exact .inr rfl
  · exact .inl rfl

/-! ## The characters of a block -/

theorem vttTimingLine_no_newline : '\n' ∉ timingLine '.' entry.startTime entry.endTime :=
  not_mem_timingLine (by decide) (by decide)

theorem vttTimingLine_no_return : '\r' ∉ timingLine '.' entry.startTime entry.endTime :=
  not_mem_timingLine (by decide) (by decide)

/-- A block starts with a digit. -/
theorem head_vttLines (entry : SubtitleEntry) : ∃ c t, vttLines entry = c :: t ∧ c.isDigit = true := by
  obtain ⟨c, ds, hd⟩ := List.exists_cons_of_ne_nil (decimal_ne_nil (n := entry.index))
  refine ⟨c, _, by rw [vttLines, hd]; rfl, isDigit_of_mem_decimal (n := entry.index) ?_⟩
  rw [hd]
  exact List.mem_cons_self

/-- And does not end in white space: it ends in the text, or in the
milliseconds of the timing line. -/
theorem getLast?_vttLines (h : IsVttText entry.text) :
    ∀ c ∈ (vttLines entry).getLast?, isWhitespace c = false := by
  intro c hc
  rw [vttLines, List.getLast?_append_of_ne_nil _ (by simp)] at hc
  by_cases ht : entry.text = []
  · rw [if_pos ht, List.append_nil, List.getLast?_cons_of_ne_nil timingLine_ne_nil] at hc
    exact isWhitespace_of_isDigit (isDigit_getLast?_timingLine c hc)
  · rw [if_neg ht, List.getLast?_cons_of_ne_nil (by simp),
      List.getLast?_append_of_ne_nil _ (by simp), List.getLast?_cons_of_ne_nil ht] at hc
    exact h.last c hc

/-- There is no blank line in a block, whatever was left before it. -/
theorem noBlankLine_vttLines (h : IsVttText entry.text) : NoBlankLine (vttLines entry) := by
  have htiming : NoBlankLine (timingLine '.' entry.startTime entry.endTime ++
      if entry.text = [] then [] else '\n' :: entry.text) := by
    split
    · rw [List.append_nil]
      exact noBlankLine_of_not_mem vttTimingLine_no_newline
    · exact NoBlankLine.append_newline vttTimingLine_no_newline h.no_blank h.head
  refine NoBlankLine.append_newline newline_not_mem_decimal htiming fun hhead => ?_
  rw [List.head?_append_of_ne_nil _ timingLine_ne_nil] at hhead
  exact vttTimingLine_no_newline (List.mem_of_mem_head? hhead)

/-- Nor is there one after what was left before it. -/
theorem noBlankLine_append_vttLines (hleft : left = [] ∨ left = ['\n']) (h : IsVttText entry.text) :
    NoBlankLine (left ++ vttLines entry) := by
  rcases hleft with rfl | rfl
  · exact noBlankLine_vttLines h
  · refine NoBlankLine.append_newline List.not_mem_nil (noBlankLine_vttLines h) fun hhead => ?_
    obtain ⟨c, t, hlines, hc⟩ := head_vttLines entry
    obtain rfl : c = '\n' := by simpa [hlines] using hhead
    exact absurd hc (by decide)

theorem vttLines_ne_nil : vttLines entry ≠ [] := by
  obtain ⟨c, t, hlines, -⟩ := head_vttLines entry
  rw [hlines]
  exact List.cons_ne_nil c t

/-- **Trimming gives the lines**, whatever was left before them. -/
theorem trim_vttLeft_append (hleft : left = [] ∨ left = ['\n']) (h : IsVttText entry.text) :
    trim (left ++ vttLines entry) = vttLines entry := by
  have hself : trim (vttLines entry) = vttLines entry := by
    refine trim_eq_self (fun c hc => ?_) (getLast?_vttLines h)
    obtain ⟨d, t, hlines, hd⟩ := head_vttLines entry
    rw [hlines, List.head?_cons, Option.mem_some_iff] at hc
    exact hc ▸ isWhitespace_of_isDigit hd
  rcases hleft with rfl | rfl
  · exact hself
  · rw [List.singleton_append, trim_cons_whitespace (by decide), hself]

/-- What was left is blank. -/
theorem trim_vttLeft (hleft : left = [] ∨ left = ['\n']) : trim left = [] := by
  rcases hleft with rfl | rfl
  · rfl
  · rfl

/-! ## One block -/

/-- A block is no header, note or style: it starts with a digit. -/
theorem vttSkips_vttLines : vttSkips (vttLines entry) = false := by
  obtain ⟨c, t, hlines, hc⟩ := head_vttLines entry
  have hword : ∀ w : Text, (∀ d ∈ w.head?, d.isDigit = false) → w ≠ [] →
      w.isPrefixOf (c :: t) = false := by
    intro w hw hne
    obtain ⟨d, w, rfl⟩ := List.exists_cons_of_ne_nil hne
    rw [Bool.eq_false_iff, Ne, List.isPrefixOf_iff_prefix]
    rintro ⟨u, hu⟩
    obtain ⟨rfl, -⟩ := List.cons_eq_cons.1 hu
    rw [hw d rfl] at hc
    exact Bool.false_ne_true hc
  rw [vttSkips, hlines, hword _ (by decide) (by decide), hword _ (by decide) (by decide),
    hword _ (by decide) (by decide)]
  rfl

/-- The lines of a block are the number, the timing line and the text. -/
theorem lines_vttLines :
    lines (vttLines entry) =
      decimal entry.index :: timingLine '.' entry.startTime entry.endTime :: lines entry.text := by
  rw [vttLines, lines_append_newline newline_not_mem_decimal,
    stripLast_of_not_mem return_not_mem_decimal]
  by_cases h : entry.text = []
  · rw [if_pos h, h, List.append_nil, lines_of_not_mem vttTimingLine_no_newline timingLine_ne_nil,
      lines_nil]
  · rw [if_neg h, lines_append_newline vttTimingLine_no_newline,
      stripLast_of_not_mem vttTimingLine_no_return]

/-- The number is no timing line: it has no colon. -/
theorem vttTimeRegex_decimal {n : ℕ} : vttTimeRegex.isMatch (decimal n) = false := by
  refine isMatch_eq_false fun prev b hb => run_seq_eq_nil_of_rest fun b' hb' prev => ?_
  refine run_seqs_eq_nil (p := (· == ':')) (by simp [clockRegex, chr]) fun c hc => ?_
  have hdigit := isDigit_of_mem_decimal (hb.subset (hb'.subset hc))
  rw [beq_eq_false_iff_ne]
  rintro rfl
  exact absurd hdigit (by decide)

/-- The timing line has no signed time: no digit follows a minus sign. -/
theorem vttNegSignedRegex_timingLine :
    vttNegSignedRegex.isMatch (timingLine '.' entry.startTime entry.endTime) = false := by
  refine isMatch_eq_false fun prev b hb => run_seq_eq_nil_of_rest fun b' hb' prev => ?_
  exact run_minus_eq_nil (by decide) (hb'.trans hb).isInfix

/-- The timing line is captured field by field. -/
theorem captures_vttTimeRegex {start stop : Duration} (hstart : start.asMillis < 100 * 3600000)
    (hstop : stop.asMillis < 100 * 3600000) :
    vttTimeRegex.captures (timingLine '.' start stop) =
      some (clockFields start.asMillis ++ clockFields stop.asMillis) := by
  have hline : vttTimeRegex.captures (timingLine '.' start stop ++ []) = _ :=
    captures_lineStart (takes_timingLine hstart hstop)
  rwa [List.append_nil] at hline

/-- A captured timestamp is its number of milliseconds. -/
theorem parseVttTime_clockFields (pre post : List Text) {ms : ℕ} (h : ms < 100 * 3600000) :
    parseVttTime (pre ++ (clockFields ms ++ post)) (pre.length + 1) = .ok (.fromMillis ms) :=
  parseClock_clockFields _ pre post h

/-- The lines of a text without carriage returns join back to it. -/
theorem IsVttText.join_lines (h : IsVttText s) : join ['\n'] (lines s) = s := by
  by_cases hs : s = []
  · subst hs
    rw [lines_nil]
    rfl
  · refine Text.join_lines s.length le_rfl h.no_return hs fun hlast => ?_
    exact absurd (h.last '\n' hlast) (by decide)

/-- The number and the timing line are over, the text is left. -/
theorem vttReadCue_timingLine (hstart : entry.startTime.asMillis < 100 * 3600000)
    (hstop : entry.endTime.asMillis < 100 * 3600000) (h : IsVttText entry.text)
    (hcap : byteLen entry.text ≤ maxCueBytes) :
    vttReadCue count (timingLine '.' entry.startTime entry.endTime) (lines entry.text) =
      .ok (some
        { index := count + 1
          startTime := .fromMillis entry.startTime.asMillis
          endTime := .fromMillis entry.endTime.asMillis
          text := entry.text
          styling := none }) := by
  have h1 : parseVttTime ([] ++ _) 1 = _ :=
    parseVttTime_clockFields [] (clockFields entry.endTime.asMillis) hstart
  have h2 : parseVttTime _ 5 = _ :=
    parseVttTime_clockFields (clockFields entry.startTime.asMillis) [] hstop
  rw [List.nil_append] at h1
  rw [List.append_nil] at h2
  rw [vttReadCue, vttNegSignedRegex_timingLine, if_neg Bool.false_ne_true,
    captures_vttTimeRegex hstart hstop]
  simp only [bind, Except.bind, pure, Except.pure, h1, h2, h.join_lines]
  rw [if_neg (by omega)]

/-- **A written block is read as its cue**, with whatever was left before
it. -/
theorem vttReadBlock_vttLines (hleft : left = [] ∨ left = ['\n'])
    (hstart : entry.startTime.asMillis < 100 * 3600000)
    (hstop : entry.endTime.asMillis < 100 * 3600000) (h : IsVttText entry.text)
    (hcap : byteLen (vttBlock entry) ≤ maxCueBytes) :
    vttReadBlock count (left ++ vttLines entry) =
      .ok (some
        { index := count + 1
          startTime := .fromMillis entry.startTime.asMillis
          endTime := .fromMillis entry.endTime.asMillis
          text := entry.text
          styling := none }) := by
  have htext : byteLen entry.text ≤ byteLen (vttBlock entry) := by
    simp only [vttBlock, byteLen_append, byteLen_cons]
    omega
  have hlines : byteLen (vttLines entry) ≤ byteLen (vttBlock entry) := by
    rw [vttBlock_eq, byteLen_append]
    omega
  rw [vttReadBlock, trim_vttLeft_append hleft h, vttSkips_vttLines, if_neg Bool.false_ne_true]
  simp only [lines_vttLines, vttTimeRegex_decimal]
  rw [if_neg (by omega), if_neg Bool.false_ne_true]
  exact vttReadCue_timingLine hstart hstop h (by omega)

/-! ## A whole file -/

/-- The blocks of a written file after the header, with what was left before
the first. -/
def vttPieces : Text → List SubtitleEntry → List Text
  | left, [] => [left]
  | left, entry :: entries => (left ++ vttLines entry) :: vttPieces (vttLeft entry) entries

/-- **The blocks are cut off one after the other**, each leaving what it
does. -/
theorem splitStr_vttBlocks (h : ∀ e ∈ entries, IsVttText e.text)
    (hleft : left = [] ∨ left = ['\n']) :
    splitStr ['\n', '\n'] (left ++ entries.flatMap vttBlock) = vttPieces left entries := by
  induction entries generalizing left with
  | nil =>
    rcases hleft with rfl | rfl
    · rfl
    · rfl
  | cons e es ih =>
    simp only [List.mem_cons, forall_eq_or_imp] at h
    have hlast : (left ++ vttLines e).getLast? ≠ some '\n' := by
      rw [List.getLast?_append_of_ne_nil _ vttLines_ne_nil]
      intro hlast
      exact absurd (getLast?_vttLines h.1 '\n' hlast) (by decide)
    have hcut := splitStr_blank_append (s := vttLeft e ++ es.flatMap vttBlock)
      (noBlankLine_append_vttLines hleft h.1) hlast
    rw [vttPieces, ← ih h.2 (vttLeft_eq e), ← hcut, List.flatMap_cons, vttBlock_eq]
    simp only [List.append_assoc]

/-- And read as their cues, numbered on. -/
theorem readBlocks_vttPieces (h : ∀ e ∈ entries, IsVttText e.text)
    (hstart : ∀ e ∈ entries, e.startTime.asMillis < 100 * 3600000)
    (hstop : ∀ e ∈ entries, e.endTime.asMillis < 100 * 3600000)
    (hcap : ∀ e ∈ entries, byteLen (vttBlock e) ≤ maxCueBytes)
    (hleft : left = [] ∨ left = ['\n']) (count : ℕ) :
    readBlocks vttReadBlock count (vttPieces left entries) =
      .ok ((entries.zipIdx (count + 1)).map fun (entry, number) =>
        { index := number
          startTime := .fromMillis entry.startTime.asMillis
          endTime := .fromMillis entry.endTime.asMillis
          text := entry.text
          styling := none }) := by
  induction entries generalizing left count with
  | nil =>
    refine readBlocks_skip ?_
    rw [vttReadBlock, trim_vttLeft hleft]
    rfl
  | cons e es ih =>
    simp only [List.mem_cons, forall_eq_or_imp] at h hstart hstop hcap
    exact readBlocks_cue (vttReadBlock_vttLines hleft hstart.1 hstop.1 h.1 hcap.1)
      (ih h.2 hstart.2 hstop.2 hcap.2 (vttLeft_eq e) (count + 1))

/-- Every block fits: a line feed left before it takes the place of one of
its own. -/
theorem byteLen_of_mem_vttPieces (hcap : ∀ e ∈ entries, byteLen (vttBlock e) ≤ maxCueBytes)
    (hleft : left = [] ∨ left = ['\n']) :
    ∀ b ∈ vttPieces left entries, byteLen b ≤ maxCueBytes := by
  have hlen : byteLen left ≤ 1 := by
    rcases hleft with rfl | rfl
    · decide
    · decide
  induction entries generalizing left with
  | nil =>
    intro b hb
    obtain rfl := List.mem_singleton.1 hb
    exact hlen.trans (by decide)
  | cons e es ih =>
    simp only [List.mem_cons, forall_eq_or_imp] at hcap
    intro b hb
    rcases List.mem_cons.1 hb with rfl | hb
    · have hblock := hcap.1
      have hnewline : '\n'.utf8Size = 1 := rfl
      simp only [vttBlock_eq, byteLen_append, byteLen_cons, byteLen_nil, hnewline] at hblock
      rw [byteLen_append]
      omega
    · have hrest : byteLen (vttLeft e) ≤ 1 := by
        rcases vttLeft_eq e with he | he
        · rw [he]; decide
        · rw [he]; decide
      exact ih hcap.2 (vttLeft_eq e) hrest b hb

theorem return_not_mem_vttSerialize {subtitle : Subtitle}
    (h : ∀ e ∈ subtitle.entries, '\r' ∉ e.text) : '\r' ∉ vttSerialize subtitle := by
  rw [vttSerialize_eq, List.mem_append, List.mem_flatMap]
  rintro (hr | ⟨e, he, hr⟩)
  · exact absurd hr (by decide)
  · have hdec : '\r' ∉ decimal e.index := return_not_mem_decimal
    simp [vttBlock, hdec, vttTimingLine_no_return, h e he] at hr

/-- **Writing and reading back.** Cues below 100 hours whose texts stay one
block come back in order, numbered from one, with their times in whole
milliseconds and their texts as they were. -/
theorem vttParse_vttSerialize (subtitle : Subtitle)
    (htimes : ∀ e ∈ subtitle.entries,
      e.startTime.nanos < hundredHours.nanos ∧ e.endTime.nanos < hundredHours.nanos)
    (htext : ∀ e ∈ subtitle.entries, IsVttText e.text)
    (hcap : ∀ e ∈ subtitle.entries, byteLen (vttBlock e) ≤ maxCueBytes) :
    vttParse (vttSerialize subtitle) =
      .ok (parsedSubtitle .vtt ((subtitle.entries.zipIdx 1).map fun (entry, number) =>
        { index := number
          startTime := .fromMillis entry.startTime.asMillis
          endTime := .fromMillis entry.endTime.asMillis
          text := entry.text
          styling := none })) := by
  have hreturn := return_not_mem_vttSerialize fun e he => (htext e he).no_return
  have hsplit : splitStr ['\n', '\n'] (vttSerialize subtitle) =
      "WEBVTT".toList :: vttPieces [] subtitle.entries := by
    rw [← splitStr_vttBlocks htext (.inl rfl)]
    exact splitStr_blank_append (a := "WEBVTT".toList) (by decide) (by decide)
  have hsize : firstOversized ((rawBlocks (vttSerialize subtitle)).filter fun block =>
      ¬ vttSkips (trim block)) = none := by
    rw [firstOversized_eq_none, rawBlocks_of_not_mem hreturn, hsplit]
    intro b hb
    obtain ⟨hb, hskips⟩ := List.mem_filter.1 hb
    rcases List.mem_cons.1 hb with rfl | hb
    · exact absurd hskips (by decide)
    · exact byteLen_of_mem_vttPieces hcap (.inl rfl) b hb
  have hread := readBlocks_vttPieces htext
    (fun e he => asMillis_lt_hundredHours (htimes e he).1)
    (fun e he => asMillis_lt_hundredHours (htimes e he).2) hcap (.inl rfl) 0
  have hheader : readBlocks vttReadBlock 0 ("WEBVTT".toList :: vttPieces [] subtitle.entries) =
      readBlocks vttReadBlock 0 (vttPieces [] subtitle.entries) := readBlocks_skip (by decide)
  have hbom : stripPrefix bom (vttSerialize subtitle) = vttSerialize subtitle := rfl
  have hne : vttSerialize subtitle ≠ [] := List.cons_ne_nil _ _
  have hsignature : "WEBVTT".toList <+: trimStart (vttSerialize subtitle) := ⟨_, rfl⟩
  rw [vttParse, hbom, if_neg hne]
  simp only [not_true_eq_false, if_false, hsignature, hsize,
    normalizeLineEndings_of_not_mem hreturn, hsplit, hheader, hread]
  rfl

/-- A cue without a text, and one whose text looks like what is skipped. -/
def skippedLookingCues : Subtitle :=
  parsedSubtitle .vtt
    [⟨7, ⟨1500000⟩, .fromMillis 359999999, [], none⟩,
      ⟨7, ⟨0⟩, ⟨1999999⟩, "NOTE -00:00:01.000 --> 1\nWEBVTT".toList, none⟩]

theorem vttParse_vttSerialize_skippedLookingCues :
    vttParse (vttSerialize skippedLookingCues) =
      .ok (parsedSubtitle .vtt
        [⟨1, ⟨1000000⟩, .fromMillis 359999999, [], none⟩,
          ⟨2, ⟨0⟩, ⟨1000000⟩, "NOTE -00:00:01.000 --> 1\nWEBVTT".toList, none⟩]) :=
  vttParse_vttSerialize skippedLookingCues (by decide)
    (by
      intro e he
      rcases List.mem_pair.1 he with rfl | rfl
      · exact ⟨by decide, by decide, by decide, by decide⟩
      · exact ⟨by decide, by decide, by decide, by decide⟩)
    (by decide)

end SubxCore
