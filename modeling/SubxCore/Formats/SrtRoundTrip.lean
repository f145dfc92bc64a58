import SubxCore.Formats.Srt
/-!
# Reading back a written SRT file

A block the serializer wrote is read as its cue: the number is a number,
the timing line is no negative one and is captured at its start, and the
lines after it are the text (`srtReadBlock_srtBlock`). Where no text has a
blank line or a line feed at either end, the blocks are cut exactly where
they were joined, and a file is read back cue for cue
(`srtParse_srtSerialize`).
-/

namespace SubxCore

open Text Decimal Regex

variable {c : Char} {n : ℕ} {start stop : Duration} {entry : SubtitleEntry} {s t : Text}

/-! ## The timing line -/

theorem newline_not_mem_timingLine : '\n' ∉ timingLine ',' start stop :=
  not_mem_timingLine (by decide) (by decide)

theorem return_not_mem_timingLine : '\r' ∉ timingLine ',' start stop :=
  not_mem_timingLine (by decide) (by decide)

/-- **A printed timing line is not taken for a signed one.** -/
theorem timingLineHasNegative_timingLine :
    timingLineHasNegative (timingLine ',' start stop) = false := by
  refine isMatch_eq_false fun prev b hb => ?_
  exact run_minus_eq_nil (by decide) hb.isInfix

/-! ## One block -/

theorem trim_decimal : trim (decimal n) = decimal n := by
  refine trim_eq_self (fun c hc => ?_) (fun c hc => ?_)
  · exact isWhitespace_of_isDigit (isDigit_of_mem_decimal (List.mem_of_mem_head? hc))
  · exact isWhitespace_of_isDigit (isDigit_of_mem_decimal (List.mem_of_getLast? hc))

/-- The number of a block shows that it is not blank. -/
theorem trim_ne_nil_of_decimal : trim (decimal n ++ t) ≠ [] := by
  intro h
  obtain ⟨c, s, hs⟩ := List.exists_cons_of_ne_nil (decimal_ne_nil (n := n))
  have hc : c ∈ decimal n := by simp [hs]
  have hws := trim_eq_nil_iff.1 h c (List.mem_append_left _ hc)
  rw [isWhitespace_of_isDigit (isDigit_of_mem_decimal hc)] at hws
  exact Bool.false_ne_true hws

/-- The lines of a written block. -/
theorem lines_srtBlock :
    lines (srtBlock n entry) =
      decimal n :: timingLine ',' entry.startTime entry.endTime :: lines entry.text := by
  rw [srtBlock, lines_append_newline newline_not_mem_decimal,
    stripLast_of_not_mem return_not_mem_decimal, lines_append_newline newline_not_mem_timingLine,
    stripLast_of_not_mem return_not_mem_timingLine]

/-- A captured timestamp is its number of milliseconds. -/
theorem srtParseTime_clockFields (pre post : List Text) {ms : ℕ} (h : ms < 100 * 3600000) :
    srtParseTime (pre ++ (clockFields ms ++ post)) (pre.length + 1) = .ok (.fromMillis ms) :=
  parseClock_clockFields _ pre post h

/-- A cue as a reader of the written file sees it: renumbered, its times in
whole milliseconds, its text as the lines of the block. -/
def asWritten (number : ℕ) (entry : SubtitleEntry) : SubtitleEntry where
  index := number
  startTime := .fromMillis entry.startTime.asMillis
  endTime := .fromMillis entry.endTime.asMillis
  text := join ['\n'] (lines entry.text)
  styling := none

/-- **A written block is read as its cue**, or skipped where the text has no
line. -/
theorem srtReadBlock_srtBlock (hn : n ≤ u64Max) (hstart : entry.startTime.asMillis < 100 * 3600000)
    (hend : entry.endTime.asMillis < 100 * 3600000)
    (hcap : byteLen (srtBlock n entry) ≤ maxCueBytes) :
    srtReadBlock (srtBlock n entry) =
      .ok (if lines entry.text = [] then none else some (asWritten n entry)) := by
  have hblank : trim (srtBlock n entry) ≠ [] := trim_ne_nil_of_decimal
  have h1 : srtParseTime ([] ++ _) 1 = _ :=
    srtParseTime_clockFields [] (clockFields entry.endTime.asMillis) hstart
  have h2 : srtParseTime _ 5 = _ :=
    srtParseTime_clockFields (clockFields entry.startTime.asMillis) [] hend
  rw [srtReadBlock, if_neg hblank, if_neg (by omega), lines_srtBlock]
  rcases hlines : lines entry.text with - | ⟨line, more⟩
  · rfl
  · simp only [trim_decimal, parseUnsigned_decimal hn, timingLineHasNegative_timingLine,
      captures_timingLine hstart hend]
    rw [List.nil_append] at h1
    rw [List.append_nil] at h2
    rw [if_neg Bool.false_ne_true, if_neg (by simp), asWritten, hlines]
    simp only [bind, Except.bind, pure, Except.pure, h1, h2]

/-! ## A whole file -/

/-- A text that stays one block: something, no carriage return, no blank
line, no line feed at either end. -/
structure IsCueText (t : Text) : Prop where
  ne_nil : t ≠ []
  no_return : '\r' ∉ t
  no_blank : NoBlankLine t
  head : t.head? ≠ some '\n'
  last : t.getLast? ≠ some '\n'

/-- The lines of such a text are the text. -/
theorem IsCueText.join_lines (h : IsCueText t) : join ['\n'] (lines t) = t :=
  Text.join_lines t.length le_rfl h.no_return h.ne_nil h.last

theorem IsCueText.lines_ne_nil (h : IsCueText t) : lines t ≠ [] := by
  intro hl
  have := h.join_lines
  rw [hl] at this
  exact h.ne_nil this.symm

/-- **Its block is cut off at the blank line after it.** -/
theorem splitStr_srtBlock (h : IsCueText entry.text) :
    splitStr ['\n', '\n'] (srtBlock n entry ++ (['\n', '\n'] ++ s)) =
      srtBlock n entry :: splitStr ['\n', '\n'] s := by
  have hline : '\n' ∉ timingLine ',' entry.startTime entry.endTime := newline_not_mem_timingLine
  have htiming := NoBlankLine.append_newline hline h.no_blank h.head
  refine splitStr_blank_append (NoBlankLine.append_newline newline_not_mem_decimal htiming
    fun hhead => ?_) fun hlast => ?_
  · rw [List.head?_append_of_ne_nil _ timingLine_ne_nil] at hhead
    exact newline_not_mem_timingLine (List.mem_of_mem_head? hhead)
  · refine h.last ?_
    rw [srtBlock, List.getLast?_append_of_ne_nil _ (by simp), List.getLast?_cons_of_ne_nil (by simp),
      List.getLast?_append_of_ne_nil _ (by simp), List.getLast?_cons_of_ne_nil h.ne_nil] at hlast
    exact hlast

variable {entries : List SubtitleEntry}

/-- The serialized cues, the first of them numbered `n`. -/
def srtBlocks (n : ℕ) (entries : List SubtitleEntry) : List Text :=
  (entries.zipIdx n).map fun (entry, number) => srtBlock number entry

theorem srtBlocks_cons : srtBlocks n (entry :: entries) =
    srtBlock n entry :: srtBlocks (n + 1) entries := rfl

theorem srtSerialize_eq (subtitle : Subtitle) :
    srtSerialize subtitle = (srtBlocks 1 subtitle.entries).flatMap (· ++ ['\n', '\n']) := by
  rw [srtSerialize, srtBlocks, List.flatMap_map]

/-- The blocks of a written file are the blocks it was written from. -/
theorem splitStr_srtBlocks (h : ∀ e ∈ entries, IsCueText e.text) (n : ℕ) :
    splitStr ['\n', '\n'] ((srtBlocks n entries).flatMap (· ++ ['\n', '\n'])) =
      srtBlocks n entries ++ [[]] := by
  induction entries generalizing n with
  | nil => rfl
  | cons e es ih =>
    simp only [List.mem_cons, forall_eq_or_imp] at h
    rw [srtBlocks_cons, List.flatMap_cons, List.append_assoc, splitStr_srtBlock h.1, ih h.2,
      List.cons_append]

/-- And they are read as their cues. -/
theorem readBlocks_srtBlocks (hvec : n + entries.length ≤ u64Max)
    (h : ∀ e ∈ entries, IsCueText e.text)
    (hstart : ∀ e ∈ entries, e.startTime.asMillis < 100 * 3600000)
    (hend : ∀ e ∈ entries, e.endTime.asMillis < 100 * 3600000)
    (hcap : ∀ b ∈ srtBlocks n entries, byteLen b ≤ maxCueBytes) (count : ℕ) :
    readBlocks (fun _ => srtReadBlock) count (srtBlocks n entries ++ [[]]) =
      .ok ((entries.zipIdx n).map fun (entry, number) => asWritten number entry) := by
  induction entries generalizing n count with
  | nil => rfl
  | cons e es ih =>
    simp only [List.mem_cons, forall_eq_or_imp] at h hstart hend
    simp only [srtBlocks_cons, List.mem_cons, forall_eq_or_imp, List.length_cons] at hcap hvec
    rw [srtBlocks_cons]
    refine readBlocks_cue ?_ (ih (by omega) h.2 hstart.2 hend.2 hcap.2 (count + 1))
    rw [srtReadBlock_srtBlock (by omega) hstart.1 hend.1 hcap.1, if_neg h.1.lines_ne_nil]

theorem return_not_mem_srtBlocks (h : ∀ e ∈ entries, '\r' ∉ e.text) :
    ∀ b ∈ srtBlocks n entries, '\r' ∉ b := by
  intro b hb
  obtain ⟨⟨e, k⟩, hk, rfl⟩ := List.mem_map.1 hb
  have he : '\r' ∉ e.text := h e (List.fst_mem_of_mem_zipIdx hk)
  have hdec : '\r' ∉ decimal k := return_not_mem_decimal
  have htim : '\r' ∉ timingLine ',' e.startTime e.endTime := return_not_mem_timingLine
  simp [srtBlock, he, hdec, htim]

/-- A written file does not start with a byte-order mark. -/
theorem stripPrefix_bom_srtSerialize {subtitle : Subtitle} (hne : subtitle.entries ≠ []) :
    stripPrefix bom (srtSerialize subtitle) = srtSerialize subtitle ∧
      srtSerialize subtitle ≠ [] := by
  obtain ⟨e, es, hes⟩ := List.exists_cons_of_ne_nil hne
  obtain ⟨c, ds, hd⟩ := List.exists_cons_of_ne_nil (decimal_ne_nil (n := 1))
  obtain ⟨s, hs⟩ : ∃ s, srtSerialize subtitle = c :: s := by
    rw [srtSerialize_eq, hes, srtBlocks_cons, List.flatMap_cons, srtBlock, hd]
    exact ⟨_, rfl⟩
  have hc : c ≠ '\uFEFF' := by
    rintro rfl
    exact absurd (isDigit_of_mem_decimal (hd ▸ List.mem_cons_self .. : '\uFEFF' ∈ decimal 1))
      (by decide)
  rw [hs, stripPrefix, if_neg]
  · exact ⟨rfl, List.cons_ne_nil c s⟩
  · rw [List.isPrefixOf_iff_prefix]
    rintro ⟨u, hu⟩
    exact hc (List.cons_eq_cons.1 hu).1.symm

/-- **Writing and reading back.** Cues below 100 hours whose texts stay one
block come back in order, renumbered, with their times in whole
milliseconds and their texts as they were. -/
theorem srtParse_srtSerialize (subtitle : Subtitle) (hne : subtitle.entries ≠ [])
    (hvec : subtitle.entries.length ≤ vecMax)
    (htimes : ∀ e ∈ subtitle.entries,
      e.startTime.nanos < hundredHours.nanos ∧ e.endTime.nanos < hundredHours.nanos)
    (htext : ∀ e ∈ subtitle.entries, IsCueText e.text)
    (hcap : ∀ b ∈ srtBlocks 1 subtitle.entries, byteLen b ≤ maxCueBytes) :
    srtParse (srtSerialize subtitle) =
      .ok (parsedSubtitle .srt ((subtitle.entries.zipIdx 1).map fun (entry, number) =>
        { index := number
          startTime := .fromMillis entry.startTime.asMillis
          endTime := .fromMillis entry.endTime.asMillis
          text := entry.text
          styling := none })) := by
  obtain ⟨hbom, hfile⟩ := stripPrefix_bom_srtSerialize hne
  have hreturn : '\r' ∉ srtSerialize subtitle := by
    rw [srtSerialize_eq]
    intro hr
    obtain ⟨b, hb, hr⟩ := List.mem_flatMap.1 hr
    have hb := return_not_mem_srtBlocks (fun e he => (htext e he).no_return) b hb
    simp [hb] at hr
  have hsplit : splitStr ['\n', '\n'] (srtSerialize subtitle) =
      srtBlocks 1 subtitle.entries ++ [[]] := by
    rw [srtSerialize_eq, splitStr_srtBlocks htext]
  -- no block is over the cap, and neither is the empty one at the end
  have hsize : firstOversized (rawBlocks (srtSerialize subtitle)) = none := by
    rw [firstOversized_eq_none, rawBlocks_of_not_mem hreturn, hsplit]
    intro b hb
    rcases List.mem_append.1 hb with hb | hb
    · exact hcap b hb
    · simp [List.mem_singleton.1 hb]
  have hread := readBlocks_srtBlocks (n := 1) (by rw [vecMax] at hvec; rw [u64Max]; omega) htext
    (fun e he => asMillis_lt_hundredHours (htimes e he).1)
    (fun e he => asMillis_lt_hundredHours (htimes e he).2) hcap 0
  have hcues : (subtitle.entries.zipIdx 1).map (fun (entry, number) => asWritten number entry) =
      (subtitle.entries.zipIdx 1).map fun (entry, number) =>
        { asWritten number entry with text := entry.text } := by
    refine List.map_congr_left fun ⟨e, k⟩ hk => ?_
    have hjoin := (htext e (List.fst_mem_of_mem_zipIdx hk)).join_lines
    simp only [asWritten, hjoin]
  rw [srtParse, hbom]
  simp only [if_neg hfile, hsize, normalizeLineEndings_of_not_mem hreturn, hsplit, hread, hcues]
  rfl

/-- Cues, numbered anyhow, one of which has a text that looks like a block of its own. -/
def blockLikeCues : Subtitle :=
  parsedSubtitle .srt
    [⟨7, ⟨1500000⟩, .fromMillis 359999999, " 2\n00:00:01,000 --> 00:00:02,000\n-1".toList, none⟩,
      ⟨7, .fromMillis 500, .fromMillis 2000, "Hello\nthere".toList, none⟩,
      ⟨1, .fromMillis 100, .fromMillis 50, "3".toList, none⟩]

/-- They are cut where they were put together, and numbered anew. -/
theorem srtParse_srtSerialize_blockLikeCues :
    srtParse (srtSerialize blockLikeCues) =
      .ok (parsedSubtitle .srt
        [⟨1, ⟨1000000⟩, .fromMillis 359999999, " 2\n00:00:01,000 --> 00:00:02,000\n-1".toList,
            none⟩,
          ⟨2, .fromMillis 500, .fromMillis 2000, "Hello\nthere".toList, none⟩,
          ⟨3, .fromMillis 100, .fromMillis 50, "3".toList, none⟩]) :=
  srtParse_srtSerialize blockLikeCues (by decide) (by decide) (by decide)
    (by
      intro e he
      have hcues : e ∈ blockLikeCues.entries := he
      rcases List.mem_cons.1 hcues with rfl | he
      · exact ⟨by decide, by decide, by decide, by decide, by decide⟩
      rcases List.mem_pair.1 he with rfl | rfl
      · exact ⟨by decide, by decide, by decide, by decide, by decide⟩
      · exact ⟨by decide, by decide, by decide, by decide, by decide⟩)
    (by decide)

end SubxCore
