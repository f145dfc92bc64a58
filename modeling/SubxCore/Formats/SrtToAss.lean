import SubxCore.Formats.AssRoundTrip
import SubxCore.Formats.BlockErrors
import SubxCore.Formats.Transform
/-!
# Cues written to ASS

Cues of any origin are written as rows and read back one by one: a row is a line
whatever the text of its cue, the text stands behind the nine commas it is cut at, and
the white space at its end is all that a row loses of it. The times come back in
centiseconds. So an SRT file makes its way to ASS with every cue, if no text is over the
cap.
-/

namespace SubxCore

open Text Decimal Regex Run

variable {s t : Text} {d : Duration} {entry : SubtitleEntry} {entries : List SubtitleEntry}

/-! ## Times -/

/-- A time rounded down to centiseconds. -/
def Duration.floorCentis (d : Duration) : Duration := .fromMillis (d.asMillis / 10 * 10)

theorem isAssTime_floorCentis (h : d.asMillis ≤ u64Max) : IsAssTime d.floorCentis :=
  ⟨d.asMillis / 10, rfl, (Nat.div_mul_le_self _ _).trans h⟩

/-- A printed time does not tell what is below. -/
theorem formatAssTime_floorCentis (d : Duration) :
    formatAssTime d.floorCentis = formatAssTime d := by
  unfold formatAssTime
  rw [Duration.floorCentis, Duration.asMillis_fromMillis]
  generalize d.asMillis = ms
  dsimp only
  have hhours : ms / 10 * 10 / 3600000 = ms / 3600000 := by omega
  have hminutes : ms / 10 * 10 % 3600000 / 60000 = ms % 3600000 / 60000 := by omega
  have hseconds : ms / 10 * 10 % 60000 / 1000 = ms % 60000 / 1000 := by omega
  have hcentis : ms / 10 * 10 % 1000 / 10 = ms % 1000 / 10 := by omega
  rw [hhours, hminutes, hseconds, hcentis]

/-! ## Texts -/

/-- A text as it stands in a row. -/
def rowText (t : Text) : Text := trimEnd (replaceChar '\n' "\\N".toList t)

/-- Trimming a text with its line feeds escaped trims the text. -/
theorem exists_rowText_eq (t : Text) :
    ∃ u, u <+: t ∧ rowText t = replaceChar '\n' "\\N".toList u := by
  unfold rowText
  induction t using List.reverseRecOn with
  | nil => exact ⟨[], List.prefix_rfl, rfl⟩
  | append_singleton t c ih =>
    -- a line feed is white space, and the letter it is written as is not
    by_cases hc : isWhitespace c = true ∧ c ≠ '\n'
    · obtain ⟨u, hu, hrow⟩ := ih
      refine ⟨u, hu.trans (List.prefix_append t [c]), ?_⟩
      rw [replaceChar_append, replaceChar_cons_of_ne hc.2, replaceChar_nil, trimEnd,
        List.rdropWhile_concat_pos _ _ _ hc.1]
      exact hrow
    · refine ⟨t ++ [c], List.prefix_rfl, ?_⟩
      by_cases hnewline : c = '\n'
      · subst hnewline
        have hescape : ∀ s, trimEnd (s ++ (['\\', 'N'] ++ [])) = s ++ (['\\', 'N'] ++ []) := by
          intro s
          have hsplit : s ++ (['\\', 'N'] ++ []) = (s ++ ['\\']) ++ ['N'] := by simp
          rw [hsplit, trimEnd, List.rdropWhile_concat_neg _ _ _ (by decide)]
        rw [replaceChar_append, replaceChar_cons_self, replaceChar_nil]
        exact hescape _
      · have hplain : ¬ isWhitespace c = true := fun h => hc ⟨h, hnewline⟩
        rw [replaceChar_append, replaceChar_cons_of_ne hnewline, replaceChar_nil, trimEnd,
          List.rdropWhile_concat_neg _ _ _ hplain]

/-- What is read of an escaped text is no longer than the text. -/
theorem byteLen_unescape_le (t : Text) :
    byteLen (replaceStr "\\N".toList ['\n'] (replaceChar '\n' "\\N".toList t)) ≤ byteLen t := by
  have hne : "\\N".toList ≠ [] := by decide
  induction hn : t.length using Nat.strong_induction_on generalizing t with
  | _ n ih =>
    rcases t with - | ⟨c, t⟩
    · simp
    have hrest := ih t.length (by rw [← hn, List.length_cons]; omega) t rfl
    by_cases hnewline : c = '\n'
    · subst hnewline
      rw [replaceChar_cons_self, replaceStr_pattern hne, byteLen_append, byteLen_cons,
        byteLen_nil, byteLen_cons]
      omega
    rw [replaceChar_cons_of_ne hnewline]
    by_cases hpre : "\\N".toList <+: c :: replaceChar '\n' "\\N".toList t
    · -- a backslash and an `N` of the text itself: they are read as a line feed, too
      have hpair : ['\\', 'N'] <+: c :: replaceChar '\n' "\\N".toList t := hpre
      obtain ⟨rfl, hnext⟩ := List.cons_prefix_cons.1 hpair
      obtain ⟨t, rfl⟩ : ∃ u, t = 'N' :: u := by
        rcases t with - | ⟨d, u⟩
        · simp at hnext
        by_cases hd : d = '\n'
        · subst hd
          rw [replaceChar_cons_self] at hnext
          exact absurd (List.cons_prefix_cons.1 hnext).1 (by decide)
        · rw [replaceChar_cons_of_ne hd] at hnext
          exact ⟨u, by rw [(List.cons_prefix_cons.1 hnext).1]⟩
      have hpattern := replaceStr_pattern (r := ['\n']) hne (replaceChar '\n' "\\N".toList t)
      have hlast := ih t.length (by rw [← hn, List.length_cons, List.length_cons]; omega) t rfl
      rw [replaceChar_cons_of_ne (by decide)]
      refine (congrArg byteLen hpattern).trans_le ?_
      rw [byteLen_append, byteLen_cons, byteLen_nil, byteLen_cons, byteLen_cons]
      have hsizes : '\n'.utf8Size = 1 ∧ '\\'.utf8Size = 1 := by decide
      omega
    · rw [replaceStr_cons hpre, byteLen_cons, byteLen_cons]
      omega

/-- What a row keeps of a text is a text for a row. -/
theorem isRowText_rowText (t : Text) : IsRowText (rowText t) where
  no_newline hmem := not_mem_replaceChar (by decide) ((List.rdropWhile_prefix _ _).subset hmem)
  last _ hc := getLast?_trimEnd hc

theorem rowText_eq_self (h : IsRowText t) : rowText (replaceStr "\\N".toList ['\n'] t) = t := by
  rw [rowText, replaceChar_replaceStr (by decide) h.no_newline, trimEnd,
    List.rdropWhile_eq_self_iff]
  exact fun hne => Bool.eq_false_iff.1 (h.last _ (List.getLast?_eq_some_getLast hne))

/-! ## Cues -/

/-- The cue that is read for a cue, but for its number. -/
def readBack (entry : SubtitleEntry) : SubtitleEntry where
  index := entry.index
  startTime := entry.startTime.floorCentis
  endTime := entry.endTime.floorCentis
  text := replaceStr "\\N".toList ['\n'] (rowText entry.text)
  styling := none

/-- What the format can hold of a cue: times within `u64` milliseconds, and a
text within the cap. -/
structure FitsAss (entry : SubtitleEntry) : Prop where
  startTime : entry.startTime.asMillis ≤ u64Max
  endTime : entry.endTime.asMillis ≤ u64Max
  text : byteLen entry.text ≤ maxCueBytes

/-- **The cue that is read is one the parser makes.** -/
theorem FitsAss.isAssCue (h : FitsAss entry) (number : ℕ) :
    IsAssCue number { readBack entry with index := number } where
  index := rfl
  styling := rfl
  startTime := isAssTime_floorCentis h.startTime
  endTime := isAssTime_floorCentis h.endTime
  text := ⟨_, isRowText_rowText entry.text, rfl⟩
  size := by
    obtain ⟨u, hu, hrow⟩ := exists_rowText_eq entry.text
    have hread : byteLen (replaceStr "\\N".toList ['\n'] (rowText entry.text)) ≤ byteLen u := by
      rw [hrow]
      exact byteLen_unescape_le u
    exact (hread.trans (byteLen_mono hu.isInfix)).trans h.text

theorem assCues_numbered (h : ∀ e ∈ entries, FitsAss e) :
    AssCues (numbered 0 (entries.map readBack)) := by
  intro k e hk
  rw [getElem?_numbered, List.getElem?_map, Option.map_map, Option.map_eq_some_iff] at hk
  obtain ⟨entry, hentry, rfl⟩ := hk
  rw [Nat.zero_add]
  exact (h entry (List.mem_of_getElem? hentry)).isAssCue (k + 1)

/-! ## Rows -/

/-- What stands in a row behind its keyword, trimmed. -/
theorem trim_assRow (entry : SubtitleEntry) :
    trim (' ' :: join [','] (assColumns entry ++ [replaceChar '\n' "\\N".toList entry.text])) =
      join [','] (assColumns entry ++ [rowText entry.text]) := by
  have hne : assColumns entry ≠ [] := List.cons_ne_nil _ _
  rw [trim_cons_whitespace (by decide), join_concat hne, join_concat hne, ← List.append_assoc,
    ← List.append_assoc]
  have hstart : trimStart ((join [','] (assColumns entry) ++ [',']) ++
      replaceChar '\n' "\\N".toList entry.text) =
        (join [','] (assColumns entry) ++ [',']) ++ replaceChar '\n' "\\N".toList entry.text := rfl
  rw [trim, hstart, trimEnd_append, rowText]
  intro c hc
  rw [List.getLast?_concat] at hc
  obtain rfl : ',' = c := Option.some.inj hc
  decide

/-- Only what is left of a row when it is trimmed matters. -/
theorem assReadRow_congr {fields : List Text} {count : ℕ} {row row' : Text}
    (h : trim row = trim row') : assReadRow fields count row = assReadRow fields count row' := by
  unfold assReadRow
  rw [h]

/-- The columns of a cue do not tell it from the cue that is read. -/
theorem assColumns_readBack (entry : SubtitleEntry) :
    assColumns (readBack entry) = assColumns entry := by
  unfold assColumns readBack
  rw [formatAssTime_floorCentis, formatAssTime_floorCentis]

/-- **A row, as a line of the file, is taken for the row of the cue that is
read.** -/
theorem assStep_stripLast_assRow (st : AssState) (entry : SubtitleEntry) :
    assStep st (stripLast '\r' (assRow entry)) = assStep st (assRow (readBack entry)) := by
  have hkey : ∀ e, assRow e = "Dialogue:".toList ++
      ' ' :: join [','] (assColumns e ++ [replaceChar '\n' "\\N".toList e.text]) := assRow_eq
  have hsame : rowText (readBack entry).text = rowText entry.text :=
    rowText_eq_self (isRowText_rowText entry.text)
  -- the same is left of both rows when they are trimmed
  have hread : ∀ fields count,
      assReadRow fields count (stripLast '\r'
        (' ' :: join [','] (assColumns entry ++ [replaceChar '\n' "\\N".toList entry.text]))) =
      assReadRow fields count (' ' :: join [','] (assColumns (readBack entry) ++
        [replaceChar '\n' "\\N".toList (readBack entry).text])) := fun _ _ =>
    assReadRow_congr (by
      rw [trim_stripLast (by decide), trim_assRow, trim_assRow, assColumns_readBack, hsame])
  rw [hkey, hkey, stripLast_append (List.cons_ne_nil _ _), assStep_dialogue, assStep_dialogue, hread]

/-- A row is one line, whatever the cue. -/
theorem newline_not_mem_assRow (entry : SubtitleEntry) : '\n' ∉ assRow entry := by
  have htime : ∀ d, '\n' ∉ formatAssTime d := fun d hd =>
    absurd (mem_formatAssTime hd) (by decide)
  unfold assRow
  simp only [List.mem_append, not_or]
  exact ⟨⟨⟨⟨⟨by decide, htime _⟩, by decide⟩, htime _⟩, by decide⟩, not_mem_replaceChar (by decide)⟩

/-! ## Files -/

/-- The rows of some cues are taken for the rows of the cues that are read. -/
theorem foldlM_stripLast_assRows (entries : List SubtitleEntry) (st : AssState) :
    ((entries.map assRow).map (stripLast '\r')).foldlM assStep st =
      ((numbered 0 (entries.map readBack)).map assRow).foldlM assStep st := by
  rw [map_numbered fun _ _ => rfl]
  induction entries generalizing st with
  | nil => rfl
  | cons e es ih => simp only [List.map_cons, List.foldlM_cons, assStep_stripLast_assRow, ih]

/-- **Any cues that fit are written and read back**, numbered as they come. -/
theorem assParse_assSerialize_of_fits {subtitle : Subtitle}
    (h : ∀ e ∈ subtitle.entries, FitsAss e) :
    assParse (assSerialize subtitle) =
      .ok (parsedSubtitle .ass (numbered 0 (subtitle.entries.map readBack))) := by
  have hline : ∀ r ∈ assHeader ++ subtitle.entries.map assRow, '\n' ∉ r := by
    intro r hr
    rcases List.mem_append.1 hr with hr | hr
    · exact (isLine_assHeader r hr).1
    · obtain ⟨e, -, rfl⟩ := List.mem_map.1 hr
      exact newline_not_mem_assRow e
  -- no line of the header ends in a carriage return
  have hheader : assHeader.map (stripLast '\r') = assHeader := by
    refine (List.map_congr_left fun r hr => ?_).trans (List.map_id assHeader)
    exact if_neg (isLine_assHeader r hr).2
  have hlines : lines (assSerialize subtitle) =
      assHeader ++ (subtitle.entries.map assRow).map (stripLast '\r') := by
    have hread := lines_flatMap hline []
    rwa [List.append_nil, lines_nil, List.append_nil, List.map_append, hheader] at hread
  have hrun : (lines (assSerialize subtitle)).foldlM assStep .init =
      .ok ⟨true, true, assFields, numbered 0 (subtitle.entries.map readBack)⟩ := by
    rw [hlines, List.foldlM_append, foldlM_assHeader]
    exact (foldlM_stripLast_assRows _ _).trans (foldlM_assRows (assCues_numbered h))
  rw [assParse_written, hrun]
  rfl

/-! ## From SRT -/

/-- A time of an SRT file is below a hundred hours and a hundred minutes. -/
theorem asMillis_le_of_srtReadBlock {block : Text} (hcap : byteLen block ≤ maxCueBytes)
    (h : srtReadBlock block = .ok (some entry)) :
    entry.startTime.asMillis ≤ u64Max ∧ entry.endTime.asMillis ≤ u64Max := by
  obtain ⟨index, text, hread⟩ := srtReadBlock_eq hcap
  rw [hread] at h
  rcases hcaps : srtTimingFields block with - | caps
  · rw [hcaps] at h
    cases h
  rw [hcaps] at h
  obtain ⟨startTime, hstart, h⟩ := bind_eq_ok.1 h
  obtain ⟨endTime, hend, h⟩ := bind_eq_ok.1 h
  obtain rfl := Option.some.inj (Except.ok.inj h)
  -- a field has three digits at most
  obtain ⟨hlen, hfields⟩ := groups_timingRegex (groups_of_srtTimingFields hcaps)
  have hfield : ∀ k < 8, IsField (caps.getD k []) := fun k hk => by
    rw [List.getD_eq_getElem _ _ (hlen ▸ hk)]
    exact hfields _ (List.getElem_mem _)
  exact ⟨asMillis_le_of_parseClock _ (fun k hk => hfield _ (by omega)) hstart,
    asMillis_le_of_parseClock _ (fun k hk => hfield _ (by omega)) hend⟩

theorem asMillis_le_of_srtParse {content : Text} {subtitle : Subtitle}
    (h : srtParse content = .ok subtitle) :
    ∀ e ∈ subtitle.entries, e.startTime.asMillis ≤ u64Max ∧ e.endTime.asMillis ≤ u64Max := by
  intro e he
  rw [srtParse_entries h, List.mem_filterMap] at he
  obtain ⟨block, hblock, hcue⟩ := he
  have hcap := byteLen_le_of_mem_parsedBlocks (limits_of_srtParse h).2 block hblock
  rcases hread : srtReadBlock block with error | cue
  · rw [srtCue, hread] at hcue
    cases hcue
  · rw [srtCue, hread] at hcue
    obtain rfl : cue = some e := hcue
    exact asMillis_le_of_srtReadBlock hcap hread

/-- **Every cue of an SRT file arrives in ASS**, at its times rounded down, if no
text is over the cap. -/
theorem assParse_srtToAss (content : Text) (preserveStyling : Bool) (subtitle : Subtitle)
    (hparse : srtParse content = .ok subtitle)
    (hsize : ∀ e ∈ subtitle.entries, byteLen (convertSrtTagsToAss e.text) ≤ maxCueBytes) :
    ∃ result, assParse (assSerialize (srtToAss preserveStyling subtitle)) = .ok result ∧
      result.entries.map SubtitleEntry.times =
        subtitle.entries.map fun e => (e.startTime.floorCentis, e.endTime.floorCentis) := by
  have hfits : ∀ e ∈ (srtToAss preserveStyling subtitle).entries, FitsAss e := by
    unfold srtToAss
    intro e he
    obtain ⟨entry, hentry, rfl⟩ := List.mem_map.1 he
    obtain ⟨hstart, hend⟩ := asMillis_le_of_srtParse hparse entry hentry
    refine ⟨hstart, hend, ?_⟩
    dsimp only
    exact hsize entry hentry
  refine ⟨_, assParse_assSerialize_of_fits hfits, ?_⟩
  unfold parsedSubtitle srtToAss
  dsimp only
  rw [map_numbered fun _ _ => rfl, List.map_map, List.map_map]
  exact List.map_congr_left fun _ _ => rfl

/-- A file whose texts could be taken for rows, columns and sections. -/
def trickySrtFile : Text :=
  ("1\n00:00:01,239 --> 99:99:99,999\n[Events]\nDialogue: a, b,\\Nc\n\n".toList ++
    "2\n00:00:02,000 --> 00:00:01,005\n<b>\x7b\x7d</b>\n".toList)

/-- What is read from it. -/
def trickySrtCues : Subtitle :=
  parsedSubtitle .srt
    [⟨1, .fromMillis 1239, .fromMillis 362439999, "[Events]\nDialogue: a, b,\\Nc".toList, none⟩,
      ⟨2, .fromMillis 2000, .fromMillis 1005, "<b>\x7b\x7d</b>".toList, none⟩]

theorem assParse_srtToAss_trickySrtFile :
    ∃ result, assParse (assSerialize (srtToAss true trickySrtCues)) = .ok result ∧
      result.entries.map SubtitleEntry.times =
        [(.fromMillis 1230, .fromMillis 362439990), (.fromMillis 2000, .fromMillis 1000)] :=
  assParse_srtToAss trickySrtFile true trickySrtCues (by decide +kernel) (by decide +kernel)

end SubxCore
