import SubxCore.Formats.AssTimes
/-!
# Reading back a written ASS file

What the parser keeps of a row is a number, two times in centiseconds
within the range of the arithmetic, and a text that came from one line and
does not end in white space (`IsAssCue`). The serializer writes such a cue
as a row that reads back as the cue: the line feeds of the text are the
only thing it escapes, and undoing the escape is what the parser does
(`assParse_assSerialize`).
-/

namespace SubxCore

open Text Decimal Run

variable {c : Char} {n : ℕ} {time s : Text} {d : Duration} {entry : SubtitleEntry}

/-- A time in whole centiseconds within `u64` milliseconds. -/
def IsAssTime (d : Duration) : Prop :=
  ∃ centis, d = .fromMillis (centis * 10) ∧ centis * 10 ≤ u64Max

/-- What stands for a text in a row: no line feed, no white space at the
end. -/
structure IsRowText (raw : Text) : Prop where
  no_newline : '\n' ∉ raw
  last : ∀ c ∈ raw.getLast?, isWhitespace c = false

/-- A cue as the parser makes them. -/
structure IsAssCue (number : ℕ) (entry : SubtitleEntry) : Prop where
  index : entry.index = number
  styling : entry.styling = none
  startTime : IsAssTime entry.startTime
  endTime : IsAssTime entry.endTime
  text : ∃ raw, IsRowText raw ∧ entry.text = replaceStr "\\N".toList ['\n'] raw
  size : byteLen entry.text ≤ maxCueBytes

/-! ## What the parser makes -/

/-- A time that was read is a number of centiseconds in range. -/
theorem isAssTime_of_parseAssTime (h : parseAssTime time = .ok d) : IsAssTime d := by
  obtain ⟨value, hvalue, hle, rfl⟩ := parseAssTime_eq_ok_iff.1 h
  obtain ⟨centis, rfl⟩ := exists_centis_of_assTimeValue hvalue
  exact ⟨centis, rfl, hle⟩

/-- The columns from the text on, joined, end where the row ends. -/
theorem isRowText_columns {row : Text} (h : '\n' ∉ row) (k i : ℕ) :
    IsRowText (join [','] ((splitN ',' (k + 1) (trim row)).drop i)) := by
  have hsuffix : join [','] ((splitN ',' (k + 1) (trim row)).drop i) <:+ trim row := by
    have hdrop : join [','] ((splitN ',' (k + 1) (trim row)).drop i) <:+ join [','] _ :=
      join_drop_suffix i (splitN ',' (k + 1) (trim row))
    rwa [join_splitN] at hdrop
  have htrim : trim row ⊆ row := fun c hc =>
    (List.dropWhile_suffix _).subset ((List.rdropWhile_prefix _ _).subset hc)
  refine ⟨fun hn => h (htrim (hsuffix.subset hn)), fun c hc => ?_⟩
  obtain ⟨u, hu⟩ := hsuffix
  have hlast : (trim row).getLast? = some c := by
    rw [← hu, List.getLast?_append, hc, Option.some_or]
  exact getLast?_trim hlast

/-- **What a row comes to.** -/
theorem isAssCue_of_assReadRow {fields : List Text} {count : ℕ} {row : Text} (hrow : '\n' ∉ row)
    (h : assReadRow fields count row = .ok (some entry)) : IsAssCue (count + 1) entry := by
  unfold assReadRow at h
  split at h
  · cases h
  next hfields =>
  dsimp only at h
  split at h
  · cases h
  obtain ⟨startIndex, -, h⟩ := bind_eq_ok.1 h
  obtain ⟨endIndex, -, h⟩ := bind_eq_ok.1 h
  obtain ⟨textIndex, -, h⟩ := bind_eq_ok.1 h
  split at h
  · cases h
  split at h
  · cases h
  next hsize =>
  obtain ⟨startTime, hstart, h⟩ := bind_eq_ok.1 h
  obtain ⟨endTime, hend, h⟩ := bind_eq_ok.1 h
  obtain rfl := Option.some.inj (Except.ok.inj h)
  obtain ⟨k, hk⟩ : ∃ k, fields.length = k + 1 := by
    refine Nat.exists_eq_succ_of_ne_zero fun h0 => hfields (List.length_eq_zero_iff.1 h0)
  exact
    { index := rfl
      styling := rfl
      startTime := isAssTime_of_parseAssTime hstart
      endTime := isAssTime_of_parseAssTime hend
      text := ⟨_, isRowText_columns hrow k textIndex, by rw [hk]⟩
      size := Nat.le_of_not_lt hsize }

/-- The cues kept so far are as the parser makes them. -/
def AssCues (entries : List SubtitleEntry) : Prop :=
  ∀ k e, entries[k]? = some e → IsAssCue (k + 1) e

theorem AssCues.concat {entries : List SubtitleEntry} (h : AssCues entries)
    (he : IsAssCue (entries.length + 1) entry) : AssCues (entries ++ [entry]) := by
  intro k e hk
  rcases Nat.lt_trichotomy k entries.length with hlt | heq | hgt
  · exact h k e (by rwa [List.getElem?_append_left hlt] at hk)
  · subst heq
    rw [List.getElem?_concat_length, Option.some.injEq] at hk
    exact hk ▸ he
  · have hlen := (List.getElem?_eq_some_iff.1 hk).1
    rw [List.length_append, List.length_singleton] at hlen
    omega

/-- A line keeps that. -/
theorem assCues_assStep {st st' : AssState} {line : Text} (hline : '\n' ∉ line)
    (hst : AssCues st.entries) (h : assStep st line = .ok st') : AssCues st'.entries := by
  have hrow : '\n' ∉ (trimStart line).drop "Dialogue:".length := fun hn =>
    hline ((List.dropWhile_suffix _).subset ((List.drop_suffix _ _).subset hn))
  unfold assStep at h
  dsimp only at h
  split at h
  · obtain rfl := Except.ok.inj h
    exact hst
  split at h
  · obtain rfl := Except.ok.inj h
    exact hst
  split at h
  · obtain rfl := Except.ok.inj h
    exact hst
  split at h
  · obtain rfl := Except.ok.inj h
    exact hst
  split at h
  · obtain ⟨result, hread, h⟩ := bind_eq_ok.1 h
    cases result with
    | none =>
      obtain rfl := Except.ok.inj h
      exact hst
    | some e =>
      obtain rfl := Except.ok.inj h
      exact hst.concat (isAssCue_of_assReadRow hrow hread)
  · obtain rfl := Except.ok.inj h
    exact hst

/-- **The parser's image.** -/
theorem assCues_of_assParse {content : Text} {subtitle : Subtitle}
    (h : assParse content = .ok subtitle) :
    ∃ entries, subtitle = parsedSubtitle .ass entries ∧ AssCues entries := by
  unfold assParse at h
  dsimp only at h
  split at h
  · cases h
  obtain ⟨st, hrun, h⟩ := bind_eq_ok.1 h
  have hst : AssCues st.entries := by
    refine foldlM_invariant (P := fun st => AssCues st.entries)
      (fun s t line hline hs ht => assCues_assStep (newline_not_mem_of_mem_lines hline) hs ht)
      (fun k e hk => ?_) hrun
    simp [AssState.init] at hk
  split at h
  · cases h
  · exact ⟨st.entries, (Except.ok.inj h).symm, hst⟩

/-! ## Reading a written row -/

/-- A printed time is made of digits and punctuation. -/
theorem mem_formatAssTime (h : c ∈ formatAssTime d) : c.isDigit = true ∨ c = ':' ∨ c = '.' := by
  simp only [formatAssTime, List.mem_append, List.mem_cons] at h
  rcases h with h | rfl | h | rfl | h | rfl | h
  · exact .inl (isDigit_of_mem_decimal h)
  · exact .inr (.inl rfl)
  · exact .inl (isDigit_of_mem_padded h)
  · exact .inr (.inl rfl)
  · exact .inl (isDigit_of_mem_padded h)
  · exact .inr (.inr rfl)
  · exact .inl (isDigit_of_mem_padded h)

/-- The fields of a printed time add up. -/
theorem assTimeValue_fields (h m s cs : ℕ) :
    assTimeValue (decimal h ++ ':' :: (padded 2 m ++ ':' :: (padded 2 s ++ '.' :: padded 2 cs))) =
      some (h * 3600000 + m * 60000 + s * 1000 + cs * 10) := by
  have hdigit : ∀ c : Char, c.isDigit = true → (decide (c = ':') || decide (c = '.')) = false := by
    intro c hc
    rw [Bool.or_eq_false_iff, decide_eq_false_iff_not, decide_eq_false_iff_not]
    constructor <;> rintro rfl <;> exact absurd hc (by decide)
  unfold assTimeValue
  rw [List.splitOnP_append_cons_of_forall_mem (fun c hc => hdigit c (isDigit_of_mem_decimal hc))
      ':' (by decide),
    List.splitOnP_append_cons_of_forall_mem (fun c hc => hdigit c (isDigit_of_mem_padded hc))
      ':' (by decide),
    List.splitOnP_append_cons_of_forall_mem (fun c hc => hdigit c (isDigit_of_mem_padded hc))
      '.' (by decide),
    List.splitOnP_eq_singleton fun c hc => hdigit c (isDigit_of_mem_padded hc)]
  simp only [unsignedValue_decimal, unsignedValue_padded]
  rfl

/-- **A printed time reads back**, when it is one the parser makes. -/
theorem parseAssTime_formatAssTime (h : IsAssTime d) : parseAssTime (formatAssTime d) = .ok d := by
  obtain ⟨centis, rfl, hle⟩ := h
  have htotal : centis * 10 / 3600000 * 3600000 + centis * 10 % 3600000 / 60000 * 60000 +
      centis * 10 % 60000 / 1000 * 1000 + centis * 10 % 1000 / 10 * 10 = centis * 10 := by omega
  refine parseAssTime_eq_ok_iff.2 ⟨centis * 10, ?_, hle, rfl⟩
  unfold formatAssTime
  rw [Duration.asMillis_fromMillis, assTimeValue_fields, htotal]

/-- The columns of a written row but for the text. -/
def assColumns (entry : SubtitleEntry) : List Text :=
  ["0".toList, formatAssTime entry.startTime, formatAssTime entry.endTime, "Default".toList, [],
    "0000".toList, "0000".toList, "0000".toList, []]

/-- The columns a written file declares. -/
def assFields : List Text :=
  ["Layer".toList, "Start".toList, "End".toList, "Style".toList, "Name".toList, "MarginL".toList,
    "MarginR".toList, "MarginV".toList, "Effect".toList, "Text".toList]

/-- A row is its keyword and its columns. -/
theorem assRow_eq (entry : SubtitleEntry) :
    assRow entry = "Dialogue: ".toList ++
      join [','] (assColumns entry ++ [replaceChar '\n' "\\N".toList entry.text]) := by
  unfold assRow assColumns
  generalize formatAssTime entry.startTime = start, formatAssTime entry.endTime = stop,
    replaceChar '\n' "\\N".toList entry.text = text
  simp [join, List.intercalate_cons_cons]

theorem trim_formatAssTime : trim (formatAssTime d) = formatAssTime d := by
  have hchar : ∀ c ∈ formatAssTime d, isWhitespace c = false := by
    intro c hc
    rcases mem_formatAssTime hc with hd | rfl | rfl
    · exact isWhitespace_of_isDigit hd
    · decide
    · decide
  exact trim_eq_self (fun c hc => hchar c (List.mem_of_mem_head? hc))
    fun c hc => hchar c (List.mem_of_getLast? hc)

theorem head?_formatAssTime : (formatAssTime d).head? ≠ some '-' := by
  intro h
  exact absurd (mem_formatAssTime (List.mem_of_mem_head? h)) (by decide)

theorem comma_not_mem_assColumns : ∀ p ∈ assColumns entry, ',' ∉ p := by
  have htime : ∀ d, ',' ∉ formatAssTime d := fun d h =>
    absurd (mem_formatAssTime h) (by decide)
  intro p hp
  simp only [assColumns, List.mem_cons, List.not_mem_nil, or_false] at hp
  rcases hp with rfl | rfl | rfl | rfl | rfl | rfl | rfl | rfl | rfl
  · decide
  · exact htime _
  · exact htime _
  all_goals decide

/-- The escape of a text undone and done again. -/
theorem IsAssCue.escape (h : IsAssCue n entry) :
    ∃ raw, IsRowText raw ∧ entry.text = replaceStr "\\N".toList ['\n'] raw ∧
      replaceChar '\n' "\\N".toList entry.text = raw := by
  obtain ⟨raw, hraw, htext⟩ := h.text
  exact ⟨raw, hraw, htext, by rw [htext, replaceChar_replaceStr (by decide) hraw.no_newline]⟩

/-- The columns of a row do not end in white space. -/
theorem trim_assColumns {raw : Text} (h : IsRowText raw) :
    trim (' ' :: join [','] (assColumns entry ++ [raw])) = join [','] (assColumns entry ++ [raw]) := by
  rw [trim_cons_whitespace (by decide)]
  refine trim_eq_self (fun c hc => ?_) (fun c hc => ?_)
  · obtain rfl : '0' = c := Option.some.inj hc
    decide
  · have hne : assColumns entry ≠ [] := List.cons_ne_nil _ _
    rw [join_concat hne, ← List.append_assoc, List.getLast?_append] at hc
    rcases hlast : raw.getLast? with - | d
    · rw [hlast, List.getLast?_append, Option.none_or] at hc
      obtain rfl : ',' = c := Option.some.inj hc
      decide
    · rw [hlast, Option.some_or] at hc
      obtain rfl : d = c := Option.some.inj hc
      exact h.last d hlast

/-- **A written row reads back as its cue.** -/
theorem assReadRow_assRow {count : ℕ} (h : IsAssCue (count + 1) entry) :
    assReadRow assFields count ((assRow entry).drop "Dialogue:".length) = .ok (some entry) := by
  obtain ⟨raw, hraw, htext, hescape⟩ := h.escape
  have hrow : (assRow entry).drop "Dialogue:".length =
      ' ' :: join [','] (assColumns entry ++ [raw]) := by
    rw [assRow_eq, hescape]
    rfl
  have hparts : splitN ',' assFields.length (trim ((assRow entry).drop "Dialogue:".length)) =
      assColumns entry ++ [raw] := by
    rw [hrow, trim_assColumns hraw]
    exact splitN_join comma_not_mem_assColumns
  have hstart : assColumn assFields "start".toList "Start".toList = .ok 1 := rfl
  have hend : assColumn assFields "end".toList "End".toList = .ok 2 := rfl
  have hcol : assColumn assFields "text".toList "Text".toList = .ok 9 := rfl
  have hdrop : join [','] ((assColumns entry ++ [raw]).drop 9) = raw := by
    rw [show (assColumns entry ++ [raw]).drop 9 = [raw] from rfl, join, List.intercalate_singleton]
  have hfirst : trim ((assColumns entry ++ [raw]).getD 1 []) = formatAssTime entry.startTime :=
    trim_formatAssTime
  have hsecond : trim ((assColumns entry ++ [raw]).getD 2 []) = formatAssTime entry.endTime :=
    trim_formatAssTime
  unfold assReadRow
  rw [if_neg (by decide)]
  simp only [hparts]
  rw [if_neg (by simp [assColumns, assFields])]
  refine bind_eq_ok.2 ⟨_, hstart, bind_eq_ok.2 ⟨_, hend, bind_eq_ok.2 ⟨_, hcol, ?_⟩⟩⟩
  rw [hfirst, hsecond, hdrop, ← htext, if_neg (by simp [head?_formatAssTime]),
    if_neg (Nat.not_lt.2 h.size)]
  refine bind_eq_ok.2 ⟨_, parseAssTime_formatAssTime h.startTime, ?_⟩
  refine bind_eq_ok.2 ⟨_, parseAssTime_formatAssTime h.endTime, ?_⟩
  rw [← h.index, ← h.styling]
  rfl

/-! ## A whole file -/

/-- After the header the parser is in the events and knows the columns. -/
theorem foldlM_assHeader :
    assHeader.foldlM assStep .init = .ok ⟨true, true, assFields, []⟩ := by
  decide +kernel

/-- A row is taken for a row, in the events. -/
theorem assStep_dialogue (st : AssState) (t : Text) :
    assStep st ("Dialogue:".toList ++ t) =
      if st.inEvents then (assReadRow st.fields st.entries.length t).map fun cue =>
        { st with entries := st.entries ++ cue.toList }
      else .ok st := by
  have htrim : trimStart ("Dialogue:".toList ++ t) = "Dialogue:".toList ++ t := rfl
  have hkey : "dialogue:".toList <+: toLowercase ("Dialogue:".toList ++ t) := ⟨toLowercase t, rfl⟩
  have hformat : ¬ "format:".toList <+: toLowercase ("Dialogue:".toList ++ t) := by
    rintro ⟨u, hu⟩
    exact absurd (List.cons_eq_cons.1 hu).1 (by decide)
  have hevents : eqIgnoreAsciiCase ("Dialogue:".toList ++ t) "[events]".toList = false := rfl
  have hbracket : ("Dialogue:".toList ++ t).head? ≠ some '[' := by
    intro hh
    exact absurd (Option.some.inj hh) (by decide)
  have hdrop : ("Dialogue:".toList ++ t).drop "Dialogue:".length = t := rfl
  unfold assStep
  simp only [htrim]
  rw [if_neg (Bool.eq_false_iff.1 hevents), hdrop]
  by_cases hin : st.inEvents = true
  · rw [if_neg (not_not.2 hin), if_neg fun hb => hbracket hb.1, if_neg hformat, if_pos hkey,
      if_pos hin]
    rcases assReadRow st.fields st.entries.length t with e | (- | entry)
    · rfl
    · have hsame : ({ st with entries := st.entries ++ [] } : AssState) = st := by
        rw [List.append_nil]
      exact congrArg Except.ok hsame.symm
    · rfl
  · rw [if_pos hin, if_neg hin]
    rfl

/-- A written row is taken for its cue. -/
theorem assStep_assRow {entries : List SubtitleEntry} (h : IsAssCue (entries.length + 1) entry) :
    assStep ⟨true, true, assFields, entries⟩ (assRow entry) =
      .ok ⟨true, true, assFields, entries ++ [entry]⟩ := by
  obtain ⟨t, ht⟩ : ∃ t, assRow entry = "Dialogue:".toList ++ t := by
    rw [assRow_eq]
    exact ⟨' ' :: _, rfl⟩
  have hread := assReadRow_assRow h
  rw [ht] at hread ⊢
  have hdrop : ("Dialogue:".toList ++ t).drop "Dialogue:".length = t := rfl
  rw [hdrop] at hread
  rw [assStep_dialogue]
  dsimp only
  rw [if_pos rfl, hread]
  rfl

/-- The rows add up to the cues. -/
theorem foldlM_assRows : ∀ {entries done : List SubtitleEntry}, AssCues (done ++ entries) →
    (entries.map assRow).foldlM assStep ⟨true, true, assFields, done⟩ =
      .ok ⟨true, true, assFields, done ++ entries⟩
  | [], done, _ => by rw [List.append_nil]; rfl
  | e :: es, done, h => by
    have he : IsAssCue (done.length + 1) e := h done.length e (by simp)
    rw [List.append_cons] at h ⊢
    rw [List.map_cons, foldlM_cons_of_ok (assStep_assRow he), foldlM_assRows h]

/-- Each line of the header is one line. -/
theorem isLine_assHeader : ∀ r ∈ assHeader, '\n' ∉ r ∧ r.getLast? ≠ some '\r' := by
  decide +kernel

/-- A row is one line, and does not end in a carriage return. -/
theorem isLine_assRow (h : IsAssCue n entry) :
    '\n' ∉ assRow entry ∧ (assRow entry).getLast? ≠ some '\r' := by
  obtain ⟨raw, hraw, -, hescape⟩ := h.escape
  have htime : ∀ d, '\n' ∉ formatAssTime d := fun d hd =>
    absurd (mem_formatAssTime hd) (by decide)
  unfold assRow
  rw [hescape]
  constructor
  · simp only [List.mem_append, not_or]
    exact ⟨⟨⟨⟨⟨by decide, htime _⟩, by decide⟩, htime _⟩, by decide⟩, hraw.no_newline⟩
  · rw [List.getLast?_append]
    intro hlast
    rcases hr : raw.getLast? with - | c
    · rw [hr, Option.none_or, List.getLast?_append_of_ne_nil _ (by decide)] at hlast
      exact absurd hlast (by decide)
    · rw [hr, Option.some_or, Option.some.injEq] at hlast
      exact absurd (hraw.last c hr) (by rw [hlast]; decide)

/-- A written file starts with a bracket: it has no mark and is not blank. -/
theorem assParse_written (subtitle : Subtitle) :
    assParse (assSerialize subtitle) =
      ((lines (assSerialize subtitle)).foldlM assStep .init).bind fun st =>
        if st.sawEventsHeader then .ok (parsedSubtitle .ass st.entries)
        else .error (assError "Missing [Events] section".toList) := by
  obtain ⟨t, ht⟩ : ∃ t, assSerialize subtitle = '[' :: t := ⟨_, rfl⟩
  have hbom : stripPrefix bom (assSerialize subtitle) = assSerialize subtitle := by
    rw [ht]
    rfl
  have hblank : trim (assSerialize subtitle) ≠ [] := by
    intro hnil
    have hws := trim_eq_nil_iff.1 hnil '[' (by rw [ht]; exact List.mem_cons_self ..)
    exact absurd hws (by decide)
  unfold assParse
  simp only [hbom]
  rw [if_neg hblank]
  rcases (lines (assSerialize subtitle)).foldlM assStep .init with e | st
  · rfl
  · rcases hsaw : st.sawEventsHeader with - | -
    · simp only [bind, Except.bind, hsaw]
      rfl
    · simp only [bind, Except.bind, hsaw]
      rfl

/-- **Cues as the parser makes them are written and read back.** -/
theorem assParse_assSerialize_of_cues {entries : List SubtitleEntry} (hcues : AssCues entries) :
    assParse (assSerialize (parsedSubtitle .ass entries)) = .ok (parsedSubtitle .ass entries) := by
  have hline : ∀ r ∈ assHeader ++ entries.map assRow, '\n' ∉ r ∧ r.getLast? ≠ some '\r' := by
    intro r hr
    rcases List.mem_append.1 hr with hr | hr
    · exact isLine_assHeader r hr
    · obtain ⟨e, he, rfl⟩ := List.mem_map.1 hr
      obtain ⟨k, hk⟩ := List.mem_iff_getElem?.1 he
      exact isLine_assRow (hcues k e hk)
  have hlines : lines (assSerialize (parsedSubtitle .ass entries)) =
      assHeader ++ entries.map assRow := by
    have := lines_flatMap_newline (fun r hr => (hline r hr).1) (fun r hr => (hline r hr).2) []
    rwa [List.append_nil, lines_nil, List.append_nil] at this
  have hrun : (lines (assSerialize (parsedSubtitle .ass entries))).foldlM assStep .init =
      .ok ⟨true, true, assFields, entries⟩ := by
    rw [hlines, List.foldlM_append, foldlM_assHeader]
    exact foldlM_assRows hcues
  rw [assParse_written, hrun]
  rfl

/-- **One round through the serializer loses nothing the parser kept**: the
file written for what was read is read as the same subtitle. -/
theorem assParse_assSerialize (content : Text) (subtitle : Subtitle)
    (h : assParse content = .ok subtitle) : assParse (assSerialize subtitle) = .ok subtitle := by
  obtain ⟨entries, rfl, hcues⟩ := assCues_of_assParse h
  exact assParse_assSerialize_of_cues hcues

/-- A file whose text column is not the last, with odd times and an escaped
line feed in a text. -/
def oddAssFile : Text :=
  "[events]\nFormat: Start, Text, End\nDialogue: 1:61:00.250, a\\Nb, 2:00:00.00 \n".toList

/-- What is read from it. -/
def oddAssCues : Subtitle :=
  parsedSubtitle .ass
    [⟨1, .fromMillis 7262500, .fromMillis 7200000, " a\nb, 2:00:00.00".toList, none⟩]

theorem assParse_assSerialize_oddAssCues :
    assParse (assSerialize oddAssCues) = .ok oddAssCues :=
  assParse_assSerialize oddAssFile oddAssCues (by decide +kernel)

end SubxCore
