import SubxCore.Formats.AssPanics
import SubxCore.Formats.AssTimes
/-!
# What ends an ASS parse

The rows of an ASS file are found without reading them: a scan of the lines
keeps the section and the `Format:` line in force (`assRows`). What a row comes
to depends on it and on its columns alone, so a parse is a scan, and each row
read by itself. A row whose time cannot be parsed should be skipped, as its
negative sibling is, but ends the parse.
-/

namespace SubxCore

open Text Decimal

variable {content line row time : Text} {fields : List Text} {count : ℕ}

/-! ## One row -/

/-- The column of a field, if it is there. -/
def fieldColumn (fields : List Text) (name : Text) : Option ℕ :=
  fields.findIdx? (eqIgnoreAsciiCase · name)

/-- How far a row gets. -/
inductive RowStage
  /-- Before any `Format:` line, with too few columns, or with a negative time. -/
  | skipped
  /-- With as many columns as declared, but not all that are needed. -/
  | missingColumn
  /-- With a text over the cap. -/
  | oversized
  /-- To its times and its text. -/
  | timed (start stop text : Text)
  deriving DecidableEq, Repr

/-- How far a row gets under a `Format:` line, in the order of the checks. -/
def rowStage (fields : List Text) (row : Text) : RowStage :=
  let parts := splitN ',' fields.length (trim row)
  if fields = [] ∨ parts.length ≠ fields.length then .skipped
  else
    match fieldColumn fields "start".toList, fieldColumn fields "end".toList,
      fieldColumn fields "text".toList with
    | some startIndex, some endIndex, some textIndex =>
      let start := trim (parts.getD startIndex [])
      let stop := trim (parts.getD endIndex [])
      let text := replaceStr "\\N".toList ['\n'] (join [','] (parts.drop textIndex))
      if start.head? = some '-' ∨ stop.head? = some '-' then .skipped
      else if maxCueBytes < byteLen text then .oversized
      else .timed start stop text
    | _, _, _ => .missingColumn

/-- A row that ends the parse: it lacks a column that is needed, its text is
over the cap, or the value of a time overflows. -/
def RowRefused (fields : List Text) (row : Text) : Prop :=
  rowStage fields row = .missingColumn ∨ rowStage fields row = .oversized ∨
    ∃ start stop text, rowStage fields row = .timed start stop text ∧
      (Overflows start ∨ Overflows stop)

instance : Decidable (RowRefused fields row) :=
  match h : rowStage fields row with
  | .skipped => .isFalse (by simp [RowRefused, h])
  | .missingColumn => .isTrue (.inl h)
  | .oversized => .isTrue (.inr (.inl h))
  | .timed start stop text =>
    decidable_of_iff (Overflows start ∨ Overflows stop) (by simp [RowRefused, h])

/-- The cue of a row, if both times have a value. -/
def rowCue (fields : List Text) (row : Text) : Option SubtitleEntry :=
  match rowStage fields row with
  | .timed start stop text =>
    match assTimeValue start, assTimeValue stop with
    | some startMs, some endMs => some
      { index := 1
        startTime := .fromMillis startMs
        endTime := .fromMillis endMs
        text := text
        styling := none }
    | _, _ => none
  | _ => none

/-- A row that gets to its times has times that are timestamps. -/
def RowParsable (fields : List Text) (row : Text) : Prop :=
  ∀ start stop text, rowStage fields row = .timed start stop text →
    (assTimeValue start).isSome ∧ (assTimeValue stop).isSome

/-- **Reading a row**, by how far it gets. -/
theorem assReadRow_eq (fields : List Text) (row : Text) :
    (rowStage fields row = .skipped ∧ ∀ count, assReadRow fields count row = .ok none) ∨
    ((rowStage fields row = .missingColumn ∨ rowStage fields row = .oversized) ∧
      ∃ e, ∀ count, assReadRow fields count row = .error e) ∨
    ∃ start stop text, rowStage fields row = .timed start stop text ∧
      ∀ count, assReadRow fields count row = (do
        let startTime ← parseAssTime start
        let endTime ← parseAssTime stop
        return some
          { index := count + 1
            startTime := startTime
            endTime := endTime
            text := text
            styling := none }) := by
  unfold assReadRow rowStage
  dsimp only
  by_cases hfields : fields = []
  · exact .inl ⟨if_pos (.inl hfields), fun _ => if_pos hfields⟩
  by_cases hcolumns : (splitN ',' fields.length (trim row)).length ≠ fields.length
  · exact .inl ⟨if_pos (.inr hcolumns), fun _ => by rw [if_neg hfields, if_pos hcolumns]; rfl⟩
  simp only [if_neg hfields, if_neg hcolumns, if_neg (not_or.2 ⟨hfields, hcolumns⟩)]
  -- the first column that is missing ends the parse
  unfold assColumn
  rw [← fieldColumn, ← fieldColumn, ← fieldColumn]
  rcases fieldColumn fields "start".toList with - | i
  · exact .inr (.inl ⟨.inl rfl, _, fun _ => rfl⟩)
  rcases fieldColumn fields "end".toList with - | j
  · exact .inr (.inl ⟨.inl rfl, _, fun _ => rfl⟩)
  rcases fieldColumn fields "text".toList with - | k
  · exact .inr (.inl ⟨.inl rfl, _, fun _ => rfl⟩)
  simp only [bind, Except.bind]
  generalize trim ((splitN ',' fields.length (trim row)).getD i []) = start
  generalize trim ((splitN ',' fields.length (trim row)).getD j []) = stop
  generalize replaceStr "\\N".toList ['\n']
    (join [','] ((splitN ',' fields.length (trim row)).drop k)) = text
  by_cases hneg : start.head? = some '-' ∨ stop.head? = some '-'
  · exact .inl ⟨if_pos hneg, fun _ => if_pos hneg⟩
  simp only [if_neg hneg]
  by_cases hbig : maxCueBytes < byteLen text
  · exact .inr (.inl ⟨.inr (if_pos hbig), _, fun _ => if_pos hbig⟩)
  · exact .inr (.inr ⟨start, stop, text, if_neg hbig, fun _ => if_neg hbig⟩)

/-- **When a row is read, and as what.** -/
theorem assReadRow_eq_ok_iff {cue : Option SubtitleEntry} :
    assReadRow fields count row = .ok cue ↔
      ¬ RowRefused fields row ∧ RowParsable fields row ∧
        cue = (rowCue fields row).map fun entry => { entry with index := count + 1 } := by
  rcases assReadRow_eq fields row with
    ⟨hstage, hread⟩ | ⟨hstage, e, hread⟩ | ⟨start, stop, text, hstage, hread⟩
  · have hkept : ¬ RowRefused fields row ∧ RowParsable fields row := by
      simp [RowRefused, RowParsable, hstage]
    rw [hread, rowCue, hstage, and_iff_right hkept.1, and_iff_right hkept.2]
    exact ⟨fun h => (Except.ok.inj h).symm, fun h => h ▸ rfl⟩
  · rw [hread]
    refine iff_of_false (by simp) fun h => h.1 ?_
    exact hstage.imp_right .inl
  · -- the row gets to its times: it is read when both have a value that fits
    have hrefused : RowRefused fields row ↔ Overflows start ∨ Overflows stop := by
      simp [RowRefused, hstage]
    have hparsable : RowParsable fields row ↔
        (assTimeValue start).isSome ∧ (assTimeValue stop).isSome := by
      simp [RowParsable, hstage]
    rw [hread, hrefused, hparsable, rowCue, hstage]
    constructor
    · intro h
      obtain ⟨startTime, hstart, h⟩ := Run.bind_eq_ok.1 h
      obtain ⟨endTime, hstop, h⟩ := Run.bind_eq_ok.1 h
      have hs := exists_parseAssTime_iff.1 ⟨startTime, hstart⟩
      have ht := exists_parseAssTime_iff.1 ⟨endTime, hstop⟩
      refine ⟨not_or.2 ⟨hs.2, ht.2⟩, ⟨hs.1, ht.1⟩, ?_⟩
      obtain ⟨a, ha, -, rfl⟩ := parseAssTime_eq_ok_iff.1 hstart
      obtain ⟨b, hb, -, rfl⟩ := parseAssTime_eq_ok_iff.1 hstop
      rw [← Except.ok.inj h]
      simp only [ha, hb, Option.map_some]
    · rintro ⟨hfits, ⟨hs, ht⟩, rfl⟩
      rw [not_or] at hfits
      obtain ⟨startTime, hstart⟩ := exists_parseAssTime_iff.2 ⟨hs, hfits.1⟩
      obtain ⟨endTime, hstop⟩ := exists_parseAssTime_iff.2 ⟨ht, hfits.2⟩
      refine Run.bind_eq_ok.2 ⟨startTime, hstart, Run.bind_eq_ok.2 ⟨endTime, hstop, ?_⟩⟩
      obtain ⟨a, ha, -, rfl⟩ := parseAssTime_eq_ok_iff.1 hstart
      obtain ⟨b, hb, -, rfl⟩ := parseAssTime_eq_ok_iff.1 hstop
      simp only [ha, hb, Option.map_some]
      rfl

/-! ## The rows of a file -/

/-- What a scan of the lines keeps: whether it is in an events section, and the
fields of the last `Format:` line there. -/
structure AssScan where
  inEvents : Bool
  fields : List Text
  deriving DecidableEq, Repr

/-- A line that starts an events section. -/
def isEventsHeader (line : Text) : Bool := eqIgnoreAsciiCase (trimStart line) "[events]".toList

/-- A line that ends it. -/
def isSectionHeader (line : Text) : Bool :=
  (trimStart line).head? = some '[' ∧ (trimStart line).getLast? = some ']'

/-- A line that starts with a keyword, in any case. -/
def hasKeyword (keyword line : Text) : Bool := keyword.isPrefixOf (toLowercase (trimStart line))

/-- The scan after a line. -/
def AssScan.next (scan : AssScan) (line : Text) : AssScan :=
  if isEventsHeader line then { scan with inEvents := true }
  else if ¬ scan.inEvents then scan
  else if isSectionHeader line then { scan with inEvents := false }
  else if hasKeyword "format:".toList line then
    { scan with fields := (((trimStart line).drop "Format:".length).splitOn ',').map trim }
  else scan

/-- The row on a line, with the fields in force. -/
def AssScan.rowOn (scan : AssScan) (line : Text) : Option (List Text × Text) :=
  if isEventsHeader line ∨ ¬ scan.inEvents ∨ isSectionHeader line ∨
      hasKeyword "format:".toList line then none
  else if hasKeyword "dialogue:".toList line then
    some (scan.fields, (trimStart line).drop "Dialogue:".length)
  else none

/-- The rows of some lines, each with the fields in force. -/
def AssScan.rows : AssScan → List Text → List (List Text × Text)
  | _, [] => []
  | scan, line :: lines => (scan.rowOn line).toList ++ (scan.next line).rows lines

/-- What the parser knows, apart from the cues. -/
def AssState.scan (st : AssState) : AssScan := ⟨st.inEvents, st.fields⟩

/-- The state after a line, but for the cue on it. -/
def AssState.next (st : AssState) (line : Text) : AssState :=
  { inEvents := (st.scan.next line).inEvents
    sawEventsHeader := st.sawEventsHeader || isEventsHeader line
    fields := (st.scan.next line).fields
    entries := st.entries }

/-- A line of the loop, in the words of the scan. -/
theorem assStep_by_kind (st : AssState) (line : Text) :
    assStep st line =
      if isEventsHeader line then .ok { st with inEvents := true, sawEventsHeader := true }
      else if ¬ st.inEvents then .ok st
      else if isSectionHeader line then .ok { st with inEvents := false }
      else if hasKeyword "format:".toList line then
        .ok { st with
          fields := (((trimStart line).drop "Format:".length).splitOn ',').map trim }
      else if hasKeyword "dialogue:".toList line then
        (assReadRow st.fields st.entries.length ((trimStart line).drop "Dialogue:".length)).map
          fun cue => { st with entries := st.entries ++ cue.toList }
      else .ok st := by
  unfold assStep
  simp only [isSectionHeader, hasKeyword, decide_eq_true_eq, List.isPrefixOf_iff_prefix]
  rcases assReadRow st.fields st.entries.length ((trimStart line).drop "Dialogue:".length) with
    e | (- | entry)
  · rfl
  · simp only [Except.map, Option.toList_none, List.append_nil]
    rfl
  · rfl

/-- **A line of the loop**: the scan goes on, and the row on the line is read. -/
theorem assStep_eq (st : AssState) (line : Text) :
    assStep st line =
      ((st.scan.rowOn line).elim (.ok none) fun row =>
        assReadRow row.1 st.entries.length row.2).map fun cue =>
          { st.next line with entries := st.entries ++ cue.toList } := by
  obtain ⟨inEvents, saw, fields, entries⟩ := st
  rw [assStep_by_kind]
  unfold AssState.next AssScan.next AssScan.rowOn AssState.scan
  -- in the order of the tests; a line has a row where it passes all of them
  rcases isEventsHeader line with - | -
  case true => simp [Except.map]
  rcases inEvents with - | -
  case false => simp [Except.map]
  rcases isSectionHeader line with - | -
  case true => simp [Except.map]
  rcases hasKeyword "format:".toList line with - | -
  case true => simp [Except.map]
  rcases hasKeyword "dialogue:".toList line with - | -
  case false => simp [Except.map]
  case true => simp

/-- The cue on a row that is found, numbered. -/
def cueOn (count : ℕ) (row : Option (List Text × Text)) : Option SubtitleEntry :=
  (row.bind fun row => rowCue row.1 row.2).map fun entry => { entry with index := count + 1 }

/-- A line goes through when the row on it, if there is one, is read. -/
theorem assStep_eq_ok_iff {st st' : AssState} :
    assStep st line = .ok st' ↔
      (∀ row ∈ st.scan.rowOn line, ¬ RowRefused row.1 row.2 ∧ RowParsable row.1 row.2) ∧
        st' = { st.next line with
          entries := st.entries ++ (cueOn st.entries.length (st.scan.rowOn line)).toList } := by
  rw [assStep_eq, Run.map_eq_ok]
  rcases st.scan.rowOn line with - | row
  · simp [cueOn, eq_comm]
  · simp only [Option.elim_some, assReadRow_eq_ok_iff, Option.mem_def, Option.some.injEq,
      forall_eq', cueOn, Option.bind_some]
    constructor
    · rintro ⟨_, ⟨hfits, hparsable, rfl⟩, rfl⟩
      exact ⟨⟨hfits, hparsable⟩, rfl⟩
    · rintro ⟨⟨hfits, hparsable⟩, rfl⟩
      exact ⟨_, ⟨hfits, hparsable, rfl⟩, rfl⟩

/-- The cues on a line and on the lines after it. -/
theorem cueOn_append_numbered (count : ℕ) (row : Option (List Text × Text))
    (rows : List (List Text × Text)) :
    (cueOn count row).toList ++ numbered (count + (cueOn count row).toList.length)
        (rows.filterMap fun row => rowCue row.1 row.2) =
      numbered count ((row.toList ++ rows).filterMap fun row => rowCue row.1 row.2) := by
  rcases row with - | row
  · rfl
  · rw [cueOn, Option.bind_some, Option.toList_some, List.singleton_append]
    rcases hcue : rowCue row.1 row.2 with - | cue
    · simp only [List.filterMap_cons, hcue]
      rfl
    · simp only [List.filterMap_cons, hcue]
      rfl

/-- **The whole loop**: it goes through exactly when every row is read, and then the
cues are those of the rows, numbered. -/
theorem foldlM_assStep_eq_ok_iff {ls : List Text} {st st' : AssState} :
    ls.foldlM assStep st = .ok st' ↔
      (∀ row ∈ st.scan.rows ls, ¬ RowRefused row.1 row.2 ∧ RowParsable row.1 row.2) ∧
        st' =
          { inEvents := (ls.foldl AssScan.next st.scan).inEvents
            sawEventsHeader := st.sawEventsHeader || ls.any isEventsHeader
            fields := (ls.foldl AssScan.next st.scan).fields
            entries := st.entries ++ numbered st.entries.length
              ((st.scan.rows ls).filterMap fun row => rowCue row.1 row.2) } := by
  induction ls generalizing st with
  | nil =>
    rw [Run.foldlM_ok_nil]
    simp [AssScan.rows, numbered, AssState.scan, eq_comm]
  | cons line ls ih =>
    have hrows : (∀ row ∈ st.scan.rows (line :: ls),
          ¬ RowRefused row.1 row.2 ∧ RowParsable row.1 row.2) ↔
        (∀ row ∈ st.scan.rowOn line, ¬ RowRefused row.1 row.2 ∧ RowParsable row.1 row.2) ∧
          ∀ row ∈ (st.scan.next line).rows ls,
            ¬ RowRefused row.1 row.2 ∧ RowParsable row.1 row.2 := by
      rw [AssScan.rows, List.forall_mem_append]
      simp only [Option.mem_toList]
      rfl
    have hentries := cueOn_append_numbered st.entries.length (st.scan.rowOn line)
      ((st.scan.next line).rows ls)
    rw [Run.foldlM_ok_cons, hrows, and_assoc]
    simp only [assStep_eq_ok_iff, ih, and_assoc, exists_and_left, exists_eq_left]
    refine and_congr_right fun _ => and_congr_right fun _ => ?_
    rw [AssScan.rows, ← hentries, ← List.append_assoc, List.length_append, List.foldl_cons,
      List.any_cons, ← Bool.or_assoc]
    rfl

/-! ## A whole file -/

/-- The rows of a file, each with the fields in force. -/
def assRows (content : Text) : List (List Text × Text) :=
  AssScan.rows ⟨false, []⟩ (lines (stripPrefix bom content))

/-- The lines of a file have an events header among them. -/
def HasEventsHeader (content : Text) : Prop :=
  ∃ line ∈ lines (stripPrefix bom content), isEventsHeader line = true

/-- **A file that an ASS parser should refuse**: it is blank, it has no events
header, or a row of it is to be refused. -/
def AssRefused (content : Text) : Prop :=
  trim (stripPrefix bom content) = [] ∨ ¬ HasEventsHeader content ∨
    ∃ row ∈ assRows content, RowRefused row.1 row.2

/-- **What an ASS parse comes to.** It does not panic, it fails for a file that is
to be refused, and otherwise gives the cues of the rows that have one, numbered as
they come. -/
structure AssDisposition (content : Text) : Prop where
  no_panic : ∀ panic, assParseIndexed content ≠ .error (.panicked panic)
  error_iff : (∃ e, assParseIndexed content = .error (.failed e)) ↔ AssRefused content
  skips : ∀ subtitle, assParseIndexed content = .ok subtitle →
    subtitle.entries = numbered 0 ((assRows content).filterMap fun row => rowCue row.1 row.2)

/-- A file that is not blank and has a header is read row by row. -/
theorem assParse_eq_ok_iff {subtitle : Subtitle} :
    assParse content = .ok subtitle ↔
      (trim (stripPrefix bom content) ≠ [] ∧ HasEventsHeader content ∧
        ∀ row ∈ assRows content, ¬ RowRefused row.1 row.2 ∧ RowParsable row.1 row.2) ∧
      subtitle = parsedSubtitle .ass
        (numbered 0 ((assRows content).filterMap fun row => rowCue row.1 row.2)) := by
  rw [assParse]
  dsimp only
  by_cases hblank : trim (stripPrefix bom content) = []
  · rw [if_pos hblank]
    exact iff_of_false (fun h => by cases h) fun h => h.1.1 hblank
  rw [if_neg hblank, Run.bind_eq_ok]
  simp only [foldlM_assStep_eq_ok_iff]
  have hheader : (lines (stripPrefix bom content)).any isEventsHeader = true ↔
      HasEventsHeader content := List.any_eq_true
  constructor
  · rintro ⟨_, ⟨hrows, rfl⟩, h⟩
    dsimp only at h
    split at h
    · cases h
    · next hsaw =>
      obtain rfl := Except.ok.inj h
      exact ⟨⟨hblank, hheader.1 (not_not.1 hsaw), hrows⟩, rfl⟩
  · rintro ⟨⟨-, hsaw, hrows⟩, rfl⟩
    exact ⟨_, ⟨hrows, rfl⟩, if_neg (not_not.2 (hheader.2 hsaw))⟩

/-- **What ends an ASS parse.** -/
theorem assParse_error_iff (content : Text) :
    (∃ e, assParse content = .error e) ↔
      AssRefused content ∨ ∃ row ∈ assRows content, ¬ RowParsable row.1 row.2 := by
  rw [Run.exists_error_iff]
  simp only [assParse_eq_ok_iff, exists_and_left, exists_eq, and_true]
  constructor
  · intro h
    by_contra hok
    rw [AssRefused] at hok
    push Not at hok
    exact h ⟨hok.1.1, hok.1.2.1, fun row hrow => ⟨hok.1.2.2 row hrow, hok.2 row hrow⟩⟩
  · rintro ((hblank | hheader | ⟨row, hrow, hrefused⟩) | ⟨row, hrow, hparsable⟩) h
    · exact h.1 hblank
    · exact hheader h.2.1
    · exact (h.2.2 row hrow).1 hrefused
    · exact hparsable (h.2.2 row hrow).2

/-- The checked parser ends as the parser does. -/
theorem assParseIndexed_eq_ok_iff {subtitle : Subtitle} :
    assParseIndexed content = .ok subtitle ↔ assParse content = .ok subtitle := by
  rw [assParseIndexed_eq, Run.mapError_eq_ok]

theorem assParseIndexed_eq_error_iff {stop : ParseStop} :
    assParseIndexed content = .error stop ↔
      ∃ e, assParse content = .error e ∧ stop = .failed e := by
  rw [assParseIndexed_eq]
  rcases assParse content with e | subtitle
  · simp [Except.mapError, eq_comm]
  · simp [Except.mapError]

/-- **Malformed rows are skipped** exactly when every row that gets to its times has
timestamps there, or the file is refused anyway. -/
theorem assDisposition_iff (content : Text) :
    AssDisposition content ↔
      AssRefused content ∨ ∀ row ∈ assRows content, RowParsable row.1 row.2 := by
  have herror : (∃ e, assParseIndexed content = .error (.failed e)) ↔
      AssRefused content ∨ ∃ row ∈ assRows content, ¬ RowParsable row.1 row.2 := by
    rw [← assParse_error_iff]
    simp [assParseIndexed_eq_error_iff]
  have hskips : AssDisposition content ↔
      ((∃ e, assParseIndexed content = .error (.failed e)) ↔ AssRefused content) := by
    refine ⟨fun h => h.error_iff, fun h => ⟨fun panic hpanic => ?_, h, fun subtitle hok => ?_⟩⟩
    · obtain ⟨e, -, hstop⟩ := assParseIndexed_eq_error_iff.1 hpanic
      cases hstop
    · rw [(assParse_eq_ok_iff.1 (assParseIndexed_eq_ok_iff.1 hok)).2]
      rfl
  have hall : (∀ row ∈ assRows content, RowParsable row.1 row.2) ↔
      ¬ ∃ row ∈ assRows content, ¬ RowParsable row.1 row.2 := by simp
  rw [hskips, herror, hall, or_iff_left_iff_imp, imp_iff_or_not]

/-- A row whose start is no time, between two rows. -/
def garbledStart : Text :=
  "[Events]\nFormat: Layer,Start,End,Text\nDialogue: 0,0:00:01.00,0:00:02.00,Good\n".toList ++
    "Dialogue: 0,abc,0:00:04.00,Bad\nDialogue: 0,0:00:05.00,0:00:06.00,AlsoGood\n".toList

/-- No row is to be refused, and the parse ends with an error. -/
theorem not_assDisposition_garbledStart :
    (∃ e, assParse garbledStart = .error e) ∧ ¬ AssDisposition garbledStart := by
  have herror : ∃ e, assParse garbledStart = .error e := ⟨_, rfl⟩
  have hrows : ∀ row ∈ assRows garbledStart, ¬ RowRefused row.1 row.2 := by decide
  refine ⟨herror, fun h => ?_⟩
  -- so the error is for none of the reasons a file is refused
  obtain ⟨e, he⟩ := herror
  rcases h.error_iff.1 ⟨e, assParseIndexed_eq_error_iff.2 ⟨e, he, rfl⟩⟩ with
    hblank | hheader | ⟨row, hrow, hrefused⟩
  · exact absurd hblank (by decide)
  · exact hheader ⟨"[Events]".toList, by decide, by decide⟩
  · exact hrows row hrow hrefused

end SubxCore
