import SubxCore.Common.Contains
import SubxCore.Formats.TimingFields
import SubxCore.Formats.Vtt
/-!
# What ends an SRT or VTT parse

The two block-based parsers skip a malformed block, and end the parse for an
empty or unsigned file and for a block over the cap. One malformed block they
do not skip: a timing line whose digits are not all ASCII is captured by its
pattern and then cannot be read.
-/

namespace SubxCore

open Text Decimal Regex

variable {content block b s t : Text} {count : ℕ} {caps : List Text}

/-! ## SRT -/

/-- The blocks that the loops of both parsers go through. -/
def parsedBlocks (content : Text) : List Text :=
  splitStr ['\n', '\n'] (normalizeLineEndings (stripPrefix bom content))

/-- The fields captured from the timing line of a block, where the parser gets
that far: the first of at least three lines is a number, and no time is
negative. -/
def srtTimingFields (block : Text) : Option (List Text) :=
  match lines block with
  | indexLine :: timing :: _ :: _ =>
    if (parseUnsigned u64Max (trim indexLine)).isOk ∧ timingLineHasNegative timing = false then
      (timingRegex ',').captures timing
    else none
  | _ => none

/-- The cue of a block, read by itself. -/
def srtCue (block : Text) : Option SubtitleEntry := (srtReadBlock block).toOption.join

/-- **What an SRT parse comes to.** It fails for an empty file and for a block
over the cap, and otherwise gives the cues of the blocks that have one. -/
structure SrtDisposition (content : Text) : Prop where
  error_iff : (∃ e, srtParse content = .error e) ↔
    stripPrefix bom content = [] ∨
      ∃ block ∈ rawBlocks (stripPrefix bom content), maxCueBytes < byteLen block
  skips : ∀ subtitle, srtParse content = .ok subtitle →
    subtitle.entries = (parsedBlocks content).filterMap srtCue

/-- A blank block has no timing line. -/
theorem srtTimingFields_of_blank (h : trim block = []) : srtTimingFields block = none := by
  unfold srtTimingFields
  split
  · next indexLine timing line more hlines =>
    have hindex : trim indexLine = [] := by
      rw [trim_eq_nil_iff] at h ⊢
      exact fun c hc => h c ((infix_of_mem_lines (hlines ▸ List.mem_cons_self)).subset hc)
    rw [hindex, if_neg fun hread => absurd hread.1 (by decide)]
  · rfl

/-- **A block under the cap**: its times are read where they are captured, and
else it is skipped. -/
theorem srtReadBlock_eq (hcap : byteLen block ≤ maxCueBytes) :
    ∃ index text, srtReadBlock block =
      (srtTimingFields block).elim (.ok none) fun caps => do
        let startTime ← srtParseTime caps 1
        let endTime ← srtParseTime caps 5
        return some
          { index := index
            startTime := startTime
            endTime := endTime
            text := text
            styling := none } := by
  by_cases hblank : trim block = []
  · rw [srtReadBlock, if_pos hblank, srtTimingFields_of_blank hblank]
    exact ⟨0, [], rfl⟩
  rw [srtReadBlock, if_neg hblank, if_neg (by omega), srtTimingFields]
  rcases lines block with - | ⟨indexLine, - | ⟨timing, - | ⟨line, more⟩⟩⟩
  · exact ⟨0, [], rfl⟩
  · exact ⟨0, [], rfl⟩
  · exact ⟨0, [], rfl⟩
  rcases hindex : parseUnsigned u64Max (trim indexLine) with e | index <;> simp only [hindex]
  · exact ⟨0, [], rfl⟩
  -- the block has its number: what is left is the timing line
  by_cases hneg : timingLineHasNegative timing = true
  · rw [if_pos hneg, if_neg (by simp [hneg])]
    exact ⟨0, [], rfl⟩
  · rw [if_neg hneg, if_pos ⟨rfl, Bool.eq_false_iff.2 hneg⟩]
    refine ⟨index, join ['\n'] (line :: more), ?_⟩
    rcases (timingRegex ',').captures timing with - | caps <;> rfl

theorem groups_of_srtTimingFields (h : srtTimingFields block = some caps) :
    (timingRegex ',').Groups caps := by
  unfold srtTimingFields at h
  split at h
  · split at h
    · exact groups_of_captures h
    · cases h
  · cases h

/-- It cannot be read when a captured field is not in ASCII. -/
theorem exists_srtReadBlock_error_iff (hcap : byteLen block ≤ maxCueBytes) :
    (∃ e, srtReadBlock block = .error e) ↔
      ∃ caps, srtTimingFields block = some caps ∧ ¬ AsciiFields caps := by
  obtain ⟨index, text, hread⟩ := srtReadBlock_eq hcap
  rw [hread]
  exact exists_readTimes_error_iff _ _ fun _ => groups_of_srtTimingFields

/-- Blocks within the cap are within it once they are normalized. -/
theorem byteLen_le_of_mem_parsedBlocks
    (h : ∀ b ∈ rawBlocks (stripPrefix bom content), byteLen b ≤ maxCueBytes) :
    ∀ b ∈ parsedBlocks content, byteLen b ≤ maxCueBytes := by
  intro b hb
  rw [parsedBlocks, ← map_normalizeLineEndings_rawBlocks] at hb
  obtain ⟨raw, hraw, rfl⟩ := List.mem_map.1 hb
  exact (byteLen_normalizeLineEndings_le raw).trans (h raw hraw)

/-- A file within the cap is read block by block. -/
theorem srtParse_eq (hne : stripPrefix bom content ≠ [])
    (hfits : ∀ b ∈ rawBlocks (stripPrefix bom content), byteLen b ≤ maxCueBytes) :
    srtParse content =
      (readBlocks (fun _ => srtReadBlock) 0 (parsedBlocks content)).map (parsedSubtitle .srt) := by
  rw [srtParse]
  dsimp only
  rw [if_neg hne, firstOversized_eq_none.2 hfits]
  rfl

/-- A file that is empty or has a block over the cap is refused. -/
theorem srtParse_error (h : stripPrefix bom content = [] ∨
    ∃ block ∈ rawBlocks (stripPrefix bom content), maxCueBytes < byteLen block) :
    ∃ e, srtParse content = .error e := by
  rw [srtParse]
  dsimp only
  by_cases hempty : stripPrefix bom content = []
  · exact ⟨_, by rw [if_pos hempty]; rfl⟩
  obtain ⟨block, hblock, hbig⟩ := h.resolve_left hempty
  rw [if_neg hempty]
  rcases hsize : firstOversized (rawBlocks (stripPrefix bom content)) with - | big
  · exact absurd (firstOversized_eq_none.1 hsize block hblock) (not_le.2 hbig)
  · exact ⟨_, rfl⟩

/-- **What ends an SRT parse.** -/
theorem srtParse_error_iff (content : Text) :
    (∃ e, srtParse content = .error e) ↔
      (stripPrefix bom content = [] ∨
        ∃ block ∈ rawBlocks (stripPrefix bom content), maxCueBytes < byteLen block) ∨
      ∃ block ∈ parsedBlocks content, ∃ caps,
        srtTimingFields block = some caps ∧ ¬ AsciiFields caps := by
  by_cases hrefused : stripPrefix bom content = [] ∨
      ∃ block ∈ rawBlocks (stripPrefix bom content), maxCueBytes < byteLen block
  · exact iff_of_true (srtParse_error hrefused) (.inl hrefused)
  rw [or_iff_right hrefused]
  simp only [not_or, not_exists, not_and, not_lt] at hrefused
  have hfits := byteLen_le_of_mem_parsedBlocks hrefused.2
  simp only [srtParse_eq hrefused.1 hrefused.2, Run.map_eq_error, readBlocks_eq_error_iff]
  exact exists_congr fun block => and_congr_right fun hblock =>
    exists_srtReadBlock_error_iff (hfits block hblock)

/-- A file that is accepted is not empty and within the cap. -/
theorem limits_of_srtParse {subtitle : Subtitle} (h : srtParse content = .ok subtitle) :
    stripPrefix bom content ≠ [] ∧
      ∀ b ∈ rawBlocks (stripPrefix bom content), byteLen b ≤ maxCueBytes := by
  by_contra hlimits
  obtain ⟨e, he⟩ := srtParse_error (by
    rw [not_and_or, not_not] at hlimits
    simpa using hlimits)
  rw [he] at h
  cases h

/-- The cues are those of the blocks. -/
theorem srtParse_entries {subtitle : Subtitle} (h : srtParse content = .ok subtitle) :
    subtitle.entries = (parsedBlocks content).filterMap srtCue := by
  obtain ⟨hne, hfits⟩ := limits_of_srtParse h
  rw [srtParse_eq hne hfits, Run.map_eq_ok] at h
  obtain ⟨entries, hread, rfl⟩ := h
  exact (readBlocks_eq_ok_iff.1 hread).2

/-! ## VTT -/

/-- The line with the timing of a trimmed block: the first, or else the second. -/
def vttMarker (block : Text) : Option Text :=
  match lines block with
  | [] => none
  | first :: rest => if vttTimeRegex.isMatch first then some first else rest.head?

/-- The fields captured from the timing line of a block, where the parser gets
that far: the block is no header, note or style, and no time is negative. -/
def vttTimingFields (block : Text) : Option (List Text) :=
  if vttSkips (trim block) then none
  else
    match vttMarker (trim block) with
    | none => none
    | some marker =>
      if vttNegSignedRegex.isMatch marker then none else vttTimeRegex.captures marker

/-- The cue of a block, read by itself. -/
def vttCue (block : Text) : Option SubtitleEntry := (vttReadBlock 0 block).toOption.join

/-- A block the cap is for: white space between blank lines is no block, and
headers, notes and styles are exempt. -/
def IsOversizedCue (block : Text) : Prop :=
  vttSkips (trim block) = false ∧ maxCueBytes < byteLen block

/-- **What a VTT parse comes to.** It fails for an empty file, one without its
signature, and a cue block over the cap, and otherwise gives the cues of the
blocks that have one, numbered as they come. -/
structure VttDisposition (content : Text) : Prop where
  error_iff : (∃ e, vttParse content = .error e) ↔
    content = [] ∨ ¬ "WEBVTT".toList <+: trimStart (stripPrefix bom content) ∨
      ∃ block ∈ rawBlocks (stripPrefix bom content), IsOversizedCue block
  skips : ∀ subtitle, vttParse content = .ok subtitle →
    subtitle.entries = numbered 0 ((parsedBlocks content).filterMap vttCue)

theorem groups_vttTimeRegex (h : vttTimeRegex.captures s = some caps) :
    (timingRegex '.').Groups caps := by
  obtain ⟨a, b, rfl, ha, hb⟩ := groups_of_captures h
  obtain rfl : a = [] := ha
  exact hb

theorem groups_of_vttTimingFields (h : vttTimingFields block = some caps) :
    (timingRegex '.').Groups caps := by
  unfold vttTimingFields at h
  split at h
  · cases h
  · split at h
    · cases h
    · split at h
      · cases h
      · exact groups_vttTimeRegex h

/-- The lines after the first are no longer than the block. -/
theorem byteLen_join_drop_lines_le (hr : '\r' ∉ s) (k : ℕ) :
    byteLen (join ['\n'] ((lines (trim s)).drop k)) ≤ byteLen (trim s) := by
  by_cases hne : trim s = []
  · rw [hne]
    simp [join]
  have hlast : (trim s).getLast? ≠ some '\n' := fun h => absurd (getLast?_trim h) (by decide)
  have hjoin := join_lines _ le_rfl (fun h => hr (infix_trim.subset h)) hne hlast
  calc byteLen (join ['\n'] ((lines (trim s)).drop k))
      ≤ byteLen (join ['\n'] (lines (trim s))) :=
        byteLen_mono (join_drop_suffix k _).isInfix
    _ = byteLen (trim s) := by rw [hjoin]

/-- A cue whose body fits is read where its times are. -/
theorem vttReadCue_eq {marker : Text} {body : List Text}
    (hbody : byteLen (join ['\n'] body) ≤ maxCueBytes) :
    vttReadCue count marker body =
      (if vttNegSignedRegex.isMatch marker then none else vttTimeRegex.captures marker).elim
        (.ok none) fun caps => do
          let start ← parseVttTime caps 1
          let stop ← parseVttTime caps 5
          return some
            { index := count + 1
              startTime := start
              endTime := stop
              text := join ['\n'] body
              styling := none } := by
  rw [vttReadCue]
  split
  · rfl
  · rcases vttTimeRegex.captures marker with - | caps
    · rfl
    · simp only [if_neg (not_lt.2 hbody)]
      rfl

/-- **A block under the cap**: its times are read where they are captured, and
else it is skipped. -/
theorem vttReadBlock_eq (hr : '\r' ∉ block)
    (hcap : vttSkips (trim block) = false → byteLen (trim block) ≤ maxCueBytes) :
    ∃ text, ∀ count, vttReadBlock count block =
      (vttTimingFields block).elim (.ok none) fun caps => do
        let start ← parseVttTime caps 1
        let stop ← parseVttTime caps 5
        return some
          { index := count + 1
            startTime := start
            endTime := stop
            text := text
            styling := none } := by
  by_cases hskip : vttSkips (trim block) = true
  · refine ⟨[], fun count => ?_⟩
    rw [vttReadBlock, vttTimingFields]
    simp only [hskip, if_true]
    rfl
  have hcap := hcap (Bool.eq_false_iff.2 hskip)
  -- a body is part of the block, so its own cap never applies
  have hbody : ∀ k, byteLen (join ['\n'] ((lines (trim block)).drop k)) ≤ maxCueBytes :=
    fun k => (byteLen_join_drop_lines_le hr k).trans hcap
  have hread : ∀ count, vttReadBlock count block =
      match lines (trim block) with
      | [] => .ok none
      | first :: rest =>
        if vttTimeRegex.isMatch first then vttReadCue count first rest
        else
          match rest with
          | [] => .ok none
          | marker :: body => vttReadCue count marker body := fun count => by
    rw [vttReadBlock]
    dsimp only
    rw [if_neg hskip, if_neg (by omega)]
    rfl
  simp only [hread]
  rw [vttTimingFields, if_neg hskip, vttMarker]
  rcases hlines : lines (trim block) with - | ⟨first, rest⟩
  · exact ⟨[], fun _ => rfl⟩
  rw [hlines] at hbody
  -- the timing is on the first line, or on the one after an identifier
  by_cases hmatch : vttTimeRegex.isMatch first = true
  · refine ⟨join ['\n'] rest, fun count => ?_⟩
    simp only [if_pos hmatch]
    exact vttReadCue_eq (hbody 1)
  · simp only [if_neg hmatch]
    rcases rest with - | ⟨marker, body⟩
    · exact ⟨[], fun _ => rfl⟩
    · exact ⟨join ['\n'] body, fun count => vttReadCue_eq (hbody 2)⟩

/-- It cannot be read when a captured field is not in ASCII. -/
theorem exists_vttReadBlock_error_iff (hr : '\r' ∉ block)
    (hcap : vttSkips (trim block) = false → byteLen (trim block) ≤ maxCueBytes) :
    (∃ e, vttReadBlock 0 block = .error e) ↔
      ∃ caps, vttTimingFields block = some caps ∧ ¬ AsciiFields caps := by
  obtain ⟨text, hread⟩ := vttReadBlock_eq hr hcap
  rw [hread]
  exact exists_readTimes_error_iff _ _ fun _ => groups_of_vttTimingFields

theorem vttReadCue_count (count : ℕ) (marker : Text) (body : List Text) :
    vttReadCue count marker body = (vttReadCue 0 marker body).map
      fun cue => cue.map fun entry => { entry with index := count + 1 } := by
  unfold vttReadCue
  split
  · rfl
  rcases vttTimeRegex.captures marker with - | caps
  · rfl
  dsimp only
  rcases parseVttTime caps 1 with e | start
  · rfl
  rcases parseVttTime caps 5 with e | stop
  · rfl
  simp only [bind, Except.bind]
  split <;> rfl

/-- The parser numbers the cues as they come. -/
theorem numbers_vttReadBlock : Numbers vttReadBlock := by
  intro count block
  unfold vttReadBlock
  dsimp only
  split
  · rfl
  split
  · rfl
  rcases lines (trim block) with - | ⟨first, rest⟩
  · rfl
  dsimp only
  split
  · exact vttReadCue_count count first rest
  · rcases rest with - | ⟨marker, body⟩
    · rfl
    · exact vttReadCue_count count marker body

/-- Normalizing makes no block a cue or none. -/
theorem vttSkips_normalizeLineEndings (s : Text) :
    vttSkips (trim (normalizeLineEndings s)) = vttSkips (trim s) := by
  have hword : ∀ l : Text, (∀ c ∈ l, isWhitespace c = false) →
      l.isPrefixOf (trim (normalizeLineEndings s)) = l.isPrefixOf (trim s) := fun l hl => by
    rw [Bool.eq_iff_iff, List.isPrefixOf_iff_prefix, List.isPrefixOf_iff_prefix]
    exact prefix_trim_normalizeLineEndings hl
  unfold vttSkips
  rw [hword _ (by decide), hword _ (by decide), hword _ (by decide),
    decide_eq_decide.2 trim_normalizeLineEndings_eq_nil_iff]

theorem return_not_mem_parsedBlocks (h : b ∈ parsedBlocks content) : '\r' ∉ b := by
  rw [parsedBlocks, ← map_normalizeLineEndings_rawBlocks] at h
  obtain ⟨raw, -, rfl⟩ := List.mem_map.1 h
  exact not_mem_normalizeLineEndings raw

/-- Cue blocks within the cap are within it when they are read. -/
theorem byteLen_trim_le_of_mem_parsedBlocks
    (h : ∀ b ∈ rawBlocks (stripPrefix bom content), ¬ IsOversizedCue b)
    (hb : b ∈ parsedBlocks content) (hskip : vttSkips (trim b) = false) :
    byteLen (trim b) ≤ maxCueBytes := by
  rw [parsedBlocks, ← map_normalizeLineEndings_rawBlocks] at hb
  obtain ⟨raw, hraw, rfl⟩ := List.mem_map.1 hb
  rw [vttSkips_normalizeLineEndings] at hskip
  have hfits : byteLen raw ≤ maxCueBytes := not_lt.1 fun hbig => h raw hraw ⟨hskip, hbig⟩
  exact (byteLen_mono infix_trim).trans ((byteLen_normalizeLineEndings_le raw).trans hfits)

theorem firstOversized_filter_eq_none {blocks : List Text} :
    firstOversized (blocks.filter fun block => ¬ vttSkips (trim block)) = none ↔
      ∀ b ∈ blocks, ¬ IsOversizedCue b := by
  simp [firstOversized, IsOversizedCue]

/-- A file within the cap is read block by block. -/
theorem vttParse_eq (hne : content ≠ [])
    (hsigned : "WEBVTT".toList <+: trimStart (stripPrefix bom content))
    (hfits : ∀ b ∈ rawBlocks (stripPrefix bom content), ¬ IsOversizedCue b) :
    vttParse content =
      (readBlocks vttReadBlock 0 (parsedBlocks content)).map (parsedSubtitle .vtt) := by
  rw [vttParse, if_neg hne]
  dsimp only
  rw [if_neg (not_not.2 hsigned), firstOversized_filter_eq_none.2 hfits]
  rfl

/-- A file that is empty, unsigned or has a cue block over the cap is refused. -/
theorem vttParse_error (h : content = [] ∨
    ¬ "WEBVTT".toList <+: trimStart (stripPrefix bom content) ∨
      ∃ block ∈ rawBlocks (stripPrefix bom content), IsOversizedCue block) :
    ∃ e, vttParse content = .error e := by
  rw [vttParse]
  by_cases hempty : content = []
  · exact ⟨_, by rw [if_pos hempty]; rfl⟩
  rw [if_neg hempty]
  dsimp only
  by_cases hsigned : "WEBVTT".toList <+: trimStart (stripPrefix bom content)
  · obtain ⟨block, hblock, hbig⟩ := (h.resolve_left hempty).resolve_left (not_not.2 hsigned)
    rw [if_neg (not_not.2 hsigned)]
    rcases hsize : firstOversized ((rawBlocks (stripPrefix bom content)).filter
      fun block => ¬ vttSkips (trim block)) with - | big
    · exact absurd hbig (firstOversized_filter_eq_none.1 hsize block hblock)
    · exact ⟨_, rfl⟩
  · exact ⟨_, by rw [if_pos hsigned]; rfl⟩

/-- **What ends a VTT parse.** -/
theorem vttParse_error_iff (content : Text) :
    (∃ e, vttParse content = .error e) ↔
      (content = [] ∨ ¬ "WEBVTT".toList <+: trimStart (stripPrefix bom content) ∨
        ∃ block ∈ rawBlocks (stripPrefix bom content), IsOversizedCue block) ∨
      ∃ block ∈ parsedBlocks content, ∃ caps,
        vttTimingFields block = some caps ∧ ¬ AsciiFields caps := by
  by_cases hrefused : content = [] ∨ ¬ "WEBVTT".toList <+: trimStart (stripPrefix bom content) ∨
      ∃ block ∈ rawBlocks (stripPrefix bom content), IsOversizedCue block
  · exact iff_of_true (vttParse_error hrefused) (.inl hrefused)
  rw [or_iff_right hrefused]
  simp only [not_or, not_exists, not_and, not_not] at hrefused
  obtain ⟨hne, hsigned, hfits⟩ := hrefused
  simp only [vttParse_eq hne hsigned hfits, Run.map_eq_error,
    numbers_vttReadBlock.readBlocks_eq_error_iff]
  exact exists_congr fun block => and_congr_right fun hblock =>
    exists_vttReadBlock_error_iff (return_not_mem_parsedBlocks hblock)
      (byteLen_trim_le_of_mem_parsedBlocks hfits hblock)

/-- A file that is accepted is not empty, signed and within the cap. -/
theorem limits_of_vttParse {subtitle : Subtitle} (h : vttParse content = .ok subtitle) :
    content ≠ [] ∧ "WEBVTT".toList <+: trimStart (stripPrefix bom content) ∧
      ∀ b ∈ rawBlocks (stripPrefix bom content), ¬ IsOversizedCue b := by
  by_contra hlimits
  obtain ⟨e, he⟩ := vttParse_error (by
    rw [not_and_or, not_and_or, not_not] at hlimits
    simpa using hlimits)
  rw [he] at h
  cases h

/-- The cues are those of the blocks, numbered. -/
theorem vttParse_entries {subtitle : Subtitle} (h : vttParse content = .ok subtitle) :
    subtitle.entries = numbered 0 ((parsedBlocks content).filterMap vttCue) := by
  obtain ⟨hne, hsigned, hfits⟩ := limits_of_vttParse h
  rw [vttParse_eq hne hsigned hfits, Run.map_eq_ok] at h
  obtain ⟨entries, hread, rfl⟩ := h
  exact (numbers_vttReadBlock.readBlocks_eq_ok_iff.1 hread).2

/-! ## Where the parsers do as they should -/

/-- A block that has captured timing fields has them in ASCII. -/
def AsciiTimings (fields : Text → Option (List Text)) (content : Text) : Prop :=
  ∀ block ∈ parsedBlocks content, ∀ caps, fields block = some caps → AsciiFields caps

theorem not_asciiTimings {fields : Text → Option (List Text)} :
    ¬ AsciiTimings fields content ↔
      ∃ block ∈ parsedBlocks content, ∃ caps, fields block = some caps ∧ ¬ AsciiFields caps := by
  simp [AsciiTimings]

/-- An SRT parse comes to what it should when it is refused anyway, or no
captured timing field has a digit outside ASCII. -/
theorem srtDisposition_iff (content : Text) :
    SrtDisposition content ↔
      (stripPrefix bom content = [] ∨
        ∃ block ∈ rawBlocks (stripPrefix bom content), maxCueBytes < byteLen block) ∨
      AsciiTimings srtTimingFields content := by
  have herror := srtParse_error_iff content
  rw [← not_asciiTimings] at herror
  have hskips : SrtDisposition content ↔ ((∃ e, srtParse content = .error e) ↔
      stripPrefix bom content = [] ∨
        ∃ block ∈ rawBlocks (stripPrefix bom content), maxCueBytes < byteLen block) :=
    ⟨fun h => h.error_iff, fun h => ⟨h, fun _ => srtParse_entries⟩⟩
  rw [hskips, herror, or_iff_left_iff_imp, imp_iff_or_not, not_not]

/-- And so does a VTT parse. -/
theorem vttDisposition_iff (content : Text) :
    VttDisposition content ↔
      (content = [] ∨ ¬ "WEBVTT".toList <+: trimStart (stripPrefix bom content) ∨
        ∃ block ∈ rawBlocks (stripPrefix bom content), IsOversizedCue block) ∨
      AsciiTimings vttTimingFields content := by
  have herror := vttParse_error_iff content
  rw [← not_asciiTimings] at herror
  have hskips : VttDisposition content ↔ ((∃ e, vttParse content = .error e) ↔
      content = [] ∨ ¬ "WEBVTT".toList <+: trimStart (stripPrefix bom content) ∨
        ∃ block ∈ rawBlocks (stripPrefix bom content), IsOversizedCue block) :=
    ⟨fun h => h.error_iff, fun h => ⟨h, fun _ => vttParse_entries⟩⟩
  rw [hskips, herror, or_iff_left_iff_imp, imp_iff_or_not, not_not]

/-- **Malformed blocks are skipped** by both parsers exactly when no block that
is read for its times has a digit outside ASCII in them, or the file is
refused anyway. -/
theorem blockParsers_disposition_iff (content : Text) :
    SrtDisposition content ∧ VttDisposition content ↔
      ((stripPrefix bom content = [] ∨
          ∃ block ∈ rawBlocks (stripPrefix bom content), maxCueBytes < byteLen block) ∨
        AsciiTimings srtTimingFields content) ∧
      ((content = [] ∨ ¬ "WEBVTT".toList <+: trimStart (stripPrefix bom content) ∨
          ∃ block ∈ rawBlocks (stripPrefix bom content), IsOversizedCue block) ∨
        AsciiTimings vttTimingFields content) :=
  and_congr (srtDisposition_iff content) (vttDisposition_iff content)

/-- One cue, with an Arabic zero in its first time. -/
def arabicSrt : Text := "1\n00:00:0\u0660,000 --> 00:00:02,000\nHi".toList

/-- The same in a VTT file. -/
def arabicVtt : Text := "WEBVTT\n\n00:00:0\u0660.000 --> 00:00:02.000\nHi".toList

/-- Either file is whole and small, and still ends its parse. -/
theorem not_disposition_arabic : ¬ SrtDisposition arabicSrt ∧ ¬ VttDisposition arabicVtt := by
  constructor
  · intro h
    have herror : ∃ e, srtParse arabicSrt = .error e := ⟨_, rfl⟩
    have hfits : ∀ b ∈ rawBlocks (stripPrefix bom arabicSrt), byteLen b ≤ maxCueBytes := by decide
    rcases h.error_iff.1 herror with hempty | ⟨block, hblock, hbig⟩
    · exact absurd hempty (by decide)
    · exact absurd hbig (not_lt.2 (hfits block hblock))
  · intro h
    have herror : ∃ e, vttParse arabicVtt = .error e := ⟨_, rfl⟩
    have hfits : ∀ b ∈ rawBlocks (stripPrefix bom arabicVtt), byteLen b ≤ maxCueBytes := by decide
    rcases h.error_iff.1 herror with hempty | hunsigned | ⟨block, hblock, hbig⟩
    · exact absurd hempty (by decide)
    · exact absurd (by decide) hunsigned
    · exact absurd hbig.2 (not_lt.2 (hfits block hblock))

end SubxCore
