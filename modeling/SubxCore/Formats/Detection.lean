import SubxCore.Formats.SubRoundTrip
import SubxCore.Formats.VttRoundTrip
import SubxCore.Formats.Ass
/-!
# Detecting a format

The format manager asks the formats in turn whether a text looks like
theirs, and parses it with the first that says so. The ASS and the SRT
detector search the whole text, so a cue of another format can hold what
they look for: a written file is read by its own parser exactly when none
of its cues does (`parseAuto_serialize_iff`).
-/

namespace SubxCore

open Text Decimal Regex

/-- `AssFormat::detect`. -/
def assDetect (content : Text) : Bool :=
  containsStr "[Script Info]".toList content || containsStr "Dialogue:".toList content

/-- `VttFormat::detect`. -/
def vttDetect (content : Text) : Bool :=
  "WEBVTT".toList.isPrefixOf (trimStart (stripPrefix bom content))

/-- `\d{2}:\d{2}:\d{2},\d{3}`, followed by another pattern. -/
def srtTimePattern (next : List Regex) : List Regex :=
  [rep digit 2, chr ':', rep digit 2, chr ':', rep digit 2, chr ',', rep digit 3] ++ next

/-- The pattern of an SRT timing line, without groups. -/
def srtDetectRegex : Regex :=
  seqs (srtTimePattern ([lit " --> ".toList] ++ srtTimePattern []))

/-- `SrtFormat::detect`. -/
def srtDetect (content : Text) : Bool := srtDetectRegex.isMatch content

/-- The pattern `\{\d+\}\{\d+\}`. -/
def subDetectRegex : Regex :=
  seqs [chr '{', some' digit, chr '}', chr '{', some' digit, chr '}']

/-- `SubFormat::detect`. -/
def subDetect (content : Text) : Bool := (seq textStart subDetectRegex).isMatch (trimStart content)

namespace SubtitleFormatType

/-- The detector of a format. -/
def detect : SubtitleFormatType → Text → Bool
  | srt => srtDetect
  | ass => assDetect
  | vtt => vttDetect
  | sub => subDetect

/-- The parser of a format. -/
def parse : SubtitleFormatType → Text → Except SubXError Subtitle
  | srt => srtParse
  | ass => assParse
  | vtt => vttParse
  | sub => subParse

/-- The serializer of a format. -/
def serialize : SubtitleFormatType → Subtitle → Text
  | srt => srtSerialize
  | ass => assSerialize
  | vtt => vttSerialize
  | sub => subSerialize

end SubtitleFormatType

/-- `FormatManager::new`: the formats in the order they are asked. -/
def managerFormats : List SubtitleFormatType := [.ass, .vtt, .srt, .sub]

/-- The first format that takes the text for its own. -/
def detectFormat (content : Text) : Option SubtitleFormatType :=
  managerFormats.find? (·.detect content)

/-- `FormatManager::parse_auto`. -/
def parseAuto (content : Text) : Except SubXError Subtitle :=
  match detectFormat content with
  | some fmt => fmt.parse content
  | none => .error (.subtitleFormat "Unknown".toList "Unknown subtitle format".toList)

variable {L : Text → Prop} {s t : Text} {entry : SubtitleEntry} {subtitle : Subtitle} {c : Char}

/-! ## What the detectors look for -/

/-- The words of the ASS detector. -/
def IsAssMarker (l : Text) : Prop := l = "[Script Info]".toList ∨ l = "Dialogue:".toList

theorem assDetect_iff : assDetect s = true ↔ Contains IsAssMarker s := by
  rw [assDetect, containsStr, containsStr, Bool.or_eq_true, decide_eq_true_eq, decide_eq_true_eq]
  constructor
  · rintro (h | h)
    · exact ⟨_, h, .inl rfl⟩
    · exact ⟨_, h, .inr rfl⟩
  · rintro ⟨l, h, rfl | rfl⟩
    · exact .inl h
    · exact .inr h

theorem anchorFree_srtDetectRegex : srtDetectRegex.AnchorFree := by
  simp [srtDetectRegex, srtTimePattern, seqs, AnchorFree, chr, rep, lit]

theorem srtDetect_iff : srtDetect s = true ↔ Contains srtDetectRegex.Language s :=
  isMatch_iff anchorFree_srtDetectRegex

/-- A timing has a colon. -/
theorem colon_mem_of_language {l : Text} (h : srtDetectRegex.Language l) : ':' ∈ l := by
  obtain ⟨a, -, rfl, -, b, u, rfl, hb, -⟩ := h
  obtain rfl := language_chr.1 hb
  simp

/-- And nothing but digits and the characters of the arrow and the
separators. -/
theorem mem_of_language {l : Text} (h : srtDetectRegex.Language l) :
    ∀ c ∈ l, digit c = true ∨ c ∈ ",: ->".toList := by
  refine forall_mem_of_language ?_ h
  simp +contextual [srtDetectRegex, srtTimePattern, seqs, Within, chr, rep, lit]

/-- The timing a parser captures is one the detector finds. -/
theorem language_of_timingRegex {l : Text} (h : (timingRegex ',').Language l) :
    srtDetectRegex.Language l := h

theorem anchorFree_timingRegex : (timingRegex ',').AnchorFree := by
  simp [timingRegex, clockRegex, seqs, AnchorFree, chr, rep, lit]

/-! ## What a written file contains -/

/-- Of a written file only the texts of the cues can contain a word, where
every block is searched text by text. -/
theorem contains_flatMap {α : Type} {block text : α → Text} (hnil : ¬ Contains L [])
    (h : ∀ x t, Contains L (block x ++ t) ↔ Contains L (text x) ∨ Contains L t) (xs : List α) :
    Contains L (xs.flatMap block) ↔ ∃ x ∈ xs, Contains L (text x) := by
  induction xs with
  | nil => simpa using hnil
  | cons x xs ih =>
    rw [List.flatMap_cons, h, ih]
    simp

/-- Words that go over no line feed and are in no number. -/
structure IsCueWord (L : Text → Prop) : Prop where
  no_newline : ∀ l, L l → '\n' ∉ l
  no_decimal : ∀ n, ¬ Contains L (decimal n)

theorem IsCueWord.no_nil (h : IsCueWord L) : ¬ Contains L [] :=
  fun hnil => h.no_decimal 0 (hnil.mono List.nil_infix)

/-- A numbered block with a timing line is searched in its text. -/
theorem contains_block (h : IsCueWord L) {sep : Char} {start stop : Duration}
    (htiming : ¬ Contains L (timingLine sep start stop)) (n : ℕ) (s t : Text) :
    Contains L (decimal n ++ '\n' :: (timingLine sep start stop ++
      '\n' :: (s ++ '\n' :: '\n' :: t))) ↔ Contains L s ∨ Contains L t := by
  have hblank : Contains L ('\n' :: t) ↔ Contains L [] ∨ Contains L t :=
    contains_append_cons (a := []) h.no_newline
  simp only [contains_append_cons h.no_newline, hblank, h.no_nil, h.no_decimal, htiming, false_or]

theorem contains_srtSerialize (h : IsCueWord L)
    (htiming : ∀ start stop, ¬ Contains L (timingLine ',' start stop)) :
    Contains L (srtSerialize subtitle) ↔ ∃ e ∈ subtitle.entries, Contains L e.text := by
  have hblock : ∀ (x : SubtitleEntry × ℕ) t,
      Contains L (srtBlock x.2 x.1 ++ ['\n', '\n'] ++ t) ↔ Contains L x.1.text ∨ Contains L t := by
    intro x t
    have hx := contains_block h (htiming x.1.startTime x.1.endTime) x.2 x.1.text t
    simpa [srtBlock] using hx
  rw [srtSerialize, contains_flatMap h.no_nil hblock]
  constructor
  · rintro ⟨x, hx, hc⟩
    exact ⟨x.1, List.fst_mem_of_mem_zipIdx hx, hc⟩
  · rintro ⟨e, he, hc⟩
    rw [← List.zipIdx_map_fst 1 subtitle.entries] at he
    obtain ⟨x, hx, rfl⟩ := List.mem_map.1 he
    exact ⟨x, hx, hc⟩

theorem contains_vttSerialize (h : IsCueWord L)
    (htiming : ∀ start stop, ¬ Contains L (timingLine '.' start stop))
    (hheader : ¬ Contains L "WEBVTT".toList) :
    Contains L (vttSerialize subtitle) ↔ ∃ e ∈ subtitle.entries, Contains L e.text := by
  have hblock : ∀ e t, Contains L (vttBlock e ++ t) ↔ Contains L e.text ∨ Contains L t := by
    intro e t
    have he := contains_block h (htiming e.startTime e.endTime) e.index e.text t
    simpa [vttBlock] using he
  have hfile : vttSerialize subtitle =
      "WEBVTT".toList ++ '\n' :: ([] ++ '\n' :: subtitle.entries.flatMap vttBlock) := rfl
  rw [hfile, contains_append_cons h.no_newline, contains_append_cons h.no_newline,
    contains_flatMap h.no_nil hblock]
  simp only [hheader, h.no_nil, false_or]

theorem contains_subSerialize (h : IsCueWord L) (hbar : ∀ l, L l → '|' ∉ l)
    (hopen : ∀ l, L l → '{' ∉ l) (hclose : ∀ l, L l → '}' ∉ l) :
    Contains L (subSerialize subtitle) ↔ ∃ e ∈ subtitle.entries, Contains L e.text := by
  have hstart : ∀ u, Contains L ('{' :: u) ↔ Contains L [] ∨ Contains L u :=
    fun u => contains_append_cons (a := []) hopen
  have hline : ∀ a b s t, Contains L (subLine a b (replaceChar '\n' ['|'] s) ++ ['\n'] ++ t) ↔
      Contains L s ∨ Contains L t := by
    intro a b s t
    rw [subLine, List.append_assoc]
    simp only [List.cons_append, List.append_assoc, List.nil_append, hstart,
      contains_append_cons hclose, contains_append_cons h.no_newline,
      contains_replaceChar h.no_newline hbar, h.no_nil, h.no_decimal, false_or]
  rw [subSerialize]
  exact contains_flatMap h.no_nil (fun e t => hline _ _ e.text t) subtitle.entries

/-! ## The detectors on a written file -/

/-- Both words of the ASS detector have a letter that is in no field. -/
theorem not_contains_isAssMarker (h : 'i' ∉ s) : ¬ Contains IsAssMarker s := by
  refine not_contains fun l hl => ⟨'i', ?_, h⟩
  rcases hl with rfl | rfl
  · decide
  · decide

theorem not_mem_of_isAssMarker {c : Char} (hscript : c ∉ "[Script Info]".toList)
    (hdialogue : c ∉ "Dialogue:".toList) : ∀ l, IsAssMarker l → c ∉ l := by
  rintro l (rfl | rfl)
  · exact hscript
  · exact hdialogue

theorem isCueWord_isAssMarker : IsCueWord IsAssMarker where
  no_newline := not_mem_of_isAssMarker (by decide) (by decide)
  no_decimal n := not_contains_isAssMarker fun h => absurd (isDigit_of_mem_decimal h) (by decide)

/-- **Where the ASS detector takes a written file of another format for its
own**: some cue has one of its words. -/
theorem assDetect_serialize {fmt : SubtitleFormatType} (hfmt : fmt ≠ .ass) :
    assDetect (fmt.serialize subtitle) = true ↔ ∃ e ∈ subtitle.entries, assDetect e.text = true := by
  have htiming : ∀ {sep : Char}, 'i' ∉ sep :: ": ->".toList → ∀ start stop,
      ¬ Contains IsAssMarker (timingLine sep start stop) :=
    fun hsep _ _ => not_contains_isAssMarker (not_mem_timingLine (by decide) hsep)
  simp only [assDetect_iff]
  cases fmt with
  | ass => exact absurd rfl hfmt
  | srt => exact contains_srtSerialize isCueWord_isAssMarker (htiming (by decide))
  | vtt =>
    exact contains_vttSerialize isCueWord_isAssMarker (htiming (by decide))
      (not_contains_isAssMarker (by decide))
  | sub =>
    exact contains_subSerialize isCueWord_isAssMarker
      (not_mem_of_isAssMarker (by decide) (by decide))
      (not_mem_of_isAssMarker (by decide) (by decide))
      (not_mem_of_isAssMarker (by decide) (by decide))

theorem not_mem_of_language {c : Char} (hdigit : digit c = false) (hc : c ∉ ",: ->".toList) :
    ∀ l, srtDetectRegex.Language l → c ∉ l := by
  intro l hl hmem
  rcases mem_of_language hl c hmem with hd | hmem
  · rw [hdigit] at hd
    exact Bool.false_ne_true hd
  · exact hc hmem

/-- **Where the SRT detector takes a written SUB file for its own**: some cue
has a timing. -/
theorem srtDetect_subSerialize :
    srtDetect (subSerialize subtitle) = true ↔ ∃ e ∈ subtitle.entries, srtDetect e.text = true := by
  have hword : IsCueWord srtDetectRegex.Language :=
    { no_newline := not_mem_of_language (by decide) (by decide)
      no_decimal := fun n => not_contains fun l hl => ⟨':', colon_mem_of_language hl, fun h =>
        absurd (isDigit_of_mem_decimal h) (by decide)⟩ }
  simp only [srtDetect_iff]
  exact contains_subSerialize hword (not_mem_of_language (by decide) (by decide))
    (not_mem_of_language (by decide) (by decide)) (not_mem_of_language (by decide) (by decide))

/-- A cue that is read from a block has a timing in one of its lines. -/
theorem exists_captures_of_srtReadBlock {b : Text} {e : SubtitleEntry}
    (h : srtReadBlock b = .ok (some e)) :
    ∃ line ∈ lines b, (timingRegex ',').isMatch line = true := by
  rw [srtReadBlock] at h
  by_cases hblank : trim b = []
  · rw [if_pos hblank] at h
    cases h
  by_cases hcap : maxCueBytes < byteLen b
  · rw [if_neg hblank, if_pos hcap] at h
    rcases hlines : lines b with - | ⟨indexLine, - | ⟨timing, - | ⟨line, more⟩⟩⟩
    all_goals
      rw [hlines] at h
      cases h
  rw [if_neg hblank, if_neg hcap] at h
  rcases hlines : lines b with - | ⟨indexLine, - | ⟨timing, - | ⟨line, more⟩⟩⟩
  · rw [hlines] at h
    cases h
  · rw [hlines] at h
    cases h
  · rw [hlines] at h
    cases h
  rw [hlines] at h
  dsimp only at h
  split at h
  · cases h
  split at h
  · cases h
  split at h
  · cases h
  next caps hcaps =>
  refine ⟨timing, by simp, ?_⟩
  rw [Regex.captures, Option.map_eq_some_iff] at hcaps
  obtain ⟨hit, hfind, -⟩ := hcaps
  rw [isMatch, hfind]
  rfl

/-- **What the SRT parser reads a cue from, the SRT detector finds.** -/
theorem srtDetect_of_srtParse {r : Subtitle} (h : srtParse s = .ok r) (hne : r.entries ≠ []) :
    srtDetect s = true := by
  rw [srtParse] at h
  dsimp only at h
  split at h
  · cases h
  split at h
  · cases h
  obtain ⟨entries, hread, h⟩ := Run.bind_eq_ok.1 h
  obtain rfl := Except.ok.inj h
  obtain ⟨-, hentries⟩ := readBlocks_eq_ok_iff.1 hread
  obtain ⟨e, he⟩ := List.exists_mem_of_ne_nil _ hne
  have he : e ∈ entries := he
  rw [hentries, List.mem_filterMap] at he
  obtain ⟨b, hb, he⟩ := he
  have hblock : srtReadBlock b = .ok (some e) := by
    rcases hb' : srtReadBlock b with err | cue
    · rw [hb'] at he
      cases he
    · rw [hb'] at he
      exact congrArg Except.ok he
  obtain ⟨line, hline, hmatch⟩ := exists_captures_of_srtReadBlock hblock
  obtain ⟨l, hl, hlang⟩ := (isMatch_iff anchorFree_timingRegex).1 hmatch
  have hlang := language_of_timingRegex hlang
  -- the timing is inside a line, so normalizing did not make it
  have hfile : l <:+: normalizeLineEndings (stripPrefix bom s) :=
    hl.trans ((infix_of_mem_lines hline).trans (infix_of_mem_splitStr (by decide) hb))
  have hfile := infix_of_infix_normalizeLineEndings
    (not_mem_of_language (by decide) (by decide) l hlang) hfile
  refine srtDetect_iff.2 ⟨l, hfile.trans ?_, hlang⟩
  rw [stripPrefix]
  split
  · exact (List.drop_suffix _ s).isInfix
  · exact List.infix_refl s

/-- A text that starts with another letter than the signature is no VTT
file. -/
theorem vttDetect_cons (hbom : c ≠ '\uFEFF') (hblank : isWhitespace c = false) (hletter : c ≠ 'W') :
    vttDetect (c :: s) = false := by
  have hstrip : stripPrefix bom (c :: s) = c :: s := by
    rw [stripPrefix, if_neg]
    rw [List.isPrefixOf_iff_prefix]
    rintro ⟨u, hu⟩
    exact hbom (List.cons_eq_cons.1 hu).1.symm
  rw [vttDetect, hstrip, trimStart, List.dropWhile_cons_of_neg (by simp [hblank]), Bool.eq_false_iff,
    Ne, List.isPrefixOf_iff_prefix]
  rintro ⟨u, hu⟩
  exact hletter (List.cons_eq_cons.1 hu).1.symm

theorem vttDetect_srtSerialize (hne : subtitle.entries ≠ []) :
    vttDetect (srtSerialize subtitle) = false := by
  obtain ⟨e, es, hes⟩ := List.exists_cons_of_ne_nil hne
  obtain ⟨s, hs⟩ : ∃ s, srtSerialize subtitle = '1' :: s := by
    rw [srtSerialize, hes]
    exact ⟨_, rfl⟩
  rw [hs]
  exact vttDetect_cons (by decide) (by decide) (by decide)

/-- A written SUB file starts with two frames. -/
theorem exists_subSerialize (hne : subtitle.entries ≠ []) :
    ∃ a b s, subSerialize subtitle =
      '{' :: (decimal a ++ '}' :: '{' :: (decimal b ++ ['}'])) ++ s := by
  obtain ⟨e, es, hes⟩ := List.exists_cons_of_ne_nil hne
  let fps := subtitle.metadata.frameRate.getD defaultSubFps
  refine ⟨durationToFrame e.startTime fps, durationToFrame e.endTime fps,
    replaceChar '\n' ['|'] e.text ++ '\n' :: subSerialize { subtitle with entries := es }, ?_⟩
  rw [subSerialize, hes, List.flatMap_cons, subLine, subSerialize]
  simp [fps]

theorem vttDetect_subSerialize (hne : subtitle.entries ≠ []) :
    vttDetect (subSerialize subtitle) = false := by
  obtain ⟨a, b, s, hs⟩ := exists_subSerialize hne
  rw [hs]
  exact vttDetect_cons (by decide) (by decide) (by decide)

theorem subDetect_subSerialize (hne : subtitle.entries ≠ []) :
    subDetect (subSerialize subtitle) = true := by
  obtain ⟨a, b, s, hs⟩ := exists_subSerialize hne
  have hfree : subDetectRegex.AnchorFree := by
    simp [subDetectRegex, seqs, AnchorFree, chr, some']
  have hframe : ∀ n, (some' digit).Language (decimal n) := fun n =>
    language_some'.2 ⟨decimal_ne_nil, digit_of_mem_decimal⟩
  rw [hs, subDetect, isMatch_textStart hfree]
  refine ⟨_, List.prefix_append _ s, ['{'], _, rfl, language_chr.2 rfl, decimal a, _, rfl, hframe a,
    ['}'], _, rfl, language_chr.2 rfl, ['{'], _, rfl, language_chr.2 rfl, decimal b, _, rfl,
    hframe b, ['}'], [], rfl, language_chr.2 rfl, rfl⟩

/-! ## The parser that is chosen -/

/-- No cue of a file of this format holds what an earlier detector looks for
in a whole text. -/
structure IsUnmistakable (fmt : SubtitleFormatType) (subtitle : Subtitle) : Prop where
  ass : fmt ≠ .ass → ∀ e ∈ subtitle.entries, assDetect e.text = false
  srt : fmt = .sub → ∀ e ∈ subtitle.entries, srtDetect e.text = false

/-- A format that detects a text is chosen for it when the earlier ones do
not. -/
theorem detectFormat_eq_iff {fmt : SubtitleFormatType} (h : fmt.detect s = true) :
    detectFormat s = some fmt ↔ (fmt ≠ .ass → assDetect s = false) ∧
      (fmt ≠ .ass ∧ fmt ≠ .vtt → vttDetect s = false) ∧ (fmt = .sub → srtDetect s = false) := by
  rw [detectFormat, managerFormats]
  cases fmt with
  | ass => simp_all [SubtitleFormatType.detect]
  | vtt =>
    cases ha : assDetect s <;> simp_all [SubtitleFormatType.detect]
  | srt =>
    cases ha : assDetect s <;> cases hv : vttDetect s <;> simp_all [SubtitleFormatType.detect]
  | sub =>
    cases ha : assDetect s <;> cases hv : vttDetect s <;> cases hs : srtDetect s <;>
      simp_all [SubtitleFormatType.detect]

/-- An SRT or SUB file without cues is empty, and is not read back. -/
theorem entries_ne_nil_of_parse {fmt : SubtitleFormatType} {r : Subtitle}
    (hfmt : fmt = .srt ∨ fmt = .sub) (h : fmt.parse (fmt.serialize subtitle) = .ok r) :
    subtitle.entries ≠ [] := by
  intro hnil
  have hfile : fmt.serialize subtitle = [] := by
    rcases hfmt with rfl | rfl
    · rw [SubtitleFormatType.serialize, srtSerialize, hnil]
      rfl
    · rw [SubtitleFormatType.serialize, subSerialize, hnil]
      rfl
  rw [hfile] at h
  rcases hfmt with rfl | rfl
  · cases h
  · cases h

theorem detect_serialize {fmt : SubtitleFormatType} {r : Subtitle}
    (h : fmt.parse (fmt.serialize subtitle) = .ok r) (hne : r.entries ≠ []) :
    fmt.detect (fmt.serialize subtitle) = true := by
  cases fmt with
  | ass =>
    have hscript : "[Script Info]".toList <+: assSerialize subtitle := ⟨_, rfl⟩
    exact assDetect_iff.2 ⟨_, hscript.isInfix, .inl rfl⟩
  | vtt => exact List.isPrefixOf_iff_prefix.2 ⟨_, rfl⟩
  | srt => exact srtDetect_of_srtParse h hne
  | sub => exact subDetect_subSerialize (entries_ne_nil_of_parse (.inr rfl) h)

/-- **A written file is read by its own parser** exactly when no cue holds
what an earlier detector looks for, provided that parser finds a cue. -/
theorem parseAuto_serialize_iff {fmt : SubtitleFormatType} {r : Subtitle}
    (h : fmt.parse (fmt.serialize subtitle) = .ok r) (hne : r.entries ≠ []) :
    (detectFormat (fmt.serialize subtitle) = some fmt ∧
      parseAuto (fmt.serialize subtitle) = fmt.parse (fmt.serialize subtitle)) ↔
      IsUnmistakable fmt subtitle := by
  have hchosen : (detectFormat (fmt.serialize subtitle) = some fmt ∧
      parseAuto (fmt.serialize subtitle) = fmt.parse (fmt.serialize subtitle)) ↔
      detectFormat (fmt.serialize subtitle) = some fmt :=
    ⟨And.left, fun hfmt => ⟨hfmt, by rw [parseAuto, hfmt]⟩⟩
  have hvtt : fmt ≠ .ass ∧ fmt ≠ .vtt → vttDetect (fmt.serialize subtitle) = false := by
    rintro ⟨hass, hvtt⟩
    cases fmt with
    | ass => exact absurd rfl hass
    | vtt => exact absurd rfl hvtt
    | srt => exact vttDetect_srtSerialize (entries_ne_nil_of_parse (.inl rfl) h)
    | sub => exact vttDetect_subSerialize (entries_ne_nil_of_parse (.inr rfl) h)
  rw [hchosen, detectFormat_eq_iff (detect_serialize h hne)]
  constructor
  · rintro ⟨hass, -, hsrt⟩
    refine ⟨fun hfmt e he => ?_, fun hfmt e he => ?_⟩
    · rw [Bool.eq_false_iff]
      intro htext
      have hfile := hass hfmt
      rw [(assDetect_serialize hfmt).2 ⟨e, he, htext⟩] at hfile
      cases hfile
    · subst hfmt
      rw [Bool.eq_false_iff]
      intro htext
      have hfile : srtDetect (subSerialize subtitle) = false := hsrt rfl
      rw [srtDetect_subSerialize.2 ⟨e, he, htext⟩] at hfile
      cases hfile
  · rintro ⟨hass, hsrt⟩
    refine ⟨fun hfmt => ?_, hvtt, fun hfmt => ?_⟩
    · rw [Bool.eq_false_iff, Ne, assDetect_serialize hfmt]
      rintro ⟨e, he, htext⟩
      rw [hass hfmt e he] at htext
      exact Bool.false_ne_true htext
    · subst hfmt
      rw [Bool.eq_false_iff]
      intro hfile
      obtain ⟨e, he, htext⟩ := srtDetect_subSerialize.1 hfile
      rw [hsrt rfl e he] at htext
      exact Bool.false_ne_true htext

/-- A SUB file with a cue that comes close to every detector. -/
def plainSub : Subtitle where
  entries := [⟨1, .fromMillis 400, .fromMillis 1000, "[script info]\n1:00:00,000 --> |".toList, none⟩]
  metadata := ⟨none, none, "utf-8".toList, some 25, .sub⟩
  format := .sub

theorem parseAuto_serialize_iff_plainSub :
    ∃ r, subParse (subSerialize plainSub) = .ok r ∧ r.entries ≠ [] ∧
      ((detectFormat (subSerialize plainSub) = some .sub ∧
        parseAuto (subSerialize plainSub) = subParse (subSerialize plainSub)) ↔
        IsUnmistakable .sub plainSub) := by
  have hread : (subParse (subSerialize plainSub)).map (·.entries.length) = .ok 1 := by
    decide +kernel
  rcases h : subParse (subSerialize plainSub) with e | r
  · rw [h] at hread
    cases hread
  · rw [h] at hread
    have hlength : r.entries.length = 1 := Except.ok.inj hread
    have hne : r.entries ≠ [] := List.ne_nil_of_length_pos (by omega)
    refine ⟨r, rfl, hne, ?_⟩
    have hparse : SubtitleFormatType.sub.parse (SubtitleFormatType.sub.serialize plainSub) = .ok r := h
    rw [← h]
    exact parseAuto_serialize_iff hparse hne

/-- A cue that talks about dialogue. -/
def spokenSrt : Subtitle :=
  parsedSubtitle .srt [⟨1, .fromMillis 1000, .fromMillis 2000, "Dialogue: none".toList, none⟩]

/-- **A written SRT file that is not read as one**: it is read back by the
SRT parser, but taken for an ASS file, and that parser fails. -/
theorem parseAuto_misreads_spokenSrt :
    srtParse (srtSerialize spokenSrt) = .ok spokenSrt ∧ spokenSrt.entries ≠ [] ∧
      detectFormat (srtSerialize spokenSrt) = some .ass ∧
      parseAuto (srtSerialize spokenSrt) ≠ srtParse (srtSerialize spokenSrt) := by
  decide +kernel

end SubxCore
