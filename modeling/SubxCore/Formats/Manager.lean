import SubxCore.Formats.Conversion
import SubxCore.Formats.FormatConverter
import SubxCore.Formats.Utf8Detection
/-!
# Saving and loading subtitles

`save_subtitle` goes by the extension of the file, and `load_subtitle` by what is in it:
how many bytes there are, which encoding they look like, and which format the text looks
like. So a file that has been saved is loaded as what was written, where the text is not
too large, is taken for UTF-8 and is taken by no format that is asked before its own.
-/

namespace SubxCore

open Text Reader

/-- `file_extensions`. -/
def SubtitleFormatType.fileExtensions : SubtitleFormatType → List Text
  | .srt => ["srt".toList]
  | .ass => ["ass".toList, "ssa".toList]
  | .vtt => ["vtt".toList]
  | .sub => ["sub".toList]

/-- `FormatManager::get_format_by_extension`. -/
def getFormatByExtension (ext : Text) : Option SubtitleFormatType :=
  managerFormats.find? fun fmt => toLowercase ext ∈ fmt.fileExtensions

/-- `FormatManager::load_subtitle`. -/
def loadSubtitle (decode : Decoder) (files : FileSystem) (filePath : Path) :
    Except SubXError Subtitle := do
  checkFileSize files filePath 52428800 "Subtitle".toList
  let content ← readSubtitleWithEncodingDetection decode files filePath
  parseAuto content

/-- The format a file is saved in. -/
def savingFormat (filePath : Path) : Option SubtitleFormatType :=
  getFormatByExtension (filePath.extension.getD [])

/-- `FormatManager::save_subtitle`, where some writes are refused. -/
def saveSubtitle (refused : Path → Option IoError) (files : FileSystem) (subtitle : Subtitle)
    (filePath : Path) : Except SubXError FileSystem :=
  match savingFormat filePath with
  | none => .error (.subtitleFormat (filePath.extension.getD [])
      "Unsupported subtitle format for saving".toList)
  | some fmt =>
    match refused filePath with
    | some e => .error (.io e.display)
    | none => .ok (Function.update files filePath (some (utf8 (fmt.serialize subtitle))))

variable {fmt : SubtitleFormatType} {s r : Subtitle} {t : Text} {decode : Decoder}
variable {refused : Path → Option IoError} {files files' : FileSystem} {filePath : Path}

/-! ## Formats by name -/

/-- A format is found by its name, in any case, and by any of its extensions. -/
theorem getFormat_formatName (fmt : SubtitleFormatType) :
    getFormat fmt.formatName = some fmt ∧ getFormat fmt.asStr = some fmt ∧
      ∀ ext ∈ fmt.fileExtensions, getFormatByExtension ext = some fmt := by
  cases fmt <;> decide

/-! ## What is written -/

/-- What a save changes. -/
theorem saveSubtitle_eq_ok (hfmt : savingFormat filePath = some fmt)
    (hsave : saveSubtitle refused files s filePath = .ok files') :
    files' = Function.update files filePath (some (utf8 (fmt.serialize s))) := by
  unfold saveSubtitle at hsave
  rw [hfmt] at hsave
  dsimp only at hsave
  split at hsave
  · cases hsave
  · exact (Except.ok.inj hsave).symm

/-- A written file that is read back is not empty, and starts with no byte-order mark. -/
theorem exists_serialize (h : fmt.parse (fmt.serialize s) = .ok r) :
    ∃ c rest, fmt.serialize s = c :: rest ∧ c ≠ '\uFEFF' := by
  cases fmt with
  | ass => exact ⟨'[', _, rfl, by decide⟩
  | vtt => exact ⟨'W', _, rfl, by decide⟩
  | srt =>
    obtain ⟨e, es, hes⟩ := List.exists_cons_of_ne_nil (entries_ne_nil_of_parse (.inl rfl) h)
    refine ⟨'1', (srtBlock 1 e).tail ++ ['\n', '\n'] ++ (es.zipIdx 2).flatMap fun x =>
      srtBlock x.2 x.1 ++ ['\n', '\n'], ?_, by decide⟩
    rw [SubtitleFormatType.serialize, srtSerialize, hes]
    rfl
  | sub =>
    obtain ⟨a, b, rest, hfile⟩ := exists_subSerialize (entries_ne_nil_of_parse (.inr rfl) h)
    exact ⟨'{', _, hfile, by decide⟩

/-! ## What is read -/

/-- What a parser returns is of its own format. -/
theorem format_of_parse (h : fmt.parse t = .ok r) : r.format = fmt := by
  cases fmt with
  | ass => exact (hasWholeMillis_of_assParse h).1
  | vtt => exact (hasWholeMillis_of_vttParse h).1
  | srt =>
    have h : srtParse t = .ok r := h
    unfold srtParse at h
    dsimp only at h
    split at h
    · cases h
    split at h
    · cases h
    obtain ⟨entries, -, h⟩ := Run.bind_eq_ok.1 h
    obtain rfl := Except.ok.inj h
    rfl
  | sub =>
    have h : subParse t = .ok r := h
    unfold subParse at h
    split at h
    · cases h
    obtain ⟨entries, -, h⟩ := Run.bind_eq_ok.1 h
    obtain rfl := Except.ok.inj h
    rfl

/-- A written file is taken by no earlier format exactly when none of its cues would be. -/
theorem detectFormat_serialize_iff (h : fmt.parse (fmt.serialize s) = .ok r) (hne : r.entries ≠ []) :
    detectFormat (fmt.serialize s) = some fmt ↔ IsUnmistakable fmt s := by
  have hvtt : fmt ≠ .ass ∧ fmt ≠ .vtt → vttDetect (fmt.serialize s) = false := by
    rintro ⟨hass, hvtt⟩
    cases fmt with
    | ass => exact absurd rfl hass
    | vtt => exact absurd rfl hvtt
    | srt => exact vttDetect_srtSerialize (entries_ne_nil_of_parse (.inl rfl) h)
    | sub => exact vttDetect_subSerialize (entries_ne_nil_of_parse (.inr rfl) h)
  have hass : fmt ≠ .ass → (assDetect (fmt.serialize s) = false ↔
      ∀ e ∈ s.entries, assDetect e.text = false) := by
    intro hfmt
    rw [← Bool.not_eq_true, assDetect_serialize hfmt]
    simp
  have hsrt : fmt = .sub → (srtDetect (fmt.serialize s) = false ↔
      ∀ e ∈ s.entries, srtDetect e.text = false) := by
    rintro rfl
    rw [← Bool.not_eq_true, SubtitleFormatType.serialize, srtDetect_subSerialize]
    simp
  rw [detectFormat_eq_iff (detect_serialize h hne)]
  constructor
  · rintro ⟨ha, -, hs⟩
    exact ⟨fun hfmt => (hass hfmt).1 (ha hfmt), fun hfmt => (hsrt hfmt).1 (hs hfmt)⟩
  · rintro ⟨ha, hs⟩
    exact ⟨fun hfmt => (hass hfmt).2 (ha hfmt), hvtt, fun hfmt => (hsrt hfmt).2 (hs hfmt)⟩

/-- A text is parsed as what its own parser makes of it only by that parser. -/
theorem parseAuto_eq_ok_iff (h : fmt.parse t = .ok r) :
    parseAuto t = .ok r ↔ detectFormat t = some fmt := by
  constructor
  · intro hauto
    unfold parseAuto at hauto
    split at hauto
    · rename_i other hother
      rw [hother, ← format_of_parse hauto, format_of_parse h]
    · cases hauto
  · intro hfmt
    rw [parseAuto, hfmt]
    exact h

/-- A file of more than 50 MiB is not loaded. -/
theorem loadSubtitle_of_lt {content : Bytes} (hfile : files filePath = some content)
    (hsize : 52428800 < content.length) : loadSubtitle decode files filePath ≠ .ok r := by
  intro hload
  obtain ⟨_, hcheck, -⟩ := Run.bind_eq_ok.1 hload
  unfold checkFileSize at hcheck
  rw [hfile] at hcheck
  dsimp only at hcheck
  rw [if_pos hsize] at hcheck
  cases hcheck

/-- Another one is loaded as its text is parsed, where that is taken for UTF-8. -/
theorem loadSubtitle_eq_parseAuto (hfile : files filePath = some (utf8 t))
    (hsize : byteLen t ≤ 52428800) (hread : ReadAsUtf8 decode files filePath t) :
    loadSubtitle decode files filePath = parseAuto t := by
  have hcheck : checkFileSize files filePath 52428800 "Subtitle".toList = .ok () :=
    checkFileSize_of_le hfile (by rwa [length_utf8])
  rw [loadSubtitle, hcheck, hread.sampleText]
  rfl

/-- **A saved subtitle is loaded as what was written exactly when** none of its cues holds what
the formats asked before its own look for. That is so for a file of up to 50 MiB that its parser
reads and finds a cue in, whose first 8192 bytes do not end inside a character or have enough
malformed units in GBK. A larger file is saved, and never loaded; no other file is changed. -/
theorem loadSubtitle_saveSubtitle_iff (decode : Decoder) (hfmt : savingFormat filePath = some fmt)
    (hsave : saveSubtitle refused files s filePath = .ok files')
    (hparse : fmt.parse (fmt.serialize s) = .ok r) (hne : r.entries ≠ []) :
    (∀ p ≠ filePath, files' p = files p) ∧
      (52428800 < byteLen (fmt.serialize s) → ∀ r', loadSubtitle decode files' filePath ≠ .ok r') ∧
      (byteLen (fmt.serialize s) ≤ 52428800 →
        (cuts 8192 (fmt.serialize s) = false ∨
          (EncodingDetector.pairs ((utf8 (fmt.serialize s)).take 8192)).length ≤
            EncodingDetector.gbkMalformed ((utf8 (fmt.serialize s)).take 8192) *
              begun 8192 (fmt.serialize s)) →
        (loadSubtitle decode files' filePath = .ok r ↔ IsUnmistakable fmt s)) := by
  obtain ⟨c, rest, htext, hc⟩ := exists_serialize hparse
  have hnil : fmt.serialize s ≠ [] := by
    rw [htext]
    exact List.cons_ne_nil c rest
  have hmark : (fmt.serialize s).head? ≠ some '\uFEFF' := by
    rw [htext]
    exact fun h => hc (Option.some.inj h)
  obtain rfl := saveSubtitle_eq_ok hfmt hsave
  have hfile := Function.update_self filePath (some (utf8 (fmt.serialize s))) files
  refine ⟨fun p hp => Function.update_of_ne hp _ _, fun hsize r' => ?_, fun hsize hutf8 => ?_⟩
  · exact loadSubtitle_of_lt hfile (by rwa [length_utf8])
  · have hsample := (EncodingDetector.detectEncoding_take_iff hmark hnil (by omega)).2 hutf8
    have hread : ReadAsUtf8 decode _ filePath (fmt.serialize s) :=
      readAsUtf8_of_charset hfile hsize hmark hnil hsample
    rw [loadSubtitle_eq_parseAuto hfile hsize hread, parseAuto_eq_ok_iff hparse,
      detectFormat_serialize_iff hparse hne]

/-- One cue, and the file it is saved to. -/
def greetingSrt : Subtitle :=
  parsedSubtitle .srt [⟨1, .fromMillis 1000, .fromMillis 2000, "Good morning".toList, none⟩]

def greetingPath : Path := [.normal ⟨"greeting.SRT".toList, by decide⟩]

theorem loadSubtitle_saveSubtitle_iff_greeting :
    ∃ files', saveSubtitle (fun _ => none) (fun _ => none) greetingSrt greetingPath = .ok files' ∧
      loadSubtitle asciiDecoder files' greetingPath = .ok greetingSrt := by
  have hfmt : savingFormat greetingPath = some .srt := by decide +kernel
  have hsave : saveSubtitle (fun _ => none) (fun _ => none) greetingSrt greetingPath =
      .ok (Function.update (fun _ => none) greetingPath (some (utf8 (srtSerialize greetingSrt)))) := by
    rw [saveSubtitle, hfmt]
    rfl
  have hparse : SubtitleFormatType.srt.parse (SubtitleFormatType.srt.serialize greetingSrt) =
      .ok greetingSrt := by
    decide +kernel
  refine ⟨_, hsave, ((loadSubtitle_saveSubtitle_iff asciiDecoder hfmt hsave hparse
    (List.cons_ne_nil _ _)).2.2 ?_ (.inl ?_)).2 ⟨fun _ => ?_, fun h => by cases h⟩⟩
  · decide +kernel
  · decide +kernel
  · decide +kernel

end SubxCore
