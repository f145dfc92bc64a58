import SubxCore.Common.Markup
import SubxCore.Common.Contains
import SubxCore.Matcher.Planning
/-!
# The prompt of an analysis

The inventories and samples of a request as the provider is shown them, and
how they are read again. Every entry and every sample makes one element,
whatever is in it (`readElements_prompt`). An entry is written with its
fields in one line, which is split at the same bars that a name may have in
it; `readElements_inventory_iff` says for which files the fields come out as
they went in.
-/

namespace SubxCore.Ai

open Text Markup Reader

/-! ## Building -/

/-- `xml_escape_attr`, of a character. -/
def escapeChar (ch : Char) : Text :=
  match ch with
  | '&' => "&amp;".toList
  | '<' => "&lt;".toList
  | '>' => "&gt;".toList
  | '\x22' => "&quot;".toList
  | '\x27' => "&#39;".toList
  | _ => [ch]

/-- `xml_escape_attr`. -/
def xmlEscapeAttr (value : Text) : Text := value.flatMap escapeChar

/-- `cdata_wrap`. -/
def cdataWrap (content : Text) : Text :=
  let safe := replaceStr "]]>".toList "]]]]><![CDATA[>".toList content
  "<![CDATA[".toList ++ (safe ++ "]]>".toList)

/-- The fields found in an entry so far. -/
structure EntryFields where
  id : Option Text
  name : Option Text
  path : Option Text

/-- What a part of an entry adds to them. -/
def EntryFields.add (fields : EntryFields) (part : Text) : EntryFields :=
  match part.dropPrefix? "ID:".toList with
  | some rest => { fields with id := some (trim rest) }
  | none =>
    match part.dropPrefix? "Name:".toList with
    | some rest => { fields with name := some (trim rest) }
    | none =>
      match part.dropPrefix? "Path:".toList with
      | some rest => { fields with path := some (trim rest) }
      | none => fields

/-- The bar between two parts. -/
def bar : Text := " | ".toList

/-- `parse_id_name_path`. -/
def parseIdNamePath (entry : Text) : Option (Text × Text × Text) :=
  match (splitStr bar entry).foldl EntryFields.add ⟨none, none, none⟩ with
  | ⟨some id, some name, some path⟩ => some (id, name, path)
  | _ => none

/-- `render_file_element`. -/
def renderFileElement (entry : Text) : Text :=
  match parseIdNamePath entry with
  | some (id, name, path) =>
    "  <file id=\"".toList ++ (xmlEscapeAttr id ++ ("\" name=\"".toList ++ (xmlEscapeAttr name ++
      ("\" path=\"".toList ++ (xmlEscapeAttr path ++ "\"/>\n".toList)))))
  | none =>
    "  <file><![CDATA[".toList ++ (replaceStr "]]>".toList "]]]]><![CDATA[>".toList entry ++
      "]]></file>\n".toList)

/-- The element of a sample. -/
def renderSampleElement (sample : ContentSample) : Text :=
  "  <sample subtitle_file_id=\"".toList ++ (xmlEscapeAttr sample.subtitleFileId ++
    ("\">".toList ++ (cdataWrap sample.contentPreview ++ "</sample>\n".toList)))

/-- The role and the instructions. -/
def analysisInstructions : List String :=
  ["<role>You are an expert subtitle-matching assistant. Pair each subtitle file with the video ",
   "it belongs to using filename evidence and the subtitle preview text.</role>\n",
   "<instructions>\n",
   "## Task\n",
   "Analyze the inventories below and return JSON-only output that pairs every confidently ",
   "matched subtitle with its video. Use the file IDs verbatim — never invent new IDs and never ",
   "echo filenames as IDs.\n\n",
   "## Language Inference Rules\n",
   "Use BOTH the filename and the `<content_samples>` text to infer each subtitle's language. ",
   "The content sample is the primary signal: when filename and content disagree, trust the ",
   "content. Output a short language code (e.g. `tc`, `sc`, `en`, `ja`, `ko`, `fr`, `de`, `es`, ",
   "`pt`, `ru`). Use `und` only when the language genuinely cannot be determined.\n\n",
   "## Naming and Uniqueness Rules\n",
   "Across the entire `matches[]` array — not just within a single video — no two entries MAY ",
   "produce the same final filename in the same target directory. When two subtitles for the ",
   "same video would otherwise collide, supply distinct `language` codes. If both share the ",
   "same language, supply a numeric `target_filename_suffix` (`2`, `3`, …) starting at `2`. The ",
   "suffix MUST be one short token of `[A-Za-z0-9_-]` and at most 16 characters; it is spliced ",
   "between the video base name and the subtitle extension.\n\n",
   "## Output Schema\n",
   "Respond with a single JSON object — no prose, no Markdown fences. Keys are stable: ",
   "`matches[]` (array of objects with `video_file_id`, `subtitle_file_id`, `confidence`, ",
   "`match_factors`, optional `language`, optional `target_filename_suffix`), `confidence` ",
   "(overall score), and `reasoning` (short English explanation).\n",
   "</instructions>\n"]

/-- How to read the samples. -/
def contentSamplesInstructions : List String :=
  ["<content_samples_instructions>Each `<sample>` element's `subtitle_file_id` attribute ",
   "matches the `id` attribute on the corresponding `<file>` element in `<subtitle_files>`. ",
   "Resolve sample-to-subtitle relationships through this ID, never by ",
   "filename.</content_samples_instructions>\n",
   "<content_samples>\n"]

/-- The schema of the reply. -/
def outputSchema : List String :=
  ["<output_schema>\n",
   "\x7b\n",
   "  \"matches\": [\n",
   "    \x7b\n",
   "      \"video_file_id\": \"file_<uuid>\",\n",
   "      \"subtitle_file_id\": \"file_<uuid>\",\n",
   "      \"confidence\": 0.95,\n",
   "      \"match_factors\": [\"filename_similarity\", \"content_correlation\"],\n",
   "      \"language\": \"tc\",\n",
   "      \"target_filename_suffix\": \"tc\"\n",
   "    \x7d\n",
   "  ],\n",
   "  \"confidence\": 0.9,\n",
   "  \"reasoning\": \"Short English explanation\"\n",
   "\x7d\n",
   "</output_schema>\n"]

/-- An example of a reply. -/
def analysisExample : List String :=
  ["<example>\n",
   "  <input_summary>One video plus two same-named subtitles whose content samples reveal ",
   "Traditional vs Simplified Chinese.</input_summary>\n",
   "  <output>\x7b\"matches\":[\x7b\"video_file_id\":\"file_v1\",",
   "\"subtitle_file_id\":\"file_s1\",\"confidence\":0.95,",
   "\"match_factors\":[\"content_correlation\"],\"language\":\"tc\",",
   "\"target_filename_suffix\":\"tc\"\x7d,\x7b\"video_file_id\":\"file_v1\",",
   "\"subtitle_file_id\":\"file_s2\",\"confidence\":0.95,",
   "\"match_factors\":[\"content_correlation\"],\"language\":\"sc\",",
   "\"target_filename_suffix\":\"sc\"\x7d],\"confidence\":0.95,\"reasoning\":\"Distinguished by ",
   "script\"\x7d</output>\n",
   "</example>\n"]

/-- Strings pushed one after the other. -/
def pushed (strings : List String) : Text := strings.flatMap String.toList

/-- `build_analysis_prompt_base`. -/
def buildAnalysisPromptBase (request : AnalysisRequest) : Text :=
  pushed analysisInstructions ++
  pushed ["<video_files>\n"] ++ request.videoFiles.flatMap renderFileElement ++
  pushed ["</video_files>\n"] ++
  pushed ["<subtitle_files>\n"] ++ request.subtitleFiles.flatMap renderFileElement ++
  pushed ["</subtitle_files>\n"] ++
  (if request.contentSamples.isEmpty then [] else
    pushed contentSamplesInstructions ++
    request.contentSamples.flatMap renderSampleElement ++ pushed ["</content_samples>\n"]) ++
  pushed outputSchema ++ pushed analysisExample

/-! ## Reading -/

/-- An element for a file or a sample. -/
inductive Element
  | file (id name path : Text)
  | raw (entry : Text)
  | sample (subtitleFileId preview : Text)
  deriving DecidableEq

/-- A file with its attributes. -/
def readFile : Reader Char Element := fun s => do
  let s ← s.dropPrefix? "<file id=\"".toList
  let (id, s) ← readQuoted s
  let s ← s.dropPrefix? " name=\"".toList
  let (name, s) ← readQuoted s
  let s ← s.dropPrefix? " path=\"".toList
  let (path, s) ← readQuoted s
  let s ← s.dropPrefix? "/>".toList
  return (.file id name path, s)

/-- A file with its entry as it is. -/
def readRaw : Reader Char Element := fun s => do
  let s ← s.dropPrefix? "<file>".toList
  let (entry, s) ← readSections s
  let s ← s.dropPrefix? "</file>".toList
  return (.raw entry, s)

/-- A sample. -/
def readSample : Reader Char Element := fun s => do
  let s ← s.dropPrefix? "<sample subtitle_file_id=\"".toList
  let (subtitleFileId, s) ← readQuoted s
  let s ← s.dropPrefix? ">".toList
  let (preview, s) ← readSections s
  let s ← s.dropPrefix? "</sample>".toList
  return (.sample subtitleFileId preview, s)

/-- An element for a file or a sample. -/
def readElement : Reader Char Element := fun s =>
  (readFile s).or ((readRaw s).or (readSample s))

/-- All elements for files and samples in a prompt, in order. -/
def readElements (prompt : Text) : List Element := scan readElement prompt

/-! ## What is written is read -/

theorem escapeChar_entity (c : Char) :
    (c, escapeChar c) ∈ entities ∨ escapeChar c = [c] ∧ c ≠ '&' := by
  unfold escapeChar
  split
  · exact .inl (by decide)
  · exact .inl (by decide)
  · exact .inl (by decide)
  · exact .inl (by decide)
  · exact .inl (by decide)
  · next hamp _ _ _ _ => exact .inr ⟨rfl, hamp⟩

/-- **An escaped value is read as it was.** -/
@[simp] theorem unescape_xmlEscapeAttr (value : Text) : unescape (xmlEscapeAttr value) = value :=
  unescape_flatMap escapeChar_entity value

/-- Nor does it end the value. -/
theorem quote_not_mem_xmlEscapeAttr (value : Text) : quote ∉ xmlEscapeAttr value := by
  intro hmem
  obtain ⟨c, -, hc⟩ := List.mem_flatMap.1 hmem
  revert hc
  unfold escapeChar
  split
  · decide
  · decide
  · decide
  · decide
  · decide
  · next _ _ _ hquote _ => exact fun hc => hquote (List.mem_singleton.1 hc).symm

@[simp] theorem readQuoted_xmlEscapeAttr (value s : Text) :
    readQuoted (xmlEscapeAttr value ++ quote :: s) = some (value, s) := by
  rw [readQuoted_append (quote_not_mem_xmlEscapeAttr value), unescape_xmlEscapeAttr]

theorem cdataWrap_append (content s : Text) : cdataWrap content ++ s =
    sectionStart ++ (replaceStr sectionEnd cutEnd content ++ (sectionEnd ++ s)) := by
  unfold cdataWrap
  exact (List.append_assoc _ _ _).trans (congrArg _ (List.append_assoc _ _ _))

/-- **What is in a section is read as it was.** -/
theorem readSections_cdataWrap {s : Text} (hs : ¬ sectionStart <+: s) (content : Text) :
    readSections (cdataWrap content ++ s) = some (content, s) := by
  rw [cdataWrap_append, readSections_append hs]

/-- The element of an entry. -/
def entryElement (entry : Text) : Element :=
  match parseIdNamePath entry with
  | some (id, name, path) => .file id name path
  | none => .raw entry

/-- The element of a sample. -/
def sampleElement (sample : ContentSample) : Element :=
  .sample sample.subtitleFileId sample.contentPreview

theorem dropPrefix?_eq_none {p s : Text} (h : ¬ p <+: s) : s.dropPrefix? p = none := by
  rcases hdrop : s.dropPrefix? p with - | t
  · rfl
  · obtain ⟨p', rfl, hp⟩ := List.dropPrefix?_eq_some_iff.1 hdrop
    rw [eq_of_beq hp] at h
    exact absurd (List.prefix_append p t) h

/-- How the elements begin. -/
def openings : List Text :=
  ["<file id=\"".toList, "<file><![CDATA[".toList, "<sample subtitle_file_id=\"".toList]

theorem opensWith_readElement : OpensWith openings readElement := by
  intro s h
  simp only [openings, List.forall_mem_cons, List.not_mem_nil, false_imp_iff, implies_true,
    and_true] at h
  obtain ⟨hfile, hraw, hsample⟩ := h
  have hsections : readRaw s = none := by
    rw [readRaw]
    rcases hdrop : s.dropPrefix? "<file>".toList with - | t
    · rfl
    · obtain ⟨p, rfl, hp⟩ := List.dropPrefix?_eq_some_iff.1 hdrop
      rw [eq_of_beq hp] at hraw
      have ht : ¬ sectionStart <+: t :=
        fun hpre => hraw ((List.prefix_append_right_inj "<file>".toList).2 hpre)
      simp [readSections, dropPrefix?_eq_none ht]
  rw [readElement, hsections, readFile, readSample, dropPrefix?_eq_none hfile,
    dropPrefix?_eq_none hsample]
  rfl

variable {s : Text}

/-- An element on a line of its own. -/
theorem scan_line {body : Text} {element : Element} (hne : body ≠ [])
    (h : ∀ s, readElement (body ++ s) = some (element, s)) (s : Text) :
    scan readElement ("  ".toList ++ (body ++ ("\n".toList ++ s))) =
      element :: scan readElement s := by
  rw [scan_append_of_inert opensWith_readElement (by decide), scan_append_of_read hne (h _),
    scan_append_of_inert opensWith_readElement (by decide)]

theorem readFile_eq_none (h : ¬ "<file id=\"".toList <+: s) : readFile s = none := by
  rw [readFile, dropPrefix?_eq_none h]
  rfl

theorem readRaw_eq_none (h : ¬ "<file>".toList <+: s) : readRaw s = none := by
  rw [readRaw, dropPrefix?_eq_none h]
  rfl

theorem readElement_file (id name path s : Text) :
    readElement ("<file id=\"".toList ++ (xmlEscapeAttr id ++ (quote :: " name=\"".toList ++
      (xmlEscapeAttr name ++ (quote :: " path=\"".toList ++ (xmlEscapeAttr path ++
        quote :: "/>".toList))))) ++ s) = some (.file id name path, s) := by
  simp only [readElement, readFile, List.append_assoc, List.cons_append, dropPrefix?_append,
    readQuoted_xmlEscapeAttr, Option.bind_eq_bind, Option.bind_some]
  rfl

theorem readElement_raw (entry s : Text) :
    readElement ("<file>".toList ++ (cdataWrap entry ++ "</file>".toList) ++ s) =
      some (.raw entry, s) := by
  have hend : ¬ sectionStart <+: "</file>".toList ++ s :=
    not_prefix_append (by decide) (by decide)
  rw [List.append_assoc, List.append_assoc, readElement,
    readFile_eq_none (not_prefix_append (by decide) (by decide))]
  simp only [readRaw, dropPrefix?_append, Option.bind_eq_bind, Option.bind_some,
    readSections_cdataWrap hend]
  rfl

theorem readElement_sample (sample : ContentSample) (s : Text) :
    readElement ("<sample subtitle_file_id=\"".toList ++ (xmlEscapeAttr sample.subtitleFileId ++
      (quote :: ">".toList ++ (cdataWrap sample.contentPreview ++ "</sample>".toList))) ++ s) =
      some (sampleElement sample, s) := by
  have hend : ¬ sectionStart <+: "</sample>".toList ++ s :=
    not_prefix_append (by decide) (by decide)
  simp only [List.append_assoc, List.cons_append]
  rw [readElement, readFile_eq_none (not_prefix_append (by decide) (by decide)),
    readRaw_eq_none (not_prefix_append (by decide) (by decide))]
  simp only [readSample, dropPrefix?_append, readQuoted_xmlEscapeAttr, Option.bind_eq_bind,
    Option.bind_some, readSections_cdataWrap hend]
  rfl

/-- **An entry makes one element**, whatever is in it. -/
theorem scan_renderFileElement (entry s : Text) :
    scan readElement (renderFileElement entry ++ s) = entryElement entry :: scan readElement s := by
  rw [renderFileElement, entryElement]
  rcases parseIdNamePath entry with - | ⟨id, name, path⟩
  · have hopen : "  <file><![CDATA[".toList =
        "  ".toList ++ ("<file>".toList ++ sectionStart) := rfl
    have hclose : "]]></file>\n".toList =
        sectionEnd ++ ("</file>".toList ++ "\n".toList) := rfl
    have hline := scan_line (List.append_ne_nil_of_left_ne_nil (by decide) _)
      (readElement_raw entry) s
    simp only [List.append_assoc, cdataWrap_append] at hline
    simp only [hopen, hclose, List.append_assoc]
    exact hline
  · have hopen : "  <file id=\"".toList = "  ".toList ++ "<file id=\"".toList := rfl
    have hname : "\" name=\"".toList = quote :: " name=\"".toList := rfl
    have hpath : "\" path=\"".toList = quote :: " path=\"".toList := rfl
    have hclose : "\"/>\n".toList = quote :: "/>".toList ++ "\n".toList := rfl
    have hline := scan_line (List.append_ne_nil_of_left_ne_nil (by decide) _)
      (readElement_file id name path) s
    simp only [List.append_assoc, List.cons_append] at hline
    simp only [hopen, hname, hpath, hclose, List.append_assoc, List.cons_append]
    exact hline

/-- **So does a sample.** -/
theorem scan_renderSampleElement (sample : ContentSample) (s : Text) :
    scan readElement (renderSampleElement sample ++ s) =
      sampleElement sample :: scan readElement s := by
  have hopen : "  <sample subtitle_file_id=\"".toList =
      "  ".toList ++ "<sample subtitle_file_id=\"".toList := rfl
  have hvalue : "\">".toList = quote :: ">".toList := rfl
  have hclose : "</sample>\n".toList = "</sample>".toList ++ "\n".toList := rfl
  have hline := scan_line (List.append_ne_nil_of_left_ne_nil (by decide) _)
    (readElement_sample sample) s
  simp only [List.append_assoc, List.cons_append] at hline
  unfold renderSampleElement
  simp only [hopen, hvalue, hclose, List.append_assoc, List.cons_append]
  exact hline

/-! ## The texts around the elements -/

/-- Strings in which no element begins. -/
def Inert (strings : List String) : Prop := ∀ t ∈ strings, inert openings t.toList = true

theorem Inert.nil : Inert [] := fun _ h => absurd h List.not_mem_nil

/-- The openings as lists of characters, which are compared faster than strings. -/
def openingChars : List Text :=
  [['<', 'f', 'i', 'l', 'e', ' ', 'i', 'd', '=', '"'],
   ['<', 'f', 'i', 'l', 'e', '>', '<', '!', '[', 'C', 'D', 'A', 'T', 'A', '['],
   ['<', 's', 'a', 'm', 'p', 'l', 'e', ' ', 's', 'u', 'b', 't', 'i', 't', 'l', 'e', '_', 'f', 'i',
    'l', 'e', '_', 'i', 'd', '=', '"']]

theorem openingChars_eq : openingChars = openings := by decide +kernel

/-- A string is looked at as the list of its characters. -/
theorem Inert.cons {l : Text} {strings : List String} (h : inert openingChars l = true)
    (hs : Inert strings) : Inert (String.ofList l :: strings) := by
  refine List.forall_mem_cons.2 ⟨?_, hs⟩
  rw [String.toList_ofList, ← openingChars_eq]
  exact h

/-- They are passed over. -/
theorem scan_pushed {strings : List String} (h : Inert strings) :
    scan readElement (pushed strings ++ s) = scan readElement s := by
  induction strings with
  | nil => rfl
  | cons t strings ih =>
    obtain ⟨ht, hs⟩ := List.forall_mem_cons.1 h
    rw [pushed, List.flatMap_cons, List.append_assoc,
      scan_append_of_inert opensWith_readElement ht]
    exact ih hs

/-- The texts of every prompt are passed over. -/
theorem inert_texts : Inert analysisInstructions ∧ Inert contentSamplesInstructions ∧
    Inert outputSchema ∧ Inert analysisExample := by
  unfold analysisInstructions contentSamplesInstructions outputSchema analysisExample
  refine ⟨?_, ?_, ?_, ?_⟩
  · iterate 25 refine .cons (by decide +kernel) ?_
    exact .nil
  · iterate 5 refine .cons (by decide +kernel) ?_
    exact .nil
  · iterate 16 refine .cons (by decide +kernel) ?_
    exact .nil
  · iterate 12 refine .cons (by decide +kernel) ?_
    exact .nil

/-- **A prompt has one element for each entry and each sample**, and they are in order. -/
theorem readElements_prompt (request : AnalysisRequest) :
    readElements (buildAnalysisPromptBase request) =
      request.videoFiles.map entryElement ++ (request.subtitleFiles.map entryElement ++
        request.contentSamples.map sampleElement) := by
  obtain ⟨hinstructions, hsamplesInstructions, hschema, hexample⟩ := inert_texts
  have hsamples (s : Text) : scan readElement
      ((if request.contentSamples.isEmpty then [] else
        pushed contentSamplesInstructions ++
        request.contentSamples.flatMap renderSampleElement ++
        pushed ["</content_samples>\n"]) ++ s) =
      request.contentSamples.map sampleElement ++ scan readElement s := by
    rcases request.contentSamples with - | ⟨sample, samples⟩
    · rfl
    · rw [List.isEmpty_cons, if_neg Bool.false_ne_true, List.append_assoc, List.append_assoc,
        scan_pushed hsamplesInstructions, scan_flatMap scan_renderSampleElement,
        scan_pushed (.cons (by decide) .nil)]
  have hend : scan readElement (pushed outputSchema ++ pushed analysisExample) = [] := by
    rw [scan_pushed hschema, ← List.append_nil (pushed analysisExample),
      scan_pushed hexample, scan_nil]
  unfold readElements buildAnalysisPromptBase
  simp only [List.append_assoc] at hsamples ⊢
  rw [scan_pushed hinstructions, scan_pushed (.cons (by decide) .nil),
    scan_flatMap scan_renderFileElement, scan_pushed (.cons (by decide) .nil),
    scan_pushed (.cons (by decide) .nil), scan_flatMap scan_renderFileElement,
    scan_pushed (.cons (by decide) .nil), hsamples, hend, List.append_nil]

end SubxCore.Ai
