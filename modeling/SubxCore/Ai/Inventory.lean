import SubxCore.Ai.Prompts
/-!
# The inventory of a prompt

An entry of the inventory has its fields in one line, with a bar between
them, and the prompt has to find them again. `parseIdNamePath_inventoryLine_iff`
says of which files it does: of those whose fields have no white space at
their ends and no bar in them, nor the beginning of one before the bar that
follows.
-/

namespace SubxCore.Ai

open Text Markup

variable {a s x : Text}

/-! ## Cutting at the bars -/

/-- What a bar begins with. -/
def barStart : Text := " |".toList

/-- **A text without a bar is cut off at the bar behind it**, where it does not end in the
beginning of one. -/
theorem splitStr_bar (ha : ¬ bar <:+: a) (hend : ¬ barStart <:+ a) :
    splitStr bar (a ++ (bar ++ s)) = a :: splitStr bar s := by
  refine splitStr_append (by decide) a fun k hk hpre => ?_
  rw [List.drop_append_of_le_length hk.le] at hpre
  have hsuffix : a.drop k <:+ a := List.drop_suffix k a
  have hbar : bar = [' ', '|', ' '] := by decide
  have hstart : barStart = [' ', '|'] := by decide
  rw [hbar] at ha hpre
  rw [hstart] at hend
  -- an occurrence may start one or two characters before the bar, or lie in the text
  rcases hdrop : a.drop k with - | ⟨c, - | ⟨d, - | ⟨e, b⟩⟩⟩
  · exact absurd (List.drop_eq_nil_iff.1 hdrop) (not_le.2 hk)
  · simp [hdrop] at hpre
  · simp only [hdrop, List.cons_append, List.cons_prefix_cons] at hpre
    obtain ⟨rfl, rfl, -⟩ := hpre
    exact hend (hdrop ▸ hsuffix)
  · simp only [hdrop, List.cons_append, List.cons_prefix_cons, List.nil_prefix, and_true] at hpre
    obtain ⟨rfl, rfl, rfl⟩ := hpre
    rw [hdrop] at hsuffix
    exact ha ((List.prefix_append [' ', '|', ' '] b).isInfix.trans hsuffix.isInfix)

/-- No bar reaches over the colon of a label. -/
theorem no_bar_of_label (label : Text) (hlabel : ¬ bar <:+: label) (hx : ¬ bar <:+: x) :
    ¬ bar <:+: label ++ ':' :: x := by
  rw [infix_append_cons (by decide)]
  exact not_or.2 ⟨hlabel, hx⟩

/-- Nor does the beginning of one. -/
theorem barStart_suffix {label : Text} (h : barStart <:+ label ++ ':' :: x) : barStart <:+ x := by
  have hcolon : ':' ∉ barStart := by decide
  rcases List.suffix_or_suffix_of_suffix h (List.suffix_append label (':' :: x)) with h | h
  · rcases List.suffix_cons_iff.1 h with h | h
    · exact absurd (h ▸ List.mem_cons_self) hcolon
    · exact h
  · exact absurd (h.subset List.mem_cons_self) hcolon

/-- **A labelled text is cut off at the bar behind it**, or a little earlier, where it ends in
the beginning of a bar. -/
theorem splitStr_labelled (label : Text) (hlabel : ¬ bar <:+: label) (hx : ¬ bar <:+: x)
    (s : Text) :
    (¬ barStart <:+ x ∧ splitStr bar (label ++ ':' :: x ++ (bar ++ s)) =
        (label ++ ':' :: x) :: splitStr bar s) ∨
      ∃ y, x = y ++ barStart ∧ splitStr bar (label ++ ':' :: x ++ (bar ++ s)) =
        (label ++ ':' :: y) :: splitStr bar ("| ".toList ++ s) := by
  by_cases hend : barStart <:+ x
  · obtain ⟨y, rfl⟩ := hend
    refine .inr ⟨y, rfl, ?_⟩
    have hy : ¬ bar <:+: y := fun h => hx (h.trans (List.prefix_append y barStart).isInfix)
    have hyend : ¬ barStart <:+ y := by
      rintro ⟨z, rfl⟩
      refine hx ⟨z, ['|'], ?_⟩
      rw [List.append_assoc, List.append_assoc]
      exact congrArg (z ++ ·) (by decide)
    have hshift : barStart ++ (bar ++ s) = bar ++ ("| ".toList ++ s) := by
      rw [← List.append_assoc, ← List.append_assoc]
      exact congrArg (· ++ s) (by decide)
    have hcut := splitStr_bar (s := "| ".toList ++ s) (no_bar_of_label label hlabel hy)
      fun h => hyend (barStart_suffix h)
    rw [← hcut, ← hshift]
    simp only [List.append_assoc, List.cons_append]
  · exact .inl ⟨hend, splitStr_bar (no_bar_of_label label hlabel hx)
      fun h => hend (barStart_suffix h)⟩

/-! ## The parts of an entry -/

/-- A field that a line can keep: no white space at its ends, and no bar in it. -/
def Kept (x : Text) : Prop := trim x = x ∧ ¬ bar <:+: x

/-- All fields found so far have a property. -/
structure EntryFields.Forall (P : Text → Prop) (fields : EntryFields) : Prop where
  id : ∀ x ∈ fields.id, P x
  name : ∀ x ∈ fields.name, P x
  path : ∀ x ∈ fields.path, P x

variable {fields : EntryFields} {part : Text} {P : Text → Prop}

/-- A part adds what is behind a label in it. -/
theorem EntryFields.Forall.add (h : fields.Forall P) (hpart : ∀ x, x <:+ part → P (trim x)) :
    (fields.add part).Forall P := by
  have hlabel {label x : Text} (hdrop : part.dropPrefix? label = some x) :
      ∀ y ∈ some (trim x), P y := by
    rintro y hy
    cases hy
    obtain ⟨l, rfl, -⟩ := List.dropPrefix?_eq_some_iff.1 hdrop
    exact hpart x (List.suffix_append l x)
  obtain ⟨hid, hname, hpath⟩ := h
  unfold EntryFields.add
  split
  · next hdrop => exact ⟨hlabel hdrop, hname, hpath⟩
  · split
    · next hdrop => exact ⟨hid, hlabel hdrop, hpath⟩
    · split
      · next hdrop => exact ⟨hid, hname, hlabel hdrop⟩
      · exact ⟨hid, hname, hpath⟩

theorem EntryFields.Forall.foldl (h : fields.Forall P) (parts : List Text)
    (hparts : ∀ part ∈ parts, ∀ x, x <:+ part → P (trim x)) :
    (parts.foldl EntryFields.add fields).Forall P := by
  induction parts generalizing fields with
  | nil => exact h
  | cons part parts ih =>
    obtain ⟨hpart, hparts⟩ := List.forall_mem_cons.1 hparts
    exact ih (h.add hpart) hparts

/-- **Whatever is found in an entry can be kept in one.** -/
theorem kept_of_parseIdNamePath {entry id name path : Text}
    (h : parseIdNamePath entry = some (id, name, path)) : Kept id ∧ Kept name ∧ Kept path := by
  have hnone : EntryFields.Forall Kept ⟨none, none, none⟩ :=
    ⟨by simp, by simp, by simp⟩
  have hkept := hnone.foldl (splitStr bar entry) fun part hpart x hx =>
    ⟨trim_trim, fun hbar => not_infix_of_mem_splitStr (by decide) hpart
      ((hbar.trans infix_trim).trans hx.isInfix)⟩
  unfold parseIdNamePath at h
  split at h
  · next hfields =>
    cases h
    rw [hfields] at hkept
    exact ⟨hkept.id _ rfl, hkept.name _ rfl, hkept.path _ rfl⟩
  · cases h

theorem add_id : fields.add ("ID".toList ++ ':' :: x) = { fields with id := some (trim x) } := by
  simp [EntryFields.add, List.dropPrefix?]

theorem add_name :
    fields.add ("Name".toList ++ ':' :: x) = { fields with name := some (trim x) } := by
  simp [EntryFields.add, List.dropPrefix?]

theorem add_path :
    fields.add ("Path".toList ++ ':' :: x) = { fields with path := some (trim x) } := by
  simp [EntryFields.add, List.dropPrefix?]

/-- A part that starts with the rest of a bar is not labelled. -/
theorem add_bar : fields.add ("| ".toList ++ x) = fields := by
  simp [EntryFields.add, List.dropPrefix?]

/-! ## The line of a file -/

variable {file : MediaFile}

theorem inventoryLine_eq (file : MediaFile) : inventoryLine file =
    "ID".toList ++ ':' :: file.id ++ (bar ++ ("Name".toList ++ ':' :: file.name ++
      (bar ++ ("Path".toList ++ ':' :: file.relativePath)))) := by
  have hid : "ID:".toList = "ID".toList ++ [':'] := by decide
  have hname : " | Name:".toList = bar ++ ("Name".toList ++ [':']) := by decide
  have hpath : " | Path:".toList = bar ++ ("Path".toList ++ [':']) := by decide
  unfold inventoryLine
  simp only [hid, hname, hpath, List.append_assoc, List.cons_append, List.nil_append]

/-- What follows a bar that was cut too early is not labelled. -/
theorem cut_label (label s : Text) : "| ".toList ++ (label ++ ':' :: x ++ s) =
    ("| ".toList ++ label) ++ ':' :: x ++ s := by
  simp only [List.append_assoc]

/-- A line with no bar in its fields is read back, without the white space at their ends. -/
theorem parseIdNamePath_of_ends (hid : ¬ bar <:+: file.id) (hname : ¬ bar <:+: file.name)
    (hpath : ¬ bar <:+: file.relativePath) (hidEnd : ¬ barStart <:+ file.id)
    (hnameEnd : ¬ barStart <:+ file.name) : parseIdNamePath (inventoryLine file) =
      some (trim file.id, trim file.name, trim file.relativePath) := by
  have hids := (splitStr_labelled "ID".toList (by decide) hid
    ("Name".toList ++ ':' :: file.name ++ (bar ++ ("Path".toList ++ ':' :: file.relativePath))))
  have hnames := (splitStr_labelled "Name".toList (by decide) hname
    ("Path".toList ++ ':' :: file.relativePath))
  have hpaths := splitStr_of_absent (no_bar_of_label "Path".toList (by decide) hpath)
  rcases hids with ⟨-, hids⟩ | ⟨y, hy, -⟩
  · rcases hnames with ⟨-, hnames⟩ | ⟨y, hy, -⟩
    · rw [parseIdNamePath, inventoryLine_eq, hids, hnames, hpaths]
      simp only [List.foldl_cons, List.foldl_nil, add_id, add_name, add_path]
    · exact absurd ⟨y, hy.symm⟩ hnameEnd
  · exact absurd ⟨y, hy.symm⟩ hidEnd

/-- A line in which a field before a bar ends in the beginning of one has lost a label. -/
theorem parseIdNamePath_of_barStart (hid : ¬ bar <:+: file.id) (hname : ¬ bar <:+: file.name)
    (hpath : ¬ bar <:+: file.relativePath)
    (hend : barStart <:+ file.id ∨ barStart <:+ file.name) :
    parseIdNamePath (inventoryLine file) = none := by
  have hpaths := splitStr_of_absent (no_bar_of_label "Path".toList (by decide) hpath)
  have hcut := splitStr_of_absent
    (no_bar_of_label ("| ".toList ++ "Path".toList) (by decide) hpath)
  rcases splitStr_labelled "ID".toList (by decide) hid
    ("Name".toList ++ ':' :: file.name ++ (bar ++ ("Path".toList ++ ':' :: file.relativePath)))
    with ⟨hidEnd, hids⟩ | ⟨y, -, hids⟩
  · rcases splitStr_labelled "Name".toList (by decide) hname
      ("Path".toList ++ ':' :: file.relativePath) with ⟨hnameEnd, -⟩ | ⟨z, -, hnames⟩
    · exact absurd hend (not_or.2 ⟨hidEnd, hnameEnd⟩)
    · -- the label of the path is lost
      rw [parseIdNamePath, inventoryLine_eq, hids, hnames, ← List.append_assoc, hcut]
      simp only [List.foldl_cons, List.foldl_nil, add_id, add_name, List.append_assoc, add_bar]
  · -- the label of the name is lost
    rw [parseIdNamePath, inventoryLine_eq, hids, cut_label]
    rcases splitStr_labelled ("| ".toList ++ "Name".toList) (by decide) hname
      ("Path".toList ++ ':' :: file.relativePath) with ⟨-, hnames⟩ | ⟨z, -, hnames⟩
    · rw [hnames, hpaths]
      simp only [List.foldl_cons, List.foldl_nil, add_id, add_path, List.append_assoc, add_bar]
    · rw [hnames, ← List.append_assoc, hcut]
      simp only [List.foldl_cons, List.foldl_nil, add_id, List.append_assoc, add_bar]

/-- A file whose line has one reading. -/
structure Unambiguous (file : MediaFile) : Prop where
  id : Kept file.id
  name : Kept file.name
  path : Kept file.relativePath
  idEnd : ¬ barStart <:+ file.id
  nameEnd : ¬ barStart <:+ file.name

/-- **The fields of a file are found in its line exactly when** they can be kept in one, and
no bar begins at the end of one before the bar that follows. -/
theorem parseIdNamePath_inventoryLine_iff : parseIdNamePath (inventoryLine file) =
    some (file.id, file.name, file.relativePath) ↔ Unambiguous file := by
  constructor
  · intro h
    obtain ⟨hid, hname, hpath⟩ := kept_of_parseIdNamePath h
    have hends : ¬ (barStart <:+ file.id ∨ barStart <:+ file.name) := by
      intro hend
      rw [parseIdNamePath_of_barStart hid.2 hname.2 hpath.2 hend] at h
      cases h
    exact ⟨hid, hname, hpath, fun h => hends (.inl h), fun h => hends (.inr h)⟩
  · intro h
    rw [parseIdNamePath_of_ends h.id.2 h.name.2 h.path.2 h.idEnd h.nameEnd, h.id.1, h.name.1,
      h.path.1]

/-- A text without white space is kept, and ends in no part of a bar. The identifiers that
a scan hands out are such. -/
theorem kept_of_no_whitespace (h : ∀ c ∈ x, isWhitespace c = false) :
    Kept x ∧ ¬ barStart <:+ x := by
  have hblank : isWhitespace ' ' = true := by decide
  refine ⟨⟨trim_eq_self (fun c hc => h c (List.mem_of_head? hc))
    fun c hc => h c (List.mem_of_getLast? hc), fun hbar => ?_⟩, fun hend => ?_⟩
  · have hmem : ' ' ∈ x := hbar.subset (by decide)
    exact absurd (h ' ' hmem) (by rw [hblank]; decide)
  · have hmem : ' ' ∈ x := hend.subset (by decide)
    exact absurd (h ' ' hmem) (by rw [hblank]; decide)

/-! ## The elements of a prompt -/

/-- The element that a file should have. -/
def fileElement (file : MediaFile) : Element := .file file.id file.name file.relativePath

theorem entryElement_inventoryLine_iff :
    entryElement (inventoryLine file) = fileElement file ↔ Unambiguous file := by
  rw [← parseIdNamePath_inventoryLine_iff, entryElement, fileElement]
  rcases parseIdNamePath (inventoryLine file) with - | ⟨id, name, path⟩
  · simp
  · simp

/-- The elements of a prompt whose entries are the lines of files. -/
theorem readElements_inventory (videos subtitles : List MediaFile)
    (samples : List ContentSample) :
    readElements (buildAnalysisPromptBase
        ⟨videos.map inventoryLine, subtitles.map inventoryLine, samples⟩) =
      (videos ++ subtitles).map (entryElement ∘ inventoryLine) ++ samples.map sampleElement := by
  rw [readElements_prompt, List.map_map, List.map_map, ← List.append_assoc, ← List.map_append]

/-- **The prompt gives back every file and every sample exactly when** every file has a line
with one reading. -/
theorem readElements_inventory_iff (videos subtitles : List MediaFile)
    (samples : List ContentSample) :
    readElements (buildAnalysisPromptBase
        ⟨videos.map inventoryLine, subtitles.map inventoryLine, samples⟩) =
      (videos ++ subtitles).map fileElement ++ samples.map sampleElement ↔
        ∀ file ∈ videos ++ subtitles, Unambiguous file := by
  rw [readElements_inventory, List.append_left_inj, List.map_inj_left]
  exact forall₂_congr fun file _ => entryElement_inventoryLine_iff

/-- The request of a run is made of such lines. -/
theorem analysisRequest_inventory {config : PlanConfig} {files : FileSystem}
    {videos subtitles : List MediaFile} {request : AnalysisRequest}
    (h : analysisRequest config files videos subtitles = .ok request) :
    request = ⟨videos.map inventoryLine, subtitles.map inventoryLine, request.contentSamples⟩ := by
  rw [analysisRequest] at h
  by_cases hcontent : config.enableContentAnalysis = true
  · rw [if_pos hcontent] at h
    rcases hsamples : extractContentSamples config files subtitles with stop | samples
    · rw [hsamples] at h
      cases h
    · rw [hsamples] at h
      cases h
      rfl
  · rw [if_neg hcontent] at h
    cases h
    rfl

/-- **So the prompt of a run shows the provider the files of the run**, where every file has a
line with one reading. -/
theorem readElements_analysisRequest {config : PlanConfig} {files : FileSystem}
    {videos subtitles : List MediaFile} {request : AnalysisRequest}
    (h : analysisRequest config files videos subtitles = .ok request)
    (hfiles : ∀ file ∈ videos ++ subtitles, Unambiguous file) :
    readElements (buildAnalysisPromptBase request) =
      (videos ++ subtitles).map fileElement ++ request.contentSamples.map sampleElement := by
  rw [analysisRequest_inventory h, readElements_inventory]
  congr 1
  exact List.map_congr_left fun file hfile => entryElement_inventoryLine_iff.2 (hfiles file hfile)

/-- A video with a bar in its name. -/
def barVideo : MediaFile where
  id := "file_0".toList
  path := [.rootDir, .normal ⟨"Show | Part 1.mkv".toList, by decide⟩]
  fileType := .video
  size := 0
  name := "Show | Part 1.mkv".toList
  extension := "mkv".toList
  relativePath := "Show | Part 1.mkv".toList

/-- **The name is cut at the bar**: the prompt has a file named `Show`. -/
theorem barVideo_renamed : ¬ ∀ (videos subtitles : List MediaFile) (samples : List ContentSample),
    readElements (buildAnalysisPromptBase
        ⟨videos.map inventoryLine, subtitles.map inventoryLine, samples⟩) =
      (videos ++ subtitles).map fileElement ++ samples.map sampleElement := by
  intro h
  have hvideo := h [barVideo] [] []
  rw [readElements_inventory] at hvideo
  have helement : entryElement (inventoryLine barVideo) = fileElement barVideo :=
    List.head_eq_of_cons_eq hvideo
  revert helement
  decide +kernel

end SubxCore.Ai
