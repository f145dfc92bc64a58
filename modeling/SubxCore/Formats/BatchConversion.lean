import SubxCore.Formats.ConversionSteps
/-!
# Converting a directory

A batch that returns its results has given every file an output of its own,
with the conversion of what the file held, and changed no other file, when
no two subtitles of a directory have one stem and no output is a link to what
is not free, and only then (`batchConverted_iff`).
-/

namespace SubxCore

namespace Batch

open Text Function

variable (decode : Decoder) (config : ConversionConfig) (links : SymbolicLinks)
variable (targetFormat : Text) (paths : List Path)

/-- **A batch has converted its files**: each has an output of its own, with the
conversion of the content it had, which nobody had overwritten before it was
read; and what is not the output of its own conversion is as it was. -/
structure Converted (files : FileSystem) (as : List Action) (s : State) : Prop where
  distinct : (paths.map (outputPlace links targetFormat)).Nodup
  output : ∀ p ∈ paths, ∃ output result,
    ConvertsTo decode config links targetFormat files p output result ∧
      links.contents s.files (outputPath targetFormat p) = some output
  unread : ∀ t, (batch decode config links targetFormat paths).Visits (initial files) as t →
    ∀ p ∈ paths, (t.stage p).unread → links.contents t.files p = links.contents files p
  kept : ∀ place content, files place = some content →
    ¬ (∃ p ∈ paths, links.leads p = place ∧ outputPlace links targetFormat p = place) →
    s.files place = some content

/-- **The outputs are free**: no two subtitles of one directory have the same stem,
and an output that is a link leads to what no other output is written to, and to
no file, or just the one converted. -/
structure OutputsFree (files : FileSystem) : Prop where
  stems : paths.Pairwise fun p q => p.parent = q.parent → p.fileStem ≠ q.fileStem
  outputs : ∀ p ∈ paths, links.isLink (outputPath targetFormat p) → ∀ q ∈ paths, q ≠ p →
    outputPlace links targetFormat q ≠ outputPlace links targetFormat p
  files : ∀ p ∈ paths, links.isLink (outputPath targetFormat p) →
    (files (outputPlace links targetFormat p)).isSome →
      links.leads p = outputPlace links targetFormat p

/-- A link leads to another file, which holds just what is to be written to it. -/
def HeldAlready (files : FileSystem) : Prop :=
  ∃ p ∈ paths, links.isLink (outputPath targetFormat p) ∧
    links.leads p ≠ outputPlace links targetFormat p ∧
    ∃ output result, ConvertsTo decode config links targetFormat files p output result ∧
      files (outputPlace links targetFormat p) = some output

variable {decode config links targetFormat paths}
variable {files : FileSystem} {s : State} {a : Action} {as : List Action} {p q : Path}

/-! ## Every run -/

/-- A batch returns its results when every conversion has. -/
theorem returned_of_convertBatch {paths : List Path} {results : List ConversionResult}
    (h : convertBatch paths s = some (.ok results)) :
    ∀ p ∈ paths, ∃ result, s.stage p = .returned (.ok result) := by
  unfold convertBatch at h
  obtain ⟨outcomes, houtcomes, hresults⟩ := Option.map_eq_some_iff.1 h
  clear h
  induction paths generalizing outcomes results with
  | nil =>
    intro p hp
    cases hp
  | cons q paths ih =>
    rw [List.mapM_cons] at houtcomes
    obtain ⟨outcome, hq, houtcomes⟩ := Option.bind_eq_some_iff.1 houtcomes
    obtain ⟨rest, hrest, houtcomes⟩ := Option.bind_eq_some_iff.1 houtcomes
    cases houtcomes
    rw [List.mapM_cons] at hresults
    obtain ⟨result, hresult, hresults⟩ := Run.bind_eq_ok.1 hresults
    obtain ⟨others, hothers, -⟩ := Run.bind_eq_ok.1 hresults
    refine List.forall_mem_cons.2 ⟨⟨result, ?_⟩, ih rest hrest hothers⟩
    obtain rfl : outcome = .ok result := hresult
    unfold Stage.result? at hq
    split at hq
    · next hstage => rw [hstage, Option.some.inj hq]
    · cases hq

/-- **Every state that a batch goes through**, when its outputs do not meet. -/
theorem invariant_of_visits (hapart : Apart links targetFormat paths)
    (h : (batch decode config links targetFormat paths).Visits (initial files) as s) :
    Invariant decode config links targetFormat paths files s := by
  have hreach : ((batch decode config links targetFormat paths).restrict fun _ _ => True).Reaches
      (initial files) s := h.reaches fun _ _ _ => trivial
  refine hreach.invariant (invariant_initial decode config links targetFormat paths files) ?_
  rintro t a - ⟨ha, -⟩ hinv
  exact hinv.act hapart ha

/-- One conversion that gets a permit is one more. -/
theorem countP_le_of_ne {held held' : Path → Bool} (hothers : ∀ q, q ≠ p → held' q = held q) :
    ∀ {paths : List Path}, paths.Nodup → paths.countP held' ≤ paths.countP held + 1
  | [], _ => Nat.zero_le _
  | q :: paths, hnodup => by
    obtain ⟨hq, hnodup⟩ := List.nodup_cons.1 hnodup
    rw [List.countP_cons, List.countP_cons]
    by_cases heq : q = p
    · have hrest : paths.countP held' = paths.countP held :=
        List.countP_congr fun r hr => by rw [hothers r fun h => hq (heq.trans h.symm ▸ hr)]
      rw [hrest]
      split <;> split <;> omega
    · rw [hothers q heq]
      have hrest := countP_le_of_ne hothers hnodup
      omega

/-- **At most four conversions have a permit.** -/
theorem permits_le_four (hnodup : paths.Nodup)
    (h : (batch decode config links targetFormat paths).Visits (initial files) as s) :
    s.permits paths ≤ 4 := by
  have hreach : ((batch decode config links targetFormat paths).restrict fun _ _ => True).Reaches
      (initial files) s := h.reaches fun _ _ _ => trivial
  refine hreach.invariant (P := fun t => t.permits paths ≤ 4) ?_ ?_
  · have hnone : (initial files).permits paths = 0 :=
      List.countP_eq_zero.2 fun _ _ => Bool.false_ne_true
    rw [hnone]
    exact Nat.zero_le 4
  · rintro t a - ⟨ha, -⟩ hle
    have hothers : ∀ q, q ≠ a.path →
        ((act decode config links targetFormat t a).stage q).holds = (t.stage q).holds := fun q hq => by
      rw [act_stage_of_ne ha hq]
    -- a conversion that has no permit yet finds fewer than four; the others keep theirs
    have hkept : (t.stage a.path).holds → (act decode config links targetFormat t a).permits paths ≤
        t.permits paths := fun hheld => List.countP_mono_left fun q _ hq => by
      by_cases hne : q = a.path
      · exact hne ▸ hheld
      · exact (hothers q hne).symm.trans hq
    cases a with
    | acquire p => exact (countP_le_of_ne hothers hnodup).trans ha.2.2
    | call p => exact (hkept ha.2).trans hle
    | fault p f => exact (hkept ha.2).trans hle

variable {ids : ℕ → Text} {inputDir : Path} {recursive : Bool} {walked : List Path}
variable {fmt : SubtitleFormatType} {results : List ConversionResult}

/-- The files of a batch are subtitles below its directory. -/
theorem isBelow_of_mem (hwalk : IsWalk links files inputDir recursive walked)
    (hp : p ∈ walked.filter IsSubtitlePath) :
    IsBelow links inputDir recursive p ∧ (links.contents files p).isSome ∧ IsSubtitlePath p := by
  obtain ⟨hmem, hsubtitle⟩ := List.mem_filter.1 hp
  obtain ⟨hexists, hbelow⟩ := (hwalk.mem_iff p).1 hmem
  exact ⟨hbelow, hexists, of_decide_eq_true hsubtitle⟩

/-- Different files with stems of their own have different outputs. -/
theorem OutputsFree.eq_of_outputPath_eq
    (h : OutputsFree links fmt.asStr (walked.filter IsSubtitlePath) files)
    (hwalk : IsWalk links files inputDir recursive walked)
    (hp : p ∈ walked.filter IsSubtitlePath) (hq : q ∈ walked.filter IsSubtitlePath)
    (heq : outputPath fmt.asStr p = outputPath fmt.asStr q) : p = q := by
  by_contra hne
  obtain ⟨hparent, hstem⟩ := (outputPath_eq_iff (isBelow_of_mem hwalk hp).2.2
    (isBelow_of_mem hwalk hq).2.2).1 heq
  have hsymm : Std.Symm fun p q : Path => p.parent = q.parent → p.fileStem ≠ q.fileStem :=
    ⟨fun p q h hparent => (h hparent.symm).symm⟩
  exact h.stems.forall hp hq hne hparent hstem

/-- An output that is there and is not a link is the file converted. -/
theorem OutputsFree.outputPath_eq
    (h : OutputsFree links fmt.asStr (walked.filter IsSubtitlePath) files)
    (hwalk : IsWalk links files inputDir recursive walked)
    (hp : p ∈ walked.filter IsSubtitlePath)
    (hlink : links.isLink (outputPath fmt.asStr p) = false)
    (hexists : (links.contents files (outputPath fmt.asStr p)).isSome) :
    outputPath fmt.asStr p = p :=
  h.eq_of_outputPath_eq hwalk (output_mem_of_exists hwalk hp hlink hexists) hp
    (outputPath_outputPath (isBelow_of_mem hwalk hp).2.2)

/-- Outputs that are free do not meet. -/
theorem OutputsFree.apart
    (h : OutputsFree links fmt.asStr (walked.filter IsSubtitlePath) files)
    (hwalk : IsWalk links files inputDir recursive walked) :
    Apart links fmt.asStr (walked.filter IsSubtitlePath) := by
  refine ⟨fun p hp q hq heq => ?_, fun p hp q hq heq => ?_⟩
  · by_contra hne
    cases hplink : links.isLink (outputPath fmt.asStr p) with
    | true => exact h.outputs p hp hplink q hq (Ne.symm hne) heq.symm
    | false =>
      cases hqlink : links.isLink (outputPath fmt.asStr q) with
      | true => exact h.outputs q hq hqlink p hp hne heq
      | false =>
        -- without links, outputs in one place are one output
        obtain ⟨hpbelow, -, hpsubtitle⟩ := isBelow_of_mem hwalk hp
        obtain ⟨hqbelow, -, hqsubtitle⟩ := isBelow_of_mem hwalk hq
        exact hne (h.eq_of_outputPath_eq hwalk hp hq
          (eq_of_leads_eq (isBelow_outputPath hpsubtitle hpbelow hplink)
            (isBelow_outputPath hqsubtitle hqbelow hqlink) heq))
  · obtain ⟨hpbelow, -, hpsubtitle⟩ := isBelow_of_mem hwalk hp
    obtain ⟨hqbelow, hqexists, -⟩ := isBelow_of_mem hwalk hq
    cases hlink : links.isLink (outputPath fmt.asStr p) with
    | true =>
      have hexists : (files (outputPlace links fmt.asStr p)).isSome := heq ▸ hqexists
      exact eq_of_leads_eq hpbelow hqbelow ((h.files p hp hlink hexists).trans heq)
    | false =>
      have hout : outputPath fmt.asStr p = q :=
        eq_of_leads_eq (isBelow_outputPath hpsubtitle hpbelow hlink) hqbelow heq
      exact (h.outputPath_eq hwalk hp hlink (hout ▸ hqexists)).symm.trans hout

/-- **Batches whose outputs are free** convert their files. -/
theorem converted_of_outputsFree (hwalk : IsWalk links files inputDir recursive walked)
    (hfree : OutputsFree links fmt.asStr (walked.filter IsSubtitlePath) files)
    (hrun : (batch decode config links fmt.asStr (walked.filter IsSubtitlePath)).run
      (initial files) as = some s)
    (hok : ∀ p ∈ walked.filter IsSubtitlePath, ∃ result, s.stage p = .returned (.ok result)) :
    Converted decode config links fmt.asStr (walked.filter IsSubtitlePath) files as s := by
  have hapart := hfree.apart hwalk
  have hvisits : (batch decode config links fmt.asStr (walked.filter IsSubtitlePath)).Visits
      (initial files) as s := ⟨as, [], (List.append_nil as).symm, hrun⟩
  have hinv := invariant_of_visits hapart hvisits
  refine ⟨(hwalk.nodup.filter _).map_on hapart.distinct, fun p hp => ?_,
    fun t ht p hp hunread => ?_, fun place content hplace hnot => ?_⟩
  · obtain ⟨result, hstage⟩ := hok p hp
    have hacc := hinv.accords p hp
    rw [hstage] at hacc
    obtain ⟨output, hconverts, houtput⟩ := hacc
    exact ⟨output, result, hconverts, houtput⟩
  · exact (invariant_of_visits hapart ht).contents_eq hapart hp (begun_eq_false_of_unread hunread)
  · -- what is there and is written to is the file converted
    rw [hinv.untouched place fun p hp _ heq => hnot ⟨p, hp, ?_, heq⟩, hplace]
    have hexists : (files (outputPlace links fmt.asStr p)).isSome := by
      rw [heq]
      exact Option.isSome_of_eq_some hplace
    cases hlink : links.isLink (outputPath fmt.asStr p) with
    | true => exact (hfree.files p hp hlink hexists).trans heq
    | false => rw [← heq, outputPlace, hfree.outputPath_eq hwalk hp hlink hexists]

/-- **A batch that has converted its files** has had free outputs, or a link to a file
that held just what was written. -/
theorem outputsFree_of_converted (hwalk : IsWalk links files inputDir recursive walked)
    (hheld : ¬ HeldAlready decode config links fmt.asStr (walked.filter IsSubtitlePath) files)
    (h : Converted decode config links fmt.asStr (walked.filter IsSubtitlePath) files as s) :
    OutputsFree links fmt.asStr (walked.filter IsSubtitlePath) files := by
  have hdistinct : ∀ p ∈ walked.filter IsSubtitlePath, ∀ q ∈ walked.filter IsSubtitlePath,
      outputPlace links fmt.asStr p = outputPlace links fmt.asStr q → p = q :=
    fun p hp q hq heq => List.inj_on_of_nodup_map h.distinct hp hq heq
  refine ⟨?_, fun p hp _ q hq hne heq => hne (hdistinct q hq p hp heq),
    fun p hp hlink hexists => ?_⟩
  · have hpairs := List.pairwise_map.1 (List.nodup_iff_pairwise_ne.1 h.distinct)
    refine hpairs.imp_of_mem fun {p q} hp hq hne hparent hstem => hne ?_
    rw [outputPlace, outputPlace, (outputPath_eq_iff (isBelow_of_mem hwalk hp).2.2
      (isBelow_of_mem hwalk hq).2.2).2 ⟨hparent, hstem⟩]
  · by_contra hown
    obtain ⟨content, hcontent⟩ := Option.isSome_iff_exists.1 hexists
    obtain ⟨output, result, hconverts, houtput⟩ := h.output p hp
    -- the file is nobody's own output, and has to be as it was
    have hkept := h.kept _ content hcontent fun ⟨q, hq, hplace, hqout⟩ => by
      rw [hdistinct q hq p hp hqout] at hplace
      exact hown hplace
    obtain rfl : output = content := Option.some.inj (houtput.symm.trans hkept)
    exact hheld ⟨p, hp, hlink, hown, output, result, hconverts, hcontent⟩

/-- A conversion has gone through. -/
def Stage.converted : Stage → Bool
  | .writing _ _ | .returned (.ok _) => true
  | .waiting | .checking | .reading | .converting _ | .returned (.error _) => false

theorem converted_act (ha : Enabled paths s a)
    (h : ((act decode config links targetFormat s a).stage p).converted) :
    (s.stage p).converted ∨ ∃ fmt : SubtitleFormatType, targetFormat = fmt.asStr := by
  by_cases hne : p = a.path
  swap
  · rw [act_stage_of_ne ha hne] at h
    exact Or.inl h
  subst hne
  obtain ⟨stage, files, heffect, heq⟩ := exists_effect ha
  rw [heq] at h
  dsimp only at h
  rw [update_self] at h
  cases heffect with
  | acquired | checked | read | failed | failedWrite => cases h
  | opened hstage hconvert => exact Or.inr (exists_format_of_conversionOf hconvert)
  | wrote hstage =>
    rw [hstage]
    exact Or.inl rfl

/-- A batch in which a conversion goes through is to one of the formats. -/
theorem exists_format_of_visits
    (h : (batch decode config links targetFormat paths).Visits (initial files) as s)
    (hconverted : (s.stage p).converted) :
    ∃ fmt : SubtitleFormatType, targetFormat = fmt.asStr := by
  have hreach : ((batch decode config links targetFormat paths).restrict fun _ _ => True).Reaches
      (initial files) s := h.reaches fun _ _ _ => trivial
  refine hreach.invariant (P := fun t => ∀ p, (t.stage p).converted →
    ∃ fmt : SubtitleFormatType, targetFormat = fmt.asStr) (fun p hp => by cases hp) ?_ p hconverted
  rintro t a - ⟨ha, -⟩ ih p hp
  rcases converted_act ha hp with hp | hfmt
  · exact ih p hp
  · exact hfmt

/-- **A batch that returns its results** has converted its files when its outputs
are free; and only then, unless a link leads to a file that holds just what is
written to it. -/
theorem batchConverted_iff (hwalk : IsWalk links files inputDir recursive walked)
    (hpaths : paths =
      discoverSubtitleFiles (links.contents files) ids inputDir walked)
    (hrun : (batch decode config links targetFormat paths).run (initial files) as = some s)
    (hok : convertBatch paths s = some (.ok results)) :
    (OutputsFree links targetFormat paths files →
        Converted decode config links targetFormat paths files as s) ∧
      (¬ HeldAlready decode config links targetFormat paths files →
        (Converted decode config links targetFormat paths files as s ↔
          OutputsFree links targetFormat paths files)) := by
  rw [discoverSubtitleFiles_eq] at hpaths
  have hall := returned_of_convertBatch hok
  rcases List.eq_nil_or_concat paths with hnil | ⟨before, last, hlast⟩
  · -- nothing is converted, and nothing happens
    have hvisits : (batch decode config links targetFormat paths).Visits (initial files) as s :=
      ⟨as, [], (List.append_nil as).symm, hrun⟩
    have hnone : ∀ p, p ∉ paths := fun p hp => by
      rw [hnil] at hp
      cases hp
    have hfree : OutputsFree links targetFormat paths files :=
      ⟨hnil ▸ List.Pairwise.nil, fun p hp => (hnone p hp).elim, fun p hp => (hnone p hp).elim⟩
    have hapart : Apart links targetFormat paths :=
      ⟨fun p hp => (hnone p hp).elim, fun p hp => (hnone p hp).elim⟩
    have hconverted : Converted decode config links targetFormat paths files as s := by
      refine ⟨hnil ▸ List.nodup_nil, fun p hp => (hnone p hp).elim,
        fun t _ p hp => (hnone p hp).elim, fun place content hplace _ => ?_⟩
      rw [(invariant_of_visits hapart hvisits).untouched place fun p hp => (hnone p hp).elim, hplace]
    exact ⟨fun _ => hconverted, fun _ => iff_of_true hconverted hfree⟩
  obtain ⟨result, hresult⟩ := hall last (by rw [hlast]; simp)
  obtain ⟨fmt, rfl⟩ := exists_format_of_visits ⟨as, [], (List.append_nil as).symm, hrun⟩
    (by rw [hresult]; rfl)
  subst hpaths
  exact ⟨fun hfree => converted_of_outputsFree hwalk hfree hrun hall, fun hheld =>
    ⟨outputsFree_of_converted hwalk hheld,
      fun hfree => converted_of_outputsFree hwalk hfree hrun hall⟩⟩

/-! ## Directories of a few files -/

/-- The files of one directory. -/
def directory (dir : Path) (entries : List (FileName × Bytes)) : FileSystem := fun p =>
  (entries.find? fun entry => dir ++ [.normal entry.1] = p).map Prod.snd

/-- Their paths. -/
def directoryPaths (dir : Path) (entries : List (FileName × Bytes)) : List Path :=
  entries.map fun entry => dir ++ [.normal entry.1]

theorem isWalk_directory {dir : Path} {entries : List (FileName × Bytes)}
    (hnodup : (entries.map Prod.fst).Nodup) (hdir : links.leads dir = dir)
    (hlinks : ∀ entry ∈ entries, links.isLink (dir ++ [.normal entry.1]) = false) :
    IsWalk links (directory dir entries) dir recursive (directoryPaths dir entries) := by
  have hpath : Injective fun name : FileName => dir ++ [Component.normal name] :=
    fun name name' h => Component.normal.inj (List.cons.inj (List.append_cancel_left h)).1
  have hexists : ∀ p, (directory dir entries p).isSome ↔ p ∈ directoryPaths dir entries := by
    intro p
    unfold directory directoryPaths
    rw [Option.isSome_map, List.find?_isSome, List.mem_map]
    simp only [decide_eq_true_eq]
  have hleads : ∀ p, IsBelow links dir recursive p → links.leads p = p := by
    intro p hp
    obtain ⟨names, rfl, hleads⟩ := leads_of_isBelow hp
    rw [hleads, hdir]
  refine ⟨?_, fun p => ⟨fun hp => ?_, fun ⟨hfile, hbelow⟩ => ?_⟩⟩
  · have hmap : directoryPaths dir entries =
        (entries.map Prod.fst).map fun name => dir ++ [Component.normal name] := by
      rw [List.map_map]
      rfl
    rw [hmap]
    exact hnodup.map hpath
  · obtain ⟨entry, hentry, rfl⟩ := List.mem_map.1 hp
    have hbelow : IsBelow links dir recursive (dir ++ [.normal entry.1]) := by
      refine ⟨[entry.1], List.cons_ne_nil _ _, fun _ => rfl, rfl, fun before hne hle => ?_⟩
      have hlength : [entry.1].length ≤ before.length := List.length_pos_iff.2 hne
      rw [hle.eq_of_length_le hlength]
      exact hlinks entry hentry
    refine ⟨?_, hbelow⟩
    rw [SymbolicLinks.contents, hleads _ hbelow]
    exact (hexists _).2 hp
  · rw [SymbolicLinks.contents, hleads p hbelow] at hfile
    exact (hexists p).1 hfile

/-- No encoding but UTF-8 is met. -/
def noDecoder : Decoder := fun _ _ => ([], false)

/-- Neither styling nor validation. -/
def plainConfig : ConversionConfig := ⟨false, "UTF-8".toList, false, false⟩

/-- A subtitle in SRT. -/
def srtFile : FileName × Bytes :=
  (⟨"a.srt".toList, by decide⟩, utf8 "1\n00:00:01,000 --> 00:00:02,500\nHello\n".toList)

/-- A subtitle in VTT with the same stem. -/
def vttFile : FileName × Bytes :=
  (⟨"a.vtt".toList, by decide⟩, utf8 "WEBVTT\n\n1\n00:00:01.000 --> 00:00:02.500\nBonjour\n".toList)

/-- The directory of the subtitles. -/
def subs : Path := Path.ofText "/subs".toList

/-- All steps of one conversion. -/
def allSteps (p : Path) : List Action := .acquire p :: List.replicate 4 (.call p)

/-- Whether a batch has returned its results. -/
def isOk : Option (Except SubXError (List ConversionResult)) → Bool
  | some (.ok _) => true
  | _ => false

theorem exists_of_isOk {o : Option (Except SubXError (List ConversionResult))} (h : isOk o) :
    ∃ results, o = some (.ok results) := by
  rcases o with - | err | results
  · cases h
  · cases h
  · exact ⟨results, rfl⟩

/-- The only link is the output of a subtitle, and leads to where nothing is. -/
def linkedOutput : SymbolicLinks where
  isLink p := decide (p = Path.ofText "/subs/a.ass".toList)
  leads p :=
    if Path.ofText "/subs/a.ass".toList <+: p then Path.ofText "/kept/a.ass".toList ++ p.drop 3
    else p
  leads_child dir name hlink := by
    have hne : dir ++ [.normal name] ≠ Path.ofText "/subs/a.ass".toList := of_decide_eq_false hlink
    by_cases hle : Path.ofText "/subs/a.ass".toList <+: dir
    · have hlength : 3 ≤ dir.length := hle.length_le
      rw [if_pos hle, if_pos (hle.trans (List.prefix_append dir _)),
        List.drop_append_of_le_length hlength, List.append_assoc]
    · rw [if_neg hle, if_neg fun h => ?_]
      rcases List.prefix_concat_iff.1 h with h | h
      · exact hne h.symm
      · exact hle h

/-- A file is converted, through a link. -/
theorem batchConverted_single :
    ∃ s, Converted noDecoder plainConfig linkedOutput "ass".toList (directoryPaths subs [srtFile])
      (directory subs [srtFile]) (allSteps (subs ++ [.normal srtFile.1])) s := by
  have hrun : ((batch noDecoder plainConfig linkedOutput "ass".toList
      (directoryPaths subs [srtFile])).run (initial (directory subs [srtFile]))
      (allSteps (subs ++ [.normal srtFile.1]))).any
        (fun s => isOk (convertBatch (directoryPaths subs [srtFile]) s)) = true := by decide +kernel
  obtain ⟨s, hs, hok⟩ := (Option.any_eq_true _ _).1 hrun
  obtain ⟨results, hresults⟩ := exists_of_isOk hok
  have hwalk : IsWalk linkedOutput (directory subs [srtFile]) subs false
      (directoryPaths subs [srtFile]) :=
    isWalk_directory (by decide) (by decide) (by decide +kernel)
  have hpaths : directoryPaths subs [srtFile] = discoverSubtitleFiles
      (linkedOutput.contents (directory subs [srtFile])) (fun _ => []) subs
        (directoryPaths subs [srtFile]) := by decide +kernel
  have hone : ∀ p ∈ directoryPaths subs [srtFile], p = subs ++ [.normal srtFile.1] :=
    fun p hp => List.mem_singleton.1 hp
  have hfree : OutputsFree linkedOutput "ass".toList (directoryPaths subs [srtFile])
      (directory subs [srtFile]) := by
    refine ⟨by decide +kernel, fun p hp _ q hq hne => ?_, fun p hp _ hexists => ?_⟩
    · exact absurd ((hone q hq).trans (hone p hp).symm) hne
    · have hnothing : directory subs [srtFile] (outputPlace linkedOutput "ass".toList
          (subs ++ [.normal srtFile.1])) = none := by decide +kernel
      rw [hone p hp, hnothing] at hexists
      cases hexists
  exact ⟨s, (batchConverted_iff hwalk hpaths hs hresults).1 hfree⟩

/-- **Two subtitles with one stem**: a batch returns its results when one output
has taken the place of the other. -/
theorem batch_not_converted :
    ¬ ∀ (links : SymbolicLinks) (files : FileSystem) (ids : ℕ → Text) (inputDir : Path)
      (recursive : Bool) (walked : List Path) (fmt : SubtitleFormatType) (paths : List Path)
      (as : List Action) (s : State) (results : List ConversionResult),
      IsWalk links files inputDir recursive walked →
      paths = discoverSubtitleFiles (links.contents files) ids inputDir walked →
      (batch noDecoder plainConfig links fmt.asStr paths).run (initial files) as = some s →
      convertBatch paths s = some (.ok results) →
      Converted noDecoder plainConfig links fmt.asStr paths files as s := by
  intro hclaim
  have hrun : ((batch noDecoder plainConfig .none SubtitleFormatType.ass.asStr
      (directoryPaths subs [srtFile, vttFile])).run (initial (directory subs [srtFile, vttFile]))
      (allSteps (subs ++ [.normal srtFile.1]) ++ allSteps (subs ++ [.normal vttFile.1]))).any
        (fun s => isOk (convertBatch (directoryPaths subs [srtFile, vttFile]) s)) = true := by
    decide +kernel
  obtain ⟨s, hs, hok⟩ := (Option.any_eq_true _ _).1 hrun
  obtain ⟨results, hresults⟩ := exists_of_isOk hok
  have hwalk : IsWalk .none (directory subs [srtFile, vttFile]) subs false
      (directoryPaths subs [srtFile, vttFile]) :=
    isWalk_directory (by decide) rfl fun _ _ => rfl
  have hpaths : directoryPaths subs [srtFile, vttFile] = discoverSubtitleFiles
      (SymbolicLinks.none.contents (directory subs [srtFile, vttFile])) (fun _ => []) subs
        (directoryPaths subs [srtFile, vttFile]) := by decide +kernel
  have hconverted := hclaim _ _ _ _ _ _ _ _ _ s results hwalk hpaths hs hresults
  exact absurd hconverted.distinct (by decide +kernel)

end Batch

end SubxCore
