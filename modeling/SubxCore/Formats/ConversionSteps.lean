import SubxCore.Formats.FormatConverter
import SubxCore.Common.Machine
/-!
# The steps of a batch

The conversions of a batch, at most four at a time, each of which looks at
the size of its file, reads it, opens its output, which empties it, and
writes, through links where there are any. A conversion that is not disturbed
does what `convert_file` does; conversions whose outputs do not meet do not
disturb each other.
-/

namespace SubxCore

namespace Batch

open Text Function

/-! ## States -/

/-- Where a conversion is: waiting for a permit, at its next call, or returned. -/
inductive Stage
  | waiting
  | checking
  | reading
  | converting (content : Bytes)
  | writing (output : Bytes) (result : ConversionResult)
  | returned (result : Except SubXError ConversionResult)

/-- The files, each in its place, and where each conversion is. -/
structure State where
  files : FileSystem
  stage : Path → Stage

/-- A conversion has not begun. -/
def Stage.isWaiting : Stage → Bool
  | .waiting => true
  | _ => false

/-- A conversion has a permit. -/
def Stage.holds : Stage → Bool
  | .checking | .reading | .converting _ | .writing _ _ => true
  | .waiting | .returned _ => false

/-- A file written from its start. -/
def overwrite (output old : Bytes) : Bytes := output ++ old.drop output.length

namespace State

/-- A conversion goes on. -/
def goTo (s : State) (p : Path) (stage : Stage) : State :=
  { s with stage := update s.stage p stage }

/-- How many of some conversions have a permit. -/
def permits (s : State) (paths : List Path) : ℕ := paths.countP fun p => (s.stage p).holds

end State

/-- A conversion gets a permit, makes its next call, or fails at it for a reason
of the call's own. -/
inductive Action
  | acquire (p : Path)
  | call (p : Path)
  | fault (p : Path) (f : Fault)

/-- The conversion that takes a step. -/
def Action.path : Action → Path
  | .acquire p | .call p | .fault p _ => p

variable (decode : Decoder) (config : ConversionConfig) (links : SymbolicLinks)
variable (targetFormat : Text) (paths : List Path)

/-- The place that the output of a conversion is written to. -/
def outputPlace (p : Path) : Path := links.leads (outputPath targetFormat p)

/-- When a step can be taken. -/
def Enabled (s : State) : Action → Prop
  | .acquire p => p ∈ paths ∧ (s.stage p).isWaiting ∧ s.permits paths < 4
  | .call p => p ∈ paths ∧ (s.stage p).holds
  | .fault p _ => p ∈ paths ∧ (s.stage p).holds

/-- The next call of a conversion. -/
def call (s : State) (p : Path) : State :=
  match s.stage p with
  | .checking =>
    match checkFileSize (links.contents s.files) p 52428800 "Subtitle".toList with
    | .ok () => s.goTo p .reading
    | .error err => s.goTo p (.returned (.error err))
  | .reading =>
    match links.contents s.files p with
    | some content => s.goTo p (.converting content)
    | none => s.goTo p (.returned (.error (.io IoError.notFound.display)))
  | .converting content =>
    match conversionOf decode config targetFormat content with
    | .ok (outputContent, result) =>
      { s.goTo p (.writing (utf8 outputContent) result) with
        files := update s.files (outputPlace links targetFormat p) (some []) }
    | .error err => s.goTo p (.returned (.error err))
  | .writing output result =>
    { s.goTo p (.returned (.ok result)) with
      files := update s.files (outputPlace links targetFormat p)
        (some (overwrite output ((s.files (outputPlace links targetFormat p)).getD []))) }
  | .waiting => s
  | .returned _ => s

/-- A call that fails; a write has written some bytes by then. -/
def failedCall (s : State) (p : Path) (fault : Fault) : State :=
  let failed := s.goTo p (.returned (.error (.io fault.message)))
  match s.stage p with
  | .writing output _ =>
    { failed with
      files := update s.files (outputPlace links targetFormat p)
        (some (overwrite (output.take fault.written)
          ((s.files (outputPlace links targetFormat p)).getD []))) }
  | _ => failed

/-- A step. -/
def act (s : State) : Action → State
  | .acquire p => s.goTo p .checking
  | .call p => call decode config links targetFormat s p
  | .fault p f => failedCall links targetFormat s p f

/-- The conversions of a batch. -/
def batch : Machine State Action where
  enabled := Enabled paths
  effect := act decode config links targetFormat

/-- The batch when it starts. -/
def initial (files : FileSystem) : State := ⟨files, fun _ => .waiting⟩

/-- What a conversion has returned. -/
def Stage.result? : Stage → Option (Except SubXError ConversionResult)
  | .returned result => some result
  | _ => none

/-- What `convert_batch` returns once all its conversions have. -/
def convertBatch (s : State) : Option (Except SubXError (List ConversionResult)) :=
  (paths.mapM fun p => (s.stage p).result?).map fun results => results.mapM id

/-- A conversion has not read its file yet. -/
def Stage.unread : Stage → Bool
  | .waiting | .checking | .reading => true
  | .converting _ | .writing _ _ | .returned _ => false

instance (s : State) (a : Action) :
    Decidable ((batch decode config links targetFormat paths).enabled s a) :=
  match a with
  | .acquire p => inferInstanceAs
      (Decidable (p ∈ paths ∧ (s.stage p).isWaiting ∧ s.permits paths < 4))
  | .call p => inferInstanceAs (Decidable (p ∈ paths ∧ (s.stage p).holds))
  | .fault p _ => inferInstanceAs (Decidable (p ∈ paths ∧ (s.stage p).holds))

/-- The conversion of a file as it was. -/
def ConvertsTo (files : FileSystem) (p : Path) (output : Bytes) (result : ConversionResult) :
    Prop :=
  ∃ content outputContent, links.contents files p = some content ∧
    conversionOf decode config targetFormat content = .ok (outputContent, result) ∧
    output = utf8 outputContent

variable {decode config links targetFormat paths}
variable {files : FileSystem} {s : State} {a : Action} {p q : Path}

/-! ## One step -/

/-- A conversion has opened its output. -/
def Stage.begun : Stage → Bool
  | .writing _ _ | .returned _ => true
  | .waiting | .checking | .reading | .converting _ => false

theorem begun_eq_false_of_unread {stage : Stage} (h : stage.unread) : stage.begun = false := by
  cases stage <;> first
    | rfl
    | cases h

/-- Where a step takes its conversion, and the files then. -/
inductive Effect (decode : Decoder) (config : ConversionConfig) (links : SymbolicLinks)
    (targetFormat : Text) (s : State) (p : Path) : Stage → FileSystem → Prop
  | acquired (hstage : s.stage p = .waiting) :
      Effect decode config links targetFormat s p .checking s.files
  | checked (hstage : s.stage p = .checking) :
      Effect decode config links targetFormat s p .reading s.files
  | read {content : Bytes} (hstage : s.stage p = .reading)
      (hcontent : links.contents s.files p = some content) :
      Effect decode config links targetFormat s p (.converting content) s.files
  | opened {content : Bytes} {outputContent : Text} {result : ConversionResult}
      (hstage : s.stage p = .converting content)
      (hconvert : conversionOf decode config targetFormat content = .ok (outputContent, result)) :
      Effect decode config links targetFormat s p (.writing (utf8 outputContent) result)
        (update s.files (outputPlace links targetFormat p) (some []))
  | wrote {output : Bytes} {result : ConversionResult} (hstage : s.stage p = .writing output result) :
      Effect decode config links targetFormat s p (.returned (.ok result))
        (update s.files (outputPlace links targetFormat p)
          (some (overwrite output ((s.files (outputPlace links targetFormat p)).getD []))))
  | failed (err : SubXError) :
      Effect decode config links targetFormat s p (.returned (.error err)) s.files
  | failedWrite (err : SubXError) (content : Bytes) :
      Effect decode config links targetFormat s p (.returned (.error err))
        (update s.files (outputPlace links targetFormat p) (some content))

/-- **What a step can do**, and to no other conversion. -/
theorem exists_effect (ha : Enabled paths s a) : ∃ stage files,
    Effect decode config links targetFormat s a.path stage files ∧
      act decode config links targetFormat s a = ⟨files, update s.stage a.path stage⟩ := by
  cases a with
  | acquire p =>
    refine ⟨_, _, .acquired ?_, rfl⟩
    obtain ⟨-, hwaiting, -⟩ := ha
    unfold Action.path
    dsimp only
    generalize s.stage p = stage at hwaiting
    cases stage with
    | waiting => rfl
    | checking | reading | converting content | writing output result | returned result =>
      cases hwaiting
  | call p =>
    obtain ⟨-, hholds⟩ := ha
    unfold act call Action.path
    dsimp only
    rcases hstage : s.stage p with - | - | - | content | ⟨output, result⟩ | result
    · rw [hstage] at hholds
      cases hholds
    · dsimp only
      split
      · exact ⟨_, _, .checked hstage, rfl⟩
      · next err _ => exact ⟨_, _, .failed err, rfl⟩
    · dsimp only
      split
      · next content hcontent => exact ⟨_, _, .read hstage hcontent, rfl⟩
      · exact ⟨_, _, .failed _, rfl⟩
    · dsimp only
      split
      · next outputContent result hconvert => exact ⟨_, _, .opened hstage hconvert, rfl⟩
      · next err _ => exact ⟨_, _, .failed err, rfl⟩
    · exact ⟨_, _, .wrote hstage, rfl⟩
    · rw [hstage] at hholds
      cases hholds
  | fault p f =>
    unfold act failedCall Action.path
    dsimp only
    split
    · exact ⟨_, _, .failedWrite _ _, rfl⟩
    · exact ⟨_, _, .failed _, rfl⟩

@[simp] theorem State.goTo_stage_self (stage : Stage) : (s.goTo p stage).stage p = stage := by
  unfold State.goTo
  exact update_self ..

theorem act_stage_of_ne (ha : Enabled paths s a) (h : q ≠ a.path) :
    (act decode config links targetFormat s a).stage q = s.stage q := by
  obtain ⟨stage, files, -, heq⟩ := exists_effect ha
  rw [heq]
  exact update_of_ne h ..

/-- A step writes to one output. -/
theorem act_files_of_ne (ha : Enabled paths s a) (h : q ≠ outputPlace links targetFormat a.path) :
    (act decode config links targetFormat s a).files q = s.files q := by
  obtain ⟨stage, files, heffect, heq⟩ := exists_effect ha
  rw [heq]
  cases heffect with
  | acquired | checked | read | failed => rfl
  | opened | wrote | failedWrite => exact update_of_ne h ..

/-- And to none before it is opened. -/
theorem act_files_of_not_begun (ha : Enabled paths s a)
    (h : ((act decode config links targetFormat s a).stage a.path).begun = false) :
    (act decode config links targetFormat s a).files = s.files := by
  obtain ⟨stage, files, heffect, heq⟩ := exists_effect ha
  rw [heq] at h ⊢
  dsimp only at h
  rw [update_self] at h
  cases heffect with
  | acquired | checked | read | failed => rfl
  | opened | wrote | failedWrite => cases h

/-- What has been opened stays so. -/
theorem begun_act (ha : Enabled paths s a) (h : (s.stage p).begun) :
    ((act decode config links targetFormat s a).stage p).begun := by
  by_cases hne : p = a.path
  swap
  · rwa [act_stage_of_ne ha hne]
  subst hne
  obtain ⟨stage, files, heffect, heq⟩ := exists_effect ha
  rw [heq]
  dsimp only
  rw [update_self]
  cases heffect with
  | acquired hstage | checked hstage | read hstage hcontent | opened hstage hconvert =>
    rw [hstage] at h
    cases h
  | wrote | failed | failedWrite => rfl

/-! ## Each conversion accords -/

/-- What is so of a conversion at each of its stages. -/
def Stage.Accords (decode : Decoder) (config : ConversionConfig) (links : SymbolicLinks)
    (targetFormat : Text) (files now : FileSystem) (p : Path) : Stage → Prop
  | .waiting | .checking | .reading => True
  | .converting content => links.contents files p = some content
  | .writing output result => ConvertsTo decode config links targetFormat files p output result ∧
      now (outputPlace links targetFormat p) = some []
  | .returned (.ok result) => ∃ output,
      ConvertsTo decode config links targetFormat files p output result ∧
        now (outputPlace links targetFormat p) = some output
  | .returned (.error _) => True

/-- What is so in every state of a batch whose outputs do not meet. -/
structure Invariant (decode : Decoder) (config : ConversionConfig) (links : SymbolicLinks)
    (targetFormat : Text) (paths : List Path) (files : FileSystem) (s : State) : Prop where
  untouched : ∀ q, (∀ p ∈ paths, (s.stage p).begun → outputPlace links targetFormat p ≠ q) →
    s.files q = files q
  accords : ∀ p ∈ paths, (s.stage p).Accords decode config links targetFormat files s.files p

theorem invariant_initial (decode : Decoder) (config : ConversionConfig) (links : SymbolicLinks)
    (targetFormat : Text) (paths : List Path) (files : FileSystem) :
    Invariant decode config links targetFormat paths files (initial files) :=
  ⟨fun _ _ => rfl, fun _ _ => trivial⟩

/-- The outputs of a batch do not meet each other, nor another file of the batch. -/
structure Apart (links : SymbolicLinks) (targetFormat : Text) (paths : List Path) : Prop where
  distinct : ∀ p ∈ paths, ∀ q ∈ paths,
    outputPlace links targetFormat p = outputPlace links targetFormat q → p = q
  inputs : ∀ p ∈ paths, ∀ q ∈ paths, outputPlace links targetFormat p = links.leads q → p = q

/-- A file that has not been opened for its own conversion is as it was. -/
theorem Invariant.contents_eq (h : Invariant decode config links targetFormat paths files s)
    (hapart : Apart links targetFormat paths) (hp : p ∈ paths)
    (hbegun : (s.stage p).begun = false) :
    links.contents s.files p = links.contents files p := by
  refine h.untouched (links.leads p) fun q hq hqbegun hplace => ?_
  rw [hapart.inputs q hq p hp hplace, hbegun] at hqbegun
  cases hqbegun

theorem accords_act (hapart : Apart links targetFormat paths) (ha : Enabled paths s a)
    (hp : a.path ∈ paths) (h : Invariant decode config links targetFormat paths files s) :
    ((act decode config links targetFormat s a).stage a.path).Accords decode config links
      targetFormat files (act decode config links targetFormat s a).files a.path := by
  have hacc := h.accords a.path hp
  obtain ⟨stage, files', heffect, heq⟩ := exists_effect ha
  rw [heq]
  dsimp only
  rw [update_self]
  cases heffect with
  | acquired | checked | failed | failedWrite => trivial
  | read hstage hcontent =>
    -- nobody has opened the file before it is read
    have hbegun : (s.stage a.path).begun = false := by
      rw [hstage]
      rfl
    exact (h.contents_eq hapart hp hbegun).symm.trans hcontent
  | @opened content outputContent result hstage hconvert =>
    rw [hstage] at hacc
    exact ⟨⟨content, outputContent, hacc, hconvert, rfl⟩, update_self ..⟩
  | @wrote output result hstage =>
    rw [hstage] at hacc
    obtain ⟨hconverts, hempty⟩ := hacc
    refine ⟨output, hconverts, ?_⟩
    rw [update_self, hempty, Option.getD_some, overwrite, List.drop_nil, List.append_nil]

/-- **One step.** -/
theorem Invariant.act (hapart : Apart links targetFormat paths) (ha : Enabled paths s a)
    (h : Invariant decode config links targetFormat paths files s) :
    Invariant decode config links targetFormat paths files
      (act decode config links targetFormat s a) := by
  have hpath : a.path ∈ paths := by
    cases a with
    | acquire p => exact ha.1
    | call p => exact ha.1
    | fault p f => exact ha.1
  refine ⟨fun q hq => ?_, fun p hp => ?_⟩
  · have hbefore : s.files q = files q :=
      h.untouched q fun p hp hbegun => hq p hp (begun_act ha hbegun)
    rw [← hbefore]
    -- nothing is written until the output is opened, and nothing but the output after
    by_cases hopened : ((Batch.act decode config links targetFormat s a).stage a.path).begun
    · exact act_files_of_ne ha (hq a.path hpath hopened).symm
    · rw [act_files_of_not_begun ha (Bool.eq_false_of_not_eq_true hopened)]
  · by_cases hne : p = a.path
    · rw [hne]
      exact accords_act hapart ha hpath h
    · -- another conversion has what it had, since this one writes elsewhere
      have hacc := h.accords p hp
      have hfile : (Batch.act decode config links targetFormat s a).files
          (outputPlace links targetFormat p) = s.files (outputPlace links targetFormat p) :=
        act_files_of_ne ha fun heq => hne (hapart.distinct p hp a.path hpath heq)
      rw [act_stage_of_ne ha hne]
      generalize s.stage p = stage at hacc ⊢
      rcases stage with - | - | - | content | ⟨output, result⟩ | result
      · trivial
      · trivial
      · trivial
      · exact hacc
      · exact ⟨hacc.1, hfile.trans hacc.2⟩
      · rcases result with err | result
        · trivial
        · obtain ⟨output, hconverts, houtput⟩ := hacc
          exact ⟨output, hconverts, hfile.trans houtput⟩

/-! ## A conversion on its own -/

/-- The next calls of a conversion, with nothing in between. -/
def calls (decode : Decoder) (config : ConversionConfig) (links : SymbolicLinks)
    (targetFormat : Text) (p : Path) (n : ℕ) (s : State) : State :=
  (fun s => call decode config links targetFormat s p)^[n] s

theorem call_of_returned {result : Except SubXError ConversionResult}
    (h : s.stage p = .returned result) : call decode config links targetFormat s p = s := by
  unfold call
  rw [h]

theorem calls_of_returned {result : Except SubXError ConversionResult} {n : ℕ}
    (h : s.stage p = .returned result) : calls decode config links targetFormat p n s = s :=
  iterate_fixed (call_of_returned h) n

/-- **A conversion that is not disturbed** does what `convert_file` does. -/
theorem calls_convertFile (h : s.stage p = .checking) :
    (calls decode config links targetFormat p 4 s).stage p =
        .returned (convertFile decode config links s.files p (outputPath targetFormat p)
          targetFormat).1 ∧
      (calls decode config links targetFormat p 4 s).files =
        (convertFile decode config links s.files p (outputPath targetFormat p)
          targetFormat).2 := by
  have hnext : ∀ n s, calls decode config links targetFormat p (n + 1) s =
      calls decode config links targetFormat p n (call decode config links targetFormat s p) :=
    fun _ _ => rfl
  rw [hnext]
  rcases hsize : checkFileSize (links.contents s.files) p 52428800 "Subtitle".toList with err | ⟨⟩
  · have hcall : call decode config links targetFormat s p = s.goTo p (.returned (.error err)) := by
      unfold call
      rw [h]
      dsimp only
      rw [hsize]
    rw [hcall, calls_of_returned (State.goTo_stage_self _), convertFile_of_size_error hsize]
    exact ⟨State.goTo_stage_self _, rfl⟩
  have hchecked : call decode config links targetFormat s p = s.goTo p .reading := by
    unfold call
    rw [h]
    dsimp only
    rw [hsize]
  rcases hfile : links.contents s.files p with - | content
  · unfold checkFileSize at hsize
    rw [hfile] at hsize
    cases hsize
  have hread : call decode config links targetFormat (s.goTo p .reading) p =
      s.goTo p (.converting content) := by
    unfold call
    rw [State.goTo_stage_self]
    dsimp only
    rw [show links.contents (s.goTo p .reading).files p = some content from hfile]
    dsimp only [State.goTo]
    rw [update_idem]
  rw [hchecked, hnext, hread, hnext]
  rcases hconvert : conversionOf decode config targetFormat content with err | ⟨output, result⟩
  · have hcall : call decode config links targetFormat (s.goTo p (.converting content)) p =
        s.goTo p (.returned (.error err)) := by
      unfold call
      rw [State.goTo_stage_self]
      dsimp only
      rw [hconvert]
      dsimp only [State.goTo]
      rw [update_idem]
    rw [hcall, calls_of_returned (State.goTo_stage_self _),
      convertFile_of_error hsize (by rw [hfile]; exact hconvert)]
    exact ⟨State.goTo_stage_self _, rfl⟩
  · have hopened : call decode config links targetFormat (s.goTo p (.converting content)) p =
        { s.goTo p (.writing (utf8 output) result) with
          files := update s.files (outputPlace links targetFormat p) (some []) } := by
      unfold call
      rw [State.goTo_stage_self]
      dsimp only
      rw [hconvert]
      dsimp only [State.goTo]
      rw [update_idem]
    have hwritten : call decode config links targetFormat
        { s.goTo p (.writing (utf8 output) result) with
          files := update s.files (outputPlace links targetFormat p) (some []) } p =
        { s.goTo p (.returned (.ok result)) with
          files := update s.files (outputPlace links targetFormat p) (some (utf8 output)) } := by
      unfold call
      dsimp only
      rw [State.goTo_stage_self]
      dsimp only [State.goTo]
      rw [update_self, Option.getD_some, overwrite, List.drop_nil, List.append_nil, update_idem,
        update_idem]
    rw [hopened, hnext, hwritten, convertFile_of_ok hsize (by rw [hfile]; exact hconvert)]
    exact ⟨State.goTo_stage_self _, rfl⟩

end Batch

end SubxCore
