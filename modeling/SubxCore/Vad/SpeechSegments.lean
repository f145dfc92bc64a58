import SubxCore.Common.MaximalRuns
import Mathlib.Algebra.Order.Field.Rat
import Mathlib.Tactic.Linarith
/-!
# Speech segments

`detect_speech_segments` goes through the labels of the chunks of the audio, remembers
when the speech it is in began, and closes a segment at the next label that is none, or
after the last. Too short segments are left out, in each of the two places. What it lists
are the maximal runs of speech that are long enough. The labels are those of the voice
activity detector, and times are exact.
-/

namespace SubxCore

open MaximalRuns

/-- `LabeledAudio`: a chunk with its label. -/
inductive LabeledAudio
  | speech (chunk : List Int16)
  | nonSpeech (chunk : List Int16)
  deriving DecidableEq, Repr

/-- A chunk of speech. -/
def LabeledAudio.isSpeech : LabeledAudio → Bool
  | .speech _ => true
  | .nonSpeech _ => false

/-- `SpeechSegment`. -/
structure SpeechSegment where
  startTime : ℚ
  endTime : ℚ
  duration : ℚ
  deriving DecidableEq, Repr

/-- `LocalVadDetector::calculate_chunk_size`, which panics at any other rate. -/
def calculateChunkSize (sampleRate : ℕ) : Option ℕ :=
  if sampleRate = 8000 then some 256
  else if sampleRate = 16000 then some 512
  else none

/-- What `detect_speech_segments` remembers from label to label. -/
structure Detection where
  segments : List SpeechSegment
  currentSpeechStart : Option ℚ
  chunkIndex : ℕ

namespace Detection

variable (minSpeechDurationMs : ℕ) (chunkDuration : ℚ)

/-- A segment, unless it is too short. -/
def closed (startTime endTime : ℚ) : List SpeechSegment :=
  if endTime - startTime ≥ minSpeechDurationMs / 1000 then
    [⟨startTime, endTime, endTime - startTime⟩]
  else []

/-- One label. -/
def step (d : Detection) (label : LabeledAudio) : Detection :=
  let chunkStartTime := d.chunkIndex * chunkDuration
  match label with
  | .speech _ =>
    { d with
      currentSpeechStart := some (d.currentSpeechStart.getD chunkStartTime)
      chunkIndex := d.chunkIndex + 1 }
  | .nonSpeech _ =>
    { segments := d.segments ++
        d.currentSpeechStart.elim [] (closed minSpeechDurationMs · chunkStartTime)
      currentSpeechStart := none
      chunkIndex := d.chunkIndex + 1 }

/-- The last segment, if speech goes on to the end. -/
def finish (d : Detection) : List SpeechSegment :=
  d.segments ++
    d.currentSpeechStart.elim [] (closed minSpeechDurationMs · (d.chunkIndex * chunkDuration))

end Detection

/-- `LocalVadDetector::detect_speech_segments`, of the labels of its samples. -/
def detectSpeechSegments (minSpeechDurationMs sampleRate : ℕ) (labels : List LabeledAudio) :
    Option (List SpeechSegment) :=
  (calculateChunkSize sampleRate).map fun chunkSize =>
    let chunkDuration : ℚ := chunkSize / sampleRate
    (labels.foldl (Detection.step minSpeechDurationMs chunkDuration) ⟨[], none, 0⟩).finish
      minSpeechDurationMs chunkDuration

/-! ## Segments and runs -/

/-- The segment of a run of chunks. -/
def segmentOf (chunkDuration : ℚ) (run : ℕ × ℕ) : SpeechSegment where
  startTime := run.1 * chunkDuration
  endTime := run.2 * chunkDuration
  duration := run.2 * chunkDuration - run.1 * chunkDuration

/-- A run of chunks that is not too short. -/
def IsLong (minSpeechDurationMs : ℕ) (chunkDuration : ℚ) (run : ℕ × ℕ) : Prop :=
  (minSpeechDurationMs : ℚ) / 1000 ≤ (segmentOf chunkDuration run).duration

instance (minSpeechDurationMs : ℕ) (chunkDuration : ℚ) :
    DecidablePred (IsLong minSpeechDurationMs chunkDuration) := fun _ =>
  inferInstanceAs (Decidable (_ ≤ _))

/-- The segments that are due: those of the maximal runs of speech that are long enough, in
order. -/
def AreSpeech (minSpeechDurationMs : ℕ) (chunkDuration : ℚ) (labels : List LabeledAudio)
    (segments : List SpeechSegment) : Prop :=
  ∃ runs : List (ℕ × ℕ), segments = runs.map (segmentOf chunkDuration) ∧
    runs.Pairwise (·.2 < ·.1) ∧ ∀ i j, (i, j) ∈ runs ↔
      MaximalRun LabeledAudio.isSpeech labels i j ∧ IsLong minSpeechDurationMs chunkDuration (i, j)

variable {minSpeechDurationMs : ℕ} {chunkDuration : ℚ} {labels labels' : List LabeledAudio}
variable {segments segments' : List SpeechSegment}

theorem closed_eq (i j : ℕ) :
    Detection.closed minSpeechDurationMs (i * chunkDuration) (j * chunkDuration) =
      ([(i, j)].filter (IsLong minSpeechDurationMs chunkDuration ·)).map
        (segmentOf chunkDuration) := by
  rw [Detection.closed]
  split
  · next hlong =>
    have hlong : IsLong minSpeechDurationMs chunkDuration (i, j) := hlong
    rw [List.filter_cons, if_pos (decide_eq_true hlong)]
    rfl
  · next hlong =>
    have hlong : ¬ IsLong minSpeechDurationMs chunkDuration (i, j) := hlong
    rw [List.filter_cons, if_neg (mt of_decide_eq_true hlong)]
    rfl

/-- **The loop finds what the pass over the runs finds.** -/
theorem finish_foldl (labels : List LabeledAudio) (segments : List SpeechSegment)
    (start : Option ℕ) (index : ℕ) :
    (labels.foldl (Detection.step minSpeechDurationMs chunkDuration)
      ⟨segments, start.map fun i : ℕ => (i : ℚ) * chunkDuration, index⟩).finish
        minSpeechDurationMs chunkDuration =
    segments ++ ((runsFrom LabeledAudio.isSpeech start index labels).filter
      (IsLong minSpeechDurationMs chunkDuration ·)).map (segmentOf chunkDuration) := by
  induction labels generalizing segments start index with
  | nil =>
    rcases start with - | i
    · rfl
    · rw [List.foldl_nil, Detection.finish, runsFrom, ← closed_eq]
      rfl
  | cons label labels ih =>
    rw [List.foldl_cons]
    rcases label with chunk | chunk
    · -- speech begins, or goes on
      rcases start with - | i
      · exact ih segments (some index) (index + 1)
      · exact ih segments (some i) (index + 1)
    · rcases start with - | i
      · refine (ih (segments ++ []) none (index + 1)).trans ?_
        rw [List.append_nil]
        rfl
      · rw [runsFrom, LabeledAudio.isSpeech, if_neg Bool.false_ne_true, ← List.singleton_append,
          List.filter_append, List.map_append, ← closed_eq, ← List.append_assoc]
        exact ih (segments ++ Detection.closed minSpeechDurationMs (i * chunkDuration)
          (index * chunkDuration)) none (index + 1)

/-- **The segments found are those that are due.** -/
theorem areSpeech_finish (minSpeechDurationMs : ℕ) (chunkDuration : ℚ)
    (labels : List LabeledAudio) : AreSpeech minSpeechDurationMs chunkDuration labels
      ((labels.foldl (Detection.step minSpeechDurationMs chunkDuration) ⟨[], none, 0⟩).finish
        minSpeechDurationMs chunkDuration) := by
  refine ⟨_, finish_foldl labels [] none 0, pairwise_runsFrom.filter _, fun i j => ?_⟩
  rw [List.mem_filter, decide_eq_true_iff]
  exact and_congr_left fun _ => mem_maximalRuns

theorem AreSpeech.start_lt_end (h : AreSpeech minSpeechDurationMs chunkDuration labels segments)
    (hchunk : 0 < chunkDuration) : ∀ s ∈ segments, s.startTime < s.endTime := by
  obtain ⟨runs, rfl, -, hmem⟩ := h
  intro s hs
  obtain ⟨⟨i, j⟩, hrun, rfl⟩ := List.mem_map.1 hs
  have hlt : (i : ℚ) < j := Nat.cast_lt.2 ((hmem i j).1 hrun).1.lt
  exact mul_lt_mul_of_pos_right hlt hchunk

/-- The segments are in order and apart from each other. -/
theorem AreSpeech.pairwise (h : AreSpeech minSpeechDurationMs chunkDuration labels segments)
    (hchunk : 0 < chunkDuration) : segments.Pairwise (·.endTime < ·.startTime) := by
  obtain ⟨runs, rfl, hruns, -⟩ := h
  refine hruns.map _ fun run run' hlt => ?_
  have hlt : (run.2 : ℚ) < run'.1 := Nat.cast_lt.2 hlt
  exact mul_lt_mul_of_pos_right hlt hchunk

/-- **More speech makes longer segments.** -/
theorem AreSpeech.mono (h : AreSpeech minSpeechDurationMs chunkDuration labels segments)
    (h' : AreSpeech minSpeechDurationMs chunkDuration labels' segments')
    (hchunk : 0 < chunkDuration) (hspeech : ∀ k, HoldsAt LabeledAudio.isSpeech labels k →
      HoldsAt LabeledAudio.isSpeech labels' k) :
    ∀ s ∈ segments, ∃ s' ∈ segments', s'.startTime ≤ s.startTime ∧ s.endTime ≤ s'.endTime := by
  obtain ⟨runs, rfl, -, hmem⟩ := h
  obtain ⟨runs', rfl, -, hmem'⟩ := h'
  intro s hs
  obtain ⟨⟨i, j⟩, hrun, rfl⟩ := List.mem_map.1 hs
  obtain ⟨hmax, hlong⟩ := (hmem i j).1 hrun
  obtain ⟨i', j', hmax', hi, hj⟩ := hmax.exists_of_le hspeech
  have hstart : (i' : ℚ) * chunkDuration ≤ i * chunkDuration :=
    mul_le_mul_of_nonneg_right (Nat.cast_le.2 hi) hchunk.le
  have hend : (j : ℚ) * chunkDuration ≤ j' * chunkDuration :=
    mul_le_mul_of_nonneg_right (Nat.cast_le.2 hj) hchunk.le
  have hlong' : IsLong minSpeechDurationMs chunkDuration (i', j') := by
    have hle : (minSpeechDurationMs : ℚ) / 1000 ≤ j * chunkDuration - i * chunkDuration := hlong
    change (minSpeechDurationMs : ℚ) / 1000 ≤ j' * chunkDuration - i' * chunkDuration
    linarith
  exact ⟨_, List.mem_map.2 ⟨(i', j'), (hmem' i' j').2 ⟨hmax', hlong'⟩, rfl⟩, hstart, hend⟩

/-! ## Detection -/

/-- **The segments detected are the long enough maximal runs of speech, in order; each is
longer than nothing, they are apart, and where the labels have more speech they lie inside
segments.** -/
theorem detectSpeechSegments_spec (minSpeechDurationMs sampleRate : ℕ)
    (labels : List LabeledAudio) (hrate : sampleRate = 8000 ∨ sampleRate = 16000) :
    ∃ chunkSize segments, calculateChunkSize sampleRate = some chunkSize ∧
      detectSpeechSegments minSpeechDurationMs sampleRate labels = some segments ∧
      AreSpeech minSpeechDurationMs (chunkSize / sampleRate) labels segments ∧
      (∀ s ∈ segments, s.startTime < s.endTime) ∧
      segments.Pairwise (·.endTime < ·.startTime) ∧
      ∀ labels' segments', labels'.length = labels.length →
        (∀ k, HoldsAt LabeledAudio.isSpeech labels k → HoldsAt LabeledAudio.isSpeech labels' k) →
        detectSpeechSegments minSpeechDurationMs sampleRate labels' = some segments' →
        ∀ s ∈ segments, ∃ s' ∈ segments', s'.startTime ≤ s.startTime ∧ s.endTime ≤ s'.endTime := by
  obtain ⟨chunkSize, hsize, hchunk⟩ : ∃ chunkSize, calculateChunkSize sampleRate = some chunkSize ∧
      (0 : ℚ) < chunkSize / sampleRate := by
    rcases hrate with rfl | rfl
    · exact ⟨256, rfl, by norm_num⟩
    · exact ⟨512, rfl, by norm_num⟩
  have hdetect : ∀ labels segments, detectSpeechSegments minSpeechDurationMs sampleRate labels =
      some segments → AreSpeech minSpeechDurationMs (chunkSize / sampleRate) labels segments := by
    intro labels segments h
    rw [detectSpeechSegments, hsize] at h
    obtain rfl := Option.some.inj h
    exact areSpeech_finish _ _ labels
  obtain ⟨segments, hsegments⟩ :
      ∃ segments, detectSpeechSegments minSpeechDurationMs sampleRate labels = some segments := by
    rw [detectSpeechSegments, hsize]
    exact ⟨_, rfl⟩
  have hdue := hdetect labels segments hsegments
  refine ⟨chunkSize, segments, hsize, hsegments, hdue, hdue.start_lt_end hchunk,
    hdue.pairwise hchunk, fun labels' segments' _ hspeech hsegments' => ?_⟩
  exact hdue.mono (hdetect labels' segments' hsegments') hchunk hspeech

/-- One chunk of speech, which is too short, and after a pause two that are not. -/
def shortAndLong : List LabeledAudio :=
  [.speech [], .nonSpeech [], .nonSpeech [], .speech [], .speech []]

theorem detectSpeechSegments_shortAndLong :
    detectSpeechSegments 50 8000 shortAndLong = some [⟨12 / 125, 4 / 25, 8 / 125⟩] ∧
      AreSpeech 50 ((256 : ℕ) / (8000 : ℕ)) shortAndLong [⟨12 / 125, 4 / 25, 8 / 125⟩] := by
  have hfound : detectSpeechSegments 50 8000 shortAndLong =
      some [⟨12 / 125, 4 / 25, 8 / 125⟩] := by decide +kernel
  obtain ⟨chunkSize, segments, hsize, hsegments, hdue, -⟩ :=
    detectSpeechSegments_spec 50 8000 shortAndLong (.inl rfl)
  obtain rfl : 256 = chunkSize := Option.some.inj hsize
  obtain rfl := Option.some.inj (hfound.symm.trans hsegments)
  exact ⟨hfound, hdue⟩

end SubxCore
