import SubxCore.Common.RoundingError
import SubxCore.Common.Run
import SubxCore.Configuration.Types
import SubxCore.Sync.ManualOffset
import SubxCore.Vad.AudioLoader
import SubxCore.Vad.SpeechSegments
/-!
# Where the speech begins

The detector compares the start of the first cue with that of the first speech that is
long enough, or of the first speech at all where none is. What labels the chunks of the
audio and what resamples it are parameters, and so is the time everything took. Times are
exact up to the offset, which is an `f32`, as are the sums of the confidence.
-/

namespace SubxCore

open MaximalRuns

/-! ## Speech -/

namespace Sync

/-! ## What is detected -/

/-- **The first speech that counts**: the start of a maximal run of speech that is long
enough to be a segment. It lasts a tenth of a second if any of these does, and none that
is as long begins earlier; else none begins earlier at all. -/
def IsFirstSpeech (minSpeechDurationMs : ℕ) (chunkDuration : ℚ) (labels : List LabeledAudio)
    (time : ℚ) : Prop :=
  ∃ i j, MaximalRun LabeledAudio.isSpeech labels i j ∧
    IsLong minSpeechDurationMs chunkDuration (i, j) ∧ time = i * chunkDuration ∧
    ∀ i' j', MaximalRun LabeledAudio.isSpeech labels i' j' →
      IsLong minSpeechDurationMs chunkDuration (i', j') →
      (1 / 10 ≤ (segmentOf chunkDuration (i', j')).duration →
        1 / 10 ≤ (segmentOf chunkDuration (i, j)).duration ∧ i ≤ i') ∧
      ((segmentOf chunkDuration (i, j)).duration < 1 / 10 → i ≤ i')

variable {minSpeechDurationMs : ℕ} {chunkDuration time : ℚ} {labels : List LabeledAudio}
variable {segments : List SpeechSegment}

end Sync

end SubxCore
