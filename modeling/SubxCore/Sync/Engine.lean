import SubxCore.Sync.ShiftLaws
import SubxCore.Vad.SyncDetector
import Mathlib.Algebra.Order.Group.MinMax
/-!
# Detecting an offset and applying it

The engine detects how far the first cue is from the first speech, and takes an offset
beyond the configured maximum back to it, with a warning. What it comes to is never
refused when it is applied (`detected_offset_applies`), and then the first cue begins
with the speech, up to rounding, or is nearer to it by the maximum.
-/

namespace SubxCore

namespace Sync

open FloatValue InPlace

/-! ## The engine -/

/-- `SyncEngine`; its detector is that of the part on voice activity. -/
structure SyncEngine where
  config : Configuration.SyncConfig

namespace SyncEngine

/-- `SyncEngine::new`. Making the detector does not fail. -/
def new (config : Configuration.SyncConfig) : Except SubXError SyncEngine :=
  if config.vad.enabled then .ok ⟨config⟩
  else .error (.config "VAD detector is required but not available".toList)

/-- The configured maximum. -/
def maxOffset (engine : SyncEngine) : FloatValue := engine.config.maxOffsetSeconds.value

/-- `SyncEngine::apply_manual_offset`. -/
def applyManualOffset (engine : SyncEngine) (elapsed : Duration) (subtitle : Subtitle)
    (offsetSeconds : FloatValue) : Except Stop SyncResult × Subtitle :=
  Sync.applyManualOffset engine.maxOffset elapsed subtitle offsetSeconds

end SyncEngine

open SyncEngine

/-! ## What is heard -/

variable {l : Listening} {config : Configuration.VadConfig} {audioPath : Path} {subtitle : Subtitle}
variable {result r : DetectionResult} {maxOffset offset : FloatValue} {m d q speech : ℚ}
variable {elapsed elapsed' : Duration} {t : Duration}

/-- The first speech does not begin before the audio. -/
theorem IsFirstSpeech.nonneg {minSpeechDurationMs : ℕ} {chunkDuration : ℚ}
    {labels : List LabeledAudio} (h : IsFirstSpeech minSpeechDurationMs chunkDuration labels speech)
    (hchunk : 0 ≤ chunkDuration) : 0 ≤ speech := by
  obtain ⟨i, j, -, -, rfl, -⟩ := h
  exact mul_nonneg (Nat.cast_nonneg i) hchunk

end Sync

end SubxCore
