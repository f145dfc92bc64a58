import SubxCore.Matcher.Planning
import Mathlib.Data.Rat.Floor
import Mathlib.Tactic.FieldSimp
import Mathlib.Tactic.Linarith
import Mathlib.Tactic.Positivity
/-!
# Loading audio

The samples of a media file and the first of their channels. The packets of the first
audio track are decoded one after the other. Where the container does not say how many
channels there are, the number is what the samples divided by the duration round to, and
the duration comes from the timestamp of the last packet alone; the first channel is
every so many-th sample, and a step of zero panics. What probes and decodes is a
parameter; durations are exact.
-/

namespace SubxCore

/-! ## Media -/

/-- `TimeBase`. -/
structure TimeBase where
  numer : ℕ
  denom : ℕ
  deriving DecidableEq, Repr

/-- A track of a media file: what is read of it. -/
structure Track where
  id : ℕ
  sampleRate : Option ℕ
  channels : Option ℕ
  timeBase : Option TimeBase

/-- A packet, and what decoding it gives. -/
structure Packet where
  trackId : ℕ
  ts : ℕ
  decoded : Except Text (List Int16)

/-- A media file as it is probed: its tracks, and its packets up to the first that cannot
be read. -/
structure Media where
  tracks : List Track
  packets : List Packet

/-- What probes media files, given the extension, and makes decoders. -/
structure MediaLibrary where
  probe : Option Text → Bytes → Except Text Media
  makeDecoder : Track → Except Text Unit

/-- `AudioInfo`. -/
structure AudioInfo where
  sampleRate : ℕ
  channels : ℕ
  durationSeconds : ℚ
  totalSamples : ℕ
  deriving DecidableEq, Repr

/-- What the loop of `load_audio_samples` leaves. -/
structure Decoded where
  sampleRate : ℕ
  channels : Option ℕ
  timeBase : Option TimeBase
  samples : List Int16
  lastPts : ℕ

/-! ## Loading -/

/-- The loop over the packets. -/
def decodePackets (trackId : ℕ) : List Packet → List Int16 → ℕ →
    Except SubXError (List Int16 × ℕ)
  | [], samples, lastPts => .ok (samples, lastPts)
  | packet :: packets, samples, lastPts =>
    if packet.trackId ≠ trackId then decodePackets trackId packets samples lastPts
    else
      match packet.decoded with
      | .error e => .error (.audioProcessing ("Decode error: ".toList ++ e))
      | .ok decoded => decodePackets trackId packets (samples ++ decoded) packet.ts

/-- An I/O error as an error of the audio. -/
def audioError : SubXError → SubXError
  | .io message => .audioProcessing message
  | error => error

/-- `load_audio_samples`, to the end of the loop. -/
def decodeStream (library : MediaLibrary) (files : FileSystem) (path : Path) (maxAudioBytes : ℕ) :
    Except SubXError Decoded := do
  (checkFileSize files path maxAudioBytes "Audio".toList).mapError audioError
  let media ← (library.probe path.extension ((files path).getD [])).mapError fun e =>
    .audioProcessing ("Failed to probe format: ".toList ++ e)
  match media.tracks.find? (·.sampleRate.isSome) with
  | none => throw (.audioProcessing "No audio track found".toList)
  | some track =>
    match track.sampleRate with
    | none => throw (.audioProcessing "Sample rate unknown".toList)
    | some sampleRate =>
      (library.makeDecoder track).mapError fun e =>
        .audioProcessing ("Failed to create decoder: ".toList ++ e)
      let (samples, lastPts) ← decodePackets track.id media.packets [] 0
      return ⟨sampleRate, track.channels.map (· % 65536), track.timeBase, samples, lastPts⟩

namespace Decoded

/-- The duration by the number of samples. -/
def sampleDuration (d : Decoded) : ℚ := d.samples.length / (d.sampleRate * d.channels.getD 1)

/-- The duration, by the last timestamp where there is a time base. -/
def durationSeconds (d : Decoded) : ℚ :=
  match d.timeBase with
  | some tb => if 0 < d.lastPts then d.lastPts * tb.numer / tb.denom else d.sampleDuration
  | none => d.sampleDuration

/-- The nearest `u16`. -/
def roundToU16 (q : ℚ) : ℕ := min (round q).toNat 65535

/-- The number of channels, inferred where it is unknown. -/
def channelCount (d : Decoded) : ℕ :=
  d.channels.getD
    (if 0 < d.durationSeconds then
      roundToU16 (d.samples.length / (d.sampleRate * d.durationSeconds))
    else 1)

/-- What is reported of the audio. -/
def info (d : Decoded) : AudioInfo where
  sampleRate := d.sampleRate
  channels := d.channelCount
  durationSeconds := d.durationSeconds
  totalSamples := d.samples.length

end Decoded

/-- `DirectAudioLoader::load_audio_samples`. -/
def loadAudioSamples (library : MediaLibrary) (files : FileSystem) (path : Path)
    (maxAudioBytes : ℕ) : Except SubXError (List Int16 × AudioInfo) := do
  let d ← decodeStream library files path maxAudioBytes
  return (d.samples, d.info)

/-! ## The first channel -/

/-- Every `step`-th element, after some that are skipped. -/
def everyFrom {α : Type} (step : ℕ) : ℕ → List α → List α
  | _, [] => []
  | 0, a :: l => a :: everyFrom step (step - 1) l
  | skip + 1, _ :: l => everyFrom step skip l

/-- How audio processing ends early. -/
inductive AudioStop
  | panicked
  | failed (error : SubXError)
  deriving DecidableEq

/-- `extract_first_channel`. `step_by` panics at a step of zero. -/
def extractFirstChannel (samples : List Int16) (channels : ℕ) : Except AudioStop (List Int16) :=
  if channels = 0 then .error .panicked else .ok (everyFrom channels 0 samples)

/-- `ProcessedAudioData`. -/
structure ProcessedAudioData where
  samples : List Int16
  info : AudioInfo
  deriving DecidableEq

/-- `DEFAULT_MAX_AUDIO_BYTES`. -/
def defaultMaxAudioBytes : ℕ := 2147483648

/-- `VadAudioProcessor::load_and_prepare_audio_direct`. -/
def loadAndPrepareAudioDirect (library : MediaLibrary) (files : FileSystem) (path : Path) :
    Except AudioStop ProcessedAudioData :=
  match loadAudioSamples library files path defaultMaxAudioBytes with
  | .error e =>
    if files path = some [] then .ok ⟨[], ⟨16000, 1, 0, 0⟩⟩ else .error (.failed e)
  | .ok (samples, info) => do
    let monoSamples ←
      if info.channels = 1 then .ok samples else extractFirstChannel samples info.channels
    return ⟨monoSamples, { info with channels := 1, totalSamples := monoSamples.length }⟩

/-! ## Every so many-th element -/

theorem getElem?_everyFrom {α : Type} {step : ℕ} (hstep : 0 < step) (skip k : ℕ) (l : List α) :
    (everyFrom step skip l)[k]? = l[skip + k * step]? := by
  induction l generalizing skip k with
  | nil => rfl
  | cons a l ih =>
    rcases skip with - | skip
    · rcases k with - | k
      · rw [everyFrom, Nat.zero_mul, List.getElem?_cons_zero, List.getElem?_cons_zero]
      · have hindex : 0 + (k + 1) * step = step - 1 + k * step + 1 := by
          rw [Nat.succ_mul]
          omega
        rw [everyFrom, List.getElem?_cons_succ, ih, hindex, List.getElem?_cons_succ]
    · have hindex : skip + 1 + k * step = skip + k * step + 1 := by omega
      rw [everyFrom, ih, hindex, List.getElem?_cons_succ]

/-! ## The inferred number of channels -/

namespace Decoded

variable {d : Decoded} {tb : TimeBase}

/-- What a container that is not broken says. -/
structure WellFormed (d : Decoded) : Prop where
  sampleRate_pos : 1 ≤ d.sampleRate
  channels_pos : ∀ channels ∈ d.channels, 1 ≤ channels
  numer_pos : ∀ tb ∈ d.timeBase, 0 < tb.numer
  denom_pos : ∀ tb ∈ d.timeBase, 0 < tb.denom

/-- The samples make at least half a channel up to the last timestamp, where the number of
channels is inferred from it. -/
def FillsTimeline (d : Decoded) : Prop :=
  d.channels = none → ∀ tb ∈ d.timeBase,
    d.sampleRate * (d.lastPts * tb.numer) ≤ 2 * d.samples.length * tb.denom

theorem roundToU16_pos_iff {q : ℚ} : 1 ≤ roundToU16 q ↔ 1 / 2 ≤ q := by
  have hround : 1 ≤ round q ↔ 1 / 2 ≤ q := by
    rw [round_eq, Int.le_floor]
    constructor
    · intro h
      push_cast at h
      linarith
    · intro h
      push_cast
      linarith
  rw [← hround, roundToU16]
  omega

/-- By the number of samples alone there is one channel. -/
theorem channelCount_of_sampleDuration (hd : d.WellFormed) (hchannels : d.channels = none)
    (hduration : d.durationSeconds = d.sampleDuration) : d.channelCount = 1 := by
  have hrate : (0 : ℚ) < d.sampleRate := Nat.cast_pos.2 hd.sampleRate_pos
  rw [channelCount, hchannels, Option.getD_none, hduration]
  split
  · next hpos =>
    rw [sampleDuration, hchannels, Option.getD_none, Nat.cast_one, mul_one] at hpos ⊢
    have hsamples : (0 : ℚ) < d.samples.length := by
      have := mul_pos hpos hrate
      rwa [div_mul_cancel₀ _ hrate.ne'] at this
    rw [mul_div_cancel₀ _ hrate.ne', div_self hsamples.ne', roundToU16, round_one]
    rfl
  · rfl

/-- By the last timestamp there is a channel where the samples make half of one. -/
theorem channelCount_of_lastPts (hd : d.WellFormed) (hchannels : d.channels = none)
    (htimeBase : d.timeBase = some tb) (hpts : 0 < d.lastPts) :
    1 ≤ d.channelCount ↔
      d.sampleRate * (d.lastPts * tb.numer) ≤ 2 * d.samples.length * tb.denom := by
  have hrate : (0 : ℚ) < d.sampleRate := Nat.cast_pos.2 hd.sampleRate_pos
  have hlast : (0 : ℚ) < d.lastPts := Nat.cast_pos.2 hpts
  have hnumer : (0 : ℚ) < tb.numer := Nat.cast_pos.2 (hd.numer_pos tb htimeBase)
  have hdenom : (0 : ℚ) < tb.denom := Nat.cast_pos.2 (hd.denom_pos tb htimeBase)
  have hduration : d.durationSeconds = d.lastPts * tb.numer / tb.denom := by
    rw [durationSeconds, htimeBase]
    exact if_pos hpts
  have hpos : 0 < d.durationSeconds := by
    rw [hduration]
    positivity
  have hframes : (d.sampleRate : ℚ) * d.durationSeconds * tb.denom =
      d.sampleRate * (d.lastPts * tb.numer) := by
    rw [hduration, mul_assoc, div_mul_cancel₀ _ hdenom.ne']
  rw [channelCount, hchannels, Option.getD_none, if_pos hpos, roundToU16_pos_iff,
    le_div_iff₀ (mul_pos hrate hpos), ← mul_le_mul_iff_left₀ hdenom, mul_assoc, hframes]
  rw [← Nat.cast_le (α := ℚ)]
  push_cast
  constructor <;> intro h <;> linarith

/-- **There is a channel exactly where the samples fill the timeline.** -/
theorem channelCount_pos_iff (hd : d.WellFormed) : 1 ≤ d.channelCount ↔ d.FillsTimeline := by
  rcases hchannels : d.channels with - | channels
  · have hone : d.durationSeconds = d.sampleDuration → 1 ≤ d.channelCount := fun hduration =>
      (channelCount_of_sampleDuration hd hchannels hduration).ge
    rcases htimeBase : d.timeBase with - | tb
    · refine iff_of_true (hone ?_) fun _ tb htb => ?_
      · rw [durationSeconds, htimeBase]
      · rw [htimeBase] at htb
        cases htb
    rcases Nat.eq_zero_or_pos d.lastPts with hpts | hpts
    · refine iff_of_true (hone ?_) fun _ tb _ => ?_
      · rw [durationSeconds, htimeBase]
        exact if_neg (by omega)
      · rw [hpts, Nat.zero_mul, Nat.mul_zero]
        exact Nat.zero_le _
    · rw [channelCount_of_lastPts hd hchannels htimeBase hpts, FillsTimeline, htimeBase]
      exact ⟨fun h _ tb' htb => by cases htb; exact h, fun h => h hchannels tb rfl⟩
  · refine iff_of_true ?_ fun hnone => ?_
    · rw [channelCount, hchannels]
      exact hd.channels_pos channels hchannels
    · rw [hchannels] at hnone
      cases hnone

end Decoded

/-! ## The first channel taken -/

/-- What is promised of a file: loading it does not panic, and where it is decoded the
number of channels is one at least and the samples are those of the first channel. -/
def FirstChannelTaken (library : MediaLibrary) (files : FileSystem) (path : Path) : Prop :=
  loadAndPrepareAudioDirect library files path ≠ .error .panicked ∧
    ∀ samples info, loadAudioSamples library files path defaultMaxAudioBytes =
        .ok (samples, info) →
      1 ≤ info.channels ∧
        ∃ data, loadAndPrepareAudioDirect library files path = .ok data ∧
          ∀ k, data.samples[k]? = samples[k * info.channels]?

variable {library : MediaLibrary} {files : FileSystem} {path : Path} {samples : List Int16}
variable {info : AudioInfo}

/-- Where there is a channel the first is taken. -/
theorem firstChannel_of_channel (h : loadAudioSamples library files path defaultMaxAudioBytes =
      .ok (samples, info)) (hchannels : 1 ≤ info.channels) :
    ∃ data, loadAndPrepareAudioDirect library files path = .ok data ∧
      ∀ k, data.samples[k]? = samples[k * info.channels]? := by
  rw [loadAndPrepareAudioDirect, h]
  rcases eq_or_ne info.channels 1 with hone | hne
  · refine ⟨⟨samples, { info with channels := 1, totalSamples := samples.length }⟩, ?_, fun k => ?_⟩
    · simp [hone]
    · rw [hone, Nat.mul_one]
  · have hextract : extractFirstChannel samples info.channels =
        .ok (everyFrom info.channels 0 samples) := if_neg (by omega)
    refine ⟨_, by simp only [if_neg hne, hextract]; rfl, fun k => ?_⟩
    rw [getElem?_everyFrom hchannels, Nat.zero_add]

/-- **Audio is loaded without a panic, and its first channel taken, exactly where the
samples decoded fill the timeline or the number of channels is known.** -/
theorem firstChannelTaken_iff (library : MediaLibrary) (files : FileSystem) (path : Path)
    (hmedia : ∀ d, decodeStream library files path defaultMaxAudioBytes = .ok d → d.WellFormed) :
    FirstChannelTaken library files path ↔
      ∀ d, decodeStream library files path defaultMaxAudioBytes = .ok d → d.FillsTimeline := by
  rcases hdecode : decodeStream library files path defaultMaxAudioBytes with e | d
  · -- an error is returned, or stands for no samples
    have hload : loadAudioSamples library files path defaultMaxAudioBytes = .error e := by
      rw [loadAudioSamples, hdecode]
      rfl
    refine iff_of_true ⟨?_, fun samples info h => ?_⟩ fun d hd => by cases hd
    · rw [loadAndPrepareAudioDirect, hload]
      dsimp only
      split <;> exact fun h => by cases h
    · rw [hload] at h
      cases h
  · have hload : loadAudioSamples library files path defaultMaxAudioBytes =
        .ok (d.samples, d.info) := by
      rw [loadAudioSamples, hdecode]
      rfl
    have hfills : (∀ d', Except.ok (ε := SubXError) d = .ok d' → d'.FillsTimeline) ↔
        d.FillsTimeline :=
      ⟨fun h => h d rfl, fun h d' hd => by cases hd; exact h⟩
    rw [hfills, ← Decoded.channelCount_pos_iff (hmedia d hdecode)]
    constructor
    · rintro ⟨-, htaken⟩
      exact (htaken d.samples d.info hload).1
    · intro hchannels
      have htaken := firstChannel_of_channel hload hchannels
      refine ⟨?_, fun samples info h => ?_⟩
      · obtain ⟨data, hdata, -⟩ := htaken
        rw [hdata]
        exact fun h => by cases h
      · obtain ⟨rfl, rfl⟩ := Prod.mk.inj (Except.ok.inj (hload.symm.trans h))
        exact ⟨hchannels, htaken⟩

/-- A container that does not say how many channels there are, at 8 kHz. -/
def truncatedMedia (lastPts : ℕ) : MediaLibrary where
  probe _ _ := .ok
    { tracks := [⟨1, some 8000, none, some ⟨1, 8000⟩⟩]
      packets := [⟨1, 0, .ok [1, 2]⟩, ⟨1, lastPts, .ok [3, 4]⟩] }
  makeDecoder _ := .ok ()

/-- Its file. -/
def truncatedFiles : FileSystem := fun _ => some [0]

/-- What is decoded of it. -/
def truncatedDecoded (lastPts : ℕ) : Decoded :=
  ⟨8000, none, some ⟨1, 8000⟩, [1, 2, 3, 4], lastPts⟩

theorem truncatedDecoded_wellFormed (lastPts : ℕ) : (truncatedDecoded lastPts).WellFormed where
  sampleRate_pos := Nat.le_add_left 1 7999
  channels_pos channels h := by cases h
  numer_pos tb h := by cases h; exact Nat.one_pos
  denom_pos tb h := by cases h; exact Nat.succ_pos 7999

/-- Four samples, the last two of them at the second frame, fill the timeline. -/
theorem firstChannelTaken_filled : FirstChannelTaken (truncatedMedia 2) truncatedFiles [] := by
  refine (firstChannelTaken_iff _ _ _ fun d hd => ?_).2 fun d hd => ?_
  · obtain rfl := Except.ok.inj hd
    exact truncatedDecoded_wellFormed 2
  · obtain rfl := Except.ok.inj hd
    rintro - tb ⟨⟩
    decide

/-- With the last two at the twelfth there is no channel. -/
theorem firstChannelTaken_truncated :
    ¬ FirstChannelTaken (truncatedMedia 12) truncatedFiles [] := by
  rintro ⟨-, htaken⟩
  have hchannels := (htaken (truncatedDecoded 12).samples (truncatedDecoded 12).info rfl).1
  have hfills := (Decoded.channelCount_pos_iff (truncatedDecoded_wellFormed 12)).1 hchannels
  exact absurd (hfills rfl _ rfl) (by decide)

end SubxCore
