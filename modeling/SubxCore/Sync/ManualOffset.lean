import SubxCore.Common.FloatValue
import SubxCore.Common.InPlace
import SubxCore.Formats.Types
import SubxCore.Configuration.Validator
/-!
# Shifting a subtitle by a manual offset

`shift_subtitle_timing` moves the times of every cue by an offset in seconds,
and `apply_manual_offset` does the same where the offset is not beyond the
configured maximum. The offset is a float. Its size becomes a duration for
every cue anew, which panics where it is too big or not a number, and the cues
are changed in place, the start before the end, so an end that overflows is
found when much has been shifted already.
-/

namespace SubxCore

open FloatValue InPlace

/-! ## Durations -/

namespace Duration

/-- `Duration::ZERO`. -/
def zero : Duration := ⟨0⟩

/-- `Duration::checked_add`. -/
def checkedAdd (a b : Duration) : Option Duration :=
  if a.nanos + b.nanos ≤ max.nanos then some ⟨a.nanos + b.nanos⟩ else none

/-- `TryFromFloatSecsError`. -/
inductive TryFromFloatSecsError
  | negative
  | overflowOrNan
  deriving DecidableEq, Repr

/-- Seconds in whole nanoseconds, rounded to the nearest, ties to even. -/
def nanosOf (seconds : ℚ) : ℕ := (BinaryFormat.nearestEven (seconds * 1000000000)).toNat

/-- `Duration::try_from_secs_f32`; `Duration::from_secs_f32` panics with its
error. -/
def tryFromSecsF32 : FloatValue → Except TryFromFloatSecsError Duration
  | .finite seconds =>
    if seconds < 0 then .error .negative
    else if nanosOf seconds ≤ max.nanos then .ok ⟨nanosOf seconds⟩
    else .error .overflowOrNan
  | .infinity negative => .error (if negative then .negative else .overflowOrNan)
  | .nan => .error .overflowOrNan

end Duration

namespace Sync

/-! ## Results -/

/-- Why a shift stops. -/
inductive Stop
  | failed (error : SubXError)
  | panicked (error : Duration.TryFromFloatSecsError)
  deriving DecidableEq, Repr

/-- `SyncMethod`. -/
inductive SyncMethod
  | auto
  | localVad
  | manual
  deriving DecidableEq, Repr

/-- The object of a manual offset's additional information; a float that is not
finite is a null. -/
structure ManualInfo where
  appliedOffset : Option ℚ
  entriesModified : ℕ
  deriving DecidableEq, Repr

/-- `SyncResult`. -/
structure SyncResult where
  offsetSeconds : FloatValue
  confidence : FloatValue
  methodUsed : SyncMethod
  correlationPeak : FloatValue
  additionalInfo : Option ManualInfo
  processingDuration : Duration
  warnings : List Text
  deriving DecidableEq, Repr

/-! ## The shift -/

/-- The error of a shift that overflows. -/
def invalidOffset : Stop :=
  .failed (.audioProcessing "Invalid offset results in negative time".toList)

/-- The body of the loop over the entries. -/
def shiftEntry (offsetSeconds : FloatValue) (entry : SubtitleEntry) :
    Except Stop Unit × SubtitleEntry :=
  match Duration.tryFromSecsF32 offsetSeconds.abs with
  | .error e => (.error (.panicked e), entry)
  | .ok offsetDur =>
    if .finite 0 ≤ offsetSeconds then
      match entry.startTime.checkedAdd offsetDur with
      | none => (.error invalidOffset, entry)
      | some startTime =>
        match entry.endTime.checkedAdd offsetDur with
        | none => (.error invalidOffset, { entry with startTime })
        | some endTime => (.ok (), { entry with startTime, endTime })
    else
      -- clamped at zero rather than failing on an underflow
      let advance (time : Duration) : Duration :=
        if time.nanos > offsetDur.nanos then ⟨time.nanos - offsetDur.nanos⟩ else .zero
      (.ok (), { entry with
        startTime := advance entry.startTime
        endTime := advance entry.endTime })

/-- `shift_subtitle_timing`, with the time it took as a parameter. -/
def shiftSubtitleTiming (elapsed : Duration) (subtitle : Subtitle) (offsetSeconds : FloatValue) :
    Except Stop SyncResult × Subtitle :=
  match forEachMut (shiftEntry offsetSeconds) subtitle.entries with
  | (.error stop, entries) => (.error stop, { subtitle with entries })
  | (.ok (), entries) =>
    (.ok
      { offsetSeconds
        confidence := .finite 1
        methodUsed := .manual
        correlationPeak := .finite 1
        additionalInfo := some
          { appliedOffset := offsetSeconds.toRat?
            entriesModified := entries.length }
        processingDuration := elapsed
        warnings := [] },
      { subtitle with entries })

/-- `SyncEngine::apply_manual_offset`, of an engine with a maximum. -/
def applyManualOffset (maxOffsetSeconds : FloatValue) (elapsed : Duration) (subtitle : Subtitle)
    (offsetSeconds : FloatValue) : Except Stop SyncResult × Subtitle :=
  if offsetSeconds.abs > maxOffsetSeconds then
    (.error (.failed (.config ("Offset ".toList ++ offsetSeconds.toFixed 2 ++
      "s exceeds maximum allowed value ".toList ++ maxOffsetSeconds.toFixed 2 ++
      "s. Please check the sync.max_offset_seconds configuration or use a smaller offset.".toList))),
      subtitle)
  else shiftSubtitleTiming elapsed subtitle offsetSeconds

/-! ## The shift of an entry -/

/-- A time moved by so many nanoseconds, not below zero. -/
def movedTime (n : ℤ) (time : Duration) : Duration := ⟨(time.nanos + n).toNat⟩

/-- An entry with both times moved. -/
def movedEntry (n : ℤ) (entry : SubtitleEntry) : SubtitleEntry :=
  { entry with
    startTime := movedTime n entry.startTime
    endTime := movedTime n entry.endTime }

/-- The nanoseconds with a sign that a finite offset stands for. -/
def signedNanos (q : ℚ) : ℤ := if 0 ≤ q then Duration.nanosOf |q| else -Duration.nanosOf |q|

/-- **The offset is a duration**, with a sign. -/
def IsDuration (q : ℚ) : Prop := Duration.nanosOf |q| ≤ Duration.max.nanos

/-- A delay takes neither time beyond the longest duration. -/
def Delayable (n : ℕ) (entry : SubtitleEntry) : Prop :=
  entry.startTime.nanos + n ≤ Duration.max.nanos ∧ entry.endTime.nanos + n ≤ Duration.max.nanos

variable {elapsed : Duration} {maxOffset offset : FloatValue} {q : ℚ} {n : ℕ} {stop : Stop}
variable {entry entry' : SubtitleEntry} {subtitle : Subtitle} {t : Duration}

theorem tryFromSecsF32_abs_eq_ok {d : Duration} :
    Duration.tryFromSecsF32 offset.abs = .ok d ↔
      ∃ q, offset = .finite q ∧ IsDuration q ∧ d = ⟨Duration.nanosOf |q|⟩ := by
  cases offset with
  | nan =>
    constructor
    · intro h
      cases h
    · rintro ⟨q, h, -⟩
      cases h
  | infinity negative =>
    constructor
    · intro h
      cases h
    · rintro ⟨q, h, -⟩
      cases h
  | finite q =>
    rw [abs_finite, Duration.tryFromSecsF32, if_neg (not_lt.2 (abs_nonneg q))]
    by_cases hq : Duration.nanosOf |q| ≤ Duration.max.nanos
    · rw [if_pos hq]
      constructor
      · intro h
        cases h
        exact ⟨q, rfl, hq, rfl⟩
      · rintro ⟨q', h, -, rfl⟩
        cases h
        rfl
    · rw [if_neg hq]
      constructor
      · intro h
        cases h
      · rintro ⟨q', h, hq', -⟩
        cases h
        exact absurd hq' hq

theorem checkedAdd_eq_some {d t' : Duration} :
    t.checkedAdd d = some t' ↔ t.nanos + d.nanos ≤ Duration.max.nanos ∧ t' = movedTime d.nanos t := by
  have hmoved : movedTime d.nanos t = ⟨t.nanos + d.nanos⟩ := by
    rw [movedTime]
    congr 1
  rw [Duration.checkedAdd, hmoved]
  split
  · next h => exact ⟨fun heq => ⟨h, (Option.some.inj heq).symm⟩, fun heq => congrArg _ heq.2.symm⟩
  · next h => exact ⟨fun heq => (nomatch heq), fun heq => absurd heq.1 h⟩

theorem checkedAdd_eq_none {d : Duration} :
    t.checkedAdd d = none ↔ Duration.max.nanos < t.nanos + d.nanos := by
  rw [Duration.checkedAdd, ← not_le]
  split
  · next h => exact ⟨fun heq => (nomatch heq), fun hlt => absurd h hlt⟩
  · next h => exact ⟨fun _ => h, fun _ => rfl⟩

/-- What is no duration panics before anything is changed. -/
theorem shiftEntry_of_error {e : Duration.TryFromFloatSecsError}
    (h : Duration.tryFromSecsF32 offset.abs = .error e) :
    shiftEntry offset entry = (.error (.panicked e), entry) := by
  rw [shiftEntry, h]

/-- An advance always goes through. -/
theorem shiftEntry_advance (hq : IsDuration q) (hneg : q < 0) :
    shiftEntry (.finite q) entry = (.ok (), movedEntry (signedNanos q) entry) := by
  have hadvance : ∀ t : Duration,
      (if t.nanos > Duration.nanosOf |q| then (⟨t.nanos - Duration.nanosOf |q|⟩ : Duration)
        else .zero) = movedTime (signedNanos q) t := by
    intro t
    rw [signedNanos, if_neg (not_le.2 hneg), movedTime]
    split
    · congr 1
      omega
    · rw [Duration.zero]
      congr 1
      omega
  rw [shiftEntry, tryFromSecsF32_abs_eq_ok.2 ⟨q, rfl, hq, rfl⟩]
  dsimp only
  rw [if_neg (by rw [finite_le_finite]; exact not_le.2 hneg), hadvance, hadvance]
  rfl

/-- A delay goes through where it fits. -/
theorem shiftEntry_delay (hq : IsDuration q) (hpos : 0 ≤ q) :
    shiftEntry (.finite q) entry = (.ok (), entry') ↔
      Delayable (Duration.nanosOf |q|) entry ∧ entry' = movedEntry (signedNanos q) entry := by
  rw [shiftEntry, tryFromSecsF32_abs_eq_ok.2 ⟨q, rfl, hq, rfl⟩]
  dsimp only
  rw [if_pos (finite_le_finite.2 hpos), signedNanos, if_pos hpos]
  cases hstart : entry.startTime.checkedAdd ⟨Duration.nanosOf |q|⟩ with
  | none =>
    exact ⟨fun h => (nomatch (Prod.mk.inj h).1),
      fun h => absurd h.1.1 (not_le.2 (checkedAdd_eq_none.1 hstart))⟩
  | some startTime =>
    dsimp only
    obtain ⟨hfits, rfl⟩ := checkedAdd_eq_some.1 hstart
    cases hend : entry.endTime.checkedAdd ⟨Duration.nanosOf |q|⟩ with
    | none =>
      exact ⟨fun h => (nomatch (Prod.mk.inj h).1),
        fun h => absurd h.1.2 (not_le.2 (checkedAdd_eq_none.1 hend))⟩
    | some endTime =>
      obtain ⟨hfits', rfl⟩ := checkedAdd_eq_some.1 hend
      dsimp only
      exact ⟨fun h => ⟨⟨hfits, hfits'⟩, (Prod.mk.inj h).2.symm⟩, fun h => by rw [h.2]; rfl⟩

/-- **What a shift makes of an entry** where it goes through. -/
theorem shiftEntry_eq_ok (hq : IsDuration q) :
    shiftEntry (.finite q) entry = (.ok (), entry') ↔
      (0 ≤ q → Delayable (Duration.nanosOf |q|) entry) ∧ entry' = movedEntry (signedNanos q) entry := by
  obtain hneg | hpos := lt_or_ge q 0
  · rw [shiftEntry_advance hq hneg]
    exact ⟨fun h => ⟨fun hpos => absurd hneg (not_lt.2 hpos), (Prod.mk.inj h).2.symm⟩,
      fun h => by rw [h.2]⟩
  · rw [shiftEntry_delay hq hpos]
    exact and_congr_left' ⟨fun h _ => h, fun h => h hpos⟩

/-- Where an offset is a duration, the only failure is the delay of a time that
overflows. -/
theorem shiftEntry_eq_error (hq : IsDuration q)
    (h : shiftEntry (.finite q) entry = (.error stop, entry')) : stop = invalidOffset := by
  rw [shiftEntry, tryFromSecsF32_abs_eq_ok.2 ⟨q, rfl, hq, rfl⟩] at h
  dsimp only at h
  split at h
  · split at h
    · exact (Except.error.inj (Prod.mk.inj h).1).symm
    · split at h
      · exact (Except.error.inj (Prod.mk.inj h).1).symm
      · cases (Prod.mk.inj h).1
  · cases (Prod.mk.inj h).1

/-- A delay that fails leaves the entry alone where the start is what overflows,
or where it is no delay at all. -/
theorem shiftEntry_eq_error_self (hq : IsDuration q) (hpos : 0 ≤ q) (hne : Duration.nanosOf |q| ≠ 0) :
    shiftEntry (.finite q) entry = (.error invalidOffset, entry) ↔
      Duration.max.nanos < entry.startTime.nanos + Duration.nanosOf |q| := by
  rw [shiftEntry, tryFromSecsF32_abs_eq_ok.2 ⟨q, rfl, hq, rfl⟩]
  dsimp only
  rw [if_pos (finite_le_finite.2 hpos)]
  cases hstart : entry.startTime.checkedAdd ⟨Duration.nanosOf |q|⟩ with
  | none => exact ⟨fun _ => checkedAdd_eq_none.1 hstart, fun _ => rfl⟩
  | some startTime =>
    obtain ⟨hfits, rfl⟩ := checkedAdd_eq_some.1 hstart
    refine ⟨fun h => ?_, fun h => absurd hfits (not_le.2 h)⟩
    dsimp only at h
    split at h
    · -- the start has been moved
      have := congrArg (fun r => r.2.startTime.nanos) h
      dsimp only [movedTime] at this
      omega
    · cases (Prod.mk.inj h).1

/-! ## The shift of a subtitle -/

/-- **All or nothing**: no panic, and an error only with every entry as it was. -/
def AllOrNothing (subtitle : Subtitle) (run : Except Stop SyncResult × Subtitle) : Prop :=
  (∀ e, run.1 ≠ .error (.panicked e)) ∧
    ∀ error, run.1 = .error (.failed error) → run.2.entries = subtitle.entries

/-- **An offset suits some entries**: there are none, or it is a duration and an
advance, rounds to nothing, delays no time beyond the longest duration, or takes
the very first start beyond it. -/
def Suits (offset : FloatValue) (entries : List SubtitleEntry) : Prop :=
  entries = [] ∨ ∃ q, offset = .finite q ∧ IsDuration q ∧
    (q < 0 ∨ Duration.nanosOf |q| = 0 ∨ (∀ entry ∈ entries, Delayable (Duration.nanosOf |q|) entry) ∨
      ∃ first rest, entries = first :: rest ∧
        Duration.max.nanos < first.startTime.nanos + Duration.nanosOf |q|)

/-- The loop goes through where every entry does. -/
theorem shiftAll_eq_ok {xs ys : List SubtitleEntry} (hq : IsDuration q) :
    forEachMut (shiftEntry (.finite q)) xs = (.ok (), ys) ↔
      (∀ entry ∈ xs, 0 ≤ q → Delayable (Duration.nanosOf |q|) entry) ∧
        ys = xs.map (movedEntry (signedNanos q)) :=
  forEachMut_eq_ok fun _ _ => shiftEntry_eq_ok hq

/-- A loop that delays, and fails, has left the entries alone only where the
first start is what overflows. -/
theorem shiftAll_eq_error_self {xs : List SubtitleEntry} (hq : IsDuration q) (hpos : 0 ≤ q)
    (hne : Duration.nanosOf |q| ≠ 0) :
    (∃ error, forEachMut (shiftEntry (.finite q)) xs = (.error (.failed error), xs)) ↔
      ∃ first rest, xs = first :: rest ∧
        Duration.max.nanos < first.startTime.nanos + Duration.nanosOf |q| := by
  have hchanged : ∀ x x', shiftEntry (.finite q) x = (.ok (), x') → x' ≠ x := by
    intro x x' hx heq
    have hn := congrArg (fun e => e.startTime.nanos) (((shiftEntry_eq_ok hq).1 hx).2)
    rw [heq, signedNanos, if_pos hpos] at hn
    dsimp only [movedEntry, movedTime] at hn
    omega
  constructor
  · rintro ⟨error, h⟩
    obtain ⟨first, rest, hxs, hfirst⟩ := (forEachMut_eq_error_self hchanged).1 h
    rw [shiftEntry_eq_error hq hfirst] at hfirst
    exact ⟨first, rest, hxs, (shiftEntry_eq_error_self hq hpos hne).1 hfirst⟩
  · rintro ⟨first, rest, hxs, hfirst⟩
    exact ⟨_, (forEachMut_eq_error_self hchanged).2
      ⟨first, rest, hxs, (shiftEntry_eq_error_self hq hpos hne).2 hfirst⟩⟩

/-- The loop decides what becomes of a shift. -/
theorem allOrNothing_shift :
    AllOrNothing subtitle (shiftSubtitleTiming elapsed subtitle offset) ↔
      (∃ ys, forEachMut (shiftEntry offset) subtitle.entries = (.ok (), ys)) ∨
        ∃ error, forEachMut (shiftEntry offset) subtitle.entries =
          (.error (.failed error), subtitle.entries) := by
  unfold AllOrNothing shiftSubtitleTiming
  rcases hrun : forEachMut (shiftEntry offset) subtitle.entries with ⟨(error | e) | ⟨⟩, ys⟩
  · constructor
    · intro h
      exact .inr ⟨error, Prod.ext rfl (h.2 error rfl)⟩
    · rintro (⟨_, h⟩ | ⟨_, h⟩)
      · cases (Prod.mk.inj h).1
      · exact ⟨fun e he => (nomatch he), fun _ _ => (Prod.mk.inj h).2⟩
  · constructor
    · intro h
      exact absurd rfl (h.1 e)
    · rintro (⟨_, h⟩ | ⟨_, h⟩) <;> cases (Prod.mk.inj h).1
  · exact ⟨fun _ => .inl ⟨ys, rfl⟩, fun _ => ⟨fun e he => (nomatch he), fun _ he => (nomatch he)⟩⟩

theorem movedTime_zero : movedTime 0 t = t := by
  rw [movedTime, Int.add_zero, Int.toNat_natCast]

/-- A delay by nothing changes nothing. -/
theorem shiftEntry_snd_of_zero (hq : IsDuration q) (hpos : 0 ≤ q) (hzero : Duration.nanosOf |q| = 0) :
    (shiftEntry (.finite q) entry).2 = entry := by
  have hadd : ∀ {t t' : Duration}, t.checkedAdd ⟨Duration.nanosOf |q|⟩ = some t' → t' = t := by
    intro t t' h
    rw [(checkedAdd_eq_some.1 h).2]
    dsimp only
    rw [hzero, Nat.cast_zero, movedTime_zero]
  rw [shiftEntry, tryFromSecsF32_abs_eq_ok.2 ⟨q, rfl, hq, rfl⟩]
  dsimp only
  rw [if_pos (finite_le_finite.2 hpos)]
  cases hstart : entry.startTime.checkedAdd ⟨Duration.nanosOf |q|⟩ with
  | none => rfl
  | some startTime =>
    cases hend : entry.endTime.checkedAdd ⟨Duration.nanosOf |q|⟩ with
    | none => rw [hadd hstart]
    | some endTime => rw [hadd hstart, hadd hend]

/-- A loop that delays by nothing leaves the entries alone. -/
theorem shiftAll_of_zero {xs : List SubtitleEntry} (hq : IsDuration q) (hpos : 0 ≤ q)
    (hzero : Duration.nanosOf |q| = 0) :
    (∃ ys, forEachMut (shiftEntry (.finite q)) xs = (.ok (), ys)) ∨
      ∃ error, forEachMut (shiftEntry (.finite q)) xs = (.error (.failed error), xs) := by
  rcases hrun : forEachMut (shiftEntry (.finite q)) xs with ⟨stop | ⟨⟩, ys⟩
  · obtain ⟨x, -, x', hx⟩ := forEachMut_eq_error hrun
    obtain rfl := shiftEntry_eq_error hq hx
    have hself : (forEachMut (shiftEntry (.finite q)) xs).2 = xs :=
      forEachMut_snd_eq_self fun _ => shiftEntry_snd_of_zero hq hpos hzero
    rw [hrun] at hself
    exact .inr ⟨_, Prod.ext rfl hself⟩
  · exact .inl ⟨ys, rfl⟩

/-- **A shift is all or nothing** exactly where the offset suits the entries. -/
theorem allOrNothing_shift_iff :
    AllOrNothing subtitle (shiftSubtitleTiming elapsed subtitle offset) ↔
      Suits offset subtitle.entries := by
  rw [allOrNothing_shift, Suits]
  cases hentries : subtitle.entries with
  | nil => exact iff_of_true (.inl ⟨_, rfl⟩) (.inl rfl)
  | cons first rest =>
    rw [or_iff_right (List.cons_ne_nil _ _)]
    cases hoffset : Duration.tryFromSecsF32 offset.abs with
    | error e =>
      -- no duration: a panic on the first entry
      rw [forEachMut_cons_error (shiftEntry_of_error hoffset)]
      constructor
      · rintro (⟨_, h⟩ | ⟨_, h⟩) <;> cases (Prod.mk.inj h).1
      · rintro ⟨q, rfl, hq, -⟩
        rw [tryFromSecsF32_abs_eq_ok.2 ⟨q, rfl, hq, rfl⟩] at hoffset
        cases hoffset
    | ok d =>
      obtain ⟨q, rfl, hq, -⟩ := tryFromSecsF32_abs_eq_ok.1 hoffset
      have hfinite : ∀ {P : ℚ → Prop}, (∃ q', FloatValue.finite q = .finite q' ∧ IsDuration q' ∧
          P q') ↔ P q := by
        intro P
        constructor
        · rintro ⟨q', h, -, hP⟩
          cases h
          exact hP
        · exact fun hP => ⟨q, rfl, hq, hP⟩
      rw [hfinite]
      obtain hneg | hpos := lt_or_ge q 0
      · -- an advance always goes through
        exact iff_of_true
          (.inl ⟨_, (shiftAll_eq_ok hq).2 ⟨fun _ _ h => absurd hneg (not_lt.2 h), rfl⟩⟩)
          (.inl hneg)
      · by_cases hzero : Duration.nanosOf |q| = 0
        · exact iff_of_true (shiftAll_of_zero hq hpos hzero) (.inr (.inl hzero))
        · rw [or_iff_right (not_lt.2 hpos), or_iff_right hzero, shiftAll_eq_error_self hq hpos hzero]
          refine or_congr_left ?_
          simp only [shiftAll_eq_ok hq, exists_and_left, exists_eq, and_true, hpos, true_imp_iff]

/-- **A manual offset is applied to all entries or to none, without a panic**,
exactly where it is refused for its size or suits the entries; the shift
itself, which refuses none, where it suits them. -/
theorem applyManualOffset_all_or_nothing (maxOffset offset : FloatValue) (elapsed : Duration)
    (subtitle : Subtitle) :
    (AllOrNothing subtitle (shiftSubtitleTiming elapsed subtitle offset) ↔
      Suits offset subtitle.entries) ∧
    (AllOrNothing subtitle (applyManualOffset maxOffset elapsed subtitle offset) ↔
      offset.abs > maxOffset ∨ Suits offset subtitle.entries) := by
  refine ⟨allOrNothing_shift_iff, ?_⟩
  rw [applyManualOffset]
  split
  · next h =>
    refine iff_of_true ⟨fun e he => ?_, fun _ _ => rfl⟩ (.inl h)
    cases he
  · next h => rw [allOrNothing_shift_iff, or_iff_right h]

/-- An offset of whole nanoseconds is that many. -/
theorem nanosOf_exact (n : ℕ) : Duration.nanosOf ((n : ℚ) / 1000000000) = n := by
  rw [Duration.nanosOf, div_mul_cancel₀ _ (by norm_num), ← Int.cast_natCast,
    BinaryFormat.nearestEven_intCast, Int.toNat_natCast]

/-- Two cues, the second of which ends with the longest duration. -/
def sampleSubtitle : Subtitle := parsedSubtitle .srt
  [⟨1, ⟨10000000000⟩, ⟨12000000000⟩, ['a'], none⟩,
    ⟨2, ⟨20000000000⟩, .max, ['b'], none⟩]

/-- One second is refused at the second cue, with the first shifted already; and
what is not a number passes the guard and panics. -/
theorem sampleSubtitle_not_all_or_nothing :
    ¬AllOrNothing sampleSubtitle
      (applyManualOffset (.finite 60) .zero sampleSubtitle (.finite 1)) ∧
    ¬AllOrNothing sampleSubtitle (applyManualOffset (.finite 60) .zero sampleSubtitle .nan) := by
  have hone : Duration.nanosOf |(1 : ℚ)| = 1000000000 := by
    have := nanosOf_exact 1000000000
    rwa [Nat.cast_ofNat, div_self (by norm_num), ← abs_one] at this
  constructor
  · have hguard : ¬ (FloatValue.finite 1).abs > .finite 60 := by
      rw [gt_iff_lt, abs_finite, finite_lt_finite]
      norm_num
    rw [applyManualOffset, if_neg hguard, allOrNothing_shift_iff]
    rintro (h | ⟨q, h, -, hneg | hzero | hall | ⟨first, rest, hentries, hfirst⟩⟩)
    · cases h
    · cases h
      exact absurd hneg (by norm_num)
    · cases h
      rw [hone] at hzero
      cases hzero
    · cases h
      have := (hall ⟨2, ⟨20000000000⟩, .max, ['b'], none⟩ (by decide)).2
      rw [hone] at this
      exact absurd this (by decide)
    · cases h
      cases hentries
      rw [hone] at hfirst
      exact absurd hfirst (by decide)
  · have hguard : ¬ FloatValue.nan.abs > .finite 60 := not_lt_nan
    rw [applyManualOffset, if_neg hguard, allOrNothing_shift_iff]
    rintro (h | ⟨q, h, -⟩) <;> cases h

/-! ## The maximum of a validated configuration -/

/-- **A validated maximum lets no float through but durations**, and what is not
a number, which is beyond no maximum. -/
theorem isDuration_of_accepted {sync : Configuration.SyncConfig}
    (hsync : Configuration.validateSyncConfig sync = .ok ())
    (hnan : sync.maxOffsetSeconds ≠ .nan)
    (haccepted : ¬ offset.abs > sync.maxOffsetSeconds.value) :
    offset = .nan ∨ ∃ q, offset = .finite q ∧ IsDuration q := by
  have hvalue : sync.maxOffsetSeconds.value ≠ .nan := by
    intro h
    cases hsize : sync.maxOffsetSeconds with
    | nan => exact hnan hsize
    | infinity negative => rw [hsize] at h; cases h
    | finite negative a => rw [hsize] at h; cases h
  have hmax : sync.maxOffsetSeconds.value ≤ .finite 3600 := by
    have hpasses := Configuration.passes_iff.2 hsync
    simp only [Configuration.validateSyncConfig, Configuration.passes_bind, Bool.and_eq_true,
      Configuration.passes_refuseIf, Bool.not_eq_true', decide_eq_false_iff_not] at hpasses
    have hbound : (Configuration.f32 3600 0).value = .finite 3600 :=
      BinaryFloat.value_ofDecimal_natCast (by decide) (by decide) (by norm_num [binary32])
    rw [← FloatValue.not_lt_iff_le hvalue (by rintro ⟨⟩), ← hbound, BinaryFloat.value_lt]
    exact hpasses.2.2.1
  by_cases hoffset : offset = .nan
  · exact .inl hoffset
  -- an offset within the maximum is within an hour, so it is finite
  have habs : offset.abs ≠ .nan := by
    cases offset with
    | nan => exact absurd rfl hoffset
    | infinity negative => rintro ⟨⟩
    | finite q => rintro ⟨⟩
  have hwithin : offset.abs ≤ sync.maxOffsetSeconds.value :=
    (FloatValue.not_lt_iff_le habs hvalue).1 haccepted
  obtain ⟨q, rfl, hq⟩ := exists_finite_of_abs_le (FloatValue.le_trans hwithin hmax)
  refine .inr ⟨q, rfl, ?_⟩
  have hlt : |q| * 1000000000 < ((3601000000000 : ℤ) : ℚ) := by
    push_cast
    linarith
  have := BinaryFormat.nearestEven_le hlt
  rw [IsDuration, Duration.nanosOf]
  exact (Int.toNat_le.2 this).trans (by decide)

end Sync

end SubxCore
