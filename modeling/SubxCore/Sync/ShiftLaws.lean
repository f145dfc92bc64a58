import SubxCore.Sync.ManualOffset
/-!
# What a shift does to a subtitle

A shift that goes through moves every time by the same duration with a sign,
not below zero (`shiftSubtitleTiming_eq_ok`). Moving times keeps their order; a
delay is undone by the advance of the same size; and two moves the same way are
one by their sum, also where times have come to stand at zero. So it is with
the shifts of a subtitle.
-/

namespace SubxCore

namespace Sync

open FloatValue InPlace

variable {m n : ℤ} {t t' : Duration} {entry : SubtitleEntry} {q q' total : ℚ}
variable {elapsed elapsed' elapsed'' : Duration} {s s' s'' : Subtitle}

/-! ## Moving times -/

/-- A time is moved by so much, not below zero. -/
theorem movedTime_eq : ((movedTime n t).nanos : ℤ) = max 0 (t.nanos + n) := by
  rw [movedTime, Int.toNat_eq_max, max_comm]

/-- Moving times keeps their order. -/
theorem movedTime_mono (h : t.nanos ≤ t'.nanos) :
    (movedTime n t).nanos ≤ (movedTime n t').nanos :=
  Int.toNat_le_toNat (by omega)

/-- A delay is undone by the advance of the same size. -/
theorem movedTime_neg (hn : 0 ≤ n) : movedTime (-n) (movedTime n t) = t := by
  unfold movedTime
  obtain ⟨k⟩ := t
  exact congrArg Duration.mk (by dsimp only; omega)

/-- Two moves the same way are one by their sum. -/
theorem movedTime_movedTime (h : 0 ≤ m ∧ 0 ≤ n ∨ m ≤ 0 ∧ n ≤ 0) :
    movedTime n (movedTime m t) = movedTime (m + n) t := by
  unfold movedTime
  exact congrArg Duration.mk (by dsimp only; omega)

theorem movedEntry_neg (hn : 0 ≤ n) : movedEntry (-n) (movedEntry n entry) = entry := by
  simp only [movedEntry, movedTime_neg hn]

theorem movedEntry_movedEntry (h : 0 ≤ m ∧ 0 ≤ n ∨ m ≤ 0 ∧ n ≤ 0) :
    movedEntry n (movedEntry m entry) = movedEntry (m + n) entry := by
  simp only [movedEntry, movedTime_movedTime h]

/-- A subtitle with every entry moved. -/
def movedSubtitle (n : ℤ) (s : Subtitle) : Subtitle :=
  { s with entries := s.entries.map (movedEntry n) }

theorem movedSubtitle_neg (hn : 0 ≤ n) : movedSubtitle (-n) (movedSubtitle n s) = s := by
  have hid : movedEntry (-n) ∘ movedEntry n = id := funext fun _ => movedEntry_neg hn
  simp only [movedSubtitle, List.map_map, hid, List.map_id]

theorem movedSubtitle_movedSubtitle (h : 0 ≤ m ∧ 0 ≤ n ∨ m ≤ 0 ∧ n ≤ 0) :
    movedSubtitle n (movedSubtitle m s) = movedSubtitle (m + n) s := by
  have hsum : movedEntry n ∘ movedEntry m = movedEntry (m + n) :=
    funext fun _ => movedEntry_movedEntry h
  simp only [movedSubtitle, List.map_map, hsum]

/-- **An entry of a moved subtitle** is the entry that stood there, but for the
times, with the start before the end if it was so. -/
theorem movedSubtitle_entry {i : ℕ} (h : s.entries[i]? = some entry) :
    ∃ entry', (movedSubtitle n s).entries[i]? = some entry' ∧
      entry'.index = entry.index ∧ entry'.text = entry.text ∧ entry'.styling = entry.styling ∧
      (entry'.startTime.nanos : ℤ) = max 0 (entry.startTime.nanos + n) ∧
      (entry'.endTime.nanos : ℤ) = max 0 (entry.endTime.nanos + n) ∧
      (entry.startTime.nanos ≤ entry.endTime.nanos →
        entry'.startTime.nanos ≤ entry'.endTime.nanos) := by
  refine ⟨movedEntry n entry, ?_, rfl, rfl, rfl, movedTime_eq, movedTime_eq, movedTime_mono⟩
  rw [movedSubtitle, List.getElem?_map, h]
  rfl

/-- Moving keeps the order of any two starts. -/
theorem movedSubtitle_order {i j : ℕ} {other entry' other' : SubtitleEntry}
    (hi : s.entries[i]? = some entry) (hj : s.entries[j]? = some other)
    (hi' : (movedSubtitle n s).entries[i]? = some entry')
    (hj' : (movedSubtitle n s).entries[j]? = some other')
    (hle : entry.startTime.nanos ≤ other.startTime.nanos) :
    entry'.startTime.nanos ≤ other'.startTime.nanos := by
  rw [movedSubtitle, List.getElem?_map, hi] at hi'
  rw [movedSubtitle, List.getElem?_map, hj] at hj'
  cases hi'
  cases hj'
  exact movedTime_mono hle

/-! ## The duration of an offset -/

theorem nanosOf_zero : Duration.nanosOf 0 = 0 := by
  have := nanosOf_exact 0
  rwa [Nat.cast_zero, zero_div] at this

theorem signedNanos_nonneg (hq : 0 ≤ q) : signedNanos q = Duration.nanosOf |q| := by
  rw [signedNanos, if_pos hq]

theorem signedNanos_neg_of_neg (hq : q < 0) : signedNanos q = -Duration.nanosOf |q| := by
  rw [signedNanos, if_neg (not_le.2 hq)]

/-- The opposite offset is the opposite duration. -/
theorem signedNanos_neg (hq : 0 ≤ q) : signedNanos (-q) = -signedNanos q := by
  obtain rfl | hpos := hq.eq_or_lt
  · rw [neg_zero, signedNanos_nonneg le_rfl, abs_zero, nanosOf_zero, Nat.cast_zero, neg_zero]
  · rw [signedNanos_neg_of_neg (neg_lt_zero.2 hpos), signedNanos_nonneg hq, abs_neg]

/-! ## Shifts that go through -/

/-- **An entry lets an offset pass**: it is a duration, and a delay fits. -/
def Passes (q : ℚ) (entry : SubtitleEntry) : Prop :=
  IsDuration q ∧ (0 ≤ q → Delayable (Duration.nanosOf |q|) entry)

/-- **A shift goes through** where every entry lets it pass, and moves each. -/
theorem shiftSubtitleTiming_eq_ok :
    (∃ result, shiftSubtitleTiming elapsed s (.finite q) = (.ok result, s')) ↔
      (∀ entry ∈ s.entries, Passes q entry) ∧
        s' = movedSubtitle (signedNanos q) s := by
  have hentry : ∀ entry entry', shiftEntry (.finite q) entry = (.ok (), entry') ↔
      Passes q entry ∧ entry' = movedEntry (signedNanos q) entry := by
    intro entry entry'
    by_cases hq : IsDuration q
    · rw [shiftEntry_eq_ok hq, Passes, and_iff_right hq]
    · obtain ⟨e, he⟩ : ∃ e, Duration.tryFromSecsF32 (FloatValue.finite q).abs = .error e := by
        cases hd : Duration.tryFromSecsF32 (FloatValue.finite q).abs with
        | error e => exact ⟨e, rfl⟩
        | ok d =>
          obtain ⟨q', h, hq', -⟩ := tryFromSecsF32_abs_eq_ok.1 hd
          cases h
          exact absurd hq' hq
      rw [shiftEntry_of_error he]
      exact ⟨fun h => (nomatch (Prod.mk.inj h).1), fun h => absurd h.1.1 hq⟩
  have hloop : ∀ ys, forEachMut (shiftEntry (.finite q)) s.entries = (.ok (), ys) ↔ _ :=
    fun _ => forEachMut_eq_ok hentry
  rw [shiftSubtitleTiming]
  rcases hrun : forEachMut (shiftEntry (.finite q)) s.entries with ⟨stop | ⟨⟩, ys⟩
  · constructor
    · rintro ⟨result, h⟩
      cases (Prod.mk.inj h).1
    · rintro ⟨h, -⟩
      have := (hloop _).2 ⟨h, rfl⟩
      rw [hrun] at this
      cases (Prod.mk.inj this).1
  · obtain ⟨hpasses, rfl⟩ := (hloop ys).1 hrun
    constructor
    · rintro ⟨result, h⟩
      exact ⟨hpasses, (Prod.mk.inj h).2.symm⟩
    · rintro ⟨-, rfl⟩
      exact ⟨_, rfl⟩

/-! ## Shifts after one another -/

theorem passes_neg (hpos : 0 ≤ q) (h : Passes q entry) :
    Passes (-q) (movedEntry (signedNanos q) entry) := by
  obtain ⟨hq, hfits⟩ := h
  refine ⟨by rwa [IsDuration, abs_neg], fun hneg => ?_⟩
  -- no advance: the offset is zero and moves nothing
  obtain rfl : q = 0 := le_antisymm (neg_nonneg.1 hneg) hpos
  have hmoved : ∀ t, movedTime (signedNanos 0) t = t := by
    intro t
    rw [signedNanos_nonneg le_rfl, abs_zero, nanosOf_zero, Nat.cast_zero, movedTime_zero]
  rw [neg_zero]
  unfold movedEntry Delayable
  rw [hmoved, hmoved]
  exact hfits le_rfl

/-- Offsets the same way, of which one stands for the sum of the other two; the
sum of two advances is to be a duration. -/
structure SumOf (total q q' : ℚ) : Prop where
  sameWay : 0 ≤ q ∧ 0 ≤ q' ∧ 0 ≤ total ∨ q < 0 ∧ q' < 0 ∧ total < 0 ∧ IsDuration total
  sum : signedNanos total = signedNanos q + signedNanos q'

theorem SumOf.nanos (h : SumOf total q q') :
    Duration.nanosOf |total| = Duration.nanosOf |q| + Duration.nanosOf |q'| := by
  have hsum := h.sum
  obtain ⟨hq, hq', ht⟩ | ⟨hq, hq', ht, -⟩ := h.sameWay
  · rw [signedNanos_nonneg hq, signedNanos_nonneg hq', signedNanos_nonneg ht] at hsum
    omega
  · rw [signedNanos_neg_of_neg hq, signedNanos_neg_of_neg hq', signedNanos_neg_of_neg ht] at hsum
    omega

theorem SumOf.signs (h : SumOf total q q') :
    0 ≤ signedNanos q ∧ 0 ≤ signedNanos q' ∨ signedNanos q ≤ 0 ∧ signedNanos q' ≤ 0 := by
  obtain ⟨hq, hq', -⟩ | ⟨hq, hq', -⟩ := h.sameWay
  · rw [signedNanos_nonneg hq, signedNanos_nonneg hq']
    omega
  · rw [signedNanos_neg_of_neg hq, signedNanos_neg_of_neg hq']
    omega

/-- An entry lets the sum pass where it lets the one pass, and then the other. -/
theorem SumOf.passes (h : SumOf total q q') :
    Passes total entry ↔ Passes q entry ∧ Passes q' (movedEntry (signedNanos q) entry) := by
  have hnanos := h.nanos
  unfold Passes IsDuration Delayable
  obtain ⟨hq, hq', ht⟩ | ⟨hq, hq', ht, hduration⟩ := h.sameWay
  · have hstart := movedTime_eq (n := signedNanos q) (t := entry.startTime)
    have hend := movedTime_eq (n := signedNanos q) (t := entry.endTime)
    rw [signedNanos_nonneg hq] at hstart hend ⊢
    simp only [hq, hq', ht, true_imp_iff, movedEntry]
    omega
  · have hle : Duration.nanosOf |total| ≤ Duration.max.nanos := hduration
    simp only [not_le.2 hq, not_le.2 hq', not_le.2 ht, false_imp_iff, and_true]
    omega

/-- A delay is undone by the advance of the same size. -/
theorem shiftSubtitleTiming_neg (hq : 0 ≤ q)
    (h : ∃ result, shiftSubtitleTiming elapsed s (.finite q) = (.ok result, s')) :
    ∃ result, shiftSubtitleTiming elapsed' s' (.finite (-q)) = (.ok result, s) := by
  obtain ⟨hpasses, rfl⟩ := shiftSubtitleTiming_eq_ok.1 h
  refine shiftSubtitleTiming_eq_ok.2 ⟨fun entry' hentry' => ?_, ?_⟩
  · obtain ⟨entry, hentry, rfl⟩ := List.mem_map.1 hentry'
    exact passes_neg hq (hpasses entry hentry)
  · rw [signedNanos_neg hq, movedSubtitle_neg]
    rw [signedNanos_nonneg hq]
    exact Int.natCast_nonneg _

/-- Two shifts the same way are one by their sum. -/
theorem SumOf.shift_eq_ok (h : SumOf total q q') :
    (∃ result, shiftSubtitleTiming elapsed s (.finite total) = (.ok result, s'')) ↔
      ∃ s', (∃ result, shiftSubtitleTiming elapsed' s (.finite q) = (.ok result, s')) ∧
        ∃ result, shiftSubtitleTiming elapsed'' s' (.finite q') = (.ok result, s'') := by
  simp only [shiftSubtitleTiming_eq_ok]
  constructor
  · rintro ⟨hpasses, rfl⟩
    refine ⟨_, ⟨fun entry hentry => (h.passes.1 (hpasses entry hentry)).1, rfl⟩, ?_, ?_⟩
    · intro entry' hentry'
      obtain ⟨entry, hentry, rfl⟩ := List.mem_map.1 hentry'
      exact (h.passes.1 (hpasses entry hentry)).2
    · rw [movedSubtitle_movedSubtitle h.signs, h.sum]
  · rintro ⟨s', ⟨hpasses, rfl⟩, hpasses', rfl⟩
    refine ⟨fun entry hentry => h.passes.2 ⟨hpasses entry hentry,
      hpasses' _ (List.mem_map_of_mem hentry)⟩, ?_⟩
    rw [movedSubtitle_movedSubtitle h.signs, h.sum]

/-- **A shift that goes through keeps everything but the times**, of which it
moves each by the offset, not below zero: so it keeps starts before their ends
and the order of any two starts. A delay is undone by the advance of the same
size, and two shifts the same way are one by their sum. -/
theorem shiftSubtitleTiming_laws (elapsed elapsed' elapsed'' : Duration) (s : Subtitle) (q : ℚ) :
    (∀ result s', shiftSubtitleTiming elapsed s (.finite q) = (.ok result, s') →
      s'.metadata = s.metadata ∧ s'.format = s.format ∧ s'.entries.length = s.entries.length ∧
      (∀ (i : ℕ) (entry : SubtitleEntry), s.entries[i]? = some entry →
        ∃ entry' : SubtitleEntry, s'.entries[i]? = some entry' ∧
          entry'.index = entry.index ∧ entry'.text = entry.text ∧ entry'.styling = entry.styling ∧
          (entry'.startTime.nanos : ℤ) = max 0 (entry.startTime.nanos + signedNanos q) ∧
          (entry'.endTime.nanos : ℤ) = max 0 (entry.endTime.nanos + signedNanos q) ∧
          (entry.startTime.nanos ≤ entry.endTime.nanos →
            entry'.startTime.nanos ≤ entry'.endTime.nanos)) ∧
      ∀ (i j : ℕ) (entry other entry' other' : SubtitleEntry),
        s.entries[i]? = some entry → s.entries[j]? = some other →
        s'.entries[i]? = some entry' → s'.entries[j]? = some other' →
          entry.startTime.nanos ≤ other.startTime.nanos →
            entry'.startTime.nanos ≤ other'.startTime.nanos) ∧
    (0 ≤ q → ∀ s',
      (∃ result, shiftSubtitleTiming elapsed s (.finite q) = (.ok result, s')) →
        ∃ result, shiftSubtitleTiming elapsed' s' (.finite (-q)) = (.ok result, s)) ∧
    ∀ q' total, SumOf total q q' → ∀ s'',
      (∃ result, shiftSubtitleTiming elapsed s (.finite total) = (.ok result, s'')) ↔
        ∃ s', (∃ result, shiftSubtitleTiming elapsed' s (.finite q) = (.ok result, s')) ∧
          ∃ result, shiftSubtitleTiming elapsed'' s' (.finite q') = (.ok result, s'') := by
  refine ⟨fun result s' h => ?_, fun hq _ h => shiftSubtitleTiming_neg hq h,
    fun _ _ h _ => h.shift_eq_ok⟩
  obtain ⟨-, rfl⟩ := shiftSubtitleTiming_eq_ok.1 ⟨result, h⟩
  exact ⟨rfl, rfl, List.length_map .., fun _ _ => movedSubtitle_entry,
    fun _ _ _ _ _ _ => movedSubtitle_order⟩

/-- Two cues, the first of which starts within two seconds. -/
def earlyCues : Subtitle :=
  parsedSubtitle .srt
    [⟨1, ⟨1000000000⟩, ⟨3000000000⟩, "Hello".toList, none⟩,
      ⟨2, ⟨5000000000⟩, ⟨6000000000⟩, "there".toList, none⟩]

/-- An advance by two seconds takes its start to zero, and the other back by two seconds. -/
theorem shiftSubtitleTiming_laws_advance : ∃ result s',
    shiftSubtitleTiming ⟨0⟩ earlyCues (.finite (-2)) = (.ok result, s') ∧
      ∃ first second : SubtitleEntry, s'.entries[0]? = some first ∧ s'.entries[1]? = some second ∧
        first.startTime.nanos = 0 ∧ second.startTime.nanos = 3000000000 := by
  have hduration : IsDuration (-2) := by
    unfold IsDuration
    decide +kernel
  have hpasses : ∀ entry ∈ earlyCues.entries, Passes (-2) entry :=
    fun _ _ => ⟨hduration, fun h => absurd h (by decide +kernel)⟩
  obtain ⟨result, hrun⟩ := (@shiftSubtitleTiming_eq_ok (-2) ⟨0⟩ earlyCues _).2 ⟨hpasses, rfl⟩
  have hsigned : signedNanos (-2) = -2000000000 := by decide +kernel
  obtain ⟨-, -, -, hentries, -⟩ :=
    (shiftSubtitleTiming_laws ⟨0⟩ ⟨0⟩ ⟨0⟩ earlyCues (-2)).1 result _ hrun
  obtain ⟨first, hfirst, -, -, -, hzero, -⟩ := hentries 0 _ rfl
  obtain ⟨second, hsecond, -, -, -, hback, -⟩ := hentries 1 _ rfl
  rw [hsigned] at hzero hback
  dsimp only at hzero hback
  refine ⟨result, _, hrun, first, second, hfirst, hsecond, ?_, ?_⟩
  · omega
  · omega

end Sync

end SubxCore
