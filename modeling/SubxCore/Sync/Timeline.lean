import SubxCore.Sync.ShiftLaws
import SubxCore.Common.Intervals
/-!
# The cues of a subtitle in time

A subtitle is sorted by the starts of its cues, ties in the order they stand in, and numbered
anew. Overlaps are looked for between neighbours only. In a sorted subtitle of valid cues that
is enough, and so it tells whether any two cues of the subtitle overlap, whatever order they
were in. A shift makes no overlap, and takes away those that lie before the beginning.
-/

namespace SubxCore

open Duration Intervals Sync

namespace SubtitleEntry

/-- `SubtitleEntry::is_valid_timing`. -/
def isValidTiming (entry : SubtitleEntry) : Bool := entry.startTime.nanos < entry.endTime.nanos

/-- `SubtitleEntry::overlaps_with`. -/
def overlapsWith (entry other : SubtitleEntry) : Bool :=
  entry.startTime.nanos < other.endTime.nanos && other.startTime.nanos < entry.endTime.nanos

/-- `SubtitleEntry::duration`. -/
def duration (entry : SubtitleEntry) : Duration := ⟨entry.endTime.nanos - entry.startTime.nanos⟩

/-- An entry without its number. -/
def unnumbered (entry : SubtitleEntry) : SubtitleEntry := { entry with index := 0 }

end SubtitleEntry

namespace Subtitle

/-- `Subtitle::total_duration`. -/
def totalDuration (subtitle : Subtitle) : Duration :=
  match subtitle.entries.head?, subtitle.entries.getLast? with
  | some first, some last => ⟨last.endTime.nanos - first.startTime.nanos⟩
  | _, _ => .zero

/-- `Subtitle::has_overlaps`: any of the windows of two. -/
def hasOverlaps (subtitle : Subtitle) : Bool :=
  (subtitle.entries.zip subtitle.entries.tail).any fun window =>
    window.2.startTime.nanos < window.1.endTime.nanos

/-- The order `sort_entries` sorts by. -/
def startsBy (entry other : SubtitleEntry) : Bool := entry.startTime.nanos ≤ other.startTime.nanos

/-- The numbering of `sort_entries`. -/
def renumber (entries : List SubtitleEntry) : List SubtitleEntry :=
  entries.zipIdx.map fun x => { x.1 with index := x.2 + 1 }

/-- `Subtitle::sort_entries`. -/
def sortEntries (subtitle : Subtitle) : Subtitle :=
  { subtitle with entries := renumber (subtitle.entries.mergeSort startsBy) }

end Subtitle

open Subtitle SubtitleEntry

variable {s s' : Subtitle} {e e' : SubtitleEntry} {es : List SubtitleEntry} {n : ℤ} {q : ℚ}
variable {elapsed : Duration} {result : SyncResult}

/-! ## Numbers -/

theorem renumber_unnumbered : (renumber es).map unnumbered = es.map unnumbered := by
  rw [renumber, List.map_map]
  have hforget : (unnumbered ∘ fun x : SubtitleEntry × ℕ => { x.1 with index := x.2 + 1 }) =
      unnumbered ∘ Prod.fst := rfl
  rw [hforget, ← List.map_map, List.zipIdx_map_fst]

theorem renumber_index : (renumber es).map index = List.range' 1 es.length := by
  rw [renumber, List.map_map]
  have hindex : (index ∘ fun x : SubtitleEntry × ℕ => { x.1 with index := x.2 + 1 }) =
      (1 + ·) ∘ Prod.snd := funext fun x => Nat.add_comm x.2 1
  rw [hindex, ← List.map_map, List.zipIdx_map_snd, List.map_add_range']

/-- What goes by the times alone does not see the numbers. -/
theorem renumber_map {α : Type} {f : SubtitleEntry → α} (hf : ∀ e, f e.unnumbered = f e) :
    (renumber es).map f = es.map f := by
  have hcomp : f = f ∘ unnumbered := funext fun e => (hf e).symm
  rw [hcomp, ← List.map_map, ← List.map_map, renumber_unnumbered]

/-! ## Overlaps -/

/-- Start and end of a cue, in nanoseconds. -/
def startNanos (times : Duration × Duration) : ℕ := times.1.nanos

def endNanos (times : Duration × Duration) : ℕ := times.2.nanos

theorem overlapsWith_iff :
    e.overlapsWith e' = true ↔ Overlap startNanos endNanos e.times e'.times := by
  rw [overlapsWith, Bool.and_eq_true, decide_eq_true_iff, decide_eq_true_iff]
  rfl

/-- No overlap is found where each cue has ended when the next one starts. -/
theorem hasOverlaps_eq_false_iff : s.hasOverlaps = false ↔
    (s.entries.map times).IsChain fun a b => endNanos a ≤ startNanos b := by
  rw [hasOverlaps]
  generalize s.entries = es
  induction es with
  | nil => simp
  | cons e es ih =>
    cases es with
    | nil => simp
    | cons e' es =>
      rw [List.map_cons, List.map_cons, List.isChain_cons_cons, ← List.map_cons, ← ih]
      simp [startNanos, endNanos, times]

/-! ## Sorting -/

theorem startsBy_trans (a b c : SubtitleEntry) (hab : startsBy a b) (hbc : startsBy b c) :
    startsBy a c :=
  decide_eq_true ((of_decide_eq_true hab).trans (of_decide_eq_true hbc))

theorem startsBy_total (a b : SubtitleEntry) : startsBy a b || startsBy b a := by
  rw [startsBy, startsBy, Bool.or_eq_true, decide_eq_true_iff, decide_eq_true_iff]
  exact Nat.le_total _ _

/-- **Cues in the order of their starts**: the same cues but for their numbers, which count
them, with cues of the same start in the order they stood in. -/
structure IsSorting (entries sorted : List SubtitleEntry) : Prop where
  perm : (sorted.map unnumbered).Perm (entries.map unnumbered)
  starts : sorted.Pairwise fun e e' => e.startTime.nanos ≤ e'.startTime.nanos
  indices : sorted.map index = List.range' 1 entries.length
  ties : ∀ t, (sorted.map unnumbered).filter (·.startTime.nanos = t) =
    (entries.map unnumbered).filter (·.startTime.nanos = t)

/-- A stable sort keeps the elements in order that all come by each other. -/
theorem filter_mergeSort {α : Type} {le : α → α → Bool} {p : α → Bool} {l : List α}
    (htrans : ∀ a b c, le a b → le b c → le a c) (htotal : ∀ a b, le a b || le b a)
    (hp : (l.filter p).Pairwise fun a b => le a b) :
    (l.mergeSort le).filter p = l.filter p := by
  have hsub := (List.sublist_mergeSort htrans htotal hp List.filter_sublist).filter p
  simp only [List.filter_filter, Bool.and_self] at hsub
  exact (hsub.eq_of_length ((List.mergeSort_perm l le).filter p).length_eq.symm).symm

theorem isSorting_sortEntries (s : Subtitle) : IsSorting s.entries s.sortEntries.entries where
  perm := by
    rw [sortEntries, renumber_unnumbered]
    exact (List.mergeSort_perm s.entries startsBy).map unnumbered
  starts := by
    have hstarts : s.sortEntries.entries.map (fun e => e.startTime.nanos) =
        (s.entries.mergeSort startsBy).map fun e => e.startTime.nanos :=
      renumber_map fun _ => rfl
    refine List.pairwise_map.1 (hstarts ▸ List.pairwise_map.2 ?_)
    exact (List.pairwise_mergeSort startsBy_trans startsBy_total s.entries).imp of_decide_eq_true
  indices := by
    rw [sortEntries, renumber_index, List.length_mergeSort]
  ties t := by
    have htie : (s.entries.filter fun e => e.startTime.nanos = t).Pairwise
        fun a b => startsBy a b := by
      refine List.pairwise_of_forall_mem_list fun a ha b hb => ?_
      have hat := of_decide_eq_true (List.mem_filter.1 ha).2
      have hbt := of_decide_eq_true (List.mem_filter.1 hb).2
      exact decide_eq_true (hat.trans hbt.symm).le
    have hfilter := filter_mergeSort startsBy_trans startsBy_total htie
    rw [sortEntries, renumber_unnumbered, List.filter_map, List.filter_map]
    exact congrArg (List.map unnumbered) hfilter

theorem sortEntries_times :
    s.sortEntries.entries.map times = (s.entries.mergeSort startsBy).map times :=
  renumber_map fun _ => rfl

/-- **After sorting, neighbours tell of all cues.** Sorting puts the cues in the order of their
starts; where they are valid, an overlap is then found exactly when any two of them overlap, in
whatever order they were. -/
theorem sortEntries_hasOverlaps (s : Subtitle) : IsSorting s.entries s.sortEntries.entries ∧
    ((∀ e ∈ s.entries, e.isValidTiming) → (s.sortEntries.hasOverlaps = false ↔
      s.entries.Pairwise fun a b => a.overlapsWith b = false)) := by
  refine ⟨isSorting_sortEntries s, fun hvalid => ?_⟩
  have hperm := (List.mergeSort_perm s.entries startsBy).map times
  have hsorted : ((s.entries.mergeSort startsBy).map times).Pairwise
      fun a b => startNanos a ≤ startNanos b := by
    rw [List.pairwise_map]
    exact (List.pairwise_mergeSort startsBy_trans startsBy_total s.entries).imp of_decide_eq_true
  have hproper : ∀ t ∈ (s.entries.mergeSort startsBy).map times, startNanos t < endNanos t := by
    intro t ht
    obtain ⟨e, he, rfl⟩ := List.mem_map.1 (hperm.mem_iff.1 ht)
    exact of_decide_eq_true (hvalid e he)
  rw [hasOverlaps_eq_false_iff, sortEntries_times, ← pairwise_not_overlap_iff hsorted hproper,
    pairwise_not_overlap_of_perm hperm, List.pairwise_map]
  simp only [← Bool.not_eq_true, overlapsWith_iff]

/-- Two cues that stand in the wrong order. -/
def reversedSubtitle : Subtitle := parsedSubtitle .srt
  [⟨1, .fromMillis 2000, .fromMillis 3000, ['b'], none⟩, ⟨2, .zero, .fromMillis 500, ['a'], none⟩]

/-- They are taken to overlap as they stand. -/
theorem sortEntries_hasOverlaps_reversed :
    reversedSubtitle.hasOverlaps = true ∧ reversedSubtitle.sortEntries.hasOverlaps = false :=
  ⟨by decide, ((sortEntries_hasOverlaps reversedSubtitle).2 (by decide)).2 (by decide)⟩

/-! ## Shifts -/

/-- The windows of two are the neighbours. -/
theorem hasOverlaps_iff : s.hasOverlaps = true ↔ ∃ i a b, s.entries[i]? = some a ∧
    s.entries[i + 1]? = some b ∧ b.startTime.nanos < a.endTime.nanos := by
  rw [hasOverlaps, List.any_eq_true]
  constructor
  · rintro ⟨⟨a, b⟩, hmem, hlt⟩
    obtain ⟨i, hi⟩ := List.mem_iff_getElem?.1 hmem
    obtain ⟨ha, hb⟩ := List.getElem?_zip_eq_some.1 hi
    rw [List.getElem?_tail] at hb
    exact ⟨i, a, b, ha, hb, of_decide_eq_true hlt⟩
  · rintro ⟨i, a, b, ha, hb, hlt⟩
    refine ⟨(a, b), List.mem_iff_getElem?.2 ⟨i, List.getElem?_zip_eq_some.2 ⟨ha, ?_⟩⟩,
      decide_eq_true hlt⟩
    rw [List.getElem?_tail]
    exact hb

/-- Moved times are in order where they were, and the later one is not before the beginning. -/
theorem movedTime_lt {t t' : Duration} : (movedTime n t).nanos < (movedTime n t').nanos ↔
    t.nanos < t'.nanos ∧ 0 < t'.nanos + n := by
  unfold movedTime
  dsimp only
  omega

theorem totalDuration_movedSubtitle (hn : 0 ≤ n) :
    (movedSubtitle n s).totalDuration = s.totalDuration := by
  unfold totalDuration movedSubtitle
  dsimp only
  rw [List.head?_map, List.getLast?_map]
  rcases s.entries.head? with - | first
  · rfl
  · rcases s.entries.getLast? with - | last
    · rfl
    · unfold movedEntry movedTime
      exact congrArg Duration.mk (by dsimp only; omega)

theorem renumber_moved : renumber (es.map (movedEntry n)) = (renumber es).map (movedEntry n) := by
  rw [renumber, renumber, List.zipIdx_map, List.map_map, List.map_map]
  rfl

/-- A delay may be before the sorting or after it. -/
theorem movedSubtitle_sortEntries (hn : 0 ≤ n) :
    (movedSubtitle n s).sortEntries = movedSubtitle n s.sortEntries := by
  have horder : ∀ a ∈ s.entries, ∀ b ∈ s.entries,
      startsBy a b = startsBy (movedEntry n a) (movedEntry n b) := by
    intro a _ b _
    unfold startsBy
    congr 1
    unfold movedEntry movedTime
    dsimp only
    rw [eq_iff_iff]
    omega
  unfold sortEntries movedSubtitle
  dsimp only
  rw [← List.map_mergeSort horder, renumber_moved]

/-- What lets an offset pass in a subtitle lets it pass in the sorted one. -/
theorem passes_sortEntries (h : ∀ e ∈ s.entries, Passes q e) :
    ∀ e ∈ s.sortEntries.entries, Passes q e := by
  intro e he
  have htimes : e.times ∈ (s.entries.mergeSort startsBy).map times :=
    sortEntries_times ▸ List.mem_map_of_mem he
  obtain ⟨e', he', heq⟩ := List.mem_map.1 htimes
  obtain ⟨hstart, hend⟩ := Prod.mk.inj heq
  have hpasses := h e' (List.mem_mergeSort.1 he')
  unfold Passes Delayable at hpasses ⊢
  rwa [hstart, hend] at hpasses

/-- **What a shift makes of overlaps**: it makes none, and takes away those of neighbours the
first of which it has before the beginning. A delay takes away none, leaves the total duration,
and may as well come after the sorting as before it. -/
theorem hasOverlaps_shift (h : shiftSubtitleTiming elapsed s (.finite q) = (.ok result, s')) :
    (s'.hasOverlaps = true ↔ ∃ i a b, s.entries[i]? = some a ∧ s.entries[i + 1]? = some b ∧
      b.startTime.nanos < a.endTime.nanos ∧ (q < 0 → Duration.nanosOf |q| < a.endTime.nanos)) ∧
    (0 ≤ q → s'.hasOverlaps = s.hasOverlaps ∧ s'.totalDuration = s.totalDuration ∧ ∃ result',
      shiftSubtitleTiming elapsed s.sortEntries (.finite q) = (.ok result', s'.sortEntries)) := by
  obtain ⟨hpasses, rfl⟩ := shiftSubtitleTiming_eq_ok.1 ⟨result, h⟩
  have hsign : ∀ a b : SubtitleEntry, b.startTime.nanos < a.endTime.nanos →
      (0 < (a.endTime.nanos : ℤ) + signedNanos q ↔
        (q < 0 → Duration.nanosOf |q| < a.endTime.nanos)) := by
    intro a b hlt
    rcases lt_or_ge q 0 with hneg | hpos
    · rw [signedNanos_neg_of_neg hneg]
      constructor
      · exact fun h _ => by omega
      · exact fun h => by
          have := h hneg
          omega
    · rw [signedNanos_nonneg hpos]
      exact iff_of_true (by omega) fun hneg => absurd hneg (not_lt.2 hpos)
  have hiff : (movedSubtitle (signedNanos q) s).hasOverlaps = true ↔ ∃ i a b,
      s.entries[i]? = some a ∧ s.entries[i + 1]? = some b ∧
        b.startTime.nanos < a.endTime.nanos ∧ (q < 0 → Duration.nanosOf |q| < a.endTime.nanos) := by
    simp only [hasOverlaps_iff, movedSubtitle, List.getElem?_map, Option.map_eq_some_iff]
    constructor
    · rintro ⟨i, _, _, ⟨a, ha, rfl⟩, ⟨b, hb, rfl⟩, hlt⟩
      obtain ⟨hlt, hpos⟩ := movedTime_lt.1 hlt
      exact ⟨i, a, b, ha, hb, hlt, (hsign a b hlt).1 hpos⟩
    · rintro ⟨i, a, b, ha, hb, hlt, hq⟩
      exact ⟨i, _, _, ⟨a, ha, rfl⟩, ⟨b, hb, rfl⟩, movedTime_lt.2 ⟨hlt, (hsign a b hlt).2 hq⟩⟩
  refine ⟨hiff, fun hpos => ?_⟩
  have hn : 0 ≤ signedNanos q := by
    rw [signedNanos_nonneg hpos]
    exact Int.natCast_nonneg _
  refine ⟨?_, totalDuration_movedSubtitle hn, ?_⟩
  · rw [Bool.eq_iff_iff, hiff, hasOverlaps_iff]
    simp only [not_lt.2 hpos, false_imp_iff, and_true]
  · rw [movedSubtitle_sortEntries hn]
    exact shiftSubtitleTiming_eq_ok.2 ⟨passes_sortEntries hpasses, rfl⟩

/-- Two cues that overlap in the first second. -/
def earlySubtitle : Subtitle := parsedSubtitle .srt
  [⟨1, .zero, .fromMillis 1000, ['a'], none⟩, ⟨2, .fromMillis 500, .fromMillis 2000, ['b'], none⟩]

/-- A second earlier they do not. -/
theorem hasOverlaps_shift_early : ∃ result s',
    shiftSubtitleTiming .zero earlySubtitle (.finite (-1)) = (.ok result, s') ∧
      earlySubtitle.hasOverlaps = true ∧ s'.hasOverlaps = false := by
  have hsecond : Duration.nanosOf |-1| = 1000000000 := by decide +kernel
  have hpasses : ∀ e ∈ earlySubtitle.entries, Passes (-1) e := fun e _ =>
    ⟨by rw [IsDuration, hsecond]; decide, fun h => absurd h (by norm_num)⟩
  have hgoes : ∃ result, shiftSubtitleTiming .zero earlySubtitle (.finite (-1)) =
      (.ok result, movedSubtitle (signedNanos (-1)) earlySubtitle) :=
    shiftSubtitleTiming_eq_ok.2 ⟨hpasses, rfl⟩
  obtain ⟨result, h⟩ := hgoes
  refine ⟨result, _, h, by decide, ?_⟩
  rw [Bool.eq_false_iff, Ne, (hasOverlaps_shift h).1]
  rintro ⟨i, a, b, ha, hb, -, hq⟩
  have hlate := hq (by norm_num)
  rw [hsecond] at hlate
  rcases i with - | i
  · cases ha
    exact absurd hlate (by decide)
  · have hi : i + 1 + 1 < 2 := (List.getElem?_eq_some_iff.1 hb).1
    omega

end SubxCore
