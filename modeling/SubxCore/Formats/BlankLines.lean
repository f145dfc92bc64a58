import SubxCore.Formats.BlockErrors
import SubxCore.Formats.SrtRoundTrip
import Mathlib.Algebra.Group.Nat.Even
/-!
# Blank lines between SRT blocks

A file is cut at pairs of line feeds, leftmost first. So the line feeds before
a block are taken off two by two, and where their number is odd the last one
stays with the block: its first line is empty, no number, and the block is
skipped without a word.
-/

namespace SubxCore

open Text Decimal Regex

variable {s t : Text} {ls : List Text} {entries : List SubtitleEntry}

/-! ## Well-formed blocks -/

/-- A line with a timing: no negative time, and the times are found and read. -/
structure IsTiming (line : Text) (start stop : Duration) : Prop where
  positive : timingLineHasNegative line = false
  captured : ∃ caps, (timingRegex ',').captures line = some caps ∧
    srtParseTime caps 1 = .ok start ∧ srtParseTime caps 5 = .ok stop

/-- **A well-formed cue block**: a line with a number, a line with a timing, and
one or more lines of text that are not empty. -/
structure SrtCueBlock where
  indexLine : Text
  timing : Text
  textLines : List Text
  index : ℕ
  start : Duration
  stop : Duration
  index_eq : parseUnsigned u64Max (trim indexLine) = .ok index
  timing_eq : IsTiming timing start stop
  text_ne_nil : textLines ≠ []
  line_ne_nil : ∀ l ∈ textLines, l ≠ []
  plain : ∀ l ∈ indexLine :: timing :: textLines, ∀ c ∈ l, IsPlain c

namespace SrtCueBlock

/-- The lines of the block. -/
def blockLines (b : SrtCueBlock) : List Text := b.indexLine :: b.timing :: b.textLines

/-- The block without the line feed that ends it. -/
def text (b : SrtCueBlock) : Text := join ['\n'] b.blockLines

/-- The cue the block stands for. -/
def entry (b : SrtCueBlock) : SubtitleEntry where
  index := b.index
  startTime := b.start
  endTime := b.stop
  text := join ['\n'] b.textLines
  styling := none

end SrtCueBlock

/-- The usual timing line is one. -/
theorem isTiming_timingLine {start stop : Duration} (hstart : start.asMillis < 100 * 3600000)
    (hstop : stop.asMillis < 100 * 3600000) :
    IsTiming (timingLine ',' start stop) (.fromMillis start.asMillis)
      (.fromMillis stop.asMillis) := by
  have h1 : srtParseTime ([] ++ _) 1 = _ :=
    srtParseTime_clockFields [] (clockFields stop.asMillis) hstart
  have h2 : srtParseTime _ 5 = _ :=
    srtParseTime_clockFields (clockFields start.asMillis) [] hstop
  rw [List.nil_append] at h1
  rw [List.append_nil] at h2
  exact ⟨timingLineHasNegative_timingLine, _, captures_timingLine hstart hstop, h1, h2⟩

/-- The block of a number, two times below 100 hours and lines of text. -/
def SrtCueBlock.printed (n : ℕ) (start stop : Duration) (textLines : List Text)
    (hn : n ≤ u64Max) (hstart : start.asMillis < 100 * 3600000)
    (hstop : stop.asMillis < 100 * 3600000) (hne : textLines ≠ [])
    (hlines : ∀ l ∈ textLines, l ≠ [] ∧ ∀ c ∈ l, IsPlain c) : SrtCueBlock where
  indexLine := decimal n
  timing := timingLine ',' start stop
  textLines := textLines
  index := n
  start := .fromMillis start.asMillis
  stop := .fromMillis stop.asMillis
  index_eq := by rw [trim_decimal, parseUnsigned_decimal hn]
  timing_eq := isTiming_timingLine hstart hstop
  text_ne_nil := hne
  line_ne_nil := fun l hl => (hlines l hl).1
  plain := by
    simp only [List.forall_mem_cons]
    refine ⟨fun c hc => ⟨?_, ?_⟩, fun c hc => ⟨?_, ?_⟩, fun l hl => (hlines l hl).2⟩
    · exact fun h => return_not_mem_decimal (h ▸ hc)
    · exact fun h => newline_not_mem_decimal (h ▸ hc)
    · exact fun h => return_not_mem_timingLine (h ▸ hc)
    · exact fun h => newline_not_mem_timingLine (h ▸ hc)

/-! ## One block -/

/-- Joined lines that are not empty have no blank line in them, nor a line feed
at either end. -/
theorem noBlankLine_join : ∀ {ls : List Text}, ls ≠ [] → (∀ l ∈ ls, '\n' ∉ l) →
    (∀ l ∈ ls, l ≠ []) → NoBlankLine (join ['\n'] ls) ∧ (join ['\n'] ls).head? ≠ some '\n' ∧
      (join ['\n'] ls).getLast? ≠ some '\n' ∧ join ['\n'] ls ≠ []
  | [l], _, hplain, hne => by
    simp only [List.mem_singleton, forall_eq] at hplain hne
    rw [join, List.intercalate_singleton]
    exact ⟨noBlankLine_of_not_mem hplain, fun h => hplain (List.mem_of_mem_head? h),
      fun h => hplain (List.mem_of_getLast? h), hne⟩
  | l :: m :: ls, _, hplain, hne => by
    rw [List.forall_mem_cons] at hplain hne
    obtain ⟨hblank, hhead, hlast, hjoin⟩ := noBlankLine_join (List.cons_ne_nil m ls) hplain.2 hne.2
    rw [join] at hblank hhead hlast hjoin ⊢
    rw [List.intercalate_cons_cons, List.append_assoc, List.singleton_append]
    refine ⟨NoBlankLine.append_newline hplain.1 hblank hhead, ?_, ?_, by simp⟩
    · rw [List.head?_append_of_ne_nil _ hne.1]
      exact fun h => hplain.1 (List.mem_of_mem_head? h)
    · rwa [List.getLast?_append_of_ne_nil _ (by simp), List.getLast?_cons_of_ne_nil hjoin]

namespace SrtCueBlock

variable (b : SrtCueBlock)

theorem line_plain : ∀ l ∈ b.blockLines, '\n' ∉ l ∧ '\r' ∉ l :=
  fun l hl => ⟨fun h => (b.plain l hl _ h).2 rfl, fun h => (b.plain l hl _ h).1 rfl⟩

theorem blockLine_ne_nil : ∀ l ∈ b.blockLines, l ≠ [] := by
  intro l hl
  simp only [blockLines, List.mem_cons] at hl
  rcases hl with rfl | rfl | hl
  · -- an empty line is no number
    intro h
    have hindex := b.index_eq
    rw [h] at hindex
    cases hindex
  · intro h
    obtain ⟨caps, hcaps, -⟩ := b.timing_eq.captured
    rw [h] at hcaps
    cases hcaps
  · exact b.line_ne_nil l hl

theorem lines_text : lines b.text = b.blockLines := lines_join b.line_plain b.blockLine_ne_nil

theorem noBlankLine_text : NoBlankLine b.text ∧ b.text.head? ≠ some '\n' ∧
    b.text.getLast? ≠ some '\n' ∧ b.text ≠ [] :=
  noBlankLine_join (List.cons_ne_nil _ _) (fun l hl => (b.line_plain l hl).1) b.blockLine_ne_nil

theorem return_not_mem_text : '\r' ∉ b.text := by
  intro h
  rcases mem_join h with h | ⟨l, hl, h⟩
  · exact absurd h (by decide)
  · exact (b.line_plain l hl).2 h

/-- The block is read as its cue, with or without a line feed at the end. -/
theorem srtReadBlock_eq {block : Text} (hlines : lines block = b.blockLines)
    (hcap : byteLen block ≤ maxCueBytes) : srtReadBlock block = .ok (some b.entry) := by
  have hblank : trim block ≠ [] := by
    intro hblank
    have hindex := b.index_eq
    have hnil : trim b.indexLine = [] := by
      rw [trim_eq_nil_iff] at hblank ⊢
      refine fun c hc => hblank c ((infix_of_mem_lines (l := b.indexLine) ?_).subset hc)
      rw [hlines]
      exact List.mem_cons_self
    rw [hnil] at hindex
    cases hindex
  obtain ⟨line, more, htext⟩ := List.exists_cons_of_ne_nil b.text_ne_nil
  obtain ⟨caps, hcaps, hstart, hstop⟩ := b.timing_eq.captured
  rw [srtReadBlock, if_neg hblank, if_neg (by omega), hlines, blockLines, htext]
  simp only [b.index_eq, b.timing_eq.positive, hcaps]
  rw [if_neg Bool.false_ne_true, entry, htext]
  simp only [bind, Except.bind, pure, Except.pure, hstart, hstop]

end SrtCueBlock

/-- A line feed before a block makes it one that is skipped. -/
theorem srtReadBlock_newline (hcap : byteLen ('\n' :: s) ≤ maxCueBytes) :
    srtReadBlock ('\n' :: s) = .ok none := by
  have hlines : lines ('\n' :: s) = [] :: lines s := lines_append_newline (a := []) (by simp) s
  have hnone : srtTimingFields ('\n' :: s) = none := by
    rw [srtTimingFields, hlines]
    rcases lines s with - | ⟨l, - | ⟨m, ls⟩⟩
    · rfl
    · rfl
    · exact if_neg fun h => absurd h.1 (by decide)
  obtain ⟨index, text, hread⟩ := srtReadBlock_eq hcap
  rw [hread, hnone]
  rfl

/-! ## What a text is read as -/

/-- The blocks of a text are read as some cues, if none is over the cap. -/
def ReadsAs (s : Text) (entries : List SubtitleEntry) : Prop :=
  (∀ b ∈ splitStr ['\n', '\n'] s, byteLen b ≤ maxCueBytes) → ∀ count,
    readBlocks (fun _ => srtReadBlock) count (splitStr ['\n', '\n'] s) = .ok entries

/-- Two line feeds are taken off. -/
theorem ReadsAs.newlines (h : ReadsAs s entries) : ReadsAs ('\n' :: '\n' :: s) entries := by
  intro hfits count
  rw [splitStr_blank_blank] at hfits ⊢
  rw [List.forall_mem_cons] at hfits
  rw [readBlocks_skip rfl, h hfits.2]

/-- So are all of them but the odd one. -/
theorem ReadsAs.replicate : ∀ k, ReadsAs (List.replicate (k % 2) '\n' ++ s) entries →
    ReadsAs (List.replicate k '\n' ++ s) entries
  | 0, h => h
  | 1, h => h
  | k + 2, h => by
    rw [Nat.add_mod_right] at h
    rw [List.replicate_succ, List.replicate_succ]
    exact (ReadsAs.replicate k h).newlines

/-- Line feeds alone are no cues. -/
theorem readsAs_newlines (k : ℕ) : ReadsAs (List.replicate k '\n') [] := by
  rw [← List.append_nil (List.replicate k '\n')]
  refine ReadsAs.replicate k ?_
  rcases Nat.mod_two_eq_zero_or_one k with h | h <;> rw [h] <;> exact fun _ _ => rfl

variable {b : SrtCueBlock} {k : ℕ} {tail : Text}

/-- The cue of a block with `k` line feeds before it, if it is not lost. -/
def keptCue (k : ℕ) (b : SrtCueBlock) : Option SubtitleEntry :=
  if Even k then some b.entry else none

/-- A block with at most one line feed on either side is one block, -/
theorem noBlankLine_block (hk : k < 2) (htail : tail = [] ∨ tail = ['\n']) :
    NoBlankLine (List.replicate k '\n' ++ (b.text ++ tail)) := by
  obtain ⟨hblank, hhead, hlast, hne⟩ := b.noBlankLine_text
  have hend : NoBlankLine (b.text ++ tail) := by
    rcases htail with rfl | rfl
    · rwa [List.append_nil]
    · -- the line feed at the end follows no other
      refine hblank.append (List.isChain_singleton _) fun c hc d _ heq => ?_
      subst heq
      exact absurd hc hlast
  have hhead' : (b.text ++ tail).head? ≠ some '\n' := by
    rwa [List.head?_append_of_ne_nil _ hne]
  obtain rfl | rfl : k = 0 ∨ k = 1 := by omega
  · exact hend
  · exact hend.cons fun c hc _ heq => hhead' (heq ▸ hc)

/-- and it is lost if the one before it is there. -/
theorem srtReadBlock_block (hk : k < 2) (htail : tail = [] ∨ tail = ['\n'])
    (hcap : byteLen (List.replicate k '\n' ++ (b.text ++ tail)) ≤ maxCueBytes) :
    srtReadBlock (List.replicate k '\n' ++ (b.text ++ tail)) = .ok (keptCue k b) := by
  obtain ⟨-, -, hlast, hne⟩ := b.noBlankLine_text
  obtain rfl | rfl : k = 0 ∨ k = 1 := by omega
  · -- with or without the line feed at the end, the lines are the same
    refine b.srtReadBlock_eq ?_ hcap
    rw [List.replicate_zero, List.nil_append, ← b.lines_text]
    rcases htail with rfl | rfl
    · rw [List.append_nil]
    · exact lines_concat_newline b.return_not_mem_text hne hlast
  · exact srtReadBlock_newline hcap

/-- The last block. -/
theorem readsAs_last (hk : k < 2) (htail : tail = [] ∨ tail = ['\n']) :
    ReadsAs (List.replicate k '\n' ++ (b.text ++ tail)) (keptCue k b).toList := by
  intro hfits count
  rw [(noBlankLine_block hk htail).splitStr_eq] at hfits ⊢
  rw [List.forall_mem_singleton] at hfits
  have hread : readBlocks (fun _ => srtReadBlock) count _ = _ :=
    readBlocks_cons (srtReadBlock_block hk htail hfits) fun _ => readBlocks_nil
  rwa [List.append_nil] at hread

/-- A block before others. -/
theorem ReadsAs.block (hk : k < 2) (h : ReadsAs s entries) :
    ReadsAs (List.replicate k '\n' ++ (b.text ++ '\n' :: '\n' :: s))
      ((keptCue k b).toList ++ entries) := by
  intro hfits count
  obtain ⟨-, -, hlast, hne⟩ := b.noBlankLine_text
  have hcut : splitStr ['\n', '\n'] (List.replicate k '\n' ++ (b.text ++ '\n' :: '\n' :: s)) =
      (List.replicate k '\n' ++ (b.text ++ [])) :: splitStr ['\n', '\n'] s := by
    rw [← List.append_assoc, List.append_nil]
    refine splitStr_blank_append ?_ ?_
    · have := noBlankLine_block (b := b) hk (.inl rfl)
      rwa [List.append_nil] at this
    · rwa [List.getLast?_append_of_ne_nil _ hne]
  rw [hcut] at hfits ⊢
  rw [List.forall_mem_cons] at hfits
  exact readBlocks_cons (srtReadBlock_block hk (.inl rfl) hfits.1) (h hfits.2)

/-! ## A whole file -/

/-- A file of blocks, each with the line feeds before it, and the line feeds at
the end. -/
def layoutText : List (ℕ × SrtCueBlock) → ℕ → Text
  | [], after => List.replicate after '\n'
  | (k, b) :: blocks, after => List.replicate k '\n' ++ (b.text ++ layoutText blocks after)

/-- The cues that are not lost. -/
def keptCues (blocks : List (ℕ × SrtCueBlock)) : List SubtitleEntry :=
  blocks.flatMap fun p => (keptCue p.1 p.2).toList

/-- Only whether their number is even matters. -/
theorem keptCue_congr {j : ℕ} (h : j % 2 = k % 2) : keptCue j b = keptCue k b := by
  simp only [keptCue, Nat.even_iff, h]

/-- **What is read of a file of blocks**: the cues of those with an even number
of line feeds before them. -/
theorem readsAs_layoutText_cons (after : ℕ) : ∀ {blocks : List (ℕ × SrtCueBlock)} (k : ℕ)
    (b : SrtCueBlock), (∀ p ∈ blocks, 2 ≤ p.1) →
    ReadsAs (layoutText ((k, b) :: blocks) after) (keptCues ((k, b) :: blocks))
  | [], k, b, _ => by
    have hk : k % 2 < 2 := Nat.mod_lt _ (by decide)
    have hlast : keptCues [(k, b)] = (keptCue k b).toList := List.flatMap_singleton _ _
    rw [hlast, ← keptCue_congr (Nat.mod_mod k 2), layoutText, layoutText]
    refine ReadsAs.replicate k ?_
    -- from the second line feed on, what is at the end is cut off the last block
    match after with
    | 0 => exact readsAs_last hk (.inl rfl)
    | 1 => exact readsAs_last hk (.inr rfl)
    | after + 2 =>
      have hread := ReadsAs.block (b := b) hk (readsAs_newlines after)
      rwa [List.append_nil] at hread
  | (j, c) :: blocks, k, b, hapart => by
    have hk : k % 2 < 2 := Nat.mod_lt _ (by decide)
    rw [List.forall_mem_cons] at hapart
    -- the cut takes two of the line feeds before the next block
    obtain ⟨i, rfl⟩ : ∃ i, j = i + 2 := Nat.exists_eq_add_of_le' hapart.1
    have hread := ReadsAs.block (b := b) hk (readsAs_layoutText_cons after i c hapart.2)
    rw [keptCue_congr (Nat.mod_mod k 2)] at hread
    rw [layoutText]
    refine ReadsAs.replicate k ?_
    rw [layoutText, List.replicate_succ, List.replicate_succ]
    rwa [keptCues, List.flatMap_cons, keptCue_congr (Nat.add_mod_right i 2).symm] at hread

/-- **A file of well-formed blocks**, each with the number of blank lines before
it: any number before the first, at least one between two. -/
structure SrtLayout where
  blocks : List (ℕ × SrtCueBlock)
  apart : ∀ p ∈ blocks.tail, 1 ≤ p.1
  /-- The line feeds at the end: none, or the one that ends the last line, or
  that one and blank lines. -/
  after : ℕ

namespace SrtLayout

variable (layout : SrtLayout) {content : Text}

/-- The line feeds before each block. One of them ends the block before. -/
def lineFeeds : List (ℕ × SrtCueBlock) :=
  layout.blocks.head?.toList ++ layout.blocks.tail.map fun p => (p.1 + 1, p.2)

/-- The text of the file. -/
def text : Text := layoutText layout.lineFeeds layout.after

/-- The cues of the blocks, in order. -/
def cues : List SubtitleEntry := layout.blocks.map fun p => p.2.entry

/-- No block has a stray line feed before it: the blank lines before the first
are even in number, and those of each gap odd. -/
def Paired : Prop :=
  (∀ p ∈ layout.blocks.head?, Even p.1) ∧ ∀ p ∈ layout.blocks.tail, Odd p.1

theorem readsAs_text : ReadsAs layout.text (keptCues layout.lineFeeds) := by
  obtain ⟨blocks, apart, after⟩ := layout
  rcases blocks with - | ⟨⟨k, b⟩, blocks⟩
  · exact readsAs_newlines after
  · refine readsAs_layoutText_cons after k b fun p hp => ?_
    obtain ⟨q, hq, rfl⟩ := List.mem_map.1 hp
    exact Nat.succ_le_succ (apart q hq)

theorem cues_eq : layout.cues = layout.lineFeeds.map fun p => p.2.entry := by
  obtain ⟨blocks, apart, after⟩ := layout
  rcases blocks with - | ⟨p, blocks⟩
  · rfl
  · simp [cues, lineFeeds]

theorem paired_iff : layout.Paired ↔ ∀ p ∈ layout.lineFeeds, Even p.1 := by
  have hodd : ∀ n, Odd n ↔ Even (n + 1) := fun n => by rw [Nat.even_add_one, Nat.not_even_iff_odd]
  simp only [Paired, lineFeeds, List.forall_mem_append, List.forall_mem_map, Option.mem_toList,
    Option.mem_def, hodd]

end SrtLayout

/-- All cues are kept exactly when all the numbers are even. -/
theorem keptCues_eq_iff {blocks : List (ℕ × SrtCueBlock)} :
    keptCues blocks = blocks.map (fun p => p.2.entry) ↔ ∀ p ∈ blocks, Even p.1 := by
  have hkept : keptCues blocks =
      (blocks.filter fun p => Even p.1).map fun p => p.2.entry := by
    induction blocks with
    | nil => rfl
    | cons p blocks ih =>
      rw [keptCues, List.flatMap_cons, ← keptCues, ih, keptCue]
      by_cases hp : Even p.1
      · rw [if_pos hp, List.filter_cons_of_pos (by simpa using hp)]
        rfl
      · rw [if_neg hp, List.filter_cons_of_neg (by simpa using hp)]
        rfl
  rw [hkept]
  constructor
  · -- a cue that is lost leaves the list shorter
    intro h p hp
    have hlength := congrArg List.length h
    rw [List.length_map, List.length_map, List.length_filter_eq_length_iff] at hlength
    simpa using hlength p hp
  · intro h
    rw [List.filter_eq_self.2 fun p hp => by simpa using h p hp]

/-- **Every block is one entry** exactly when the file is not empty, no block of
it is over the cap, and no block has a stray line feed before it. -/
theorem srtParse_layout_iff (layout : SrtLayout) (content : Text)
    (h : normalizeLineEndings (stripPrefix bom content) = layout.text) :
    (∃ subtitle, srtParse content = .ok subtitle ∧ subtitle.entries = layout.cues) ↔
      layout.text ≠ [] ∧
        (∀ b ∈ rawBlocks (stripPrefix bom content), byteLen b ≤ maxCueBytes) ∧ layout.Paired := by
  have hempty : stripPrefix bom content = [] ↔ layout.text = [] := by
    rw [← h]
    refine ⟨fun hnil => by rw [hnil]; rfl, fun hnil => ?_⟩
    by_contra hne
    exact normalizeLineEndings_ne_nil hne hnil
  have hparse : stripPrefix bom content ≠ [] →
      (∀ b ∈ rawBlocks (stripPrefix bom content), byteLen b ≤ maxCueBytes) →
      srtParse content = .ok (parsedSubtitle .srt (keptCues layout.lineFeeds)) := by
    intro hne hfits
    have hread := layout.readsAs_text
    rw [ReadsAs, ← h, ← parsedBlocks] at hread
    rw [srtParse_eq hne hfits, hread (byteLen_le_of_mem_parsedBlocks hfits) 0]
    rfl
  rw [layout.paired_iff, ← keptCues_eq_iff, ← layout.cues_eq]
  -- an accepted file is within the limits, and then the cues kept are what is read
  constructor
  · rintro ⟨subtitle, hok, hentries⟩
    obtain ⟨hne, hfits⟩ := limits_of_srtParse hok
    rw [hparse hne hfits] at hok
    cases hok
    exact ⟨hempty.not.1 hne, hfits, hentries⟩
  · rintro ⟨hne, hfits, hentries⟩
    exact ⟨_, hparse (hempty.not.2 hne) hfits, hentries⟩

/-- Two blocks with some blank lines between them. -/
def twoBlocks (blank : ℕ) (h : 1 ≤ blank) : SrtLayout where
  blocks :=
    [(0, .printed 1 (.fromMillis 1000) (.fromMillis 2000) ["A".toList] (by decide) (by decide)
      (by decide) (by decide) (by decide)),
    (blank, .printed 2 (.fromMillis 3000) (.fromMillis 4000) ["B".toList] (by decide) (by decide)
      (by decide) (by decide) (by decide))]
  apart := by simpa using h
  after := 1

/-- One blank line between two blocks, in a file with carriage returns. -/
theorem srtParse_layout_iff_oneBlank :
    let layout := twoBlocks 1 (by decide)
    let content := "\uFEFF1\r\n00:00:01,000 --> 00:00:02,000\r\nA\r\n\r\n".toList ++
      "2\r\n00:00:03,000 --> 00:00:04,000\r\nB\r\n".toList
    (∃ subtitle, srtParse content = .ok subtitle ∧ subtitle.entries = layout.cues) ↔
      layout.text ≠ [] ∧
        (∀ b ∈ rawBlocks (stripPrefix bom content), byteLen b ≤ maxCueBytes) ∧ layout.Paired :=
  srtParse_layout_iff _ _ (by decide)

/-- Of two blocks with two blank lines between them the second is lost. -/
theorem srtParse_twoBlanks :
    let layout := twoBlocks 2 (by decide)
    srtParse layout.text =
        .ok (parsedSubtitle .srt [⟨1, .fromMillis 1000, .fromMillis 2000, "A".toList, none⟩]) ∧
      ¬ ∃ subtitle, srtParse layout.text = .ok subtitle ∧ subtitle.entries = layout.cues := by
  have hparse : srtParse (twoBlocks 2 (by decide)).text =
      .ok (parsedSubtitle .srt [⟨1, .fromMillis 1000, .fromMillis 2000, "A".toList, none⟩]) := rfl
  refine ⟨hparse, ?_⟩
  rintro ⟨subtitle, hok, hcues⟩
  rw [hparse] at hok
  cases hok
  exact absurd (congrArg List.length hcues) (by decide)

end SubxCore
