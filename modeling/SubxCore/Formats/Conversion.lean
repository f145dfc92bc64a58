import SubxCore.Formats.AssRoundTrip
import SubxCore.Formats.SrtRoundTrip
import SubxCore.Formats.Transform
/-!
# What a converted file keeps

Converting to SRT rewrites texts, and the SRT serializer writes them as
they come: a text can turn out empty, start with a line break, have blank
lines inside, or end in line breaks, and each of these cuts the written
file somewhere else than at the end of the cue. Here the written file is
cut cue by cue (`rawBlocks_srtSerialize`): of each cue come its own
block, the fragments of its text after each blank line, and possibly one
line feed that spills over to the next cue. From that the exact condition
under which the cues come back with their times (`ReadsBack`).
-/

namespace SubxCore

open Text Decimal Regex Run

variable {n count : ℕ} {entry : SubtitleEntry} {entries : List SubtitleEntry} {s t : Text}

/-! ## A text under its timing line -/

/-- The blocks of a text as the serializer writes it, from the line break
before it to the blank line after it. -/
def textBlocks (t : Text) : List Text := rawBlocks ('\n' :: (t ++ ['\n', '\n']))

/-- What of the text stays with the timing line. -/
def ownLines (t : Text) : Text := (textBlocks t).headD []

/-- The blocks that blank lines cut off the text. -/
def fragments (t : Text) : List Text := (textBlocks t).tail.dropLast

/-- What is left over for the next cue: nothing, or a line feed. -/
def spill (t : Text) : Text := (textBlocks t).getLastD []

/-- The text starts with a line of its own. -/
def StartsWithLine (t : Text) : Prop := ∃ c ∈ t.head?, c ≠ '\r' ∧ c ≠ '\n'

instance (t : Text) : Decidable (StartsWithLine t) :=
  inferInstanceAs (Decidable (∃ c ∈ t.head?, c ≠ '\r' ∧ c ≠ '\n'))

theorem textBlocks_eq (t : Text) :
    textBlocks t = ownLines t :: (fragments t ++ [spill t]) ∧
      (spill t = [] ∨ spill t = ['\n']) := by
  obtain ⟨b, bs, r, hb, hr⟩ := rawBlocks_of_blank_end ('\n' :: t)
  have hblocks : textBlocks t = b :: (bs ++ [r]) := hb
  have hown : ownLines t = b := by rw [ownLines, hblocks]; rfl
  have hfrag : fragments t = bs := by rw [fragments, hblocks, List.tail_cons, List.dropLast_concat]
  have hspill : spill t = r := by
    rw [spill, hblocks, List.getLastD_cons, List.getLastD_concat]
  rw [hown, hfrag, hspill]
  exact ⟨hblocks, hr⟩

/-- **What stays with the timing line**: nothing, or a line break and a line. -/
theorem ownLines_cases (t : Text) :
    ¬ StartsWithLine t ∧ ownLines t = [] ∨
      StartsWithLine t ∧ ∃ l, l ≠ [] ∧ ownLines t = '\n' :: l := by
  by_cases h : StartsWithLine t
  · obtain ⟨c, hc, hplain⟩ := h
    obtain ⟨t, rfl⟩ := List.head?_eq_some_iff.1 hc
    obtain ⟨b, bs, hb⟩ := List.exists_cons_of_ne_nil (rawBlocks_ne_nil (s := t ++ ['\n', '\n']))
    have hblocks : textBlocks (c :: t) = ('\n' :: c :: b) :: bs := by
      have hterm : IsTerminator ['\n'] (c :: (t ++ ['\n', '\n'])) := .inr (.inl rfl)
      have := rawBlocks_terminator hterm fun d hd => Option.some.inj hd ▸ hplain
      rw [rawBlocks_plain hplain, hb] at this
      exact this
    exact .inr ⟨⟨c, rfl, hplain⟩, c :: b, List.cons_ne_nil c b, by rw [ownLines, hblocks]; rfl⟩
  · obtain ⟨u, v, huv, hu⟩ : ∃ u v, t ++ ['\n', '\n'] = u ++ v ∧ IsTerminator u v := by
      refine (head_plain_or_terminator (t ++ ['\n', '\n'])).resolve_left fun hp => ?_
      rcases t with - | ⟨c, t⟩
      · exact (hp '\n' rfl).2 rfl
      · exact h ⟨c, rfl, hp c rfl⟩
    have hterm : IsTerminator ['\n'] (u ++ v) := .inr (.inl rfl)
    have hblocks : textBlocks t = [] :: rawBlocks v := by
      rw [textBlocks, huv]
      exact rawBlocks_terminator_terminator hterm hu
    exact .inl ⟨h, by rw [ownLines, hblocks]; rfl⟩

/-! ## The blocks of a written file -/

/-- Number and timing line of a cue. -/
def srtHead (n : ℕ) (entry : SubtitleEntry) : Text :=
  decimal n ++ '\n' :: timingLine ',' entry.startTime entry.endTime

/-- The blocks of a written file cue by cue, the first of them after what
the text before it left over. -/
def cueBlocks : Text → ℕ → List SubtitleEntry → List Text
  | carry, _, [] => [carry]
  | carry, n, e :: es =>
    (carry ++ (srtHead n e ++ ownLines e.text)) :: (fragments e.text ++
      cueBlocks (spill e.text) (n + 1) es)

theorem isPlain_of_isDigit {c : Char} (h : c.isDigit = true) : IsPlain c := by
  constructor <;> rintro rfl <;> exact absurd h (by decide)

theorem isPlain_of_mem_timingLine (entry : SubtitleEntry) :
    ∀ c ∈ timingLine ',' entry.startTime entry.endTime, IsPlain c := by
  intro c h
  constructor <;> rintro rfl
  · exact return_not_mem_timingLine h
  · exact newline_not_mem_timingLine h

/-- The blocks of one written cue. -/
theorem rawBlocks_writtenCue (n : ℕ) (entry : SubtitleEntry) :
    rawBlocks (srtBlock n entry ++ ['\n', '\n']) =
      (srtHead n entry ++ ownLines entry.text) :: (fragments entry.text ++ [spill entry.text]) := by
  have hsplit : srtBlock n entry ++ ['\n', '\n'] = decimal n ++ (['\n'] ++
      (timingLine ',' entry.startTime entry.endTime ++ ('\n' :: (entry.text ++ ['\n', '\n'])))) := by
    simp [srtBlock]
  have htext := (textBlocks_eq entry.text).1
  rw [textBlocks] at htext
  have hline : IsTerminator ['\n'] (timingLine ',' entry.startTime entry.endTime ++
      ('\n' :: (entry.text ++ ['\n', '\n']))) := .inr (.inl rfl)
  have hhead : ∀ c ∈ (timingLine ',' entry.startTime entry.endTime ++
      ('\n' :: (entry.text ++ ['\n', '\n']))).head?, IsPlain c := by
    intro c hc
    have hne : timingLine ',' entry.startTime entry.endTime ≠ [] := timingLine_ne_nil
    obtain ⟨d, ds, hd⟩ := List.exists_cons_of_ne_nil hne
    rw [hd] at hc
    refine isPlain_of_mem_timingLine entry c ?_
    rw [hd, ← Option.some.inj hc]
    exact List.mem_cons_self ..
  rw [hsplit, rawBlocks_plain_append fun c hc => isPlain_of_isDigit (isDigit_of_mem_decimal hc),
    rawBlocks_terminator hline hhead,
    rawBlocks_plain_append (isPlain_of_mem_timingLine entry), htext]
  simp [srtHead]

/-- A written file starts with a number. -/
theorem isPlain_head_srtBlocks (n : ℕ) (entries : List SubtitleEntry) :
    ∀ c ∈ ((srtBlocks n entries).flatMap (· ++ ['\n', '\n'])).head?, IsPlain c := by
  rcases entries with - | ⟨e, es⟩
  · intro c hc
    simp [srtBlocks] at hc
  · obtain ⟨d, ds, hd⟩ := List.exists_cons_of_ne_nil (decimal_ne_nil (n := n))
    intro c hc
    rw [srtBlocks_cons, List.flatMap_cons, srtBlock, hd] at hc
    refine isPlain_of_isDigit (isDigit_of_mem_decimal (n := n) ?_)
    rw [hd, ← Option.some.inj hc]
    exact List.mem_cons_self ..

/-- **A written file is cut cue by cue.** -/
theorem rawBlocks_srtBlocks (carry : Text) (n : ℕ) (entries : List SubtitleEntry) :
    (rawBlocks ((srtBlocks n entries).flatMap (· ++ ['\n', '\n']))).modifyHead (carry ++ ·) =
      cueBlocks carry n entries := by
  induction entries generalizing carry n with
  | nil =>
    rw [cueBlocks]
    simp [srtBlocks, rawBlocks, rawBlocksFrom]
  | cons e es ih =>
    rw [srtBlocks_cons, List.flatMap_cons, rawBlocks_append (isPlain_head_srtBlocks (n + 1) es),
      rawBlocks_writtenCue, glue_cons_of_ne_nil (by simp), glue_concat, ih (spill e.text) (n + 1),
      List.modifyHead_cons, cueBlocks]

theorem rawBlocks_srtSerialize (subtitle : Subtitle) :
    rawBlocks (srtSerialize subtitle) = cueBlocks [] 1 subtitle.entries := by
  rw [← rawBlocks_srtBlocks, ← srtSerialize_eq]
  obtain ⟨b, bs, hb⟩ := List.exists_cons_of_ne_nil
    (rawBlocks_ne_nil (s := srtSerialize subtitle))
  rw [hb]
  rfl

/-! ## What is read of it -/

/-- A block as the parser reads it. -/
def readRaw (block : Text) : Except SubXError (Option SubtitleEntry) :=
  srtReadBlock (normalizeLineEndings block)

/-- The times of a block that is read as a cue. -/
def blockTimes (block : Text) : Option (Duration × Duration) :=
  (readRaw block).toOption.join.map SubtitleEntry.times

/-- Number and timing line have no carriage return to normalize. -/
theorem normalizeLineEndings_srtHead (s : Text) :
    normalizeLineEndings (srtHead n entry ++ s) = srtHead n entry ++ normalizeLineEndings s := by
  rw [srtHead, List.append_assoc, List.cons_append,
    normalizeLineEndings_plain_append fun c hc => isPlain_of_isDigit (isDigit_of_mem_decimal hc),
    normalizeLineEndings_newline,
    normalizeLineEndings_plain_append (isPlain_of_mem_timingLine entry)]
  simp

/-- A cue whose own block starts at its number is read with its times when
its text starts with a line, and skipped otherwise. -/
theorem readRaw_ownBlock (hn : n ≤ u64Max) (hstart : entry.startTime.asMillis < 100 * 3600000)
    (hend : entry.endTime.asMillis < 100 * 3600000)
    (hcap : byteLen (srtHead n entry ++ ownLines entry.text) ≤ maxCueBytes) :
    ∃ cue, readRaw (srtHead n entry ++ ownLines entry.text) = .ok cue ∧
      cue.map SubtitleEntry.times = if StartsWithLine entry.text then
        some (.fromMillis entry.startTime.asMillis, .fromMillis entry.endTime.asMillis)
      else none := by
  have hsize := (byteLen_normalizeLineEndings_le _).trans hcap
  rw [readRaw]
  rcases ownLines_cases entry.text with ⟨hline, hown⟩ | ⟨hline, l, hl, hown⟩
  · -- two lines are no cue
    rw [hown, normalizeLineEndings_srtHead] at hsize
    rw [if_neg hline, hown, normalizeLineEndings_srtHead]
    have hlines : lines (srtHead n entry ++ normalizeLineEndings []) =
        [decimal n, timingLine ',' entry.startTime entry.endTime] := by
      rw [normalizeLineEndings_nil, List.append_nil, srtHead,
        lines_append_newline newline_not_mem_decimal, stripLast_of_not_mem return_not_mem_decimal,
        lines_of_not_mem newline_not_mem_timingLine timingLine_ne_nil]
    refine ⟨none, ?_, rfl⟩
    unfold srtReadBlock
    rw [if_neg (Nat.not_lt.2 hsize), hlines]
    split <;> rfl
  · -- the own lines are a block of the serializer's
    have hblock : normalizeLineEndings (srtHead n entry ++ ownLines entry.text) =
        srtBlock n { entry with text := normalizeLineEndings l } := by
      rw [hown, normalizeLineEndings_srtHead, normalizeLineEndings_newline]
      simp [srtHead, srtBlock]
    rw [hblock] at hsize ⊢
    have hread : srtReadBlock (srtBlock n { entry with text := normalizeLineEndings l }) = _ :=
      srtReadBlock_srtBlock hn hstart hend hsize
    rw [if_pos hline, hread, if_neg (lines_ne_nil (normalizeLineEndings_ne_nil hl))]
    exact ⟨_, rfl, rfl⟩

/-- A cue whose block starts with a line feed that spilled over is lost. -/
theorem readRaw_spilledBlock (hcap : byteLen ('\n' :: s) ≤ maxCueBytes) :
    readRaw ('\n' :: s) = .ok none := by
  have hsize := (byteLen_normalizeLineEndings_le _).trans hcap
  rw [normalizeLineEndings_newline] at hsize
  have hlines : lines ('\n' :: normalizeLineEndings s) = [] :: lines (normalizeLineEndings s) :=
    lines_append_newline (a := []) (by simp) _
  rw [readRaw, normalizeLineEndings_newline]
  unfold srtReadBlock
  rw [if_neg (Nat.not_lt.2 hsize), hlines]
  split
  · rfl
  · rcases lines (normalizeLineEndings s) with - | ⟨l, - | ⟨m, ls⟩⟩ <;> rfl

/-- The times read back from the written cues: of each cue its own, if
nothing spilled over to it and its text starts with a line, and those of
the fragments of its text that happen to look like cues. -/
def rereadTimes : Bool → List SubtitleEntry → List (Duration × Duration)
  | _, [] => []
  | intact, e :: es =>
    (if intact = true ∧ StartsWithLine e.text then [e.times] else []) ++
      ((fragments e.text).filterMap blockTimes ++ rereadTimes (spill e.text = []) es)

/-- **The cues survive being written.** There is a cue, every block fits
under the cap, no fragment of a text ends the parse with an error, and the
times of what is read of each cue are the times of the cues. The last holds
where every text starts with a line, ends in an even number of line breaks
and has no fragment that reads as a cue (`readsBack_of_intact`), and else
only where the times of lost cues and of fragments make up for each other. -/
structure ReadsBack (entries : List SubtitleEntry) : Prop where
  nonempty : entries ≠ []
  fits : ∀ b ∈ cueBlocks [] 1 entries, byteLen b ≤ maxCueBytes
  readable : ∀ e ∈ entries, ∀ f ∈ fragments e.text, ∃ cue, readRaw f = .ok cue
  times : rereadTimes true entries = entries.map SubtitleEntry.times

/-- A cue with times of whole milliseconds below 100 hours. -/
def HasClockTimes (entry : SubtitleEntry) : Prop :=
  (.fromMillis entry.startTime.asMillis = entry.startTime ∧
    entry.startTime.asMillis < 100 * 3600000) ∧
  (.fromMillis entry.endTime.asMillis = entry.endTime ∧ entry.endTime.asMillis < 100 * 3600000)

theorem blockTimes_of_readRaw {block : Text} {cue : Option SubtitleEntry}
    (h : readRaw block = .ok cue) : blockTimes block = cue.map SubtitleEntry.times := by
  rw [blockTimes, h]
  rfl

/-- What the last cue leaves over is no cue. -/
theorem readRaw_carry {carry : Text} (h : carry = [] ∨ carry = ['\n']) :
    readRaw carry = .ok none := by
  rcases h with rfl | rfl <;> rfl

/-- The first block of a cue can be read, and is a cue exactly when nothing
spilled over to it and its text starts with a line. -/
theorem readRaw_firstBlock {carry : Text} (hcarry : carry = [] ∨ carry = ['\n'])
    (hn : n ≤ u64Max) (htimes : HasClockTimes entry)
    (hcap : byteLen (carry ++ (srtHead n entry ++ ownLines entry.text)) ≤ maxCueBytes) :
    ∃ cue, readRaw (carry ++ (srtHead n entry ++ ownLines entry.text)) = .ok cue ∧
      cue.map SubtitleEntry.times =
        if carry = [] ∧ StartsWithLine entry.text then some entry.times else none := by
  rcases hcarry with rfl | rfl
  · obtain ⟨cue, hread, hcue⟩ := readRaw_ownBlock hn htimes.1.2 htimes.2.2 hcap
    rw [htimes.1.1, htimes.2.1] at hcue
    exact ⟨cue, hread, by simpa [SubtitleEntry.times] using hcue⟩
  · exact ⟨none, readRaw_spilledBlock hcap, by simp⟩

/-- **Reading the blocks cue by cue.** Only fragments can end the parse, and
the times are those of `rereadTimes`. -/
theorem read_cueBlocks {carry : Text} (hcarry : carry = [] ∨ carry = ['\n'])
    (hvec : n + entries.length ≤ u64Max) (htimes : ∀ e ∈ entries, HasClockTimes e)
    (hfits : ∀ b ∈ cueBlocks carry n entries, byteLen b ≤ maxCueBytes) :
    ((∀ b ∈ cueBlocks carry n entries, ∃ cue, readRaw b = .ok cue) ↔
      ∀ e ∈ entries, ∀ f ∈ fragments e.text, ∃ cue, readRaw f = .ok cue) ∧
    (cueBlocks carry n entries).filterMap blockTimes = rereadTimes (carry = []) entries := by
  induction entries generalizing carry n with
  | nil =>
    have hread := readRaw_carry hcarry
    have hnone : blockTimes carry = none := blockTimes_of_readRaw hread
    simp [cueBlocks, rereadTimes, hread, hnone]
  | cons e es ih =>
    simp only [List.mem_cons, forall_eq_or_imp, List.length_cons] at htimes hvec
    rw [cueBlocks, List.forall_mem_cons, List.forall_mem_append] at hfits
    obtain ⟨hfirst, hfrag, hrest⟩ := hfits
    obtain ⟨cue, hread, hcue⟩ := readRaw_firstBlock hcarry (by omega) htimes.1 hfirst
    have hown := blockTimes_of_readRaw hread
    rw [hcue] at hown
    obtain ⟨ihread, ihtimes⟩ := ih (textBlocks_eq e.text).2 (by omega) htimes.2 hrest
    constructor
    · rw [cueBlocks, List.forall_mem_cons, List.forall_mem_append, List.forall_mem_cons, ihread]
      exact and_iff_right ⟨cue, hread⟩
    · rw [cueBlocks, rereadTimes, List.filterMap_cons, List.filterMap_append, ihtimes, hown]
      by_cases h : carry = [] ∧ StartsWithLine e.text
      · simp [h]
      · simp [h]

/-! ## Writing and reading back -/

/-- **The parser block by block.** It goes through exactly when every block
fits and can be read, and then keeps what the blocks are read as. -/
theorem srtParse_eq_ok_iff {content : Text} {subtitle : Subtitle}
    (hbom : stripPrefix bom content = content) (hne : content ≠ []) :
    srtParse content = .ok subtitle ↔
      (∀ b ∈ rawBlocks content, byteLen b ≤ maxCueBytes) ∧
      (∀ b ∈ rawBlocks content, ∃ cue, readRaw b = .ok cue) ∧
      subtitle = parsedSubtitle .srt
        ((rawBlocks content).filterMap fun b => (readRaw b).toOption.join) := by
  have hblocks := map_normalizeLineEndings_rawBlocks content
  have hread : ∀ entries, readBlocks (fun _ => srtReadBlock) 0
      (splitStr ['\n', '\n'] (normalizeLineEndings content)) = .ok entries ↔
      (∀ b ∈ rawBlocks content, ∃ cue, readRaw b = .ok cue) ∧
        entries = (rawBlocks content).filterMap fun b => (readRaw b).toOption.join := by
    intro entries
    rw [← hblocks, readBlocks_eq_ok_iff, List.forall_mem_map, List.filterMap_map]
    rfl
  unfold srtParse
  simp only [hbom, if_neg hne]
  rcases hsize : firstOversized (rawBlocks content) with - | b
  · rw [firstOversized_eq_none] at hsize
    have hrun : ∀ x : Except SubXError (List SubtitleEntry),
        ((x >>= fun entries => pure (parsedSubtitle .srt entries)) = .ok subtitle) ↔
          ∃ entries, x = .ok entries ∧ subtitle = parsedSubtitle .srt entries := by
      intro x
      rw [bind_eq_ok]
      exact exists_congr fun e => and_congr_right fun _ =>
        ⟨fun h => (Except.ok.inj h).symm, fun h => congrArg Except.ok h.symm⟩
    refine (hrun _).trans ?_
    simp only [hread]
    constructor
    · rintro ⟨es, ⟨hr, rfl⟩, rfl⟩
      exact ⟨hsize, hr, rfl⟩
    · rintro ⟨-, hr, rfl⟩
      exact ⟨_, ⟨hr, rfl⟩, rfl⟩
  · constructor
    · intro h
      cases h
    · rintro ⟨hfits, -⟩
      rw [firstOversized_eq_none.2 hfits] at hsize
      cases hsize

/-- **Writing and reading back keeps the times exactly when the cues survive
being written.** -/
theorem exists_srtParse_srtSerialize_iff (subtitle : Subtitle)
    (hvec : subtitle.entries.length ≤ vecMax) (htimes : ∀ e ∈ subtitle.entries, HasClockTimes e) :
    (∃ reread, srtParse (srtSerialize subtitle) = .ok reread ∧
      reread.entries.map SubtitleEntry.times = subtitle.entries.map SubtitleEntry.times) ↔
    ReadsBack subtitle.entries := by
  by_cases hne : subtitle.entries = []
  · have hfile : srtSerialize subtitle = [] := by rw [srtSerialize, hne]; rfl
    constructor
    · rintro ⟨reread, hparse, -⟩
      rw [hfile] at hparse
      cases hparse
    · exact fun h => absurd hne h.nonempty
  obtain ⟨hbom, hfile⟩ := stripPrefix_bom_srtSerialize hne
  have hvec' : 1 + subtitle.entries.length ≤ u64Max := by
    rw [vecMax] at hvec
    rw [u64Max]
    omega
  have hmap : ∀ bs : List Text, ((bs.filterMap fun b => (readRaw b).toOption.join).map
      SubtitleEntry.times) = bs.filterMap blockTimes := fun bs => List.map_filterMap
  simp only [srtParse_eq_ok_iff hbom hfile, rawBlocks_srtSerialize]
  constructor
  · rintro ⟨reread, ⟨hfits, hread, rfl⟩, hsame⟩
    obtain ⟨hiff, hreread⟩ := read_cueBlocks (.inl rfl) hvec' htimes hfits
    rw [parsedSubtitle, hmap, hreread] at hsame
    exact ⟨hne, hfits, hiff.1 hread, by simpa using hsame⟩
  · rintro ⟨-, hfits, hread, hsame⟩
    obtain ⟨hiff, hreread⟩ := read_cueBlocks (.inl rfl) hvec' htimes hfits
    refine ⟨_, ⟨hfits, hiff.2 hread, rfl⟩, ?_⟩
    rw [parsedSubtitle, hmap, hreread]
    simpa using hsame

/-- Where every text starts with a line, leaves nothing over and has no
fragment that reads as a cue, the cues survive. -/
theorem readsBack_of_intact (hne : entries ≠ [])
    (hfits : ∀ b ∈ cueBlocks [] 1 entries, byteLen b ≤ maxCueBytes)
    (hline : ∀ e ∈ entries, StartsWithLine e.text) (hspill : ∀ e ∈ entries, spill e.text = [])
    (hfrag : ∀ e ∈ entries, ∀ f ∈ fragments e.text, readRaw f = .ok none) :
    ReadsBack entries := by
  refine ⟨hne, hfits, fun e he f hf => ⟨none, hfrag e he f hf⟩, ?_⟩
  clear hne hfits
  induction entries with
  | nil => rfl
  | cons e es ih =>
    simp only [List.mem_cons, forall_eq_or_imp] at hline hspill hfrag
    have hnone : (fragments e.text).filterMap blockTimes = [] :=
      List.filterMap_eq_nil_iff.2 fun f hf => blockTimes_of_readRaw (hfrag.1 f hf)
    rw [rereadTimes, hnone, hspill.1, List.map_cons, ← ih hline.2 hspill.2 hfrag.2]
    simp [hline.1]

/-! ## Converting to SRT -/

/-- The text of a cue of a format as the conversion to SRT leaves it. -/
def srtText (preserveStyling : Bool) : SubtitleFormatType → Text → Text
  | .ass, text => assTextToSrt preserveStyling text
  | .vtt, text => vttTextToSrt preserveStyling text
  | _, text => text

/-- The cues of a subtitle with their texts in SRT. -/
def srtCues (preserveStyling : Bool) (subtitle : Subtitle) : List SubtitleEntry :=
  subtitle.entries.map fun e =>
    { e with text := srtText preserveStyling subtitle.format e.text, styling := none }

/-- The times of a cue are whole milliseconds. -/
def HasWholeMillis (e : SubtitleEntry) : Prop :=
  .fromMillis e.startTime.asMillis = e.startTime ∧ .fromMillis e.endTime.asMillis = e.endTime

theorem hasWholeMillis_of_vttReadCue {marker : Text} {body : List Text}
    (h : vttReadCue count marker body = .ok (some entry)) : HasWholeMillis entry := by
  unfold vttReadCue at h
  split at h
  · cases h
  split at h
  · cases h
  obtain ⟨start, hstart, h⟩ := bind_eq_ok.1 h
  obtain ⟨stop, hstop, h⟩ := bind_eq_ok.1 h
  dsimp only at h
  split at h
  · cases h
  obtain rfl := Option.some.inj (Except.ok.inj h)
  exact ⟨parseClock_eq_ok hstart, parseClock_eq_ok hstop⟩

theorem hasWholeMillis_of_vttReadBlock {block : Text}
    (h : vttReadBlock count block = .ok (some entry)) : HasWholeMillis entry := by
  unfold vttReadBlock at h
  dsimp only at h
  split at h
  · cases h
  split at h
  · cases h
  split at h
  · cases h
  split at h
  · exact hasWholeMillis_of_vttReadCue h
  split at h
  · cases h
  · exact hasWholeMillis_of_vttReadCue h

/-- The VTT parser makes cues in whole milliseconds. -/
theorem hasWholeMillis_of_vttParse {content : Text} {subtitle : Subtitle}
    (h : vttParse content = .ok subtitle) :
    subtitle.format = .vtt ∧ ∀ e ∈ subtitle.entries, HasWholeMillis e := by
  unfold vttParse at h
  split at h
  · cases h
  dsimp only at h
  split at h
  · cases h
  split at h
  · cases h
  obtain ⟨entries, hread, h⟩ := bind_eq_ok.1 h
  obtain rfl := Except.ok.inj h
  exact ⟨rfl, forall_mem_of_readBlocks (fun _ _ _ => hasWholeMillis_of_vttReadBlock) hread⟩

/-- So does the ASS parser. -/
theorem hasWholeMillis_of_assParse {content : Text} {subtitle : Subtitle}
    (h : assParse content = .ok subtitle) :
    subtitle.format = .ass ∧ ∀ e ∈ subtitle.entries, HasWholeMillis e := by
  obtain ⟨entries, rfl, hcues⟩ := assCues_of_assParse h
  refine ⟨rfl, fun e he => ?_⟩
  obtain ⟨k, hk⟩ := List.mem_iff_getElem?.1 he
  obtain ⟨⟨a, ha, -⟩, b, hb, -⟩ := And.intro (hcues k e hk).startTime (hcues k e hk).endTime
  rw [HasWholeMillis, ha, hb, Duration.asMillis_fromMillis, Duration.asMillis_fromMillis]
  exact ⟨rfl, rfl⟩

/-- From both formats the conversion goes through, and its cues are the cues
with their texts in SRT. -/
theorem transformSubtitle_srt (preserveStyling : Bool) {subtitle : Subtitle}
    (h : subtitle.format = .ass ∨ subtitle.format = .vtt) :
    ∃ converted, transformSubtitle preserveStyling subtitle "srt".toList = .ok converted ∧
      converted.entries = srtCues preserveStyling subtitle := by
  rcases h with h | h
  · refine ⟨assToSrt preserveStyling subtitle, ?_, ?_⟩
    · rw [transformSubtitle, h]
      rfl
    · rw [srtCues, h]
      rfl
  · refine ⟨vttToSrt preserveStyling subtitle, ?_, ?_⟩
    · rw [transformSubtitle, h]
      rfl
    · rw [srtCues, h]
      rfl

/-- **What a conversion to SRT keeps.** An ASS or VTT file with cues below
100 hours, converted, written as SRT and read again, has the same number of
cues in the same order with the same times exactly when its cues, with the
texts the conversion leaves, survive being written. -/
theorem convert_to_srt_iff (preserveStyling : Bool) (content : Text) (subtitle : Subtitle)
    (hparse : assParse content = .ok subtitle ∨ vttParse content = .ok subtitle)
    (hvec : subtitle.entries.length ≤ vecMax)
    (htimes : ∀ e ∈ subtitle.entries,
      e.startTime.nanos < hundredHours.nanos ∧ e.endTime.nanos < hundredHours.nanos) :
    (∃ converted reread, transformSubtitle preserveStyling subtitle "srt".toList = .ok converted ∧
      srtParse (srtSerialize converted) = .ok reread ∧
      reread.entries.map SubtitleEntry.times = subtitle.entries.map SubtitleEntry.times) ↔
    ReadsBack (srtCues preserveStyling subtitle) := by
  obtain ⟨hformat, hmillis⟩ : (subtitle.format = .ass ∨ subtitle.format = .vtt) ∧
      ∀ e ∈ subtitle.entries, HasWholeMillis e := by
    rcases hparse with hass | hvtt
    · exact (hasWholeMillis_of_assParse hass).imp_left .inl
    · exact (hasWholeMillis_of_vttParse hvtt).imp_left .inr
  obtain ⟨converted, hconv, hentries⟩ := transformSubtitle_srt preserveStyling hformat
  have hsame : (srtCues preserveStyling subtitle).map SubtitleEntry.times =
      subtitle.entries.map SubtitleEntry.times := by
    rw [srtCues, List.map_map]
    rfl
  have hclock : ∀ e ∈ converted.entries, HasClockTimes e := by
    intro e he
    rw [hentries] at he
    obtain ⟨e, hmem, rfl⟩ := List.mem_map.1 he
    obtain ⟨hstart, hend⟩ := htimes e hmem
    exact ⟨⟨(hmillis e hmem).1, asMillis_lt_hundredHours hstart⟩,
      (hmillis e hmem).2, asMillis_lt_hundredHours hend⟩
  have hlen : converted.entries.length ≤ vecMax := by
    rwa [hentries, srtCues, List.length_map]
  have hiff := exists_srtParse_srtSerialize_iff converted hlen hclock
  rw [hentries, hsame] at hiff
  rw [← hiff]
  constructor
  · rintro ⟨converted', reread, hconv', hread⟩
    obtain rfl := Except.ok.inj (hconv.symm.trans hconv')
    exact ⟨reread, hread⟩
  · rintro ⟨reread, hread⟩
    exact ⟨converted, reread, hconv, hread⟩

/-- Two cues, the first of nothing but a tag. -/
def tagOnlyFile : Text :=
  "[Events]\nFormat: Start,End,Text\nDialogue: 0:00:01.00,0:00:02.00,\x7b\\an8\x7d\n".toList ++
    "Dialogue: 0:00:03.00,0:00:04.00,two".toList

/-- What is read from it. -/
def tagOnlyCues : Subtitle :=
  parsedSubtitle .ass
    [⟨1, .fromMillis 1000, .fromMillis 2000, "\x7b\\an8\x7d".toList, none⟩,
      ⟨2, .fromMillis 3000, .fromMillis 4000, "two".toList, none⟩]

theorem convert_to_srt_iff_tagOnlyCues :
    (∃ converted reread, transformSubtitle false tagOnlyCues "srt".toList = .ok converted ∧
      srtParse (srtSerialize converted) = .ok reread ∧
      reread.entries.map SubtitleEntry.times = tagOnlyCues.entries.map SubtitleEntry.times) ↔
    ReadsBack (srtCues false tagOnlyCues) :=
  convert_to_srt_iff false tagOnlyFile tagOnlyCues (.inl (by decide +kernel)) (by decide)
    (by decide)

/-- **A cue that is nothing but tags is lost, and the one after it with
it.** The line feed its empty text leaves spills over. -/
theorem convert_to_srt_loses_tagOnlyCues :
    assParse tagOnlyFile = .ok tagOnlyCues ∧
    (∀ e ∈ tagOnlyCues.entries,
      e.startTime.nanos < hundredHours.nanos ∧ e.endTime.nanos < hundredHours.nanos) ∧
    (∀ e ∈ tagOnlyCues.entries, byteLen e.text < maxCueBytes) ∧
    ¬ ∃ converted reread, transformSubtitle false tagOnlyCues "srt".toList = .ok converted ∧
      srtParse (srtSerialize converted) = .ok reread ∧
      reread.entries.map SubtitleEntry.times = tagOnlyCues.entries.map SubtitleEntry.times := by
  refine ⟨by decide +kernel, by decide, by decide, ?_⟩
  rintro ⟨converted, reread, hconv, hread, htimes⟩
  have hempty : srtParse (srtSerialize (assToSrt false tagOnlyCues)) =
      .ok (parsedSubtitle .srt []) := by decide +kernel
  obtain rfl := Except.ok.inj (hconv.symm.trans
    (show transformSubtitle false tagOnlyCues "srt".toList = .ok (assToSrt false tagOnlyCues) from rfl))
  rw [hempty] at hread
  obtain rfl := Except.ok.inj hread
  cases htimes

end SubxCore
