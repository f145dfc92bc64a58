import SubxCore.Formats.Ass
import SubxCore.Formats.BlockErrors
import SubxCore.Formats.Sub
/-!
# Carriage returns before line feeds

A file whose line feeds are turned into `\r\n`, some of them or all, is the
same file to every parser, but for one thing: the SRT and VTT parsers measure
a block before the carriage returns are gone, so the longer file may be over
the cap.
-/

namespace SubxCore

open Text Regex

variable {s t a content : Text} {chosen : ℕ → Bool}

/-- A text with a carriage return before each line feed at a chosen place. -/
def withReturns (chosen : ℕ → Bool) : Text → Text
  | [] => []
  | c :: s =>
    (if c = '\n' ∧ chosen 0 then ['\r', '\n'] else [c]) ++ withReturns (fun i => chosen (i + 1)) s

example : withReturns (fun i => i == 3) "a\nb\nc\n".toList = "a\nb\r\nc\n".toList := by decide

theorem withReturns_cons (chosen : ℕ → Bool) (c : Char) (s : Text) : withReturns chosen (c :: s) =
    (if c = '\n' ∧ chosen 0 then ['\r', '\n'] else [c]) ++
      withReturns (fun i => chosen (i + 1)) s := rfl

/-- Nothing is put in before other characters. -/
theorem withReturns_append (h : '\n' ∉ a) (s : Text) (chosen : ℕ → Bool) :
    withReturns chosen (a ++ s) = a ++ withReturns (fun i => chosen (i + a.length)) s := by
  induction a generalizing chosen with
  | nil => rfl
  | cons c a ih =>
    rw [List.mem_cons, not_or] at h
    have hshift : ∀ i, i + a.length + 1 = i + (c :: a).length := fun i => by
      rw [List.length_cons, Nat.add_assoc]
    rw [List.cons_append, withReturns_cons, if_neg fun hc => h.1 hc.1.symm, ih h.2]
    simp only [hshift]
    rfl

theorem withReturns_of_not_mem (h : '\n' ∉ s) : withReturns chosen s = s := by
  have := withReturns_append h [] chosen
  simpa [withReturns] using this

/-! ## What is left of them -/

/-- **Normalizing takes them out.** -/
theorem normalizeLineEndings_withReturns (h : '\r' ∉ s) :
    normalizeLineEndings (withReturns chosen s) = s := by
  induction s generalizing chosen with
  | nil => rfl
  | cons c s ih =>
    rw [List.mem_cons, not_or] at h
    rw [withReturns_cons]
    split
    · next hc =>
      rw [normalizeLineEndings_terminator (.inl rfl), ih h.2, hc.1]
    · by_cases hc : c = '\n'
      · subst hc
        rw [List.singleton_append, normalizeLineEndings_newline, ih h.2]
      · rw [List.singleton_append, normalizeLineEndings_plain ⟨Ne.symm h.1, hc⟩, ih h.2]

/-- **So does taking the lines.** -/
theorem lines_withReturns (h : '\r' ∉ s) : lines (withReturns chosen s) = lines s := by
  induction hn : s.length using Nat.strong_induction_on generalizing s chosen with
  | _ n ih =>
    by_cases hmem : '\n' ∈ s
    · obtain ⟨a, t, rfl, ha⟩ := List.eq_append_cons_of_mem hmem
      simp only [List.mem_append, List.mem_cons, not_or] at h
      have hrest : ∀ chosen, lines (withReturns chosen t) = lines t := fun chosen =>
        ih t.length (by simp [← hn]; omega) h.2.2 rfl
      rw [withReturns_append ha, withReturns_cons, lines_append_newline ha, stripLast_of_not_mem h.1]
      split
      · -- the carriage return is at the end of a line, where it is taken off
        have hline : '\n' ∉ a ++ ['\r'] := by simp [ha]
        have hstrip : stripLast '\r' (a ++ ['\r']) = a := by simp [stripLast]
        rw [List.cons_append, List.singleton_append, List.append_cons,
          lines_append_newline hline, hstrip, hrest]
      · rw [List.singleton_append, lines_append_newline ha, stripLast_of_not_mem h.1, hrest]
    · rw [withReturns_of_not_mem hmem]

theorem withReturns_eq_nil_iff : withReturns chosen s = [] ↔ s = [] := by
  rcases s with - | ⟨c, s⟩
  · exact iff_of_true rfl rfl
  · rw [withReturns_cons]
    split <;> simp

theorem stripPrefix_bom_cons {c : Char} (h : c ≠ '\uFEFF') :
    stripPrefix bom (c :: s) = c :: s := by
  rw [stripPrefix, if_neg]
  rw [List.isPrefixOf_iff_prefix]
  rintro ⟨u, hu⟩
  exact h (List.cons_eq_cons.1 hu).1.symm

/-- The byte-order mark comes off before or after. -/
theorem stripPrefix_withReturns (s : Text) (chosen : ℕ → Bool) :
    ∃ chosen', stripPrefix bom (withReturns chosen s) = withReturns chosen' (stripPrefix bom s) := by
  rcases s with - | ⟨c, s⟩
  · exact ⟨chosen, rfl⟩
  by_cases hbom : c = '\uFEFF'
  · subst hbom
    exact ⟨fun i => chosen (i + 1), rfl⟩
  · refine ⟨chosen, ?_⟩
    rw [stripPrefix_bom_cons hbom, withReturns_cons]
    split
    · exact stripPrefix_bom_cons (by decide)
    · exact stripPrefix_bom_cons hbom

theorem return_not_mem_stripPrefix {p : Text} (h : '\r' ∉ s) : '\r' ∉ stripPrefix p s := by
  rw [stripPrefix]
  split
  · exact fun hr => h ((List.drop_suffix _ _).subset hr)
  · exact h

/-! ## The line-based parsers -/

theorem subParse_withReturns (h : '\r' ∉ content) :
    subParse (withReturns chosen content) = subParse content := by
  simp only [subParse, withReturns_eq_nil_iff, lines_withReturns h]

theorem assParse_withReturns (h : '\r' ∉ content) :
    assParse (withReturns chosen content) = assParse content := by
  obtain ⟨chosen', hstrip⟩ := stripPrefix_withReturns content chosen
  have hr : '\r' ∉ stripPrefix bom content := return_not_mem_stripPrefix h
  have hblank : trim (withReturns chosen' (stripPrefix bom content)) = [] ↔
      trim (stripPrefix bom content) = [] := by
    rw [← trim_normalizeLineEndings_eq_nil_iff, normalizeLineEndings_withReturns hr]
  simp only [assParse, hstrip, hblank, lines_withReturns hr]

/-! ## The block-based parsers -/

theorem parsedBlocks_withReturns (h : '\r' ∉ content) :
    parsedBlocks (withReturns chosen content) = parsedBlocks content := by
  obtain ⟨chosen', hstrip⟩ := stripPrefix_withReturns content chosen
  have hr : '\r' ∉ stripPrefix bom content := return_not_mem_stripPrefix h
  rw [parsedBlocks, parsedBlocks, hstrip, normalizeLineEndings_withReturns hr,
    normalizeLineEndings_of_not_mem hr]

/-- The raw blocks of the shorter file are those of the longer one, normalized. -/
theorem rawBlocks_of_withReturns (h : '\r' ∉ content) :
    rawBlocks (stripPrefix bom content) =
      (rawBlocks (stripPrefix bom (withReturns chosen content))).map normalizeLineEndings := by
  obtain ⟨chosen', hstrip⟩ := stripPrefix_withReturns content chosen
  have hr : '\r' ∉ stripPrefix bom content := return_not_mem_stripPrefix h
  rw [map_normalizeLineEndings_rawBlocks, hstrip, normalizeLineEndings_withReturns hr,
    rawBlocks_of_not_mem hr]

theorem srtParse_of_withReturns (h : '\r' ∉ content) {subtitle : Subtitle}
    (hparse : srtParse (withReturns chosen content) = .ok subtitle) :
    srtParse content = .ok subtitle := by
  obtain ⟨hne, hfits⟩ := limits_of_srtParse hparse
  obtain ⟨chosen', hstrip⟩ := stripPrefix_withReturns content chosen
  have hne' : stripPrefix bom content ≠ [] := by
    rwa [hstrip, ne_eq, withReturns_eq_nil_iff] at hne
  -- a block without the carriage returns is no longer than it was
  have hfits' : ∀ b ∈ rawBlocks (stripPrefix bom content), byteLen b ≤ maxCueBytes := by
    rw [rawBlocks_of_withReturns h]
    intro b hb
    obtain ⟨raw, hraw, rfl⟩ := List.mem_map.1 hb
    exact (byteLen_normalizeLineEndings_le raw).trans (hfits raw hraw)
  rw [srtParse_eq hne hfits, parsedBlocks_withReturns h] at hparse
  rw [srtParse_eq hne' hfits', hparse]

theorem vttParse_of_withReturns (h : '\r' ∉ content) {subtitle : Subtitle}
    (hparse : vttParse (withReturns chosen content) = .ok subtitle) :
    vttParse content = .ok subtitle := by
  obtain ⟨hne, hsigned, hfits⟩ := limits_of_vttParse hparse
  obtain ⟨chosen', hstrip⟩ := stripPrefix_withReturns content chosen
  have hr : '\r' ∉ stripPrefix bom content := return_not_mem_stripPrefix h
  have hne' : content ≠ [] := by rwa [ne_eq, withReturns_eq_nil_iff] at hne
  -- there is no white space in the signature, so nothing was put in
  have hsigned' : "WEBVTT".toList <+: trimStart (stripPrefix bom content) := by
    have hword : ∀ c ∈ "WEBVTT".toList, isWhitespace c = false := by decide
    rw [hstrip, ← prefix_trimEnd_iff hword, ← trim, ← prefix_trim_normalizeLineEndings hword,
      normalizeLineEndings_withReturns hr, trim, prefix_trimEnd_iff hword] at hsigned
    exact hsigned
  have hfits' : ∀ b ∈ rawBlocks (stripPrefix bom content), ¬ IsOversizedCue b := by
    rw [rawBlocks_of_withReturns h]
    intro b hb hbig
    obtain ⟨raw, hraw, rfl⟩ := List.mem_map.1 hb
    refine hfits raw hraw ⟨?_, hbig.2.trans_le (byteLen_normalizeLineEndings_le raw)⟩
    rw [← vttSkips_normalizeLineEndings]
    exact hbig.1
  rw [vttParse_eq hne hsigned hfits, parsedBlocks_withReturns h] at hparse
  rw [vttParse_eq hne' hsigned' hfits', hparse]

/-- **Carriage returns before line feeds change nothing**, except that the SRT
and VTT parsers may refuse a file for them. -/
theorem parse_withReturns (content : Text) (h : '\r' ∉ content) (chosen : ℕ → Bool) :
    assParse (withReturns chosen content) = assParse content ∧
    subParse (withReturns chosen content) = subParse content ∧
    (∀ subtitle, srtParse (withReturns chosen content) = .ok subtitle →
      srtParse content = .ok subtitle) ∧
    (∀ subtitle, vttParse (withReturns chosen content) = .ok subtitle →
      vttParse content = .ok subtitle) :=
  ⟨assParse_withReturns h, subParse_withReturns h, fun _ => srtParse_of_withReturns h,
    fun _ => vttParse_of_withReturns h⟩

/-- A VTT file with the first and the fourth of its line feeds turned. -/
theorem parse_withReturns_mixed :
    let content := "WEBVTT\n\n00:00:01.000 --> 00:00:02.000\nHi\nyou\n".toList
    let mixed := "WEBVTT\r\n\n00:00:01.000 --> 00:00:02.000\nHi\r\nyou\n".toList
    assParse mixed = assParse content ∧ subParse mixed = subParse content ∧
    (∀ subtitle, srtParse mixed = .ok subtitle → srtParse content = .ok subtitle) ∧
    (∀ subtitle, vttParse mixed = .ok subtitle → vttParse content = .ok subtitle) :=
  parse_withReturns "WEBVTT\n\n00:00:01.000 --> 00:00:02.000\nHi\nyou\n".toList (by decide)
    fun i => i == 6 || i == 40

end SubxCore
