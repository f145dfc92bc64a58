import SubxCore.Common.Text
import Mathlib.Data.List.Chain
/-!
# Line endings

`normalize_line_endings` and `raw_blocks`, shared by the SRT and VTT
parsers: the one turns every `\r\n` and every other `\r` into `\n`, the
other cuts the text before that at the same blank lines. The two agree
block by block (`map_normalizeLineEndings_rawBlocks`), which is why the
cap on raw blocks covers the blocks the parsers read.
-/

namespace SubxCore

open Text

/-- Every CRLF and every bare CR becomes a LF. -/
def normalizeLineEndings (content : Text) : Text :=
  if '\r' ∉ content then content
  else replaceChar '\r' ['\n'] (replaceStr ['\r', '\n'] ['\n'] content)

/-- The length of the line terminator a text starts with, 0 for none. -/
def termLenAt : Text → ℕ
  | '\r' :: '\n' :: _ => 2
  | '\r' :: _ => 1
  | '\n' :: _ => 1
  | _ => 0

/-- The blocks from a position on: `drop` characters of a separator are
still to be skipped, `keep` characters of a lone terminator still belong to
the block. -/
def rawBlocksFrom : (drop keep : ℕ) → Text → List Text
  | _, _, [] => [[]]
  | drop + 1, keep, _ :: s => rawBlocksFrom drop keep s
  | 0, keep + 1, c :: s => (rawBlocksFrom 0 keep s).modifyHead (c :: ·)
  | 0, 0, c :: s =>
    let first := termLenAt (c :: s)
    if first = 0 then (rawBlocksFrom 0 0 s).modifyHead (c :: ·)
    else
      let second := termLenAt ((c :: s).drop first)
      if second > 0 then [] :: rawBlocksFrom (first + second - 1) 0 s
      else (rawBlocksFrom 0 (first - 1) s).modifyHead (c :: ·)

/-- The blocks of the text as it stands, cut at every pair of consecutive
line terminators. -/
def rawBlocks (content : Text) : List Text := rawBlocksFrom 0 0 content

example : rawBlocks "a\r\nb\r\n\nc\r\nd\n\r\ne".toList =
    ["a\r\nb".toList, "c\r\nd".toList, "e".toList] := by decide

/-! ## Terminators

Every text is empty, starts with a character that ends no line, or starts
with a line terminator; the lemmas below follow these three cases. -/

/-- `t` is the whole line terminator before `s`. -/
def IsTerminator (t s : Text) : Prop :=
  t = ['\r', '\n'] ∨ t = ['\n'] ∨ t = ['\r'] ∧ s.head? ≠ some '\n'

/-- The character does not end a line. -/
def IsPlain (c : Char) : Prop := c ≠ '\r' ∧ c ≠ '\n'

instance : DecidablePred IsPlain := fun c => inferInstanceAs (Decidable (c ≠ '\r' ∧ c ≠ '\n'))

variable {s t u : Text} {c : Char}

theorem IsTerminator.ne_nil (h : IsTerminator t s) : t ≠ [] := by
  rcases h with rfl | rfl | ⟨rfl, -⟩ <;> simp

/-- A character ends no line, or a terminator starts with it. -/
theorem isPlain_or_terminator (c : Char) (s : Text) :
    IsPlain c ∨ ∃ t s', c :: s = t ++ s' ∧ IsTerminator t s' := by
  by_cases hn : c = '\n'
  · exact .inr ⟨['\n'], s, by rw [hn]; rfl, .inr (.inl rfl)⟩
  by_cases hr : c = '\r'
  · subst hr
    by_cases hh : s.head? = some '\n'
    · obtain ⟨s', rfl⟩ := List.head?_eq_some_iff.1 hh
      exact .inr ⟨['\r', '\n'], s', rfl, .inl rfl⟩
    · exact .inr ⟨['\r'], s, rfl, .inr (.inr ⟨rfl, hh⟩)⟩
  · exact .inl ⟨hr, hn⟩

/-- A text is empty or starts with a plain character, or starts with a
terminator. -/
theorem head_plain_or_terminator (s : Text) :
    (∀ c ∈ s.head?, IsPlain c) ∨ ∃ u s', s = u ++ s' ∧ IsTerminator u s' := by
  rcases s with - | ⟨c, s⟩
  · exact .inl (by simp)
  · refine (isPlain_or_terminator c s).imp_left fun hc => ?_
    simpa using hc

theorem termLenAt_plain (h : IsPlain c) : termLenAt (c :: s) = 0 := by
  obtain ⟨hr, hn⟩ := h
  unfold termLenAt
  split <;> simp_all

theorem termLenAt_terminator (h : IsTerminator t s) : termLenAt (t ++ s) = t.length := by
  rcases h with rfl | rfl | ⟨rfl, hs⟩
  · rfl
  · rfl
  · rcases s with - | ⟨d, s⟩
    · rfl
    · have hd : d ≠ '\n' := by simpa using hs
      simp only [List.cons_append, List.nil_append, List.length_singleton]
      unfold termLenAt
      split <;> simp_all

/-! ## Normalizing, case by case -/

theorem normalizeLineEndings_eq (s : Text) :
    normalizeLineEndings s = replaceChar '\r' ['\n'] (replaceStr ['\r', '\n'] ['\n'] s) := by
  rw [normalizeLineEndings]
  split
  · next h =>
    rw [replaceStr_of_absent fun hi => h (hi.subset (by simp)), replaceChar_of_not_mem h]
  · rfl

@[simp] theorem normalizeLineEndings_nil : normalizeLineEndings [] = [] := rfl

/-- A character that ends no line stays. -/
theorem normalizeLineEndings_plain (h : IsPlain c) :
    normalizeLineEndings (c :: s) = c :: normalizeLineEndings s := by
  have hpre : ¬ ['\r', '\n'] <+: c :: s := by
    rintro ⟨u, hu⟩
    exact h.1 (List.cons_eq_cons.1 hu).1.symm
  rw [normalizeLineEndings_eq, normalizeLineEndings_eq, replaceStr_cons hpre,
    replaceChar_cons_of_ne h.1]

/-- A terminator becomes one line feed. -/
theorem normalizeLineEndings_terminator (h : IsTerminator t s) :
    normalizeLineEndings (t ++ s) = '\n' :: normalizeLineEndings s := by
  simp only [normalizeLineEndings_eq]
  rcases h with rfl | rfl | ⟨rfl, hs⟩
  · rw [replaceStr_pattern (by simp), List.singleton_append, replaceChar_cons_of_ne (by decide)]
  · have hpre : ¬ ['\r', '\n'] <+: '\n' :: s := by
      rintro ⟨u, hu⟩
      exact absurd (List.cons_eq_cons.1 hu).1 (by decide)
    rw [List.singleton_append, replaceStr_cons hpre, replaceChar_cons_of_ne (by decide)]
  · have hpre : ¬ ['\r', '\n'] <+: '\r' :: s := by
      rintro ⟨u, hu⟩
      exact hs (by rw [← (List.cons_eq_cons.1 hu).2]; rfl)
    rw [List.singleton_append, replaceStr_cons hpre, replaceChar_cons_self, List.singleton_append]

/-- So does a line feed. -/
theorem normalizeLineEndings_newline :
    normalizeLineEndings ('\n' :: s) = '\n' :: normalizeLineEndings s :=
  normalizeLineEndings_terminator (t := ['\n']) (.inr (.inl rfl))

theorem normalizeLineEndings_ne_nil (h : s ≠ []) : normalizeLineEndings s ≠ [] := by
  obtain ⟨c, s, rfl⟩ := List.exists_cons_of_ne_nil h
  rcases isPlain_or_terminator c s with hc | ⟨t, u, hu, ht⟩
  · rw [normalizeLineEndings_plain hc]
    exact List.cons_ne_nil _ _
  · rw [hu, normalizeLineEndings_terminator ht]
    exact List.cons_ne_nil _ _

/-- A text without carriage returns is left alone. -/
theorem normalizeLineEndings_of_not_mem (h : '\r' ∉ s) : normalizeLineEndings s = s := if_pos h

/-- **Induction over the lines of a text**: character by character,
terminator by terminator, and past a terminator from any shorter text. -/
theorem lineInduction {P : Text → Prop} (nil : P [])
    (plain : ∀ c s, IsPlain c → P s → P (c :: s))
    (terminator : ∀ t s, IsTerminator t s → (∀ u, u.length ≤ s.length → P u) → P (t ++ s)) :
    ∀ s, P s := by
  intro s
  induction hn : s.length using Nat.strong_induction_on generalizing s with
  | _ n ih =>
    rcases s with - | ⟨c, s⟩
    · exact nil
    rcases isPlain_or_terminator c s with hc | ⟨t, s', heq, ht⟩
    · exact plain c s hc (ih s.length (by simp [← hn]) s rfl)
    · rw [heq] at hn ⊢
      have hpos : 0 < t.length := List.length_pos_of_ne_nil ht.ne_nil
      rw [List.length_append] at hn
      exact terminator t s' ht fun u hu => ih u.length (by omega) u rfl

/-- No carriage return is left. -/
theorem not_mem_normalizeLineEndings (s : Text) : '\r' ∉ normalizeLineEndings s := by
  induction s using lineInduction with
  | nil => simp
  | plain c s hc ih =>
    rw [normalizeLineEndings_plain hc]
    simp [ih, hc.1.symm]
  | terminator t s ht ih =>
    rw [normalizeLineEndings_terminator ht]
    simp [ih s le_rfl]

theorem prefix_of_prefix_normalizeLineEndings {l s : Text} (hl : '\n' ∉ l) :
    l <+: normalizeLineEndings s → l <+: s := by
  induction s using lineInduction generalizing l with
  | nil => exact id
  | plain c s hc ih =>
    rw [normalizeLineEndings_plain hc]
    intro h
    rcases List.prefix_cons_iff.1 h with rfl | ⟨u, rfl, hu⟩
    · exact List.nil_prefix
    · exact (List.prefix_cons_inj c).2 (ih (fun hn => hl (List.mem_cons_of_mem c hn)) hu)
  | terminator t s ht ih =>
    rw [normalizeLineEndings_terminator ht]
    intro h
    rcases List.prefix_cons_iff.1 h with rfl | ⟨l, rfl, -⟩
    · exact List.nil_prefix
    · exact absurd List.mem_cons_self hl

/-- What is found inside a line of the normalized text is in the text. -/
theorem infix_of_infix_normalizeLineEndings {l s : Text} (hl : '\n' ∉ l) :
    l <:+: normalizeLineEndings s → l <:+: s := by
  induction s using lineInduction with
  | nil => exact id
  | plain c s hc ih =>
    intro h
    have hstart := prefix_of_prefix_normalizeLineEndings (s := c :: s) hl
    rw [normalizeLineEndings_plain hc] at h hstart
    rcases List.infix_cons_iff.1 h with h | h
    · exact (hstart h).isInfix
    · exact (ih h).trans (List.suffix_cons c s).isInfix
  | terminator t s ht ih =>
    intro h
    rw [normalizeLineEndings_terminator ht] at h
    rcases List.infix_cons_iff.1 h with h | h
    · rcases List.prefix_cons_iff.1 h with rfl | ⟨l, rfl, -⟩
      · exact List.nil_infix
      · exact absurd List.mem_cons_self hl
    · exact (ih s le_rfl h).trans (List.suffix_append t s).isInfix

/-- Normalizing does not lengthen a text. -/
theorem byteLen_normalizeLineEndings_le (s : Text) :
    byteLen (normalizeLineEndings s) ≤ byteLen s := by
  induction s using lineInduction with
  | nil => simp
  | plain c s hc ih =>
    rw [normalizeLineEndings_plain hc]
    simpa using ih
  | terminator t s ht ih =>
    have hlen : 1 ≤ byteLen t := by
      rcases ht with rfl | rfl | ⟨rfl, -⟩ <;> decide
    have hlf : Char.utf8Size '\n' = 1 := rfl
    have := ih s le_rfl
    rw [normalizeLineEndings_terminator ht, byteLen_cons, byteLen_append, hlf]
    omega

theorem normalizeLineEndings_plain_append : ∀ {a : Text}, (∀ c ∈ a, IsPlain c) →
    normalizeLineEndings (a ++ s) = a ++ normalizeLineEndings s
  | [], _ => rfl
  | c :: a, h => by
    simp only [List.mem_cons, forall_eq_or_imp] at h
    rw [List.cons_append, normalizeLineEndings_plain h.1, normalizeLineEndings_plain_append h.2,
      List.cons_append]

/-! ## Normalizing and trimming -/

theorem IsTerminator.isWhitespace (h : IsTerminator t s) : ∀ c ∈ t, isWhitespace c = true := by
  rcases h with rfl | rfl | ⟨rfl, -⟩ <;> decide

/-- White space is dropped before or after normalizing. -/
theorem trimStart_normalizeLineEndings (s : Text) :
    trimStart (normalizeLineEndings s) = normalizeLineEndings (trimStart s) := by
  induction s using lineInduction with
  | nil => rfl
  | plain c s hc ih =>
    rw [normalizeLineEndings_plain hc]
    by_cases hws : isWhitespace c = true
    · rw [trimStart, List.dropWhile_cons_of_pos hws, trimStart, List.dropWhile_cons_of_pos hws]
      exact ih
    · rw [trimStart, List.dropWhile_cons_of_neg hws, trimStart, List.dropWhile_cons_of_neg hws,
        normalizeLineEndings_plain hc]
  | terminator t s ht ih =>
    rw [normalizeLineEndings_terminator ht, trimStart, List.dropWhile_cons_of_pos (by decide),
      trimStart, List.dropWhile_append_of_pos ht.isWhitespace]
    exact ih s le_rfl

/-- A word starts the trimmed text whether or not it is normalized. -/
theorem prefix_trim_normalizeLineEndings {l : Text} (hl : ∀ c ∈ l, isWhitespace c = false) :
    l <+: trim (normalizeLineEndings s) ↔ l <+: trim s := by
  have hplain : ∀ c ∈ l, IsPlain c := by
    intro c hc
    have hws := hl c hc
    constructor <;> rintro rfl <;> exact absurd hws (by decide)
  rw [trim, prefix_trimEnd_iff hl, trimStart_normalizeLineEndings, trim, prefix_trimEnd_iff hl]
  constructor
  · exact prefix_of_prefix_normalizeLineEndings fun hn => (hplain _ hn).2 rfl
  · rintro ⟨u, hu⟩
    rw [← hu, normalizeLineEndings_plain_append hplain]
    exact List.prefix_append _ _

theorem trim_normalizeLineEndings_eq_nil_iff :
    trim (normalizeLineEndings s) = [] ↔ trim s = [] := by
  have hnil : ∀ u : Text, trim u = [] ↔ trimStart u = [] := fun u => by
    rw [trim_eq_nil_iff, trimStart, List.dropWhile_eq_nil_iff]
  rw [hnil, hnil, trimStart_normalizeLineEndings]
  refine ⟨fun h => ?_, fun h => by rw [h]; rfl⟩
  by_contra hne
  exact normalizeLineEndings_ne_nil hne h

/-! ## Raw blocks, case by case -/

theorem rawBlocksFrom_nil : ∀ d k : ℕ, rawBlocksFrom d k [] = [[]]
  | 0, 0 => rfl
  | 0, _ + 1 => rfl
  | _ + 1, _ => rfl

theorem rawBlocksFrom_skip (d k : ℕ) : rawBlocksFrom (d + 1) k (c :: s) = rawBlocksFrom d k s := rfl

theorem rawBlocksFrom_stay (k : ℕ) :
    rawBlocksFrom 0 (k + 1) (c :: s) = (rawBlocksFrom 0 k s).modifyHead (c :: ·) := rfl

/-- Where nothing is skipped and nothing kept the terminators decide. -/
theorem rawBlocksFrom_cons : rawBlocksFrom 0 0 (c :: s) =
    if termLenAt (c :: s) = 0 then (rawBlocksFrom 0 0 s).modifyHead (c :: ·)
    else if termLenAt ((c :: s).drop (termLenAt (c :: s))) > 0 then
      [] :: rawBlocksFrom
        (termLenAt (c :: s) + termLenAt ((c :: s).drop (termLenAt (c :: s))) - 1) 0 s
    else (rawBlocksFrom 0 (termLenAt (c :: s) - 1) s).modifyHead (c :: ·) := rfl

theorem rawBlocksFrom_ne_nil : ∀ (d k : ℕ) (s : Text), rawBlocksFrom d k s ≠ []
  | d, k, [] => by simp [rawBlocksFrom_nil]
  | d + 1, k, _ :: s => by rw [rawBlocksFrom_skip]; exact rawBlocksFrom_ne_nil d k s
  | 0, k + 1, c :: s => by simp [rawBlocksFrom_stay, rawBlocksFrom_ne_nil 0 k s]
  | 0, 0, c :: s => by
    rw [rawBlocksFrom_cons]
    split
    · simp [rawBlocksFrom_ne_nil 0 0 s]
    · split
      · simp
      · simp [rawBlocksFrom_ne_nil 0 _ s]

theorem rawBlocks_ne_nil : rawBlocks s ≠ [] := rawBlocksFrom_ne_nil 0 0 s

theorem rawBlocksFrom_drop : ∀ (d : ℕ) (s : Text), rawBlocksFrom d 0 s = rawBlocks (s.drop d)
  | 0, s => by rw [List.drop_zero, rawBlocks]
  | d + 1, [] => by simp [rawBlocksFrom_nil, rawBlocks]
  | d + 1, _ :: s => by rw [rawBlocksFrom_skip, rawBlocksFrom_drop d s, List.drop_succ_cons]

theorem rawBlocksFrom_keep : ∀ (t s : Text),
    rawBlocksFrom 0 t.length (t ++ s) = (rawBlocks s).modifyHead (t ++ ·)
  | [], s => by
    obtain ⟨b, bs, hb⟩ := List.exists_cons_of_ne_nil (rawBlocks_ne_nil (s := s))
    rw [List.length_nil, List.nil_append, ← rawBlocks, hb]
    rfl
  | c :: t, s => by
    obtain ⟨b, bs, hb⟩ := List.exists_cons_of_ne_nil (rawBlocks_ne_nil (s := s))
    rw [List.length_cons, List.cons_append, rawBlocksFrom_stay, rawBlocksFrom_keep t s, hb]
    rfl

theorem rawBlocks_plain (h : IsPlain c) :
    rawBlocks (c :: s) = (rawBlocks s).modifyHead (c :: ·) := by
  rw [rawBlocks, rawBlocksFrom_cons]
  simp only [termLenAt_plain h, if_true]
  rfl

/-- Two terminators separate blocks. -/
theorem rawBlocks_terminator_terminator (ht : IsTerminator t (u ++ s)) (hu : IsTerminator u s) :
    rawBlocks (t ++ (u ++ s)) = [] :: rawBlocks s := by
  have hfirst := termLenAt_terminator ht
  have hsecond := termLenAt_terminator hu
  obtain ⟨c, t, rfl⟩ := List.exists_cons_of_ne_nil ht.ne_nil
  have hpos : 0 < u.length := List.length_pos_of_ne_nil hu.ne_nil
  rw [List.cons_append] at hfirst ⊢
  rw [rawBlocks, rawBlocksFrom_cons]
  simp only [hfirst]
  rw [← List.cons_append, List.drop_left, hsecond, if_neg (by simp), if_pos hpos,
    rawBlocksFrom_drop]
  congr 2
  rw [List.length_cons, show t.length + 1 + u.length - 1 = t.length + u.length by omega,
    ← List.drop_drop, List.drop_left, List.drop_left]

/-- A terminator before anything else belongs to its block. -/
theorem rawBlocks_terminator (ht : IsTerminator t s) (hs : ∀ c ∈ s.head?, IsPlain c) :
    rawBlocks (t ++ s) = (rawBlocks s).modifyHead (t ++ ·) := by
  have hfirst := termLenAt_terminator ht
  have hsecond : termLenAt s = 0 := by
    rcases s with - | ⟨c, s⟩
    · rfl
    · exact termLenAt_plain (hs c rfl)
  obtain ⟨c, t, rfl⟩ := List.exists_cons_of_ne_nil ht.ne_nil
  obtain ⟨b, bs, hb⟩ := List.exists_cons_of_ne_nil (rawBlocks_ne_nil (s := s))
  rw [List.cons_append] at hfirst ⊢
  rw [rawBlocks, rawBlocksFrom_cons]
  simp only [hfirst]
  rw [← List.cons_append, List.drop_left, hsecond, if_neg (by simp), if_neg (by simp),
    List.length_cons, Nat.add_sub_cancel, rawBlocksFrom_keep, hb]
  rfl

/-- The first block starts as the text does, unless the text starts with a
terminator. -/
theorem head?_head_rawBlocks (hs : ∀ c ∈ s.head?, IsPlain c) {b : Text} {bs : List Text}
    (hb : rawBlocks s = b :: bs) : b.head? = s.head? := by
  rcases s with - | ⟨c, s⟩
  · obtain ⟨rfl, -⟩ := List.cons_eq_cons.1 (show [[]] = b :: bs from hb)
    rfl
  · rw [rawBlocks_plain (hs c rfl)] at hb
    obtain ⟨b', bs', hb'⟩ := List.exists_cons_of_ne_nil (rawBlocks_ne_nil (s := s))
    rw [hb', List.modifyHead_cons] at hb
    rw [← (List.cons_eq_cons.1 hb).1]
    rfl

/-! ## The two cut alike -/

/-- Normalizing does not bring up a line feed at the start. -/
theorem head?_normalizeLineEndings (hs : ∀ c ∈ s.head?, IsPlain c) :
    (normalizeLineEndings s).head? = s.head? := by
  rcases s with - | ⟨c, s⟩
  · rfl
  · rw [normalizeLineEndings_plain (hs c rfl)]
    rfl

theorem splitStr_blank_cons (h : c ≠ '\n') :
    splitStr ['\n', '\n'] (c :: s) = (splitStr ['\n', '\n'] s).modifyHead (c :: ·) :=
  splitStr_cons fun ⟨_, hu⟩ => h (List.cons_eq_cons.1 hu).1.symm

theorem splitStr_blank_newline (h : s.head? ≠ some '\n') :
    splitStr ['\n', '\n'] ('\n' :: s) = (splitStr ['\n', '\n'] s).modifyHead ('\n' :: ·) :=
  splitStr_cons fun ⟨_, hu⟩ => h (by rw [← (List.cons_eq_cons.1 hu).2]; rfl)

theorem splitStr_blank_blank :
    splitStr ['\n', '\n'] ('\n' :: '\n' :: s) = [] :: splitStr ['\n', '\n'] s :=
  splitStr_sep (by simp) s

/-- No line feed follows another. -/
def NoBlankLine (t : Text) : Prop := t.IsChain fun a b => a = '\n' → b ≠ '\n'

instance (t : Text) : Decidable (NoBlankLine t) :=
  inferInstanceAs (Decidable (t.IsChain fun a b => a = '\n' → b ≠ '\n'))

/-- **A text is cut at the first blank line after it.** -/
theorem splitStr_blank_append : ∀ {a : Text}, NoBlankLine a → a.getLast? ≠ some '\n' →
    splitStr ['\n', '\n'] (a ++ (['\n', '\n'] ++ s)) = a :: splitStr ['\n', '\n'] s
  | [], _, _ => splitStr_blank_blank
  | c :: a, hb, hl => by
    obtain ⟨hhead, hb⟩ := List.isChain_cons.1 hb
    by_cases ha : a = []
    · subst ha
      have hc : c ≠ '\n' := fun heq => hl (by simp [heq])
      rw [List.singleton_append, splitStr_blank_cons hc, splitStr_sep (by simp),
        List.modifyHead_cons]
    obtain ⟨d, a, rfl⟩ := List.exists_cons_of_ne_nil ha
    have ih := splitStr_blank_append hb (by rwa [List.getLast?_cons_cons] at hl)
    by_cases hc : c = '\n'
    · subst hc
      have hd : d ≠ '\n' := hhead d rfl rfl
      rw [List.cons_append, splitStr_blank_newline (by simpa using hd), ih, List.modifyHead_cons]
    · rw [List.cons_append, splitStr_blank_cons hc, ih, List.modifyHead_cons]

/-- **The raw blocks are the blocks.** Normalized one by one they are the
blocks of the normalized text: the two cut at the same blank lines, since
a pair of terminators becomes a pair of line feeds and nothing else does. -/
theorem map_normalizeLineEndings_rawBlocks (content : Text) :
    (rawBlocks content).map normalizeLineEndings =
      splitStr ['\n', '\n'] (normalizeLineEndings content) := by
  induction content using lineInduction with
  | nil => rfl
  | plain c s hc ih =>
    obtain ⟨b, bs, hb⟩ := List.exists_cons_of_ne_nil (rawBlocks_ne_nil (s := s))
    rw [rawBlocks_plain hc, normalizeLineEndings_plain hc, splitStr_blank_cons hc.2, ← ih, hb]
    simp [normalizeLineEndings_plain hc]
  | terminator t s ht ih =>
    by_cases hs : ∀ c ∈ s.head?, IsPlain c
    · -- a lone terminator stays in its block, which does not start with a line feed
      obtain ⟨b, bs, hb⟩ := List.exists_cons_of_ne_nil (rawBlocks_ne_nil (s := s))
      have hhead := head?_head_rawBlocks hs hb
      have htb : IsTerminator t b := by
        rcases ht with h | h | ⟨h, hn⟩
        · exact .inl h
        · exact .inr (.inl h)
        · exact .inr (.inr ⟨h, by rwa [hhead]⟩)
      have hnorm : (normalizeLineEndings s).head? ≠ some '\n' := by
        rw [head?_normalizeLineEndings hs]
        exact fun h => (hs _ h).2 rfl
      rw [rawBlocks_terminator ht hs, normalizeLineEndings_terminator ht,
        splitStr_blank_newline hnorm, ← ih s le_rfl, hb]
      simp [normalizeLineEndings_terminator htb]
    · -- a second one makes a blank line
      obtain ⟨u, s', rfl, hu⟩ := (head_plain_or_terminator s).resolve_left hs
      rw [rawBlocks_terminator_terminator ht hu, normalizeLineEndings_terminator ht,
        normalizeLineEndings_terminator hu, splitStr_blank_blank,
        ← ih s' (by rw [List.length_append]; omega)]
      rfl

/-- The blocks are made of the text. -/
theorem subset_of_mem_rawBlocksFrom : ∀ (d k : ℕ) (s : Text), ∀ b ∈ rawBlocksFrom d k s, b ⊆ s
  | _, _, [], b, hb => by
    rw [rawBlocksFrom_nil, List.mem_singleton] at hb
    rw [hb]
    exact List.Subset.refl _
  | d + 1, k, c :: s, b, hb => by
    rw [rawBlocksFrom_skip] at hb
    exact List.subset_cons_of_subset _ (subset_of_mem_rawBlocksFrom d k s b hb)
  | 0, k, c :: s, b, hb => by
    -- the first block is the character and the first block of the rest
    have hhead : ∀ m, b ∈ (rawBlocksFrom 0 m s).modifyHead (c :: ·) → b ⊆ c :: s := by
      intro m hb
      obtain ⟨p, ps, hp⟩ := List.exists_cons_of_ne_nil (rawBlocksFrom_ne_nil 0 m s)
      have ih := subset_of_mem_rawBlocksFrom 0 m s
      rw [hp] at hb ih
      rcases List.mem_cons.1 hb with rfl | hb
      · exact List.cons_subset_cons c (ih p (List.mem_cons_self ..))
      · exact List.subset_cons_of_subset _ (ih b (List.mem_cons_of_mem _ hb))
    cases k with
    | succ k => exact hhead k hb
    | zero =>
      rw [rawBlocksFrom_cons] at hb
      split at hb
      · exact hhead 0 hb
      · split at hb
        · rcases List.mem_cons.1 hb with rfl | hb
          · exact List.nil_subset _
          · exact List.subset_cons_of_subset _ (subset_of_mem_rawBlocksFrom _ 0 s b hb)
        · exact hhead _ hb

/-- Without carriage returns the raw blocks are the blocks as they stand. -/
theorem rawBlocks_of_not_mem (h : '\r' ∉ s) : rawBlocks s = splitStr ['\n', '\n'] s := by
  have hmap := map_normalizeLineEndings_rawBlocks s
  rw [normalizeLineEndings_of_not_mem h] at hmap
  calc rawBlocks s = (rawBlocks s).map id := (List.map_id _).symm
    _ = (rawBlocks s).map normalizeLineEndings := List.map_congr_left fun b hb =>
        (normalizeLineEndings_of_not_mem fun hr =>
          h (subset_of_mem_rawBlocksFrom 0 0 s b hb hr)).symm
    _ = splitStr ['\n', '\n'] s := hmap

theorem noBlankLine_of_not_mem (h : '\n' ∉ t) : NoBlankLine t := by
  refine List.Pairwise.isChain (List.pairwise_of_forall_mem_list fun a ha b _ heq => ?_)
  subst heq
  exact absurd ha h

/-- Lines joined by a line feed have no blank line between them. -/
theorem NoBlankLine.append_newline (hs : '\n' ∉ s) (ht : NoBlankLine t)
    (hhead : t.head? ≠ some '\n') : NoBlankLine (s ++ '\n' :: t) := by
  refine (noBlankLine_of_not_mem hs).append (ht.cons fun b hb _ heq => ?_) fun a ha b _ heq => ?_
  · subst heq
    exact hhead hb
  · subst heq
    exact absurd (List.mem_of_getLast? ha) hs

/-- A text without a blank line is one block. -/
theorem NoBlankLine.splitStr_eq (h : NoBlankLine t) : splitStr ['\n', '\n'] t = [t] := by
  refine splitStr_of_absent fun hinfix => ?_
  have hpair : NoBlankLine ['\n', '\n'] := List.IsChain.infix h hinfix
  exact absurd hpair (by decide)

/-! ## Blocks of a concatenation -/

/-- Two lists of blocks with the last of the one and the first of the other
made one. -/
def glue : List Text → List Text → List Text
  | [], qs => qs
  | [p], qs => qs.modifyHead (p ++ ·)
  | p :: ps, qs => p :: glue ps qs

theorem glue_cons_of_ne_nil {p : Text} {ps qs : List Text} (h : ps ≠ []) :
    glue (p :: ps) qs = p :: glue ps qs := by
  obtain ⟨q, ps, rfl⟩ := List.exists_cons_of_ne_nil h
  rfl

theorem glue_concat {p : Text} {qs : List Text} : ∀ ps : List Text,
    glue (ps ++ [p]) qs = ps ++ qs.modifyHead (p ++ ·)
  | [] => rfl
  | q :: ps => by rw [List.cons_append, glue_cons_of_ne_nil (by simp), glue_concat ps,
      List.cons_append]

theorem glue_modifyHead {p : Text} {ps qs : List Text} (hp : ps ≠ []) :
    glue (ps.modifyHead (p ++ ·)) qs = (glue ps qs).modifyHead (p ++ ·) := by
  obtain ⟨q, ps, rfl⟩ := List.exists_cons_of_ne_nil hp
  rcases ps with - | ⟨r, ps⟩
  · cases qs <;> simp [glue]
  · rfl

/-- Characters that end no line go to the first block. -/
theorem rawBlocks_plain_append : ∀ {a : Text}, (∀ c ∈ a, IsPlain c) →
    rawBlocks (a ++ s) = (rawBlocks s).modifyHead (a ++ ·)
  | [], _ => by
    obtain ⟨b, bs, hb⟩ := List.exists_cons_of_ne_nil (rawBlocks_ne_nil (s := s))
    rw [List.nil_append, hb]
    rfl
  | c :: a, h => by
    simp only [List.mem_cons, forall_eq_or_imp] at h
    obtain ⟨b, bs, hb⟩ := List.exists_cons_of_ne_nil (rawBlocks_ne_nil (s := s))
    rw [List.cons_append, rawBlocks_plain h.1, rawBlocks_plain_append h.2, hb]
    rfl

/-- A terminator stays one whatever follows the text after it, unless a line
feed comes up behind it. -/
theorem IsTerminator.append (h : IsTerminator t s) (hu : s = [] → u.head? ≠ some '\n') :
    IsTerminator t (s ++ u) := by
  rcases h with h | h | ⟨h, hs⟩
  · exact .inl h
  · exact .inr (.inl h)
  · refine .inr (.inr ⟨h, fun hn => ?_⟩)
    rcases s with - | ⟨c, s⟩
    · exact hu rfl hn
    · exact hs hn

/-- **The blocks of a concatenation** whose second part starts with a plain
character: the last block of the first part goes on in the second. -/
theorem rawBlocks_append (hu : ∀ c ∈ u.head?, IsPlain c) (s : Text) :
    rawBlocks (s ++ u) = glue (rawBlocks s) (rawBlocks u) := by
  induction s using lineInduction with
  | nil =>
    obtain ⟨b, bs, hb⟩ := List.exists_cons_of_ne_nil (rawBlocks_ne_nil (s := u))
    rw [List.nil_append, hb]
    rfl
  | plain c s hc ih =>
    have hhead : ∀ v : Text, rawBlocks (c :: v) = (rawBlocks v).modifyHead ([c] ++ ·) :=
      fun v => rawBlocks_plain hc
    rw [List.cons_append, hhead, hhead, ih, glue_modifyHead rawBlocks_ne_nil]
  | terminator t s ht ih =>
    rw [List.append_assoc]
    rcases head_plain_or_terminator s with hs | ⟨v, s, rfl, hv⟩
    · have hsu : ∀ c ∈ (s ++ u).head?, IsPlain c := by
        rcases s with - | ⟨d, s⟩
        · exact hu
        · exact hs
      rw [rawBlocks_terminator (ht.append fun _ hn => (hu _ hn).2 rfl) hsu,
        rawBlocks_terminator ht hs, ih s le_rfl,
        glue_modifyHead rawBlocks_ne_nil]
    · have ht' := ht.append (u := u) fun _ hn => (hu _ hn).2 rfl
      have hv' := hv.append (u := u) fun _ hn => (hu _ hn).2 rfl
      rw [List.append_assoc] at ht' ⊢
      rw [rawBlocks_terminator_terminator ht' hv', rawBlocks_terminator_terminator ht hv,
        ih s (by rw [List.length_append]; omega), glue_cons_of_ne_nil rawBlocks_ne_nil]

/-- **What a blank line leaves.** A text that ends in two line feeds has at
least two blocks, and the last of them is empty or one line feed. -/
theorem rawBlocks_of_blank_end (s : Text) :
    ∃ b bs r, rawBlocks (s ++ ['\n', '\n']) = b :: (bs ++ [r]) ∧ (r = [] ∨ r = ['\n']) := by
  induction s using lineInduction with
  | nil => exact ⟨[], [], [], rfl, .inl rfl⟩
  | plain c s hc ih =>
    obtain ⟨b, bs, r, hb, hr⟩ := ih
    exact ⟨c :: b, bs, r, by rw [List.cons_append, rawBlocks_plain hc, hb]; rfl, hr⟩
  | terminator t s ht ih =>
    by_cases hne : s = []
    · -- the terminator and the two line feeds are all there is
      subst hne
      rcases ht with rfl | rfl | ⟨rfl, -⟩
      · exact ⟨[], [], ['\n'], rfl, .inr rfl⟩
      · exact ⟨[], [], ['\n'], rfl, .inr rfl⟩
      · exact ⟨[], [], [], rfl, .inl rfl⟩
    have ht' := ht.append (u := ['\n', '\n']) fun h => absurd h hne
    rw [List.append_assoc]
    rcases head_plain_or_terminator s with hs | ⟨v, s, rfl, hv⟩
    · obtain ⟨b, bs, r, hb, hr⟩ := ih s le_rfl
      have hsu : ∀ c ∈ (s ++ ['\n', '\n']).head?, IsPlain c := by
        obtain ⟨d, s, rfl⟩ := List.exists_cons_of_ne_nil hne
        exact hs
      exact ⟨t ++ b, bs, r, by rw [rawBlocks_terminator ht' hsu, hb]; rfl, hr⟩
    · by_cases hend : s = []
      · -- two terminators and the two line feeds
        subst hend
        rcases hv with rfl | rfl | ⟨rfl, -⟩
        · rcases ht with rfl | rfl | ⟨rfl, -⟩ <;> exact ⟨[], [[]], [], rfl, .inl rfl⟩
        · rcases ht with rfl | rfl | ⟨rfl, hh⟩
          · exact ⟨[], [[]], [], rfl, .inl rfl⟩
          · exact ⟨[], [[]], [], rfl, .inl rfl⟩
          · exact absurd rfl hh
        · rcases ht with rfl | rfl | ⟨rfl, -⟩ <;> exact ⟨[], [], ['\n'], rfl, .inr rfl⟩
      have hv' := hv.append (u := ['\n', '\n']) fun h => absurd h hend
      obtain ⟨b, bs, r, hb, hr⟩ := ih s (by rw [List.length_append]; omega)
      rw [List.append_assoc] at ht' ⊢
      exact ⟨[], b :: bs, r, by rw [rawBlocks_terminator_terminator ht' hv', hb]; rfl, hr⟩

end SubxCore
