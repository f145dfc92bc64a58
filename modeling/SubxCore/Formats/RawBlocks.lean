import SubxCore.Common.Utf8
import SubxCore.Formats.LineEndings
import SubxCore.Formats.Types
/-!
# The iterator of raw blocks

`RawBlocks` as it walks the bytes of a text, by position: it looks for two
line terminators in a row and yields what is before them. What it yields
are the bytes of the raw blocks (`collect_ofText`), since no byte of any
other character is taken for a terminator. So the blocks whose size the
parsers check first are those they read afterwards, and none is longer
then.
-/

namespace SubxCore

open Text

/-! ## The iterator -/

/-- `term_len_at`. -/
def termLenAtByte (bytes : List UInt8) (i : ℕ) : ℕ :=
  match bytes[i]? with
  | some 13 => if bytes[i + 1]? = some 10 then 2 else 1
  | some 10 => 1
  | _ => 0

/-- The loop of `RawBlocks::next`: where the next blank line starts and where
it ends. -/
def findBlank (bytes : List UInt8) (i : ℕ) : Option (ℕ × ℕ) :=
  if i < bytes.length then
    let firstTerm := termLenAtByte bytes i
    if firstTerm = 0 then findBlank bytes (i + 1)
    else
      let afterFirst := i + firstTerm
      let secondTerm := if afterFirst < bytes.length then termLenAtByte bytes afterFirst else 0
      if secondTerm > 0 then some (i, afterFirst + secondTerm)
      else findBlank bytes afterFirst
  else none
termination_by bytes.length - i

/-- `RawBlocks`, with the bytes of its source. -/
structure RawBlocks where
  src : List UInt8
  pos : ℕ
  done : Bool
  deriving DecidableEq, Repr

namespace RawBlocks

/-- `raw_blocks`. -/
def ofText (content : Text) : RawBlocks := ⟨utf8 content, 0, false⟩

/-- `RawBlocks::next`: the bytes of a block, and the iterator after it. -/
def next (r : RawBlocks) : Option (List UInt8 × RawBlocks) :=
  if r.done then none
  else
    match findBlank r.src r.pos with
    | some (i, pos) => some ((r.src.drop r.pos).take (i - r.pos), { r with pos := pos })
    | none => some (r.src.drop r.pos, { r with done := true })

end RawBlocks

variable {bytes : List UInt8} {i j pos : ℕ} {b : UInt8} {c : Char}
variable {s t : Text}

/-- A blank line that is found lies ahead. -/
theorem findBlank_eq_some (h : findBlank bytes i = some (j, pos)) : i < bytes.length ∧ i < pos := by
  fun_induction findBlank bytes i with
  | case1 i hi firstTerm hfirst ih => exact ⟨hi, Nat.lt_of_succ_lt (ih h).2⟩
  | case2 i hi firstTerm hfirst afterFirst secondTerm hsecond =>
    cases h
    exact ⟨hi, by omega⟩
  | case3 i hi firstTerm hfirst afterFirst secondTerm hsecond ih =>
    exact ⟨hi, lt_of_le_of_lt (Nat.le_add_right i firstTerm) (ih h).2⟩
  | case4 i hi => cases h

namespace RawBlocks

/-- How many blocks there can still be. -/
def left (r : RawBlocks) : ℕ := if r.done then 0 else r.src.length - r.pos + 1

theorem left_lt {r r' : RawBlocks} {block : List UInt8} (h : r.next = some (block, r')) :
    r'.left < r.left := by
  unfold next at h
  split at h
  · cases h
  · next hdone =>
    split at h
    · next hblank =>
      cases h
      obtain ⟨hlt, hpos⟩ := findBlank_eq_some hblank
      simp only [left, if_neg hdone]
      omega
    · cases h
      simp [left, hdone]

/-- The blocks that are yielded. -/
def collect (r : RawBlocks) : List (List UInt8) :=
  match _ : r.next with
  | some (block, r') => block :: r'.collect
  | none => []
termination_by r.left
decreasing_by exact left_lt ‹_›

/-- The blocks from a position on, the first of which starts before it. -/
def blocksFrom (src : List UInt8) (start i : ℕ) : List (List UInt8) :=
  match findBlank src i with
  | some (i, pos) => (src.drop start).take (i - start) :: (RawBlocks.mk src pos false).collect
  | none => [src.drop start]

theorem collect_eq (src : List UInt8) (pos : ℕ) :
    (RawBlocks.mk src pos false).collect = blocksFrom src pos pos := by
  have hdone : (RawBlocks.mk src pos true).collect = [] := by
    rw [collect]
    rfl
  rw [collect, blocksFrom]
  rcases hblank : findBlank src pos with - | ⟨i, pos'⟩
  · have hnext : (RawBlocks.mk src pos false).next =
        some (src.drop pos, RawBlocks.mk src pos true) := by simp [next, hblank]
    split
    · next hsome =>
      cases hnext.symm.trans hsome
      rw [hdone]
    · next hnone => cases hnext.symm.trans hnone
  · have hnext : (RawBlocks.mk src pos false).next =
        some ((src.drop pos).take (i - pos), RawBlocks.mk src pos' false) := by
      simp [next, hblank]
    split
    · next hsome => cases hnext.symm.trans hsome; rfl
    · next hnone => cases hnext.symm.trans hnone

end RawBlocks

/-! ## Bytes of terminators -/

/-- No byte of a character that ends no line is that of a terminator. -/
theorem plain_of_mem_utf8EncodeChar (hc : IsPlain c) (hb : b ∈ String.utf8EncodeChar c) :
    b ≠ 13 ∧ b ≠ 10 := by
  constructor
  · rintro rfl
    exact hc.1 (eq_of_mem_utf8EncodeChar rfl (by decide) hb)
  · rintro rfl
    exact hc.2 (eq_of_mem_utf8EncodeChar rfl (by decide) hb)

/-- The first byte tells a line feed. -/
theorem head?_utf8_eq_newline : (utf8 s)[0]? = some 10 ↔ s.head? = some '\n' := by
  rcases s with - | ⟨c, s⟩
  · simp
  obtain ⟨b, bs, hbytes⟩ := List.exists_cons_of_ne_nil (utf8EncodeChar_ne_nil c)
  rw [utf8_cons, hbytes, List.cons_append, List.getElem?_cons_zero, List.head?_cons,
    Option.some_inj, Option.some_inj]
  constructor
  · rintro rfl
    exact eq_of_mem_utf8EncodeChar rfl (by decide) (hbytes ▸ List.mem_cons_self)
  · rintro rfl
    exact (List.cons.inj hbytes).1.symm

/-- **A terminator in bytes is one in characters**, and as long. -/
theorem termLenAtByte_utf8 (pre : List UInt8) (s : Text) :
    termLenAtByte (pre ++ utf8 s) pre.length = termLenAt s := by
  unfold termLenAtByte
  rw [List.getElem?_append_right le_rfl, List.getElem?_append_right (Nat.le_add_right _ 1),
    Nat.sub_self, Nat.add_sub_cancel_left]
  rcases s with - | ⟨c, s⟩
  · rfl
  rcases eq_or_ne c '\r' with rfl | hr
  · change (if (utf8 s)[0]? = some 10 then 2 else 1) = _
    rcases eq_or_ne s.head? (some '\n') with hs | hs
    · rw [if_pos (head?_utf8_eq_newline.2 hs)]
      obtain ⟨s', rfl⟩ := List.head?_eq_some_iff.1 hs
      rfl
    · rw [if_neg fun h => hs (head?_utf8_eq_newline.1 h)]
      exact (termLenAt_terminator (.inr (.inr ⟨rfl, hs⟩))).symm
  rcases eq_or_ne c '\n' with rfl | hn
  · rfl
  · obtain ⟨b, bs, hbytes⟩ := List.exists_cons_of_ne_nil (utf8EncodeChar_ne_nil c)
    obtain ⟨h₁₃, h₁₀⟩ := plain_of_mem_utf8EncodeChar ⟨hr, hn⟩ (hbytes ▸ List.mem_cons_self)
    rw [termLenAt_plain ⟨hr, hn⟩, utf8_cons, hbytes, List.cons_append, List.getElem?_cons_zero]
    split
    · next h => exact absurd (Option.some.inj h) h₁₃
    · next h => exact absurd (Option.some.inj h) h₁₀
    · rfl

/-! ## The loop -/

/-- Bytes of no terminator are passed over. -/
theorem findBlank_skip : ∀ {mid : List UInt8} (pre post : List UInt8),
    (∀ b ∈ mid, b ≠ 13 ∧ b ≠ 10) →
    findBlank (pre ++ (mid ++ post)) pre.length =
      findBlank (pre ++ (mid ++ post)) (pre.length + mid.length)
  | [], _, _, _ => rfl
  | b :: mid, pre, post, h => by
    obtain ⟨⟨h₁₃, h₁₀⟩, hmid⟩ := List.forall_mem_cons.1 h
    have hterm : termLenAtByte (pre ++ (b :: mid ++ post)) pre.length = 0 := by
      unfold termLenAtByte
      rw [List.getElem?_append_right le_rfl, Nat.sub_self, List.cons_append,
        List.getElem?_cons_zero]
      split
      · next h => exact absurd (Option.some.inj h) h₁₃
      · next h => exact absurd (Option.some.inj h) h₁₀
      · rfl
    have ih := findBlank_skip (pre ++ [b]) post hmid
    rw [List.length_append, List.length_singleton, List.append_assoc, List.singleton_append] at ih
    rw [findBlank, if_pos (by simp)]
    dsimp only
    rw [if_pos hterm, List.cons_append, ih, List.length_cons]
    congr 1
    omega

/-- A character that ends no line is passed over. -/
theorem findBlank_plain (hc : IsPlain c) (t s : Text) :
    findBlank (utf8 (t ++ c :: s)) (byteLen t) =
      findBlank (utf8 (t ++ c :: s)) (byteLen (t ++ [c])) := by
  have h := findBlank_skip (utf8 t) (utf8 s) fun b => plain_of_mem_utf8EncodeChar (b := b) hc
  rw [← utf8_cons, ← utf8_append, length_utf8, String.length_utf8EncodeChar] at h
  rw [h, byteLen_append, byteLen_cons, byteLen_nil, Nat.add_zero]

theorem IsTerminator.byteLen_eq (h : IsTerminator t s) : byteLen t = t.length := by
  rcases h with rfl | rfl | ⟨rfl, -⟩ <;> rfl

/-- A terminator alone is passed over, and before another one it is found. -/
theorem findBlank_terminator (ht : IsTerminator t s) (pre : Text) :
    findBlank (utf8 (pre ++ (t ++ s))) (byteLen pre) =
      if termLenAt s > 0 then some (byteLen pre, byteLen (pre ++ t) + termLenAt s)
      else findBlank (utf8 (pre ++ (t ++ s))) (byteLen (pre ++ t)) := by
  have hpos : 0 < t.length := List.length_pos_of_ne_nil ht.ne_nil
  have hafter : byteLen pre + t.length = byteLen (pre ++ t) := by
    rw [byteLen_append, ht.byteLen_eq]
  have hfirst : termLenAtByte (utf8 (pre ++ (t ++ s))) (byteLen pre) = t.length := by
    rw [utf8_append, ← length_utf8 pre, termLenAtByte_utf8, termLenAt_terminator ht]
  have hsecond : (if byteLen (pre ++ t) < (utf8 (pre ++ (t ++ s))).length then
      termLenAtByte (utf8 (pre ++ (t ++ s))) (byteLen (pre ++ t)) else 0) = termLenAt s := by
    rw [← List.append_assoc, utf8_append, ← length_utf8 (pre ++ t), termLenAtByte_utf8]
    rcases s with - | ⟨c, s⟩
    · exact ite_self _
    · rw [if_pos]
      have := c.utf8Size_pos
      rw [List.length_append, length_utf8, length_utf8, byteLen_cons]
      omega
  have hlt : byteLen pre < (utf8 (pre ++ (t ++ s))).length := by
    rw [length_utf8, byteLen_append, byteLen_append, ht.byteLen_eq]
    omega
  rw [findBlank, if_pos hlt]
  dsimp only
  rw [hfirst, if_neg hpos.ne', hafter, hsecond]

theorem modifyHead_nil_append (blocks : List Text) : blocks.modifyHead ([] ++ ·) = blocks :=
  congrFun List.modifyHead_id blocks

/-- **What the loop goes on to yield**, with some of a block behind it. -/
theorem blocksFrom_utf8 (pre t s : Text) :
    RawBlocks.blocksFrom (utf8 (pre ++ (t ++ s))) (byteLen pre) (byteLen (pre ++ t)) =
      ((rawBlocks s).modifyHead (t ++ ·)).map utf8 := by
  induction s using lineInduction generalizing pre t with
  | nil =>
    have hend : ¬ byteLen (pre ++ t) < (utf8 (pre ++ (t ++ []))).length := by
      rw [length_utf8, List.append_nil]
      exact lt_irrefl _
    rw [RawBlocks.blocksFrom, findBlank, if_neg hend]
    dsimp only
    rw [utf8_append, ← length_utf8, List.drop_left]
    rfl
  | plain c s hc ih =>
    obtain ⟨b, bs, hb⟩ := List.exists_cons_of_ne_nil (rawBlocks_ne_nil (s := s))
    have h := ih pre (t ++ [c])
    rw [RawBlocks.blocksFrom, List.append_assoc, List.singleton_append, ← List.append_assoc pre t,
      ← List.append_assoc pre t, ← findBlank_plain hc] at h
    rw [RawBlocks.blocksFrom, ← List.append_assoc, h, rawBlocks_plain hc, hb]
    simp
  | terminator u s hu ih =>
    have hfind := findBlank_terminator hu (pre ++ t)
    rw [RawBlocks.blocksFrom, ← List.append_assoc, hfind]
    by_cases hs : ∀ c ∈ s.head?, IsPlain c
    · -- a lone terminator stays in its block
      have hnone : termLenAt s = 0 := by
        rcases s with - | ⟨c, s⟩
        · rfl
        · exact termLenAt_plain (hs c rfl)
      obtain ⟨b, bs, hb⟩ := List.exists_cons_of_ne_nil (rawBlocks_ne_nil (s := s))
      have h := ih s le_rfl pre (t ++ u)
      rw [RawBlocks.blocksFrom, List.append_assoc, ← List.append_assoc pre t,
        ← List.append_assoc pre t] at h
      rw [hnone, if_neg (lt_irrefl 0), h, rawBlocks_terminator hu hs, hb]
      simp
    · -- a second one ends it
      obtain ⟨v, s', rfl, hv⟩ := (head_plain_or_terminator s).resolve_left hs
      have hpos : 0 < v.length := List.length_pos_of_ne_nil hv.ne_nil
      have h := ih s' (by rw [List.length_append]; omega) (pre ++ t ++ u ++ v) []
      have hblock : ((utf8 (pre ++ t ++ (u ++ (v ++ s')))).drop (byteLen pre)).take
          (byteLen (pre ++ t) - byteLen pre) = utf8 t := by
        rw [List.append_assoc, utf8_append, byteLen_append, Nat.add_sub_cancel_left,
          ← length_utf8 pre, List.drop_left, utf8_append, ← length_utf8 t, List.take_left]
      have hpos' : byteLen (pre ++ t ++ u) + v.length = byteLen (pre ++ t ++ u ++ v) := by
        rw [byteLen_append (s := pre ++ t ++ u), hv.byteLen_eq]
      rw [List.nil_append, List.append_nil, List.append_assoc _ v, List.append_assoc _ u] at h
      rw [termLenAt_terminator hv, if_pos hpos, rawBlocks_terminator_terminator hu hv]
      dsimp only
      rw [hblock, hpos', RawBlocks.collect_eq, h, modifyHead_nil_append, List.modifyHead_cons,
        List.append_nil, List.map_cons]

/-- **The iterator yields the raw blocks.** -/
theorem collect_ofText (content : Text) :
    (RawBlocks.ofText content).collect = (rawBlocks content).map utf8 := by
  have h := blocksFrom_utf8 [] [] content
  rw [modifyHead_nil_append] at h
  rw [RawBlocks.ofText, RawBlocks.collect_eq]
  exact h

/-- **Raw blocks and normalized text are cut alike.** What the iterator yields are
the raw blocks; normalized they are the blocks of the normalized text, in order;
and a block within the cap is within it when it is normalized. -/
theorem rawBlocks_cut_alike (content : Text) :
    (RawBlocks.ofText content).collect = (rawBlocks content).map utf8 ∧
      (rawBlocks content).map normalizeLineEndings =
        splitStr ['\n', '\n'] (normalizeLineEndings content) ∧
      ∀ block ∈ rawBlocks content, ¬ maxCueBytes < (utf8 block).length →
        ¬ maxCueBytes < byteLen (normalizeLineEndings block) := by
  refine ⟨collect_ofText content, map_normalizeLineEndings_rawBlocks content,
    fun block _ hcap => ?_⟩
  rw [length_utf8, Nat.not_lt] at hcap
  exact Nat.not_lt.2 ((byteLen_normalizeLineEndings_le block).trans hcap)

end SubxCore
