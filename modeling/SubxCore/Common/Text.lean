import Mathlib.Algebra.GroupWithZero.Nat
import Mathlib.Data.List.DropRight
import Mathlib.Data.List.Infix
import Mathlib.Data.List.Basic
/-!
# Texts as lists of characters

The string operations of the source's standard library, over
`List Char`: white space and trimming, splitting at a character and at a
string, joining, replacing and lines. Splitting at a string is the
leftmost, non-overlapping one; replacing and counting are read off it.
The rules a proof uses are the ones that cut a concatenation back at its
separator (`splitStr_append`, `lines_append_newline`, `splitN_append`).
-/

/-- A string, as the list of its characters. -/
abbrev Text := List Char

instance : LawfulBEq Text := inferInstance

namespace Text

/-- Characters with the `White_Space` property. -/
def isWhitespace (c : Char) : Bool :=
  (9 ≤ c.toNat && c.toNat ≤ 13) || c.toNat == 0x20 || c.toNat == 0x85 || c.toNat == 0xA0 ||
  c.toNat == 0x1680 || (0x2000 ≤ c.toNat && c.toNat ≤ 0x200A) || c.toNat == 0x2028 ||
  c.toNat == 0x2029 || c.toNat == 0x202F || c.toNat == 0x205F || c.toNat == 0x3000

/-- Leading white space dropped. -/
def trimStart (s : Text) : Text := s.dropWhile isWhitespace

/-- Trailing white space dropped. -/
def trimEnd (s : Text) : Text := s.rdropWhile isWhitespace

/-- White space dropped at both ends. -/
def trim (s : Text) : Text := trimEnd (trimStart s)

/-- Length in bytes of the UTF-8 encoding. -/
def byteLen (s : Text) : ℕ := (s.map Char.utf8Size).sum

/-- The text after a prefix, or the whole text. -/
def stripPrefix (p s : Text) : Text := if p.isPrefixOf s then s.drop p.length else s

/-- Equality up to the case of ASCII letters. -/
def eqIgnoreAsciiCase (s t : Text) : Bool := s.map Char.toLower == t.map Char.toLower

/-- The lowercase of a character, where ASCII is concerned: beside the ASCII
capitals only the Kelvin sign and the dotted capital I have ASCII letters
in their lowercase. -/
def lowerChar (c : Char) : Text :=
  if c = '\u212A' then ['k'] else if c = '\u0130' then ['i', '\u0307'] else [c.toLower]

/-- A text in lowercase, for comparison with ASCII. -/
def toLowercase (s : Text) : Text := s.flatMap lowerChar

/-- Pieces between the occurrences of `sep`; the first argument counts the
characters of an occurrence still to be dropped. -/
def splitStrFrom (sep : Text) : ℕ → Text → List Text
  | _, [] => [[]]
  | skip + 1, _ :: s => splitStrFrom sep skip s
  | 0, c :: s =>
    if sep.isPrefixOf (c :: s) then [] :: splitStrFrom sep (sep.length - 1) s
    else (splitStrFrom sep 0 s).modifyHead (c :: ·)

/-- The pieces of a text between the leftmost non-overlapping occurrences
of `sep`. -/
def splitStr (sep s : Text) : List Text := splitStrFrom sep 0 s

/-- Every occurrence of `pat` replaced. -/
def replaceStr (pat rep s : Text) : Text := rep.intercalate (splitStr pat s)

/-- Every occurrence of a character replaced. -/
def replaceChar (c : Char) (rep s : Text) : Text :=
  s.flatMap fun d => if d = c then rep else [d]

/-- Whether `pat` occurs. -/
def containsStr (pat s : Text) : Bool := decide (pat <:+: s)

/-- How often `pat` occurs, without overlap. -/
def countStr (pat s : Text) : ℕ := (splitStr pat s).length - 1

/-- A final `c` dropped. -/
def stripLast (c : Char) (s : Text) : Text := if s.getLast? = some c then s.dropLast else s

/-- The lines of a text. A line ends in `\n` or `\r\n`; the last one may
lack its terminator, and then keeps a final `\r`. -/
def lines (s : Text) : List Text :=
  let pieces := s.splitOn '\n'
  pieces.dropLast.map (stripLast '\r') ++ pieces.getLast?.toList.filter (· ≠ [])

/-- The text cut at the last `sep`. -/
def rsplitOnce (sep : Char) : Text → Option (Text × Text)
  | [] => none
  | c :: s =>
    match rsplitOnce sep s with
    | some (before, after) => some (c :: before, after)
    | none => if c = sep then some ([], s) else none

/-- At most `n` pieces, cut at the first `n - 1` occurrences of `sep`. -/
def splitN (sep : Char) : ℕ → Text → List Text
  | 0, _ => []
  | 1, s => [s]
  | n + 2, s =>
    if sep ∈ s then s.takeWhile (· ≠ sep) :: splitN sep (n + 1) (s.dropWhile (· ≠ sep)).tail
    else [s]

/-- Pieces joined by a separator. -/
def join (sep : Text) (pieces : List Text) : Text := sep.intercalate pieces

variable {s t a b sep : Text} {c : Char}

/-! ## Byte lengths -/

@[simp] theorem byteLen_nil : byteLen [] = 0 := rfl

@[simp] theorem byteLen_cons : byteLen (c :: s) = c.utf8Size + byteLen s := by
  simp [byteLen]

@[simp] theorem byteLen_append : byteLen (s ++ t) = byteLen s + byteLen t := by
  simp [byteLen]

/-! ## Trimming -/

/-- A text with no white space at either end is its own trimming. -/
theorem trim_eq_self (hs : ∀ c ∈ s.head?, isWhitespace c = false)
    (he : ∀ c ∈ s.getLast?, isWhitespace c = false) : trim s = s := by
  have hstart : trimStart s = s := by
    cases s with
    | nil => rfl
    | cons c s => simp [trimStart, hs c rfl]
  rw [trim, hstart, trimEnd, List.rdropWhile_eq_self_iff]
  intro hne
  have := he (s.getLast hne) (List.getLast?_eq_some_getLast hne)
  simp [this]

/-- White space at the start is dropped. -/
theorem trim_cons_whitespace (h : isWhitespace c = true) : trim (c :: s) = trim s := by
  rw [trim, trim, trimStart, List.dropWhile_cons_of_pos h, trimStart]

theorem trim_concat_whitespace (h : isWhitespace c = true) : trim (s ++ [c]) = trim s := by
  rw [trim, trim, trimStart, trimStart, List.dropWhile_append]
  split
  · next hnil =>
    rw [List.isEmpty_iff.1 hnil, List.dropWhile_cons_of_pos h]
    rfl
  · exact List.rdropWhile_concat_pos _ _ _ h

/-- Nothing is left of a trimming exactly when all is white space. -/
theorem trim_eq_nil_iff : trim s = [] ↔ ∀ c ∈ s, isWhitespace c = true := by
  rw [trim, trimEnd, List.rdropWhile_eq_nil_iff, trimStart]
  constructor
  · intro h c hc
    rw [← List.takeWhile_append_dropWhile (p := isWhitespace) (l := s), List.mem_append] at hc
    rcases hc with hc | hc
    · exact List.mem_takeWhile_imp hc
    · exact h c hc
  · exact fun h c hc => h c ((List.dropWhile_suffix _).subset hc)

/-- A trimmed end does not end in white space. -/
theorem getLast?_trimEnd {c : Char} (h : (trimEnd s).getLast? = some c) :
    isWhitespace c = false := by
  have hne : trimEnd s ≠ [] := by rintro heq; simp [heq] at h
  have hlast := List.rdropWhile_last_not isWhitespace s hne
  rw [List.getLast?_eq_some_getLast hne, Option.some.injEq] at h
  subst h
  exact Bool.eq_false_iff.2 hlast

/-- A trimmed text does not end in white space. -/
theorem getLast?_trim {c : Char} (h : (trim s).getLast? = some c) : isWhitespace c = false :=
  getLast?_trimEnd h

/-- Nor does it start in it. -/
theorem head?_trim {c : Char} (h : (trim s).head? = some c) : isWhitespace c = false := by
  have hpre : trim s <+: trimStart s := List.rdropWhile_prefix _ _
  have hhead : (trimStart s).head? = some c := by
    obtain ⟨t, ht⟩ := hpre
    rw [← ht, List.head?_append, h, Option.some_or]
  have hne : trimStart s ≠ [] := by rintro heq; simp [heq] at hhead
  have hfirst := List.head_dropWhile_not isWhitespace hne
  rw [List.head?_eq_some_head hne, Option.some.injEq] at hhead
  subst hhead
  exact hfirst

theorem trim_trim : trim (trim s) = trim s :=
  trim_eq_self (fun _ h => head?_trim h) (fun _ h => getLast?_trim h)

/-- A trimmed text is a part of the text. -/
theorem infix_trim : trim s <:+: s := by
  have hend : trimEnd (trimStart s) <+: trimStart s := List.rdropWhile_prefix _ _
  exact hend.isInfix.trans (List.dropWhile_suffix _).isInfix

/-- A part of a text is no longer than it. -/
theorem byteLen_mono (h : s <:+: t) : byteLen s ≤ byteLen t := by
  obtain ⟨a, b, rfl⟩ := h
  simp only [byteLen_append]
  omega

/-- A text without white space starts a trimmed text when it starts the text. -/
theorem prefix_trimEnd_iff (h : ∀ c ∈ s, isWhitespace c = false) : s <+: trimEnd t ↔ s <+: t := by
  induction t using List.reverseRecOn with
  | nil => rfl
  | append_singleton t c ih =>
    by_cases hc : isWhitespace c = true
    · rw [trimEnd, List.rdropWhile_concat_pos _ _ _ hc, ← trimEnd, ih, List.prefix_concat_iff]
      refine ⟨.inr, fun hs => hs.resolve_left ?_⟩
      rintro rfl
      rw [h c (by simp)] at hc
      cases hc
    · rw [trimEnd, List.rdropWhile_concat_neg _ _ _ hc]

/-- The end of a text is trimmed by itself, where white space does not reach over it. -/
theorem trimEnd_append (ha : ∀ c ∈ a.getLast?, isWhitespace c = false) (b : Text) :
    trimEnd (a ++ b) = a ++ trimEnd b := by
  induction b using List.reverseRecOn with
  | nil =>
    have hend : trimEnd a = a := by
      rw [trimEnd, List.rdropWhile_eq_self_iff]
      intro hne hlast
      rw [ha _ (List.getLast?_eq_some_getLast hne)] at hlast
      cases hlast
    have hnil : trimEnd [] = [] := rfl
    rw [List.append_nil, hend, hnil, List.append_nil]
  | append_singleton b c ih =>
    rw [← List.append_assoc]
    by_cases hc : isWhitespace c = true
    · rw [trimEnd, List.rdropWhile_concat_pos _ _ _ hc, trimEnd,
        List.rdropWhile_concat_pos _ _ _ hc]
      exact ih
    · rw [trimEnd, List.rdropWhile_concat_neg _ _ _ hc, trimEnd,
        List.rdropWhile_concat_neg _ _ _ hc, List.append_assoc]

/-! ## Deciding -/

section Deciding

variable (p : Char → Prop) [DecidablePred p]

/-- What is said of the characters of a text is decided along the text, and not
along all characters. -/
instance (priority := high) decidableForallMem (s : Text) : Decidable (∀ c ∈ s, p c) :=
  List.decidableBAll p s

instance (priority := high) decidableExistsMem (s : Text) : Decidable (∃ c ∈ s, p c) :=
  List.decidableBEx p s

instance (priority := high) decidableForallMemOption (o : Option Char) :
    Decidable (∀ c ∈ o, p c) := Option.decidableForallMem o

instance (priority := high) decidableExistsMemOption (o : Option Char) :
    Decidable (∃ c ∈ o, p c) := Option.decidableExistsMem o

end Deciding

/-! ## Lowercase -/

/-- The ASCII capitals are moved by 32. -/
theorem toNat_toLower (c : Char) : c.toLower.toNat =
    if 65 ≤ c.toNat ∧ c.toNat ≤ 90 then c.toNat + 32 else c.toNat := by
  unfold Char.toLower
  split
  · next h =>
    have hupper : 65 ≤ c.toNat ∧ c.toNat ≤ 90 := h
    have hadd : (c.val + 32).toNat = (c.val.toNat + 32) % 2 ^ 32 := UInt32.toNat_add _ _
    rw [if_pos hupper]
    change (c.val + 32).toNat = c.val.toNat + 32
    change 65 ≤ c.val.toNat ∧ c.val.toNat ≤ 90 at hupper
    omega
  · next h =>
    have hupper : ¬ (65 ≤ c.toNat ∧ c.toNat ≤ 90) := h
    rw [if_neg hupper]

/-- Only a separator is a separator in lowercase. -/
theorem eq_slash_of_toLower {c : Char} (h : c.toLower = '/') : c = '/' := by
  have hc := toNat_toLower c
  rw [h] at hc
  apply Char.toNat_inj.1
  split_ifs at hc
  · exact absurd hc (by have : '/'.toNat = 47 := rfl; omega)
  · exact hc.symm

theorem toLower_toLower (c : Char) : c.toLower.toLower = c.toLower := by
  apply Char.toNat_inj.1
  rw [toNat_toLower c.toLower, toNat_toLower c]
  split_ifs <;> omega

/-- Letters are no white space. -/
theorem isWhitespace_toLower (c : Char) : isWhitespace c.toLower = isWhitespace c := by
  simp only [isWhitespace, toNat_toLower]
  split_ifs with h
  · rw [Bool.eq_iff_iff]
    simp only [Bool.or_eq_true, Bool.and_eq_true, decide_eq_true_eq, beq_iff_eq]
    omega
  · rfl

/-- A trimmed text in ASCII lower case is trimmed. -/
theorem trim_map_toLower_trim (s : Text) :
    trim ((trim s).map Char.toLower) = (trim s).map Char.toLower := by
  refine trim_eq_self (fun c hc => ?_) (fun c hc => ?_)
  · rw [List.head?_map] at hc
    obtain ⟨d, hd, rfl⟩ := Option.map_eq_some_iff.1 hc
    rw [isWhitespace_toLower, head?_trim hd]
  · rw [List.getLast?_map] at hc
    obtain ⟨d, hd, rfl⟩ := Option.map_eq_some_iff.1 hc
    rw [isWhitespace_toLower, getLast?_trim hd]

theorem lowerChar_toLower (c : Char) : lowerChar c.toLower = lowerChar c := by
  by_cases hlow : c.toLower = c
  · rw [hlow]
  · -- a capital: neither it nor its small letter is one of the two other characters
    have hcapital : 65 ≤ c.toNat ∧ c.toNat ≤ 90 := by
      by_contra h
      refine hlow (Char.toNat_inj.1 ?_)
      rw [toNat_toLower, if_neg h]
    have hsmall := toNat_toLower c
    rw [if_pos hcapital] at hsmall
    have hnone : ∀ d : Char, d.toNat ≤ 122 → lowerChar d = [d.toLower] := by
      intro d hd
      unfold lowerChar
      rw [if_neg, if_neg]
      · rintro rfl
        exact absurd hd (by decide)
      · rintro rfl
        exact absurd hd (by decide)
    rw [hnone _ (by omega), hnone c (by omega), toLower_toLower]

/-- ASCII lower case is on the way to lower case. -/
theorem toLowercase_map_toLower (s : Text) : toLowercase (s.map Char.toLower) = toLowercase s := by
  rw [toLowercase, toLowercase, List.flatMap_map]
  exact congrArg (List.flatMap · s) (funext lowerChar_toLower)

theorem slash_not_mem_toLowercase {s : Text} (h : '/' ∉ s) : '/' ∉ toLowercase s := by
  intro hmem
  obtain ⟨c, hc, hlower⟩ := List.mem_flatMap.1 hmem
  unfold lowerChar at hlower
  split at hlower
  · exact absurd hlower (by decide)
  · split at hlower
    · exact absurd hlower (by decide)
    · exact h (eq_slash_of_toLower (List.mem_singleton.1 hlower).symm ▸ hc)

/-! ## Splitting at a string -/

theorem splitStrFrom_nil : ∀ k : ℕ, splitStrFrom sep k [] = [[]]
  | 0 => rfl
  | _ + 1 => rfl

theorem splitStrFrom_skip (k : ℕ) : splitStrFrom sep (k + 1) (c :: s) = splitStrFrom sep k s := rfl

theorem splitStrFrom_cons : splitStrFrom sep 0 (c :: s) =
    if sep.isPrefixOf (c :: s) then [] :: splitStrFrom sep (sep.length - 1) s
    else (splitStrFrom sep 0 s).modifyHead (c :: ·) := rfl

theorem splitStrFrom_ne_nil : ∀ (k : ℕ) (s : Text), splitStrFrom sep k s ≠ []
  | k, [] => by simp [splitStrFrom_nil]
  | k + 1, _ :: s => by rw [splitStrFrom_skip]; exact splitStrFrom_ne_nil k s
  | 0, c :: s => by
    rw [splitStrFrom_cons]
    split
    · simp
    · simp [splitStrFrom_ne_nil 0 s]

/-- There is always a piece. -/
theorem splitStr_ne_nil : splitStr sep s ≠ [] := splitStrFrom_ne_nil 0 s

@[simp] theorem splitStr_nil : splitStr sep [] = [[]] := rfl

/-- The counter drops what it counts. -/
theorem splitStrFrom_eq : ∀ (k : ℕ) (s : Text), splitStrFrom sep k s = splitStr sep (s.drop k)
  | 0, _ => rfl
  | k + 1, [] => rfl
  | k + 1, _ :: s => by rw [splitStrFrom_skip, splitStrFrom_eq k s, List.drop_succ_cons]

/-- At an occurrence the text is cut. -/
theorem splitStr_sep (hsep : sep ≠ []) (s : Text) :
    splitStr sep (sep ++ s) = [] :: splitStr sep s := by
  obtain ⟨c, cs, rfl⟩ := List.exists_cons_of_ne_nil hsep
  have hpre : (c :: cs).isPrefixOf (c :: (cs ++ s)) = true :=
    List.isPrefixOf_iff_prefix.2 (List.prefix_append (c :: cs) s)
  rw [List.cons_append, splitStr, splitStrFrom_cons, if_pos hpre, splitStrFrom_eq]
  simp

/-- Elsewhere the character joins the first piece. -/
theorem splitStr_cons (h : ¬ sep <+: c :: s) :
    splitStr sep (c :: s) = (splitStr sep s).modifyHead (c :: ·) := by
  rw [splitStr, splitStrFrom_cons, if_neg (by rwa [List.isPrefixOf_iff_prefix])]
  rfl

/-- **A text is cut back at its separator**, where no occurrence starts
inside the first part. -/
theorem splitStr_append (hsep : sep ≠ []) :
    ∀ a : Text, (∀ k < a.length, ¬ sep <+: (a ++ (sep ++ s)).drop k) →
      splitStr sep (a ++ (sep ++ s)) = a :: splitStr sep s
  | [], _ => by rw [List.nil_append, splitStr_sep hsep]
  | c :: a, h => by
    have ih := splitStr_append hsep a fun k hk => by
      simpa using h (k + 1) (by simpa using hk)
    have h0 : ¬ sep <+: c :: (a ++ (sep ++ s)) := h 0 (by simp)
    rw [List.cons_append, splitStr_cons h0, ih, List.modifyHead_cons]

/-- A text without the separator is one piece. -/
theorem splitStr_of_absent : ∀ {s : Text}, ¬ sep <:+: s → splitStr sep s = [s]
  | [], _ => rfl
  | c :: s, h => by
    have hs : ¬ sep <:+: s := fun hs => h (hs.trans (List.infix_cons (List.infix_refl s)))
    rw [splitStr_cons fun hp => h hp.isInfix, splitStr_of_absent hs, List.modifyHead_cons]

/-! ## Replacing -/

theorem intercalate_modifyHead_cons {r : Text} {ps : List Text} (h : ps ≠ []) :
    r.intercalate (ps.modifyHead (c :: ·)) = c :: r.intercalate ps := by
  obtain ⟨p, ps, rfl⟩ := List.exists_cons_of_ne_nil h
  rw [List.modifyHead_cons]
  cases ps with
  | nil => simp
  | cons q ps => simp [List.intercalate_cons_cons]

@[simp] theorem replaceStr_nil {r : Text} : replaceStr sep r [] = [] := by
  simp [replaceStr]

/-- An occurrence is replaced. -/
theorem replaceStr_pattern {r : Text} (hsep : sep ≠ []) (s : Text) :
    replaceStr sep r (sep ++ s) = r ++ replaceStr sep r s := by
  rw [replaceStr, splitStr_sep hsep, List.intercalate_cons_of_ne_nil splitStr_ne_nil,
    List.nil_append, replaceStr]

/-- Any other character stays. -/
theorem replaceStr_cons {r : Text} (h : ¬ sep <+: c :: s) :
    replaceStr sep r (c :: s) = c :: replaceStr sep r s := by
  rw [replaceStr, splitStr_cons h, intercalate_modifyHead_cons splitStr_ne_nil, replaceStr]

theorem replaceStr_of_absent {r : Text} (h : ¬ sep <:+: s) : replaceStr sep r s = s := by
  rw [replaceStr, splitStr_of_absent h, List.intercalate_singleton]

@[simp] theorem replaceChar_nil {r : Text} : replaceChar c r [] = [] := rfl

@[simp] theorem replaceChar_append {r : Text} :
    replaceChar c r (s ++ t) = replaceChar c r s ++ replaceChar c r t := by
  simp [replaceChar]

theorem replaceChar_cons_self {r : Text} : replaceChar c r (c :: s) = r ++ replaceChar c r s := by
  simp [replaceChar]

theorem replaceChar_cons_of_ne {r : Text} {d : Char} (h : d ≠ c) :
    replaceChar c r (d :: s) = d :: replaceChar c r s := by
  simp [replaceChar, h]

/-- A character that is not there is not replaced. -/
theorem replaceChar_of_not_mem {r : Text} (h : c ∉ s) : replaceChar c r s = s := by
  induction s with
  | nil => rfl
  | cons d s ih =>
    rw [List.mem_cons, not_or] at h
    rw [replaceChar_cons_of_ne (Ne.symm h.1), ih h.2]

/-- A character that is replaced does not stay. -/
theorem not_mem_replaceChar {r : Text} (hr : c ∉ r) : c ∉ replaceChar c r s := by
  induction s with
  | nil => simp
  | cons d s ih =>
    by_cases hd : d = c
    · rw [hd, replaceChar_cons_self, List.mem_append, not_or]
      exact ⟨hr, ih⟩
    · rw [replaceChar_cons_of_ne hd, List.mem_cons, not_or]
      exact ⟨Ne.symm hd, ih⟩

/-- **Replacing a pattern by a new character can be undone.** -/
theorem replaceChar_replaceStr (hsep : sep ≠ []) (hc : c ∉ s) :
    replaceChar c sep (replaceStr sep [c] s) = s := by
  induction hn : s.length using Nat.strong_induction_on generalizing s with
  | _ n ih =>
    rcases s with - | ⟨d, s⟩
    · simp
    by_cases hpre : sep <+: d :: s
    · obtain ⟨u, hu⟩ := hpre
      have hlen : u.length < n := by
        have := List.length_pos_of_ne_nil hsep
        rw [← hn, ← hu, List.length_append]
        omega
      rw [← hu] at hc ⊢
      rw [replaceStr_pattern hsep, List.singleton_append, replaceChar_cons_self,
        ih _ hlen (fun h => hc (List.mem_append_right _ h)) rfl]
    · simp only [List.mem_cons, not_or] at hc
      have hlen : s.length < n := by rw [← hn, List.length_cons]; omega
      rw [replaceStr_cons hpre, replaceChar_cons_of_ne (Ne.symm hc.1), ih _ hlen hc.2 rfl]

/-! ## Lines -/

/-- The pieces do not have the separator. -/
theorem not_mem_of_mem_splitOn : ∀ {s p : Text}, p ∈ s.splitOn c → c ∉ p
  | [], p, hp => by
    rw [List.splitOn_nil, List.mem_singleton] at hp
    simp [hp]
  | d :: s, p, hp => by
    obtain ⟨q, qs, hq⟩ := List.exists_cons_of_ne_nil (List.splitOn_ne_nil c s)
    have ih : ∀ r ∈ q :: qs, c ∉ r := fun r hr => not_mem_of_mem_splitOn (hq ▸ hr)
    rw [List.splitOn_cons_eq_if_modifyHead, hq] at hp
    split at hp
    · rcases List.mem_cons.1 hp with rfl | hp
      · simp
      · exact ih p hp
    · next hd =>
      rcases List.mem_cons.1 hp with rfl | hp
      · have hcd : d ≠ c := by simpa using hd
        simp [Ne.symm hcd, ih q (List.mem_cons_self ..)]
      · exact ih p (List.mem_cons_of_mem _ hp)

/-- No line has a line feed inside. -/
theorem newline_not_mem_of_mem_lines {l : Text} (h : l ∈ lines s) : '\n' ∉ l := by
  have hpiece : ∀ p ∈ s.splitOn '\n', '\n' ∉ p := fun p hp => not_mem_of_mem_splitOn hp
  rw [lines, List.mem_append] at h
  rcases h with h | h
  · obtain ⟨p, hp, rfl⟩ := List.mem_map.1 h
    intro hn
    refine hpiece p (List.mem_of_mem_dropLast hp) ?_
    rw [stripLast] at hn
    split at hn
    · exact List.mem_of_mem_dropLast hn
    · exact hn
  · rw [List.mem_filter, Option.mem_toList] at h
    exact hpiece l (List.mem_of_getLast? h.1)

@[simp] theorem lines_nil : lines [] = [] := by
  simp [lines, List.splitOn_nil]

/-- A line without a terminator inside is the only line. -/
theorem lines_of_not_mem (h : '\n' ∉ s) (hne : s ≠ []) : lines s = [s] := by
  simp [lines, List.splitOn_eq_singleton h, hne]

/-- **A line is cut off at its terminator.** -/
theorem lines_append_newline (h : '\n' ∉ a) (s : Text) :
    lines (a ++ '\n' :: s) = stripLast '\r' a :: lines s := by
  have hne : s.splitOn '\n' ≠ [] := List.splitOn_ne_nil _ _
  simp only [lines, List.splitOn_append_cons_self_of_not_mem h]
  rw [List.dropLast_cons_of_ne_nil hne, List.getLast?_cons_of_ne_nil hne, List.map_cons,
    List.cons_append]

/-- A text that is not empty has a line. -/
theorem lines_ne_nil (h : s ≠ []) : lines s ≠ [] := by
  by_cases hmem : '\n' ∈ s
  · obtain ⟨a, t, rfl, ha⟩ := List.eq_append_cons_of_mem hmem
    rw [lines_append_newline ha]
    exact List.cons_ne_nil _ _
  · rw [lines_of_not_mem hmem h]
    exact List.cons_ne_nil _ _

theorem stripLast_of_not_mem (h : c ∉ s) : stripLast c s = s := by
  rw [stripLast, if_neg fun hl => h (List.mem_of_getLast? hl)]

theorem stripLast_append (h : t ≠ []) : stripLast c (s ++ t) = s ++ stripLast c t := by
  obtain ⟨t, d, rfl⟩ := List.eq_nil_or_concat' t |>.resolve_left h
  rw [stripLast, stripLast, ← List.append_assoc, List.getLast?_concat, List.getLast?_concat]
  split
  · rw [List.dropLast_concat, List.dropLast_concat]
  · rw [List.append_assoc]

theorem trim_stripLast (h : isWhitespace c = true) : trim (stripLast c s) = trim s := by
  rcases List.eq_nil_or_concat' s with rfl | ⟨s, d, rfl⟩
  · rfl
  rw [stripLast, List.getLast?_concat]
  split
  · next hd =>
    obtain rfl : d = c := Option.some.inj hd
    rw [List.dropLast_concat]
    exact (trim_concat_whitespace h).symm
  · rfl

/-- Lines that are each followed by a terminator are read, but for a final `\r`. -/
theorem lines_flatMap {ls : List Text} (hn : ∀ l ∈ ls, '\n' ∉ l) (s : Text) :
    lines (ls.flatMap (fun l => l ++ ['\n']) ++ s) = ls.map (stripLast '\r') ++ lines s := by
  induction ls with
  | nil => rfl
  | cons l ls ih =>
    simp only [List.mem_cons, forall_eq_or_imp] at hn
    rw [List.flatMap_cons, List.append_assoc, List.append_assoc, List.singleton_append,
      lines_append_newline hn.1, ih hn.2, List.map_cons, List.cons_append]

/-- Without one they are read back. -/
theorem lines_flatMap_newline {ls : List Text} (hn : ∀ l ∈ ls, '\n' ∉ l)
    (hr : ∀ l ∈ ls, l.getLast? ≠ some '\r') (s : Text) :
    lines (ls.flatMap (fun l => l ++ ['\n']) ++ s) = ls ++ lines s := by
  have hstrip : ls.map (stripLast '\r') = ls :=
    (List.map_congr_left fun l hl => if_neg (hr l hl)).trans (List.map_id' ls)
  rw [lines_flatMap hn, hstrip]

/-- Without carriage returns the lines of a text that does not end in a
line feed join back to the text. -/
theorem join_lines : ∀ (n : ℕ) {s : Text}, s.length ≤ n → '\r' ∉ s → s ≠ [] →
    s.getLast? ≠ some '\n' → join ['\n'] (lines s) = s := by
  intro n
  induction n with
  | zero => intro s hn _ hne _; exact absurd (List.length_eq_zero_iff.1 (by omega)) hne
  | succ n ih =>
    intro s hn hcr hne hl
    by_cases hmem : '\n' ∈ s
    · obtain ⟨a, t, rfl, ha⟩ := List.eq_append_cons_of_mem hmem
      simp only [List.mem_append, List.mem_cons, not_or] at hcr
      -- the line feed is not the last character, so a line follows it
      have ht : t ≠ [] := by rintro rfl; simp at hl
      have hlen : t.length ≤ n := by
        simp only [List.length_append, List.length_cons] at hn; omega
      have ih := ih hlen hcr.2.2 ht (by
        obtain ⟨d, t, rfl⟩ := List.exists_cons_of_ne_nil ht
        simpa [List.getLast?_append, List.getLast?_cons_cons] using hl)
      have htl : lines t ≠ [] := by
        intro he; rw [he] at ih; exact ht (by simpa [join] using ih.symm)
      rw [lines_append_newline ha, stripLast_of_not_mem hcr.1, join,
        List.intercalate_cons_of_ne_nil htl]
      rw [join] at ih
      rw [ih]
      simp
    · simp [lines_of_not_mem hmem hne, join]

/-- What is joined is made of the pieces and the separator. -/
theorem mem_join : ∀ {ps : List Text}, c ∈ join sep ps → c ∈ sep ∨ ∃ p ∈ ps, c ∈ p
  | [], h => by simp [join] at h
  | [p], h => .inr ⟨p, by simp, by simpa [join] using h⟩
  | p :: q :: ps, h => by
    have ih : c ∈ join sep (q :: ps) → _ := mem_join
    rw [join] at h ih
    simp only [List.intercalate_cons_cons, List.mem_append] at h
    rcases h with (h | h) | h
    · exact .inr ⟨p, by simp, h⟩
    · exact .inl h
    · exact (ih h).imp_right fun ⟨r, hr, hc⟩ => ⟨r, List.mem_cons_of_mem _ hr, hc⟩

/-- **Joined lines are read back**, where none is empty. -/
theorem lines_join : ∀ {ls : List Text}, (∀ l ∈ ls, '\n' ∉ l ∧ '\r' ∉ l) → (∀ l ∈ ls, l ≠ []) →
    lines (join ['\n'] ls) = ls
  | [], _, _ => rfl
  | [l], hplain, hne => by
    simp only [List.mem_singleton, forall_eq] at hplain hne
    rw [join, List.intercalate_singleton, lines_of_not_mem hplain.1 hne]
  | l :: m :: ls, hplain, hne => by
    rw [List.forall_mem_cons] at hplain hne
    have ih := lines_join hplain.2 hne.2
    rw [join] at ih ⊢
    rw [List.intercalate_cons_cons, List.append_assoc, List.singleton_append,
      lines_append_newline hplain.1.1, stripLast_of_not_mem hplain.1.2, ih]

/-- A line feed at the end makes no line. -/
theorem lines_concat_newline (hr : '\r' ∉ s) (hne : s ≠ []) (hlast : s.getLast? ≠ some '\n') :
    lines (s ++ ['\n']) = lines s := by
  induction hn : s.length using Nat.strong_induction_on generalizing s with
  | _ n ih =>
    by_cases hmem : '\n' ∈ s
    · obtain ⟨a, t, rfl, ha⟩ := List.eq_append_cons_of_mem hmem
      simp only [List.mem_append, List.mem_cons, not_or] at hr
      have ht : t ≠ [] := by rintro rfl; simp at hlast
      have hlast' : t.getLast? ≠ some '\n' := by
        rwa [List.getLast?_append_of_ne_nil _ (by simp), List.getLast?_cons_of_ne_nil ht] at hlast
      rw [List.append_assoc, List.cons_append, lines_append_newline ha, lines_append_newline ha,
        ih t.length (by simp [← hn]; omega) hr.2.2 ht hlast' rfl]
    · rw [lines_append_newline hmem, stripLast_of_not_mem hr, lines_of_not_mem hmem hne, lines_nil]

/-- One more piece is joined at the end. -/
theorem join_concat {last : Text} : ∀ {ps : List Text}, ps ≠ [] →
    join sep (ps ++ [last]) = join sep ps ++ (sep ++ last)
  | [p], _ => by simp [join, List.intercalate_cons_cons]
  | p :: q :: ps, _ => by
    have ih : join sep (q :: ps ++ [last]) = _ := join_concat (List.cons_ne_nil q ps)
    have hne : q :: ps ++ [last] ≠ [] := by simp
    simp only [join] at ih ⊢
    rw [List.cons_append, List.intercalate_cons_of_ne_nil hne, ih,
      List.intercalate_cons_of_ne_nil (List.cons_ne_nil q ps)]
    simp only [List.append_assoc]

/-- The last pieces joined are the end of all of them joined. -/
theorem join_drop_suffix : ∀ (i : ℕ) (ps : List Text), join sep (ps.drop i) <:+ join sep ps
  | 0, _ => List.suffix_refl _
  | _ + 1, [] => List.suffix_refl _
  | i + 1, p :: ps => by
    refine (join_drop_suffix i ps).trans ?_
    by_cases hps : ps = []
    · subst hps
      exact List.nil_suffix
    · rw [join, join, List.intercalate_cons_of_ne_nil hps]
      exact List.suffix_append _ _

/-! ## Splitting a bounded number of times -/

/-- **The first piece is cut off at the first separator.** -/
theorem splitN_append (n : ℕ) (h : c ∉ a) (s : Text) :
    splitN c (n + 2) (a ++ c :: s) = a :: splitN c (n + 1) s := by
  have hmem : c ∈ a ++ c :: s := by simp
  have hall : ∀ d ∈ a, decide (d ≠ c) = true := by
    intro d hd
    have hne : d ≠ c := by rintro rfl; exact h hd
    simpa using hne
  rw [splitN, if_pos hmem, List.takeWhile_append_of_pos hall, List.dropWhile_append_of_pos hall]
  simp

theorem rsplitOnce_eq_none : ∀ {s : Text}, rsplitOnce c s = none ↔ c ∉ s
  | [] => iff_of_true rfl List.not_mem_nil
  | d :: s => by
    rw [rsplitOnce, List.mem_cons, not_or]
    rcases hrest : rsplitOnce c s with - | ⟨before, after⟩
    · have hs := rsplitOnce_eq_none.1 hrest
      dsimp only
      split
      · next h => exact iff_of_false (Option.some_ne_none _) fun hne => hne.1 h.symm
      · next h => exact iff_of_true rfl ⟨fun hne => h hne.symm, hs⟩
    · have hs : ¬ c ∉ s := fun hs => by
        rw [rsplitOnce_eq_none.2 hs] at hrest
        cases hrest
      exact iff_of_false (Option.some_ne_none _) fun hne => hs hne.2

/-- What is after the last `c` is free of it. -/
theorem rsplitOnce_eq_some : ∀ {s before after : Text},
    rsplitOnce c s = some (before, after) → s = before ++ c :: after ∧ c ∉ after
  | [], _, _, h => by cases h
  | d :: s, before, after, h => by
    rw [rsplitOnce] at h
    rcases hrest : rsplitOnce c s with - | ⟨before', after'⟩
    · rw [hrest] at h
      dsimp only at h
      split at h
      · next hd =>
        cases h
        exact ⟨by rw [hd]; rfl, rsplitOnce_eq_none.1 hrest⟩
      · cases h
    · rw [hrest] at h
      cases h
      obtain ⟨rfl, hafter⟩ := rsplitOnce_eq_some hrest
      exact ⟨rfl, hafter⟩

/-- A text cut at the last `c` put in. -/
theorem rsplitOnce_append : ∀ {before after : Text}, c ∉ after →
    rsplitOnce c (before ++ c :: after) = some (before, after)
  | [], after, h => by
    rw [List.nil_append, rsplitOnce, rsplitOnce_eq_none.2 h]
    exact if_pos rfl
  | d :: before, after, h => by
    rw [List.cons_append, rsplitOnce, rsplitOnce_append h]

@[simp] theorem splitN_one : splitN c 1 s = [s] := rfl

theorem splitN_ne_nil (n : ℕ) (s : Text) : splitN c (n + 1) s ≠ [] := by
  cases n with
  | zero => simp
  | succ n => rw [splitN]; split <;> simp

/-- The pieces joined again are the text. -/
theorem join_splitN : ∀ (n : ℕ) (s : Text), join [c] (splitN c (n + 1) s) = s
  | 0, s => by simp [join]
  | n + 1, s => by
    by_cases hc : c ∈ s
    · obtain ⟨a, t, rfl, ha⟩ := List.eq_append_cons_of_mem hc
      have ih := join_splitN n t
      rw [join] at ih ⊢
      rw [splitN_append n ha, List.intercalate_cons_of_ne_nil (splitN_ne_nil n t), ih]
      simp
    · rw [splitN, if_neg hc, join, List.intercalate_singleton]

/-- **Joined pieces are cut apart again**, the last one whatever it is. -/
theorem splitN_join {last : Text} : ∀ {ps : List Text}, (∀ p ∈ ps, c ∉ p) →
    splitN c (ps.length + 1) (join [c] (ps ++ [last])) = ps ++ [last]
  | [], _ => by simp [join]
  | p :: ps, h => by
    simp only [List.mem_cons, forall_eq_or_imp] at h
    rw [List.cons_append, join, List.intercalate_cons_of_ne_nil (by simp), List.append_assoc,
      List.singleton_append, List.length_cons, splitN_append _ h.1, ← join, splitN_join h.2]

end Text
