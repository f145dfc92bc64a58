import SubxCore.Common.Text
/-!
# Regular expressions

The fragment of regular expressions with single characters, greedy
repetition of a character class, sequence, ordered alternative, capture
groups and the two start anchors. `Regex.run` lists every way to match at
one position, preferred first: greedy repetition prefers the longer match,
an alternative its left side. A search takes the first position that
matches and there the preferred way, which is the leftmost-first rule.
-/

/-- A pattern. -/
inductive Regex
  /-- Matches the empty text. -/
  | empty
  /-- One character of a class. -/
  | one (p : Char → Bool)
  /-- Any number of characters of a class, as many as possible first. -/
  | many (p : Char → Bool)
  | seq (r t : Regex)
  /-- The left pattern is preferred. -/
  | alt (r t : Regex)
  /-- A capture group. -/
  | group (r : Regex)
  /-- The start of a line. -/
  | lineStart
  /-- The start of the text. -/
  | textStart

/-- One way to match at a position: the text taken, the groups in the order
they open, and the text that follows. -/
structure Hit where
  taken : Text
  groups : List Text
  rest : Text
  deriving DecidableEq, Repr

namespace Regex

/-! ## Character classes -/

/-- The zeros of the runs of ten decimal digits (general category `Nd`). -/
def digitZeros : List ℕ :=
  [0x30, 0x660, 0x6F0, 0x7C0, 0x966, 0x9E6, 0xA66, 0xAE6, 0xB66, 0xBE6, 0xC66, 0xCE6, 0xD66,
    0xDE6, 0xE50, 0xED0, 0xF20, 0x1040, 0x1090, 0x17E0, 0x1810, 0x1946, 0x19D0, 0x1A80, 0x1A90,
    0x1B50, 0x1BB0, 0x1C40, 0x1C50, 0xA620, 0xA8D0, 0xA900, 0xA9D0, 0xA9F0, 0xAA50, 0xABF0,
    0xFF10, 0x104A0, 0x10D30, 0x10D40, 0x11066, 0x110F0, 0x11136, 0x111D0, 0x112F0, 0x11450,
    0x114D0, 0x11650, 0x116C0, 0x116D0, 0x116DA, 0x11730, 0x118E0, 0x11950, 0x11BF0, 0x11C50,
    0x11D50, 0x11DA0, 0x11F50, 0x16130, 0x16A60, 0x16AC0, 0x16B50, 0x16D70, 0x1CCF0, 0x1D7CE,
    0x1D7D8, 0x1D7E2, 0x1D7EC, 0x1D7F6, 0x1E140, 0x1E2F0, 0x1E4F0, 0x1E5F1, 0x1E950, 0x1FBF0]

/-- The class `\d`: every decimal digit of Unicode. -/
def digit (c : Char) : Bool := digitZeros.any fun z => z ≤ c.toNat && c.toNat < z + 10

/-- The class of one character. -/
def chr (c : Char) : Regex := one (· == c)

/-- The characters of a text in sequence. -/
def lit : Text → Regex
  | [] => empty
  | c :: s => seq (chr c) (lit s)

/-- A fixed number of characters of a class. -/
def rep (p : Char → Bool) : ℕ → Regex
  | 0 => empty
  | n + 1 => seq (one p) (rep p n)

/-- Patterns in sequence. -/
def seqs : List Regex → Regex
  | [] => empty
  | r :: rs => seq r (seqs rs)

/-- At least one character of a class. -/
def some' (p : Char → Bool) : Regex := seq (one p) (many p)

/-! ## Matching -/

/-- The ways to match at a position, preferred first. `prev` is the
character before the position. -/
def run : Regex → Option Char → Text → List Hit
  | empty, _, s => [⟨[], [], s⟩]
  | one _, _, [] => []
  | one p, _, c :: s => if p c then [⟨[c], [], s⟩] else []
  | many p, _, s =>
    (List.range ((s.takeWhile p).length + 1)).reverse.map fun k => ⟨s.take k, [], s.drop k⟩
  | seq r t, prev, s =>
    (r.run prev s).flatMap fun h =>
      (t.run (h.taken.getLast?.or prev) h.rest).map fun k =>
        ⟨h.taken ++ k.taken, h.groups ++ k.groups, k.rest⟩
  | alt r t, prev, s => r.run prev s ++ t.run prev s
  | group r, prev, s => (r.run prev s).map fun h => ⟨h.taken, h.taken :: h.groups, h.rest⟩
  | lineStart, prev, s => if prev = none ∨ prev = some '\n' then [⟨[], [], s⟩] else []
  | textStart, prev, s => if prev = none then [⟨[], [], s⟩] else []

/-- The leftmost match at or after a position. -/
def find (r : Regex) : Option Char → Text → Option Hit
  | prev, [] => (r.run prev []).head?
  | prev, c :: s => (r.run prev (c :: s)).head?.or (find r (some c) s)

/-- Whether the pattern matches somewhere in a text. -/
def isMatch (r : Regex) (s : Text) : Bool := (r.find none s).isSome

/-- The groups of the leftmost match. -/
def captures (r : Regex) (s : Text) : Option (List Text) := (r.find none s).map Hit.groups

/-- Every match replaced, leftmost first and without overlap, for a pattern
that takes at least one character; the first argument counts the characters
of a match still to be dropped. -/
def replaceFrom (r : Regex) (f : Hit → Text) : ℕ → Option Char → Text → Text
  | _, _, [] => []
  | skip + 1, _, c :: s => replaceFrom r f skip (some c) s
  | 0, prev, c :: s =>
    match r.run prev (c :: s) with
    | h :: _ => f h ++ replaceFrom r f (h.taken.length - 1) (some c) s
    | [] => c :: replaceFrom r f 0 (some c) s

/-- Every match of a pattern replaced. -/
def replaceAll (r : Regex) (f : Hit → Text) (s : Text) : Text := replaceFrom r f 0 none s

variable {r t : Regex} {prev : Option Char} {s : Text} {p : Char → Bool}

theorem run_one_cons {c : Char} :
    (one p).run prev (c :: s) = if p c then [⟨[c], [], s⟩] else [] := rfl

theorem run_seq : (seq r t).run prev s = (r.run prev s).flatMap fun h =>
    (t.run (h.taken.getLast?.or prev) h.rest).map fun k =>
      ⟨h.taken ++ k.taken, h.groups ++ k.groups, k.rest⟩ := rfl

theorem run_many : (many p).run prev s =
    (List.range ((s.takeWhile p).length + 1)).reverse.map fun k =>
      ⟨s.take k, [], s.drop k⟩ := rfl

theorem run_alt : (alt r t).run prev s = r.run prev s ++ t.run prev s := rfl

theorem run_group : (group r).run prev s =
    (r.run prev s).map fun h => ⟨h.taken, h.taken :: h.groups, h.rest⟩ := rfl

theorem run_lineStart : lineStart.run prev s =
    if prev = none ∨ prev = some '\n' then [⟨[], [], s⟩] else [] := rfl

theorem run_textStart : textStart.run prev s = if prev = none then [⟨[], [], s⟩] else [] := rfl

/-! ## One way to match -/

/-- The pattern matches `l` before `s` and in no other way, capturing `gs`. -/
def Takes (r : Regex) (l : Text) (gs : List Text) (s : Text) : Prop :=
  ∀ prev, r.run prev (l ++ s) = [⟨l, gs, s⟩]

theorem takes_empty : Takes empty [] [] s := fun _ => rfl

theorem takes_one {c : Char} (h : p c = true) : Takes (one p) [c] [] s := by
  intro prev
  rw [List.singleton_append, run_one_cons, if_pos h]

theorem takes_chr {c : Char} : Takes (chr c) [c] [] s := takes_one (by simp)

/-- **A sequence of patterns that each match in one way** matches in one
way. -/
theorem Takes.seq {l m : Text} {gs hs : List Text} (hr : Takes r l gs (m ++ s))
    (ht : Takes t m hs s) : Takes (seq r t) (l ++ m) (gs ++ hs) s := by
  intro prev
  rw [List.append_assoc, run_seq, hr prev]
  simp [ht _]

/-- The same, of a list of patterns. -/
theorem Takes.cons {rs : List Regex} {l m : Text} {gs hs : List Text}
    (hr : Takes r l gs (m ++ s)) (ht : Takes (seqs rs) m hs s) :
    Takes (seqs (r :: rs)) (l ++ m) (gs ++ hs) s := hr.seq ht

/-- A captured field is its own group. -/
theorem Takes.group {l : Text} {gs : List Text} (hr : Takes r l gs s) :
    Takes (group r) l (l :: gs) s := by
  intro prev
  rw [run_group, hr prev]
  rfl

/-- A literal matches itself. -/
theorem takes_lit : ∀ l : Text, Takes (lit l) l [] s
  | [] => takes_empty
  | _ :: l => takes_chr.seq (takes_lit l)

/-- A field of a class matches a text of its length made of the class. -/
theorem takes_rep : ∀ {n : ℕ} {l : Text}, l.length = n → (∀ c ∈ l, p c = true) →
    Takes (rep p n) l [] s
  | 0, [], _, _ => takes_empty
  | n + 1, c :: l, hlen, hp => by
    simp only [List.mem_cons, forall_eq_or_imp] at hp
    exact (takes_one hp.1).seq (takes_rep (by simpa using hlen) hp.2)

/-! ## No way to match -/

/-- A sequence fails where its first part does. -/
theorem run_seq_eq_nil (h : r.run prev s = []) : (seq r t).run prev s = [] := by
  rw [run_seq, h]
  rfl

theorem run_one_eq_nil (h : ∀ c ∈ s.head?, p c = false) : (one p).run prev s = [] := by
  cases s with
  | nil => rfl
  | cons c s => rw [run_one_cons, if_neg (by simp [h c rfl])]

/-- A character and then a class: both have to be there. -/
theorem run_chr_seq_one_eq_nil {c : Char} (h : ∀ d, ¬ [c, d] <+: s ∨ p d = false) :
    (seq (chr c) (seq (seq (one p) r) t)).run prev s = [] := by
  rcases s with - | ⟨d, s⟩
  · rfl
  by_cases hd : d = c
  · subst hd
    have hnext : ∀ e ∈ s.head?, p e = false := by
      intro e he
      refine (h e).resolve_left fun hn => hn ?_
      obtain ⟨s', rfl⟩ := List.head?_eq_some_iff.1 he
      exact ⟨s', rfl⟩
    have hone : (chr d).run prev ([d] ++ s) = [⟨[d], [], s⟩] := takes_chr prev
    rw [List.singleton_append] at hone
    rw [run_seq, hone]
    simp [run_seq_eq_nil (run_seq_eq_nil (run_one_eq_nil hnext))]
  · refine run_seq_eq_nil (run_one_eq_nil fun e he => ?_)
    obtain rfl : d = e := by simpa using he
    simpa using hd

/-! ## Searching -/

/-- A match at the first position is the one found. -/
theorem find_of_run {h : Hit} (hr : r.run prev s = [h]) : r.find prev s = some h := by
  cases s with
  | nil => rw [find, hr]; rfl
  | cons c s => rw [find, hr]; rfl

/-- **Nothing is found where no position matches.** -/
theorem find_eq_none : ∀ {s : Text} {prev : Option Char},
    (∀ prev b, b <:+ s → r.run prev b = []) → r.find prev s = none
  | [], prev, h => by rw [find, h prev [] (List.suffix_refl _)]; rfl
  | c :: s, prev, h => by
    rw [find, h prev _ (List.suffix_refl _),
      find_eq_none fun prev b hb => h prev b (hb.trans (List.suffix_cons c s))]
    rfl

theorem isMatch_eq_false (h : ∀ prev b, b <:+ s → r.run prev b = []) : r.isMatch s = false := by
  rw [isMatch, find_eq_none h]
  rfl

/-- A pattern that takes the start of a text captures there. -/
theorem Takes.captures {l : Text} {gs : List Text} (h : Takes r l gs s) :
    r.captures (l ++ s) = some gs := by
  rw [Regex.captures, find_of_run (h none)]
  rfl

/-- The start of the text is the start of a line. -/
theorem captures_lineStart {l : Text} {gs : List Text} (h : Takes r l gs s) :
    (seq lineStart r).captures (l ++ s) = some gs := by
  have hrun : (seq lineStart r).run none (l ++ s) = [⟨l, gs, s⟩] := by
    rw [run_seq, run_lineStart, if_pos (Or.inl rfl), List.flatMap_singleton]
    simp [h none]
  rw [Regex.captures, find_of_run hrun]
  rfl

end Regex
