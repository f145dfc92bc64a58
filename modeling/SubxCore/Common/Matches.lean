import SubxCore.Common.Contains
import SubxCore.Common.Regex
/-!
# What a pattern matches

The texts a pattern stands for, whatever way to match is preferred, and the
engine against them: a pattern without anchors takes a text at a position
exactly when the text is there and is one of its own
(`exists_mem_run_iff`), and is found in a text exactly when one of its own
is somewhere in it (`isMatch_iff`). `Prefers` is about the way that counts
where there are several.
-/

namespace Regex

variable {r t : Regex} {prev : Option Char} {s l : Text} {p : Char → Bool}

/-! ## The language of a pattern -/

/-- The texts of a pattern. Anchors are left out. -/
def Language : Regex → Text → Prop
  | empty, l => l = []
  | one p, l => ∃ c, l = [c] ∧ p c = true
  | many p, l => ∀ c ∈ l, p c = true
  | seq r t, l => ∃ a b, l = a ++ b ∧ r.Language a ∧ t.Language b
  | alt r t, l => r.Language l ∨ t.Language l
  | group r, l => r.Language l
  | lineStart, _ => False
  | textStart, _ => False

/-- A pattern without anchors. -/
def AnchorFree : Regex → Prop
  | empty | one _ | many _ => True
  | seq r t | alt r t => r.AnchorFree ∧ t.AnchorFree
  | group r => r.AnchorFree
  | lineStart | textStart => False

/-- Every character the pattern asks for is one of a set. -/
def Within (q : Char → Prop) : Regex → Prop
  | empty | lineStart | textStart => True
  | one p | many p => ∀ c, p c = true → q c
  | seq r t | alt r t => r.Within q ∧ t.Within q
  | group r => r.Within q

/-- So is every character of its texts. -/
theorem forall_mem_of_language {q : Char → Prop} : ∀ {r : Regex} {l : Text},
    r.Within q → r.Language l → ∀ c ∈ l, q c
  | empty, _, _, rfl => fun _ hc => (List.not_mem_nil hc).elim
  | one p, _, hr, ⟨d, hl, hd⟩ => by
    subst hl
    intro c hc
    obtain rfl := List.mem_singleton.1 hc
    exact hr c hd
  | many p, _, hr, hl => fun c hc => hr c (hl c hc)
  | seq r t, _, ⟨hr, ht⟩, ⟨a, b, hl, ha, hb⟩ => by
    subst hl
    intro c hc
    rcases List.mem_append.1 hc with hc | hc
    · exact forall_mem_of_language hr ha c hc
    · exact forall_mem_of_language ht hb c hc
  | alt r t, _, ⟨hr, ht⟩, hl => by
    rcases hl with hl | hl
    · exact forall_mem_of_language hr hl
    · exact forall_mem_of_language ht hl
  | group r, l, hr, hl => by
    have hlang : r.Language l := hl
    exact forall_mem_of_language (r := r) hr hlang
  | lineStart, _, _, hl => hl.elim
  | textStart, _, _, hl => hl.elim

@[simp] theorem language_chr {c : Char} : (chr c).Language l ↔ l = [c] := by
  simp [chr, Language]

@[simp] theorem language_some' : (some' p).Language l ↔ l ≠ [] ∧ ∀ c ∈ l, p c = true := by
  constructor
  · rintro ⟨a, b, rfl, ⟨c, rfl, hc⟩, hb⟩
    refine ⟨List.cons_ne_nil c b, fun d hd => ?_⟩
    rcases List.mem_cons.1 hd with rfl | hd
    · exact hc
    · exact hb d hd
  · rintro ⟨hne, hl⟩
    obtain ⟨c, l, rfl⟩ := List.exists_cons_of_ne_nil hne
    simp only [List.mem_cons, forall_eq_or_imp] at hl
    exact ⟨[c], l, rfl, ⟨c, rfl, hl.1⟩, hl.2⟩

/-- What is taken and what follows is the text. -/
theorem taken_append_rest : ∀ {r : Regex} {prev : Option Char} {s : Text} {h : Hit},
    h ∈ r.run prev s → h.taken ++ h.rest = s
  | empty, _, _, h, hm => by
    obtain rfl := List.mem_singleton.1 hm
    rfl
  | one p, _, [], h, hm => (List.not_mem_nil hm).elim
  | one p, _, c :: s, h, hm => by
    rw [run_one_cons] at hm
    split at hm
    · obtain rfl := List.mem_singleton.1 hm
      rfl
    · exact (List.not_mem_nil hm).elim
  | many p, _, s, h, hm => by
    rw [run_many] at hm
    obtain ⟨k, -, rfl⟩ := List.mem_map.1 hm
    exact List.take_append_drop k s
  | seq r t, prev, s, h, hm => by
    rw [run_seq] at hm
    obtain ⟨h₁, hm₁, hm⟩ := List.mem_flatMap.1 hm
    obtain ⟨h₂, hm₂, rfl⟩ := List.mem_map.1 hm
    rw [List.append_assoc, taken_append_rest hm₂, taken_append_rest hm₁]
  | alt r t, _, s, h, hm => by
    rw [run_alt] at hm
    rcases List.mem_append.1 hm with hm | hm
    · exact taken_append_rest hm
    · exact taken_append_rest hm
  | group r, _, s, h, hm => by
    rw [run_group] at hm
    obtain ⟨h₁, hm₁, rfl⟩ := List.mem_map.1 hm
    have htaken : h₁.taken ++ h₁.rest = s := taken_append_rest hm₁
    exact htaken
  | lineStart, _, s, h, hm => by
    rw [run_lineStart] at hm
    split at hm
    · obtain rfl := List.mem_singleton.1 hm
      rfl
    · exact (List.not_mem_nil hm).elim
  | textStart, _, s, h, hm => by
    rw [run_textStart] at hm
    split at hm
    · obtain rfl := List.mem_singleton.1 hm
      rfl
    · exact (List.not_mem_nil hm).elim

/-- What is taken is a text of the pattern. -/
theorem language_taken : ∀ {r : Regex} {prev : Option Char} {s : Text} {h : Hit},
    r.AnchorFree → h ∈ r.run prev s → r.Language h.taken
  | empty, _, _, h, _, hm => by
    obtain rfl := List.mem_singleton.1 hm
    rfl
  | one p, _, [], h, _, hm => (List.not_mem_nil hm).elim
  | one p, _, c :: s, h, _, hm => by
    rw [run_one_cons] at hm
    split at hm
    · next hc =>
      obtain rfl := List.mem_singleton.1 hm
      exact ⟨c, rfl, hc⟩
    · exact (List.not_mem_nil hm).elim
  | many p, _, s, h, _, hm => by
    rw [run_many] at hm
    obtain ⟨k, hk, rfl⟩ := List.mem_map.1 hm
    rw [List.mem_reverse, List.mem_range] at hk
    intro c hc
    have htake : s.take k <+: s.takeWhile p := by
      rw [List.prefix_iff_eq_take.1 (List.takeWhile_prefix p)]
      exact List.take_prefix_take_left (Nat.le_of_lt_succ hk)
    exact List.mem_takeWhile_imp (htake.subset hc)
  | seq r t, prev, s, h, ⟨hr, ht⟩, hm => by
    rw [run_seq] at hm
    obtain ⟨h₁, hm₁, hm⟩ := List.mem_flatMap.1 hm
    obtain ⟨h₂, hm₂, rfl⟩ := List.mem_map.1 hm
    exact ⟨_, _, rfl, language_taken hr hm₁, language_taken ht hm₂⟩
  | alt r t, _, s, h, ⟨hr, ht⟩, hm => by
    rw [run_alt] at hm
    rcases List.mem_append.1 hm with hm | hm
    · exact Or.inl (language_taken hr hm)
    · exact Or.inr (language_taken ht hm)
  | group r, _, s, h, hr, hm => by
    rw [run_group] at hm
    obtain ⟨h₁, hm₁, rfl⟩ := List.mem_map.1 hm
    have hlang : r.Language h₁.taken := language_taken hr hm₁
    exact hlang
  | lineStart, _, _, _, hr, _ => hr.elim
  | textStart, _, _, _, hr, _ => hr.elim

/-- A text of the pattern can be taken. -/
theorem exists_mem_run : ∀ {r : Regex} {l : Text}, r.Language l → ∀ (prev : Option Char)
    (s : Text), ∃ gs, (⟨l, gs, s⟩ : Hit) ∈ r.run prev (l ++ s)
  | empty, _, rfl, _, _ => ⟨[], List.mem_singleton_self _⟩
  | one p, _, ⟨c, rfl, hc⟩, prev, s => by
    refine ⟨[], ?_⟩
    rw [List.singleton_append, run_one_cons, if_pos hc]
    exact List.mem_singleton_self _
  | many p, l, hl, prev, s => by
    refine ⟨[], List.mem_map.2 ⟨l.length, ?_, by simp⟩⟩
    have htake : l <+: (l ++ s).takeWhile p := by
      rw [List.takeWhile_append_of_pos hl]
      exact List.prefix_append _ _
    rw [List.mem_reverse, List.mem_range]
    exact Nat.lt_succ_of_le htake.length_le
  | seq r t, _, ⟨a, b, rfl, ha, hb⟩, prev, s => by
    obtain ⟨gs, hgs⟩ := exists_mem_run ha prev (b ++ s)
    obtain ⟨hs, hhs⟩ := exists_mem_run hb (a.getLast?.or prev) s
    refine ⟨gs ++ hs, ?_⟩
    rw [List.append_assoc, run_seq]
    exact List.mem_flatMap.2 ⟨_, hgs, List.mem_map.2 ⟨_, hhs, rfl⟩⟩
  | alt r t, _, hl, prev, s => by
    rcases hl with hl | hl
    · obtain ⟨gs, hgs⟩ := exists_mem_run hl prev s
      exact ⟨gs, List.mem_append_left _ hgs⟩
    · obtain ⟨gs, hgs⟩ := exists_mem_run hl prev s
      exact ⟨gs, List.mem_append_right _ hgs⟩
  | group r, l, hl, prev, s => by
    have hlang : r.Language l := hl
    obtain ⟨gs, hgs⟩ := exists_mem_run hlang prev s
    exact ⟨l :: gs, List.mem_map.2 ⟨_, hgs, rfl⟩⟩
  | lineStart, _, hl, _, _ => hl.elim
  | textStart, _, hl, _, _ => hl.elim

/-- **The engine takes the texts of a pattern**, and no others. -/
theorem exists_mem_run_iff (hr : r.AnchorFree) :
    (∃ h ∈ r.run prev s, h.taken = l) ↔ l <+: s ∧ r.Language l := by
  constructor
  · rintro ⟨h, hm, rfl⟩
    exact ⟨⟨h.rest, taken_append_rest hm⟩, language_taken hr hm⟩
  · rintro ⟨⟨u, rfl⟩, hl⟩
    obtain ⟨gs, hgs⟩ := exists_mem_run hl prev u
    exact ⟨_, hgs, rfl⟩

theorem run_ne_nil_iff (hr : r.AnchorFree) :
    r.run prev s ≠ [] ↔ ∃ l, l <+: s ∧ r.Language l := by
  rw [List.ne_nil_iff_exists_cons]
  constructor
  · rintro ⟨h, hs, hrun⟩
    exact ⟨h.taken, (exists_mem_run_iff hr).1 ⟨h, hrun ▸ List.mem_cons_self, rfl⟩⟩
  · rintro ⟨l, hl⟩
    obtain ⟨h, hm, -⟩ : ∃ h ∈ r.run prev s, h.taken = l := (exists_mem_run_iff hr).2 hl
    obtain ⟨k, ks, hk⟩ := List.exists_cons_of_ne_nil (List.ne_nil_of_mem hm)
    exact ⟨k, ks, hk⟩

/-- Something is found where some position matches. -/
theorem find_isSome_iff (hr : r.AnchorFree) : ∀ {s : Text} {prev : Option Char},
    (r.find prev s).isSome ↔ ∃ l, l <:+: s ∧ r.Language l
  | [], prev => by
    have hrun : (r.find prev []).isSome ↔ r.run prev [] ≠ [] := by
      rw [find]
      cases r.run prev [] <;> simp
    rw [hrun, run_ne_nil_iff hr]
    simp only [List.prefix_nil, List.infix_nil]
  | c :: s, prev => by
    have hrun : (r.find prev (c :: s)).isSome ↔
        r.run prev (c :: s) ≠ [] ∨ (r.find (some c) s).isSome := by
      rw [find]
      cases r.run prev (c :: s) <;> simp
    rw [hrun, run_ne_nil_iff hr, find_isSome_iff hr]
    constructor
    · rintro (⟨l, hl, hlang⟩ | ⟨l, hl, hlang⟩)
      · exact ⟨l, hl.isInfix, hlang⟩
      · exact ⟨l, hl.trans (List.suffix_cons c s).isInfix, hlang⟩
    · rintro ⟨l, hl, hlang⟩
      rcases List.infix_cons_iff.1 hl with hl | hl
      · exact Or.inl ⟨l, hl, hlang⟩
      · exact Or.inr ⟨l, hl, hlang⟩

/-- **A pattern matches the texts that contain one of its own.** -/
theorem isMatch_iff (hr : r.AnchorFree) : r.isMatch s = true ↔ Text.Contains r.Language s :=
  find_isSome_iff hr

/-! ## What is captured -/

/-- The texts a pattern captures: for each group one of its own texts. -/
def Groups : Regex → List Text → Prop
  | empty, gs | one _, gs | many _, gs | lineStart, gs | textStart, gs => gs = []
  | seq r t, gs => ∃ a b, gs = a ++ b ∧ r.Groups a ∧ t.Groups b
  | alt r t, gs => r.Groups gs ∨ t.Groups gs
  | group r, gs => ∃ g hs, gs = g :: hs ∧ (r.AnchorFree → r.Language g) ∧ r.Groups hs

theorem groups_of_mem_run : ∀ {r : Regex} {prev : Option Char} {s : Text} {h : Hit},
    h ∈ r.run prev s → r.Groups h.groups
  | empty, _, _, h, hm => by
    obtain rfl := List.mem_singleton.1 hm
    rfl
  | one p, _, [], h, hm => (List.not_mem_nil hm).elim
  | one p, _, c :: s, h, hm => by
    rw [run_one_cons] at hm
    split at hm
    · obtain rfl := List.mem_singleton.1 hm
      rfl
    · exact (List.not_mem_nil hm).elim
  | many p, _, s, h, hm => by
    rw [run_many] at hm
    obtain ⟨k, -, rfl⟩ := List.mem_map.1 hm
    rfl
  | seq r t, prev, s, h, hm => by
    rw [run_seq] at hm
    obtain ⟨h₁, hm₁, hm⟩ := List.mem_flatMap.1 hm
    obtain ⟨h₂, hm₂, rfl⟩ := List.mem_map.1 hm
    exact ⟨_, _, rfl, groups_of_mem_run hm₁, groups_of_mem_run hm₂⟩
  | alt r t, _, s, h, hm => by
    rw [run_alt] at hm
    rcases List.mem_append.1 hm with hm | hm
    · exact Or.inl (groups_of_mem_run hm)
    · exact Or.inr (groups_of_mem_run hm)
  | group r, _, s, h, hm => by
    rw [run_group] at hm
    obtain ⟨h₁, hm₁, rfl⟩ := List.mem_map.1 hm
    exact ⟨_, _, rfl, fun hr => language_taken hr hm₁, groups_of_mem_run hm₁⟩
  | lineStart, _, s, h, hm => by
    rw [run_lineStart] at hm
    split at hm
    · obtain rfl := List.mem_singleton.1 hm
      rfl
    · exact (List.not_mem_nil hm).elim
  | textStart, _, s, h, hm => by
    rw [run_textStart] at hm
    split at hm
    · obtain rfl := List.mem_singleton.1 hm
      rfl
    · exact (List.not_mem_nil hm).elim

/-- What is found is a match at some position. -/
theorem mem_run_of_find : ∀ {s : Text} {prev : Option Char} {h : Hit}, r.find prev s = some h →
    ∃ prev' b, b <:+ s ∧ h ∈ r.run prev' b
  | [], prev, h, hf => ⟨prev, [], List.suffix_rfl, List.mem_of_mem_head? hf⟩
  | c :: s, prev, h, hf => by
    rw [find, Option.or_eq_some_iff] at hf
    rcases hf with hf | ⟨-, hf⟩
    · exact ⟨prev, c :: s, List.suffix_rfl, List.mem_of_mem_head? hf⟩
    · obtain ⟨prev', b, hb, hm⟩ := mem_run_of_find hf
      exact ⟨prev', b, hb.trans (List.suffix_cons c s), hm⟩

/-- **Every group has a text of its own pattern.** -/
theorem groups_of_captures {gs : List Text} (h : r.captures s = some gs) : r.Groups gs := by
  obtain ⟨hit, hfind, rfl⟩ := Option.map_eq_some_iff.1 h
  obtain ⟨prev, b, -, hm⟩ := mem_run_of_find hfind
  exact groups_of_mem_run hm

@[simp] theorem language_rep : ∀ {n : ℕ} {l : Text},
    (rep p n).Language l ↔ l.length = n ∧ ∀ c ∈ l, p c = true
  | 0, l => by
    rw [List.length_eq_zero_iff]
    exact ⟨fun h => ⟨h, by rw [show l = [] from h]; simp⟩, And.left⟩
  | n + 1, l => by
    constructor
    · rintro ⟨_, b, rfl, ⟨c, rfl, hc⟩, hb⟩
      obtain ⟨hlen, hall⟩ := language_rep.1 hb
      exact ⟨by simp [hlen], by simpa using ⟨hc, hall⟩⟩
    · rintro ⟨hlen, hall⟩
      obtain ⟨c, l, rfl⟩ := List.exists_cons_of_length_eq_add_one hlen
      simp only [List.mem_cons, forall_eq_or_imp] at hall
      exact ⟨[c], l, rfl, ⟨c, rfl, hall.1⟩, language_rep.2 ⟨by simpa using hlen, hall.2⟩⟩

theorem anchorFree_rep : ∀ n, (rep p n).AnchorFree
  | 0 => trivial
  | n + 1 => ⟨trivial, anchorFree_rep n⟩

theorem groups_rep {p : Char → Bool} : ∀ {n : ℕ} {gs : List Text},
    (rep p n).Groups gs ↔ gs = []
  | 0, _ => Iff.rfl
  | n + 1, gs => by
    simp only [rep, Groups, groups_rep (p := p) (n := n)]
    simp

theorem groups_lit : ∀ {l : Text} {gs : List Text}, (lit l).Groups gs ↔ gs = []
  | [], _ => Iff.rfl
  | c :: l, gs => by
    simp only [lit, chr, Groups, groups_lit (l := l)]
    simp

/-- A character captures nothing. -/
theorem groups_cons_chr {c : Char} {rs : List Regex} {gs : List Text}
    (h : (seqs (chr c :: rs)).Groups gs) : (seqs rs).Groups gs := by
  obtain ⟨a, b, rfl, ha, hb⟩ := h
  obtain rfl : a = [] := ha
  exact hb

/-- A group with none inside captures a text of its own. -/
theorem groups_cons_group {rs : List Regex} {gs : List Text} (hr : r.AnchorFree)
    (hnone : ∀ hs, r.Groups hs → hs = []) (h : (seqs (group r :: rs)).Groups gs) :
    ∃ g rest, gs = g :: rest ∧ r.Language g ∧ (seqs rs).Groups rest := by
  obtain ⟨_, rest, rfl, ⟨g, hs, rfl, hg, hhs⟩, hrest⟩ := h
  obtain rfl := hnone hs hhs
  exact ⟨g, rest, rfl, hg hr, hrest⟩

theorem groups_some' {gs : List Text} (h : (some' p).Groups gs) : gs = [] := by
  obtain ⟨a, b, rfl, ha, hb⟩ := h
  obtain rfl : a = [] := ha
  exact hb

/-! ## Where it does not match -/

/-- A sequence fails where its second part does on all that the first
leaves. -/
theorem run_seq_eq_nil_of_rest (h : ∀ b, b <:+ s → ∀ prev, t.run prev b = []) :
    (seq r t).run prev s = [] := by
  rw [run_seq, List.flatMap_eq_nil_iff]
  intro k hk
  rw [h k.rest ⟨k.taken, taken_append_rest hk⟩, List.map_nil]

/-- It fails where a character it needs is missing. -/
theorem run_seqs_eq_nil : ∀ {rs : List Regex} {s : Text} {prev : Option Char},
    one p ∈ rs → (∀ c ∈ s, p c = false) → (seqs rs).run prev s = []
  | r :: rs, s, prev, hmem, hs => by
    rcases List.mem_cons.1 hmem with rfl | hmem
    · exact run_seq_eq_nil (run_one_eq_nil fun c hc => hs c (List.mem_of_mem_head? hc))
    · exact run_seq_eq_nil_of_rest fun b hb _ =>
        run_seqs_eq_nil hmem fun c hc => hs c (hb.subset hc)

/-! ## The preferred match -/

/-- The pattern matches `l` before `s` rather than in any other way,
capturing `gs`. -/
def Prefers (r : Regex) (l : Text) (gs : List Text) (s : Text) : Prop :=
  ∀ prev, (r.run prev (l ++ s)).head? = some ⟨l, gs, s⟩

theorem Takes.prefers {gs : List Text} (h : Takes r l gs s) : Prefers r l gs s := by
  intro prev
  rw [h prev]
  rfl

/-- Repetition prefers all it can take. -/
theorem prefers_many (hl : ∀ c ∈ l, p c = true) (hs : ∀ c ∈ s.head?, p c = false) :
    Prefers (many p) l [] s := by
  intro prev
  have hstop : s.takeWhile p = [] := by
    rcases s with - | ⟨c, s⟩
    · rfl
    · exact List.takeWhile_cons_of_neg (by simp [hs c rfl])
  rw [run_many, List.takeWhile_append_of_pos hl, hstop, List.append_nil, List.range_succ,
    List.reverse_append]
  simp

theorem Prefers.seq {m : Text} {gs hs : List Text} (hr : Prefers r l gs (m ++ s))
    (ht : Prefers t m hs s) : Prefers (seq r t) (l ++ m) (gs ++ hs) s := by
  intro prev
  obtain ⟨rest, hrest⟩ := List.head?_eq_some_iff.1 (hr prev)
  obtain ⟨more, hmore⟩ := List.head?_eq_some_iff.1 (ht (l.getLast?.or prev))
  rw [List.append_assoc, run_seq, hrest, List.flatMap_cons, hmore]
  rfl

theorem Prefers.cons {rs : List Regex} {m : Text} {gs hs : List Text}
    (hr : Prefers r l gs (m ++ s)) (ht : Prefers (seqs rs) m hs s) :
    Prefers (seqs (r :: rs)) (l ++ m) (gs ++ hs) s := hr.seq ht

/-- The last of a list of patterns. -/
theorem Prefers.last {gs : List Text} (h : Prefers r l gs s) : Prefers (seqs [r]) l gs s := by
  have hempty : Prefers (seqs []) [] [] s := takes_empty.prefers
  have hseq : Prefers (seqs [r]) (l ++ []) (gs ++ []) s := h.cons hempty
  rwa [List.append_nil, List.append_nil] at hseq

theorem Prefers.group {gs : List Text} (hr : Prefers r l gs s) :
    Prefers (group r) l (l :: gs) s := by
  intro prev
  rw [run_group, List.head?_map, hr prev]
  rfl

/-- An alternative prefers its left side. -/
theorem Prefers.alt_left {gs : List Text} (h : Prefers r l gs s) : Prefers (alt r t) l gs s := by
  intro prev
  rw [run_alt, List.head?_append, h prev, Option.some_or]

theorem Prefers.alt_right {gs : List Text} (hr : ∀ prev, r.run prev (l ++ s) = [])
    (h : Prefers t l gs s) : Prefers (alt r t) l gs s := by
  intro prev
  rw [run_alt, hr prev, List.nil_append, h prev]

/-- So does repetition of at least one. -/
theorem prefers_some' (hne : l ≠ []) (hl : ∀ c ∈ l, p c = true)
    (hs : ∀ c ∈ s.head?, p c = false) : Prefers (some' p) l [] s := by
  obtain ⟨c, l, rfl⟩ := List.exists_cons_of_ne_nil hne
  simp only [List.mem_cons, forall_eq_or_imp] at hl
  exact (takes_one hl.1).prefers.seq (prefers_many hl.2 hs)

/-! ## At the start of the text -/

/-- Nothing is found after the start. -/
theorem find_textStart_some : ∀ (s : Text) (c : Char), (seq textStart r).find (some c) s = none
  | [], _ => rfl
  | d :: s, c => by
    rw [find, find_textStart_some s d]
    rfl

/-- A pattern at the start of the text is tried there only. -/
theorem find_textStart : (seq textStart r).find none s = (r.run none s).head? := by
  have hrun : (seq textStart r).run none s = r.run none s := by
    rw [run_seq, run_textStart, if_pos rfl, List.flatMap_singleton]
    simp
  cases s with
  | nil => rw [find, hrun]
  | cons c s => rw [find, hrun, find_textStart_some, Option.or_none]

theorem isMatch_textStart (hr : r.AnchorFree) :
    (seq textStart r).isMatch s = true ↔ ∃ l, l <+: s ∧ r.Language l := by
  rw [isMatch, find_textStart, ← run_ne_nil_iff hr]
  cases r.run none s <;> simp

/-- What it captures there is what it prefers. -/
theorem Prefers.captures_textStart {gs : List Text} (h : Prefers r l gs s) :
    (Regex.seq textStart r).captures (l ++ s) = some gs := by
  rw [captures, find_textStart, h none]
  rfl

/-! ## Replacing -/

/-- Without anchors it does not matter what is before the position. -/
theorem run_eq_run_none : ∀ {r : Regex}, r.AnchorFree → ∀ (prev : Option Char) (s : Text),
    r.run prev s = r.run none s
  | empty, _, _, _ => rfl
  | one p, _, _, [] => rfl
  | one p, _, _, _ :: _ => rfl
  | many p, _, _, _ => rfl
  | seq r t, ⟨hr, ht⟩, prev, s => by
    have hrest : ∀ (h : Hit) (prev : Option Char), t.run (h.taken.getLast?.or prev) h.rest =
        t.run none h.rest := fun h prev => run_eq_run_none ht _ _
    rw [run_seq, run_seq, run_eq_run_none hr]
    simp only [hrest]
  | alt r t, ⟨hr, ht⟩, prev, s => by
    rw [run_alt, run_alt, run_eq_run_none hr, run_eq_run_none ht]
  | group r, hr, prev, s => by
    rw [run_group, run_group, run_eq_run_none (r := r) hr]
  | lineStart, hr, _, _ => hr.elim
  | textStart, hr, _, _ => hr.elim

variable {f : Hit → Text}

theorem replaceFrom_eq (hr : r.AnchorFree) : ∀ (k : ℕ) (prev : Option Char) (s : Text),
    replaceFrom r f k prev s = replaceAll r f (s.drop k)
  | 0, prev, [] => rfl
  | k + 1, prev, [] => rfl
  | k + 1, prev, c :: s => by
    rw [replaceFrom, replaceFrom_eq hr k, List.drop_succ_cons]
  | 0, prev, c :: s => by
    rw [List.drop_zero, replaceAll, replaceFrom, replaceFrom, run_eq_run_none hr]

@[simp] theorem replaceAll_nil : replaceAll r f [] = [] := rfl

/-- **The preferred match is replaced**, and the text after it is gone through. -/
theorem Prefers.replaceAll {gs : List Text} (h : Prefers r l gs s) (hr : r.AnchorFree)
    (hne : l ≠ []) : r.replaceAll f (l ++ s) = f ⟨l, gs, s⟩ ++ r.replaceAll f s := by
  obtain ⟨c, l, rfl⟩ := List.exists_cons_of_ne_nil hne
  obtain ⟨rest, hrest⟩ := List.head?_eq_some_iff.1 (h none)
  rw [List.cons_append] at hrest ⊢
  rw [Regex.replaceAll, replaceFrom, hrest]
  dsimp only
  rw [replaceFrom_eq hr, List.length_cons, Nat.add_sub_cancel, List.drop_left]

/-- Elsewhere the character stays. -/
theorem replaceAll_cons {c : Char} (hr : r.AnchorFree) (h : r.run none (c :: s) = []) :
    r.replaceAll f (c :: s) = c :: r.replaceAll f s := by
  rw [replaceAll, replaceFrom, h]
  dsimp only
  rw [replaceFrom_eq hr, List.drop_zero]

/-- So do characters no match starts with. -/
theorem replaceAll_append (hr : r.AnchorFree) : ∀ {a : Text},
    (∀ c ∈ a, ∀ s, r.run none (c :: s) = []) → ∀ s : Text,
      r.replaceAll f (a ++ s) = a ++ r.replaceAll f s
  | [], _, _ => rfl
  | c :: a, h, s => by
    rw [List.forall_mem_cons] at h
    rw [List.cons_append, replaceAll_cons hr (h.1 _), replaceAll_append hr h.2, List.cons_append]

/-- So does a part in which no match starts, given what follows it. -/
theorem replaceAll_of_no_start (hr : r.AnchorFree) : ∀ {a : Text},
    (∀ k < a.length, r.run none ((a ++ s).drop k) = []) →
      r.replaceAll f (a ++ s) = a ++ r.replaceAll f s
  | [], _ => rfl
  | c :: a, h => by
    have hfirst : r.run none (c :: (a ++ s)) = [] := h 0 (Nat.succ_pos _)
    have hrest : ∀ k < a.length, r.run none ((a ++ s).drop k) = [] :=
      fun k hk => h (k + 1) (Nat.succ_lt_succ hk)
    rw [List.cons_append, replaceAll_cons hr hfirst, replaceAll_of_no_start hr hrest,
      List.cons_append]

theorem anchorFree_lit : ∀ l : Text, (lit l).AnchorFree
  | [] => trivial
  | _ :: l => ⟨trivial, anchorFree_lit l⟩

@[simp] theorem language_lit : ∀ {l m : Text}, (lit l).Language m ↔ m = l
  | [], _ => Iff.rfl
  | c :: l, m => by
    constructor
    · rintro ⟨a, b, rfl, ha, hb⟩
      rw [language_chr.1 ha, language_lit.1 hb, List.singleton_append]
    · rintro rfl
      exact ⟨[c], l, rfl, language_chr.2 rfl, language_lit.2 rfl⟩

end Regex
