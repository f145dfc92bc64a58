import SubxCore.Common.Text
/-!
# What a text contains

Whether one of a set of words occurs in a text. Where no word has a
certain character, a text is searched on both sides of that character by
itself (`contains_append_cons`), so a file made of fields and separators
is searched field by field.
-/

namespace Text

/-- One of the words occurs in the text. -/
def Contains (L : Text → Prop) (s : Text) : Prop := ∃ l, l <:+: s ∧ L l

variable {L : Text → Prop} {s t a b l : Text} {c d : Char}

theorem Contains.mono (h : Contains L s) (hs : s <:+: t) : Contains L t := by
  obtain ⟨l, hl, hL⟩ := h
  exact ⟨l, hl.trans hs, hL⟩

/-- Nothing is found in a text that lacks a character of every word. -/
theorem not_contains (h : ∀ l, L l → ∃ c ∈ l, c ∉ s) : ¬ Contains L s := by
  rintro ⟨l, hl, hL⟩
  obtain ⟨c, hc, hs⟩ := h l hL
  exact hs (hl.subset hc)

/-- A word without `c` does not reach over a `c`. -/
theorem infix_append_cons (h : c ∉ l) : l <:+: a ++ c :: b ↔ l <:+: a ∨ l <:+: b := by
  constructor
  · intro hl
    rcases List.infix_append_iff.1 hl with hl | hl | ⟨l₁, l₂, rfl, h₁, h₂⟩
    · exact .inl hl
    · rcases List.infix_cons_iff.1 hl with hl | hl
      · rcases List.prefix_cons_iff.1 hl with rfl | ⟨l, rfl, -⟩
        · exact .inl List.nil_infix
        · exact absurd List.mem_cons_self h
      · exact .inr hl
    · rcases List.prefix_cons_iff.1 h₂ with rfl | ⟨l₂, rfl, -⟩
      · rw [List.append_nil]
        exact .inl h₁.isInfix
      · exact absurd (List.mem_append_right l₁ List.mem_cons_self) h
  · rintro (hl | hl)
    · exact hl.trans (List.prefix_append a _).isInfix
    · exact hl.trans ((List.suffix_cons c b).trans (List.suffix_append a _)).isInfix

/-- **The two sides of a character no word has are searched by
themselves.** -/
theorem contains_append_cons (h : ∀ l, L l → c ∉ l) :
    Contains L (a ++ c :: b) ↔ Contains L a ∨ Contains L b := by
  constructor
  · rintro ⟨l, hl, hL⟩
    rcases (infix_append_cons (h l hL)).1 hl with hl | hl
    · exact .inl ⟨l, hl, hL⟩
    · exact .inr ⟨l, hl, hL⟩
  · rintro (⟨l, hl, hL⟩ | ⟨l, hl, hL⟩)
    · exact ⟨l, (infix_append_cons (h l hL)).2 (.inl hl), hL⟩
    · exact ⟨l, (infix_append_cons (h l hL)).2 (.inr hl), hL⟩

/-- Two characters no word has are as good as each other. -/
theorem contains_replaceChar (hc : ∀ l, L l → c ∉ l) (hd : ∀ l, L l → d ∉ l) :
    Contains L (replaceChar c [d] s) ↔ Contains L s := by
  induction hn : s.length using Nat.strong_induction_on generalizing s with
  | _ n ih =>
    by_cases hmem : c ∈ s
    · obtain ⟨a, t, rfl, ha⟩ := List.eq_append_cons_of_mem hmem
      have hlen : t.length < n := by
        rw [← hn, List.length_append, List.length_cons]
        omega
      rw [replaceChar_append, replaceChar_of_not_mem ha, replaceChar_cons_self,
        List.singleton_append, contains_append_cons hd, contains_append_cons hc, ih _ hlen rfl]
    · rw [replaceChar_of_not_mem hmem]

/-! ## Parts of a text -/

/-- A joined piece is in the joined text. -/
theorem infix_join {sep p : Text} : ∀ {ps : List Text}, p ∈ ps → p <:+: join sep ps
  | q :: ps, h => by
    by_cases hps : ps = []
    · subst hps
      obtain rfl := List.mem_singleton.1 h
      rw [join, List.intercalate_singleton]
    · rw [join, List.intercalate_cons_of_ne_nil hps]
      rcases List.mem_cons.1 h with rfl | h
      · rw [List.append_assoc]
        exact (List.prefix_append p _).isInfix
      · have hrest : p <:+: sep.intercalate ps := infix_join h
        exact hrest.trans (List.suffix_append _ _).isInfix

/-- The pieces of a text join back to it. -/
theorem join_splitStr {sep : Text} (hsep : sep ≠ []) (s : Text) : join sep (splitStr sep s) = s := by
  induction hn : s.length using Nat.strong_induction_on generalizing s with
  | _ n ih =>
    rcases s with - | ⟨c, s⟩
    · rfl
    by_cases hpre : sep <+: c :: s
    · obtain ⟨u, hu⟩ := hpre
      have hlen : u.length < n := by
        have := List.length_pos_of_ne_nil hsep
        rw [← hn, ← hu, List.length_append]
        omega
      have hjoin := ih u.length hlen u rfl
      rw [join] at hjoin ⊢
      rw [← hu, splitStr_sep hsep, List.intercalate_cons_of_ne_nil splitStr_ne_nil, hjoin,
        List.nil_append]
    · have hjoin := ih s.length (by rw [← hn, List.length_cons]; omega) s rfl
      rw [join] at hjoin ⊢
      rw [splitStr_cons hpre, intercalate_modifyHead_cons splitStr_ne_nil, hjoin]

theorem infix_of_mem_splitStr {sep p : Text} (hsep : sep ≠ []) (h : p ∈ splitStr sep s) :
    p <:+: s := by
  have hp : p <:+: join sep (splitStr sep s) := infix_join h
  rwa [join_splitStr hsep] at hp

/-- The separator is in none of the pieces. -/
theorem not_infix_of_mem_splitStr {sep p : Text} (hsep : sep ≠ []) (h : p ∈ splitStr sep s) :
    ¬ sep <:+: p := by
  induction hn : s.length using Nat.strong_induction_on generalizing s p with
  | _ n ih =>
    rcases s with - | ⟨c, s⟩
    · rw [splitStr_nil, List.mem_singleton] at h
      rwa [h, List.infix_nil]
    by_cases hpre : sep <+: c :: s
    · obtain ⟨u, hu⟩ := hpre
      have hlen : u.length < n := by
        have := List.length_pos_of_ne_nil hsep
        rw [← hn, ← hu, List.length_append]
        omega
      rw [← hu, splitStr_sep hsep] at h
      rcases List.mem_cons.1 h with rfl | h
      · rwa [List.infix_nil]
      · exact ih u.length hlen h rfl
    · have ih := fun p hp => ih s.length (by rw [← hn, List.length_cons]; omega) (p := p) hp rfl
      have hjoin := join_splitStr hsep s
      rw [splitStr_cons hpre] at h
      have hne : splitStr sep s ≠ [] := splitStr_ne_nil
      obtain ⟨q, qs, hq⟩ := List.exists_cons_of_ne_nil hne
      rw [hq] at h hjoin ih
      rcases List.mem_cons.1 h with rfl | h
      · intro hinf
        rcases List.infix_cons_iff.1 hinf with hp | hinf
        · -- the first piece is where the text starts
          have hfirst : q <+: s := by
            rw [← hjoin, join]
            by_cases hqs : qs = []
            · rw [hqs, List.intercalate_singleton]
            · rw [List.intercalate_cons_of_ne_nil hqs, List.append_assoc]
              exact List.prefix_append q _
          exact hpre (hp.trans ((List.prefix_cons_inj c).2 hfirst))
        · exact ih q List.mem_cons_self hinf
      · exact ih p (List.mem_cons_of_mem q h)

theorem stripLast_prefix : stripLast c s <+: s := by
  rw [stripLast]
  split
  · exact List.dropLast_prefix s
  · exact List.prefix_refl s

/-- A line of a text is in the text. -/
theorem infix_of_mem_lines (h : l ∈ lines s) : l <:+: s := by
  have hpiece : ∀ p ∈ s.splitOn '\n', p <:+: s := by
    intro p hp
    have hjoin : p <:+: join ['\n'] (s.splitOn '\n') := infix_join hp
    rwa [join, List.intercalate_splitOn] at hjoin
  rw [lines, List.mem_append] at h
  rcases h with h | h
  · obtain ⟨p, hp, rfl⟩ := List.mem_map.1 h
    exact stripLast_prefix.isInfix.trans (hpiece p (List.mem_of_mem_dropLast hp))
  · rw [List.mem_filter, Option.mem_toList] at h
    exact hpiece l (List.mem_of_getLast? h.1)

end Text
