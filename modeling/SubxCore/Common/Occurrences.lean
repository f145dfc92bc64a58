import SubxCore.Common.Contains
/-!
# Where a word occurs

A text is searched for a word from its parts: what starts in one part either lies
in it or reaches over its end (`starts_cases`). So a word that starts in none of
the parts but one is found once, and replaced there (`replaceStr_once`).

A text with slots is such parts: a literal, and then for each slot what is shown
of it and the literal after it.
-/

namespace Text

variable {w a b t x y : Text} {c : Char} {k : ℕ}

/-- No occurrence of `w` starts in `a`, where `t` follows `a`. -/
def NoStart (w a t : Text) : Prop := ∀ k < a.length, ¬ w <+: (a ++ t).drop k

/-- A part after a part. -/
theorem NoStart.append (ha : NoStart w a (b ++ t)) (hb : NoStart w b t) :
    NoStart w (a ++ b) t := by
  intro k hk h
  rw [List.append_assoc] at h
  by_cases hin : k < a.length
  · exact ha k hin h
  · rw [List.drop_append, List.drop_eq_nil_of_le (not_lt.1 hin), List.nil_append] at h
    rw [List.length_append] at hk
    exact hb (k - a.length) (by omega) h

theorem NoStart.absent (h : NoStart w a []) (hw : w ≠ []) : ¬ w <:+: a := by
  rintro ⟨s, t, rfl⟩
  refine h s.length ?_ ?_
  · have := List.length_pos_of_ne_nil hw
    rw [List.length_append, List.length_append]
    omega
  · rw [List.append_nil, List.append_assoc, List.drop_left]
    exact List.prefix_append w t

/-- A word starts with its first character. -/
theorem noStart_of_not_mem (h : c ∉ a) : NoStart (c :: w) a t := by
  intro k hk hpre
  rw [List.drop_append_of_le_length hk.le, List.drop_eq_getElem_cons hk, List.cons_append] at hpre
  exact h ((List.cons_prefix_cons.1 hpre).1 ▸ List.getElem_mem hk)

/-- Where its first character is at the start only, a word can start only there. -/
theorem noStart_of_head (ha : c ∉ a) (h : ¬ c :: w <+: c :: (a ++ t)) :
    NoStart (c :: w) (c :: a) t := by
  change NoStart _ ([c] ++ a) t
  refine .append (fun k hk hpre => ?_) (noStart_of_not_mem ha)
  obtain rfl : k = 0 := by simpa using hk
  exact h hpre

/-- A part in which no occurrence starts stays. -/
theorem replaceStr_append {r : Text} : ∀ {a : Text}, NoStart w a t →
    replaceStr w r (a ++ t) = a ++ replaceStr w r t
  | [], _ => rfl
  | c :: a, h => by
    have hfirst : ¬ w <+: c :: (a ++ t) := h 0 (Nat.succ_pos _)
    have hrest : NoStart w a t := fun k hk => h (k + 1) (Nat.succ_lt_succ hk)
    rw [List.cons_append, replaceStr_cons hfirst, replaceStr_append hrest, List.cons_append]

/-- **An occurrence that starts in a part** lies in it, or reaches over its end. -/
theorem starts_cases (hk : k < a.length) (h : w <+: (a ++ t).drop k) :
    w <:+: a ∨ ∃ x y, w = x ++ y ∧ x ≠ [] ∧ x <:+ a ∧ y ≠ [] ∧ y <+: t := by
  rw [List.drop_append_of_le_length hk.le] at h
  -- the occurrence is no longer than what is left of the part, or it is longer
  rcases List.prefix_or_prefix_of_prefix h (List.prefix_append _ t) with hin | ⟨y, rfl⟩
  · exact .inl (hin.isInfix.trans (List.drop_suffix k a).isInfix)
  · have hy : y <+: t := (List.prefix_append_right_inj _).1 h
    by_cases hne : y = []
    · rw [hne, List.append_nil]
      exact .inl (List.drop_suffix k a).isInfix
    · refine .inr ⟨a.drop k, y, rfl, ?_, List.drop_suffix k a, hne, hy⟩
      exact List.ne_nil_of_length_pos (by rw [List.length_drop]; omega)

/-- What is before the first `c` is told by what is up to it. -/
theorem eq_of_prefix_up_to : ∀ {a b : Text}, c ∉ a → c ∉ b → a ++ c :: x <+: b ++ c :: y → a = b
  | [], [], _, _, _ => rfl
  | [], d :: b, _, hb, h => absurd ((List.cons_prefix_cons.1 h).1 ▸ List.mem_cons_self) hb
  | d :: a, [], ha, _, h => absurd ((List.cons_prefix_cons.1 h).1 ▸ List.mem_cons_self) ha
  | d :: a, e :: b, ha, hb, h => by
    obtain ⟨rfl, h'⟩ := List.cons_prefix_cons.1 h
    rw [eq_of_prefix_up_to (fun hc => ha (List.mem_cons_of_mem d hc))
      (fun hc => hb (List.mem_cons_of_mem d hc)) h']

/-- **A word that occurs once** cuts the text in two. -/
theorem splitStr_once (hw : w ≠ []) (ha : NoStart w a (w ++ b)) (hb : ¬ w <:+: b) :
    splitStr w (a ++ (w ++ b)) = [a, b] := by
  rw [splitStr_append hw a ha, splitStr_of_absent hb]

theorem countStr_once (hw : w ≠ []) (ha : NoStart w a (w ++ b)) (hb : ¬ w <:+: b) :
    countStr w (a ++ (w ++ b)) = 1 := by
  rw [countStr, splitStr_once hw ha hb]
  rfl

/-- It is replaced where it is. -/
theorem replaceStr_once (hw : w ≠ []) (ha : NoStart w a (w ++ b)) (hb : ¬ w <:+: b) (r : Text) :
    replaceStr w r (a ++ (w ++ b)) = a ++ (r ++ b) := by
  rw [replaceStr, splitStr_once hw ha hb, List.intercalate_cons_cons,
    List.intercalate_singleton, List.append_assoc]

/-! ## Texts with slots -/

variable {α : Type} {f g : α → Text} {lead lit : Text} {slots before after : List (α × Text)}

/-- A literal, and then what is shown of each slot with the literal after it. -/
def render (shown : α → Text) : Text → List (α × Text) → Text
  | lead, [] => lead
  | lead, (slot, lit) :: slots => lead ++ (shown slot ++ render shown lit slots)

/-- What starts the first literal starts the text. -/
theorem render_append_lead : render f (a ++ lead) slots = a ++ render f lead slots := by
  cases slots with
  | nil => rfl
  | cons slot slots => rw [render, render, List.append_assoc]

theorem render_congr (h : ∀ slot ∈ slots, f slot.1 = g slot.1) :
    render f lead slots = render g lead slots := by
  induction slots generalizing lead with
  | nil => rfl
  | cons slot slots ih =>
    rw [List.forall_mem_cons] at h
    rw [render, render, h.1, ih h.2]

/-- The text at one of the slots. -/
theorem render_append {slot : α} :
    render f lead (before ++ (slot, lit) :: after) =
      render f lead before ++ (f slot ++ render f lit after) := by
  induction before generalizing lead with
  | nil => rfl
  | cons s before ih =>
    rw [List.cons_append, render, ih, render]
    simp only [List.append_assoc]

theorem lead_prefix_render : lead <+: render f lead slots := by
  cases slots with
  | nil => exact List.prefix_rfl
  | cons slot slots => exact List.prefix_append lead _

/-- What is shown and the literals are in the text. -/
theorem infix_render {slot : α × Text} (h : slot ∈ slots) :
    f slot.1 <:+: render f lead slots ∧ slot.2 <:+: render f lead slots := by
  obtain ⟨before, after, rfl⟩ := List.append_of_mem h
  rw [render_append]
  refine ⟨⟨_, _, by rw [List.append_assoc]⟩, ?_⟩
  exact lead_prefix_render.isInfix.trans
    ((List.suffix_append _ _).trans (List.suffix_append _ _)).isInfix

end Text
