import SubxCore.Common.Scan
import SubxCore.Common.Text
/-!
# Reading markup

How the values of attributes and the contents of CDATA sections are read:
the five entities are put back, and adjacent sections are put together.
Each rule says that what was written in some way is read again, whatever
follows it.
-/

namespace Markup

open Text Reader

theorem dropPrefix?_append (p s : Text) : (p ++ s).dropPrefix? p = some s :=
  List.dropPrefix?_append_of_beq s (beq_self_eq_true p)

/-! ## Attributes -/

/-- What ends the value of an attribute. -/
def quote : Char := '\x22'

/-- The five entities, after what they stand for. -/
def entities : List (Char × Text) :=
  [('&', "&amp;".toList), ('<', "&lt;".toList), ('>', "&gt;".toList), (quote, "&quot;".toList),
    ('\x27', "&#39;".toList)]

/-- An entity, read as what it stands for. -/
def readEntity : Reader Char Char := fun s =>
  entities.findSome? fun (c, name) => (s.dropPrefix? name).map (c, ·)

/-- A character, which may be written as an entity. -/
def readChar : Reader Char Char
  | [] => none
  | c :: s => (readEntity (c :: s)).or (some (c, s))

/-- A text with its entities put back. -/
def unescape (s : Text) : Text := scan readChar s

/-- The value of an attribute, up to the quote that ends it. -/
def readQuoted : Reader Char Text := fun s =>
  match s.dropWhile (· ≠ quote) with
  | [] => none
  | _ :: rest => some (unescape (s.takeWhile (· ≠ quote)), rest)

variable {a s t : Text} {c : Char}

theorem readChar_entity {name : Text} (h : (c, name) ∈ entities) :
    readChar (name ++ s) = some (c, s) := by
  simp only [entities, List.mem_cons, Prod.mk.injEq, List.not_mem_nil, or_false] at h
  rcases h with ⟨rfl, rfl⟩ | ⟨rfl, rfl⟩ | ⟨rfl, rfl⟩ | ⟨rfl, rfl⟩ | ⟨rfl, rfl⟩ <;>
    simp [readChar, readEntity, entities, List.dropPrefix?]

theorem readChar_of_ne (h : c ≠ '&') : readChar (c :: s) = some (c, s) := by
  simp [readChar, readEntity, entities, List.dropPrefix?, h]

/-- **What is escaped by entities is put back.** -/
theorem unescape_flatMap {escape : Char → Text}
    (h : ∀ c, (c, escape c) ∈ entities ∨ escape c = [c] ∧ c ≠ '&') (s : Text) :
    unescape (s.flatMap escape) = s := by
  have hone (c : Char) (t : Text) : scan readChar (escape c ++ t) = c :: scan readChar t := by
    rcases h c with hmem | ⟨heq, hne⟩
    · refine scan_append_of_read ?_ (readChar_entity hmem)
      rintro hnil
      rw [hnil] at hmem
      revert hmem
      simp [entities]
    · rw [heq]
      exact scan_append_of_read (List.cons_ne_nil c []) (readChar_of_ne hne)
  simpa [unescape] using scan_flatMap (s := []) (f := id) hone s

/-- A value without a quote in it is read up to the quote behind it. -/
theorem readQuoted_append (h : quote ∉ a) (s : Text) :
    readQuoted (a ++ quote :: s) = some (unescape a, s) := by
  have hall : ∀ c ∈ a, decide (c ≠ quote) = true := by
    intro c hc
    have hne : c ≠ quote := by rintro rfl; exact h hc
    simpa using hne
  rw [readQuoted, List.takeWhile_append_of_pos hall, List.dropWhile_append_of_pos hall]
  simp

/-! ## CDATA sections -/

/-- What opens a section. -/
def sectionStart : Text := "<![CDATA[".toList

/-- What closes it. -/
def sectionEnd : Text := "]]>".toList

/-- The contents of an open section and of all that follow it without a gap; the number
counts the characters still to be dropped. -/
def sectionsFrom : ℕ → Text → Option (Text × Text)
  | _, [] => none
  | skip + 1, _ :: s => sectionsFrom skip s
  | 0, c :: s =>
    if (sectionEnd ++ sectionStart).isPrefixOf (c :: s) then sectionsFrom 11 s
    else if sectionEnd.isPrefixOf (c :: s) then some ([], s.drop 2)
    else (sectionsFrom 0 s).map fun (content, rest) => (c :: content, rest)

/-- The contents of adjacent sections. -/
def readSections : Reader Char Text := fun s => (s.dropPrefix? sectionStart).bind (sectionsFrom 0)

/-- The end of a section as it is written in one: cut in two, with a new section in
between. -/
def cutEnd : Text := "]]]]><![CDATA[>".toList

theorem sectionEnd_prefix_iff : sectionEnd <+: s ↔ ∃ t, s = ']' :: ']' :: '>' :: t :=
  ⟨fun ⟨t, ht⟩ => ⟨t, ht.symm⟩, fun ⟨t, ht⟩ => ⟨t, ht.symm⟩⟩

/-- Where a section ends and none follows. -/
theorem sectionsFrom_end (h : ¬ sectionStart <+: t) :
    sectionsFrom 0 (sectionEnd ++ t) = some ([], t) := by
  have hnext : ¬ (sectionEnd ++ sectionStart) <+: sectionEnd ++ t := by
    rwa [List.prefix_append_right_inj]
  rw [← List.isPrefixOf_iff_prefix] at hnext
  have hend : sectionEnd.isPrefixOf (sectionEnd ++ t) = true :=
    List.isPrefixOf_iff_prefix.2 (List.prefix_append _ _)
  exact (if_neg hnext).trans (if_pos hend)

theorem sectionsFrom_cons (h : ¬ sectionEnd <+: c :: s) : sectionsFrom 0 (c :: s) =
    (sectionsFrom 0 s).map fun (content, rest) => (c :: content, rest) := by
  have hnext : ¬ (sectionEnd ++ sectionStart) <+: c :: s :=
    fun hpre => h ((List.prefix_append _ _).trans hpre)
  rw [← List.isPrefixOf_iff_prefix] at h hnext
  rw [sectionsFrom, if_neg hnext, if_neg h]

/-- An end that is cut in two is put together. -/
theorem sectionsFrom_cutEnd : sectionsFrom 0 (cutEnd ++ t) =
    (sectionsFrom 0 t).map fun (content, rest) => (sectionEnd ++ content, rest) := by
  have hpair : (sectionEnd ++ sectionStart).isPrefixOf (sectionEnd ++ sectionStart ++ '>' :: t) :=
    List.isPrefixOf_iff_prefix.2 (List.prefix_append _ _)
  have hgt : ¬ sectionEnd <+: '>' :: t := by simp [sectionEnd_prefix_iff]
  have hcut : sectionsFrom 0 (sectionEnd ++ sectionStart ++ '>' :: t) =
      sectionsFrom 0 ('>' :: t) := if_pos hpair
  have hone : ¬ sectionEnd <+: ']' :: (sectionEnd ++ sectionStart ++ '>' :: t) := by
    simp [sectionEnd]
  have htwo : ¬ sectionEnd <+: ']' :: ']' :: (sectionEnd ++ sectionStart ++ '>' :: t) := by
    simp [sectionEnd]
  have hstep : cutEnd ++ t = ']' :: ']' :: (sectionEnd ++ sectionStart ++ '>' :: t) := rfl
  rw [hstep, sectionsFrom_cons htwo, sectionsFrom_cons hone, hcut, sectionsFrom_cons hgt]
  simp only [Option.map_map]
  rfl

/-- A text with the ends in it cut, and an end behind it, starts with two brackets or as the
text does. -/
theorem replaceStr_sectionEnd_cons {u : Text}
    (h : replaceStr sectionEnd cutEnd s ++ (sectionEnd ++ t) = c :: u) :
    (c = ']' ∧ u.head? = some ']') ∨
      ∃ v, s = c :: v ∧ replaceStr sectionEnd cutEnd v ++ (sectionEnd ++ t) = u := by
  rcases s with - | ⟨d, v⟩
  · obtain ⟨rfl, rfl⟩ := List.cons.inj h
    exact .inl ⟨by decide, rfl⟩
  by_cases hpre : sectionEnd <+: d :: v
  · obtain ⟨w, hw⟩ := hpre
    rw [← hw, replaceStr_pattern (by decide)] at h
    obtain ⟨rfl, rfl⟩ := List.cons.inj h
    exact .inl ⟨by decide, rfl⟩
  · rw [replaceStr_cons hpre] at h
    obtain ⟨rfl, rfl⟩ := List.cons.inj h
    exact .inr ⟨v, rfl, rfl⟩

/-- Where a text does not start with an end, it does not with the ends in it cut either. -/
theorem sectionEnd_not_first (h : ¬ sectionEnd <+: c :: s) :
    ¬ sectionEnd <+: c :: (replaceStr sectionEnd cutEnd s ++ (sectionEnd ++ t)) := by
  rw [sectionEnd_prefix_iff] at h ⊢
  rintro ⟨u, hu⟩
  obtain ⟨rfl, htail⟩ := List.cons.inj hu
  rcases replaceStr_sectionEnd_cons htail with ⟨-, hhead⟩ | ⟨v, rfl, hv⟩
  · exact absurd hhead (by simp)
  rcases replaceStr_sectionEnd_cons hv with ⟨hbracket, -⟩ | ⟨w, rfl, -⟩
  · exact absurd hbracket (by decide)
  · exact h ⟨w, rfl⟩

/-- **A text in which the ends of sections are cut is read as it was**, up to an end that
no section follows. -/
theorem sectionsFrom_replaceStr (ht : ¬ sectionStart <+: t) (s : Text) :
    sectionsFrom 0 (replaceStr sectionEnd cutEnd s ++ (sectionEnd ++ t)) = some (s, t) := by
  induction hn : s.length using Nat.strong_induction_on generalizing s with
  | _ n ih =>
    rcases s with - | ⟨c, s⟩
    · exact sectionsFrom_end ht
    by_cases hpre : sectionEnd <+: c :: s
    · obtain ⟨u, hu⟩ := hpre
      have hlen : u.length < n := by
        rw [← hn, ← hu, List.length_append]
        exact Nat.lt_add_of_pos_left (by decide)
      rw [← hu, replaceStr_pattern (by decide), List.append_assoc, sectionsFrom_cutEnd,
        ih _ hlen u rfl]
      rfl
    · have hlen : s.length < n := by rw [← hn, List.length_cons]; omega
      rw [replaceStr_cons hpre, List.cons_append, sectionsFrom_cons (sectionEnd_not_first hpre),
        ih _ hlen s rfl]
      rfl

theorem readSections_append (ht : ¬ sectionStart <+: t) (s : Text) :
    readSections (sectionStart ++ (replaceStr sectionEnd cutEnd s ++ (sectionEnd ++ t))) =
      some (s, t) := by
  rw [readSections, dropPrefix?_append, Option.bind_some, sectionsFrom_replaceStr ht]

end Markup
