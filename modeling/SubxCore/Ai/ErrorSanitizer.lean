import SubxCore.Common.ByteSlices
import SubxCore.Common.Matches
import Mathlib.Data.Nat.Find
/-!
# Errors without secrets

The query of a URL may hold a key, so it is cut off where an error is shown, by
one pattern. A word is cut at the first query that the pattern finds
(`sanitize_of_first`), and a query that it does not find stays: that of a URL in
capitals, behind a fragment or right behind the slashes. What is exposed is told
by the beginnings of words (`Exposed`).
-/

namespace SubxCore.Ai

open Text Regex

/-! ## The functions -/

/-- `DEFAULT_ERROR_BODY_MAX_LEN`. -/
def defaultErrorBodyMaxLen : ℕ := 500

/-- The last boundary between characters that is not beyond an offset. -/
def boundaryUpTo (body : Text) : ℕ → ℕ
  | 0 => 0
  | cut + 1 => if (splitAtByte (cut + 1) body).isSome then cut + 1 else boundaryUpTo body cut

/-- What a truncated body ends with. -/
def truncationMark : Text := "... (truncated)".toList

/-- `truncate_error_body`; nothing where the slice panics. -/
def truncateErrorBody (body : Text) (maxLen : ℕ) : Option Text :=
  if byteLen body ≤ maxLen then some body
  else (splitAtByte (boundaryUpTo body maxLen) body).map fun (kept, _) => kept ++ truncationMark

/-- The class `[^\s]`. -/
def visible (c : Char) : Bool := !isWhitespace c

/-- The class `[^\s?#]`. -/
def urlChar (c : Char) : Bool := visible c && c != '?' && c != '#'

/-- The part of a URL that `url_regex` captures. -/
def urlPart : Regex :=
  seqs [lit "http".toList, alt (chr 's') empty, lit "://".toList, some' urlChar]

/-- `url_regex`. -/
def urlRegex : Regex := seqs [group urlPart, chr '?', many visible]

/-- `sanitize_url_in_error`. -/
def sanitizeUrlInError (msg : Text) : Text :=
  urlRegex.replaceAll (fun hit => hit.groups.getD 0 []) msg

/-! ## What a message shows -/

/-- The beginning of a URL, in any case. -/
def IsScheme (u : Text) : Prop :=
  u.map Char.toLower ∈ ["http://".toList, "https://".toList]

instance : DecidablePred IsScheme := fun _ => inferInstanceAs (Decidable (_ ∈ _))

/-- A URL up to a `?`. -/
def IsQueried (l : Text) : Prop :=
  ∃ u m, l = u ++ (m ++ ['?']) ∧ IsScheme u ∧ ∀ c ∈ m, visible c = true

/-- A URL up to a `?` that the pattern finds. -/
def IsCaught (l : Text) : Prop :=
  ∃ u m, l = u ++ (m ++ ['?']) ∧ u ∈ ["http://".toList, "https://".toList] ∧ m ≠ [] ∧
    ∀ c ∈ m, urlChar c = true

/-- **What stays to be seen**: some word begins with a URL and a `?` behind it,
and nothing in that beginning is caught. -/
def Exposed (msg : Text) : Prop :=
  ∃ a z b, msg = a ++ (z ++ b) ∧ (∀ c ∈ a.getLast?, visible c = false) ∧
    (∀ c ∈ z, visible c = true) ∧ Contains IsQueried z ∧ ¬ Contains IsCaught z

/-- A message with the queries of some URLs left out, each from the first `?` of
its URL to the next white space. -/
inductive Stripped : Text → Text → Prop
  | nil : Stripped [] []
  | kept (c : Char) {s t : Text} : Stripped s t → Stripped (c :: s) (c :: t)
  | query {u m query s t : Text} : IsScheme u → (∀ c ∈ m, visible c = true ∧ c ≠ '?') →
    (∀ c ∈ query, visible c = true) → (∀ c ∈ s.head?, visible c = false) → Stripped s t →
    Stripped (u ++ (m ++ ('?' :: (query ++ s)))) (u ++ (m ++ t))

variable {msg word body a b l m q r s t u x z : Text} {c : Char} {maxLen k : ℕ}

/-! ## What the pattern finds -/

theorem anchorFree_urlPart : urlPart.AnchorFree :=
  ⟨anchorFree_lit _, ⟨trivial, trivial⟩, anchorFree_lit _, ⟨trivial, trivial⟩, trivial⟩

theorem anchorFree_urlRegex : urlRegex.AnchorFree := ⟨anchorFree_urlPart, trivial, trivial, trivial⟩

theorem language_urlPart : urlPart.Language l ↔
    ∃ u m, l = u ++ m ∧ u ∈ ["http://".toList, "https://".toList] ∧ m ≠ [] ∧
      ∀ c ∈ m, urlChar c = true := by
  constructor
  · rintro ⟨_, _, rfl, hhttp, _, _, rfl, hs, _, _, rfl, hslashes, m, _, rfl, hm, hnil⟩
    obtain rfl := language_lit.1 hhttp
    obtain rfl := language_lit.1 hslashes
    obtain rfl : _ = [] := hnil
    obtain ⟨hne, hm⟩ := language_some'.1 hm
    rw [List.append_nil]
    rcases hs with hs | hs
    · obtain rfl := language_chr.1 hs
      exact ⟨"https://".toList, m, rfl, by simp, hne, hm⟩
    · obtain rfl : _ = [] := hs
      exact ⟨"http://".toList, m, rfl, by simp, hne, hm⟩
  · rintro ⟨u, m, rfl, hu, hm⟩
    have hrest (t : Text) (ht : (alt (chr 's') empty).Language t) :
        urlPart.Language ("http".toList ++ (t ++ ("://".toList ++ (m ++ [])))) :=
      ⟨_, _, rfl, language_lit.2 rfl, _, _, rfl, ht, _, _, rfl, language_lit.2 rfl, m, [], rfl,
        language_some'.2 hm, rfl⟩
    simp only [List.mem_cons, List.not_mem_nil, or_false] at hu
    rw [← List.append_nil m]
    rcases hu with rfl | rfl
    · exact hrest [] (.inr rfl)
    · exact hrest ['s'] (.inl (language_chr.2 rfl))

/-- The pattern matches where a caught URL starts. -/
theorem run_ne_nil_iff_caught : urlRegex.run none s ≠ [] ↔ ∃ q, q <+: s ∧ IsCaught q := by
  rw [run_ne_nil_iff anchorFree_urlRegex]
  constructor
  · rintro ⟨_, hl, _, _, rfl, hpart, _, _, rfl, hmark, -⟩
    obtain ⟨u, m, rfl, hu, hm⟩ := language_urlPart.1 hpart
    obtain rfl := language_chr.1 hmark
    refine ⟨u ++ (m ++ ['?']), ?_, u, m, rfl, hu, hm⟩
    rw [← List.append_assoc u m]
    exact (List.prefix_append_right_inj _).2 (List.prefix_append _ _) |>.trans hl
  · rintro ⟨_, hq, u, m, rfl, hu, hm⟩
    refine ⟨_, hq, u ++ m, ['?'], (List.append_assoc u m _).symm,
      language_urlPart.2 ⟨u, m, rfl, hu, hm⟩, ['?'], [], rfl, language_chr.2 rfl, [], [], rfl, ?_, rfl⟩
    exact fun c hc => absurd hc List.not_mem_nil

/-- The whole of a URL before its query is captured. -/
theorem prefers_urlPart (hu : u ∈ ["http://".toList, "https://".toList]) (hne : m ≠ [])
    (hm : ∀ c ∈ m, urlChar c = true) : Prefers urlPart (u ++ m) [] ('?' :: s) := by
  have hchars : Prefers (some' urlChar) m [] ('?' :: s) :=
    prefers_some' hne hm fun c hc => by rw [← Option.some.inj hc]; rfl
  have hrest {t : Text} (ht : Prefers (alt (chr 's') empty) t []
      ("://".toList ++ m ++ '?' :: s)) :
      Prefers urlPart ("http".toList ++ (t ++ ("://".toList ++ m))) [] ('?' :: s) :=
    (takes_lit _).prefers.cons (ht.cons ((takes_lit _).prefers.cons hchars.last))
  simp only [List.mem_cons, List.not_mem_nil, or_false] at hu
  rcases hu with rfl | rfl
  · refine hrest (t := []) (Prefers.alt_right (fun prev => ?_) takes_empty.prefers)
    exact run_one_eq_nil fun c hc => by rw [← Option.some.inj hc]; rfl
  · exact hrest (t := ['s']) takes_chr.prefers.alt_left

/-- What is found is one URL, with its query up to the next white space. -/
theorem sanitize_query (hu : u ∈ ["http://".toList, "https://".toList]) (hne : m ≠ [])
    (hm : ∀ c ∈ m, urlChar c = true) (hx : ∀ c ∈ x, visible c = true)
    (hs : ∀ c ∈ s.head?, visible c = false) :
    sanitizeUrlInError (u ++ (m ++ '?' :: (x ++ s))) = u ++ (m ++ sanitizeUrlInError s) := by
  have hpart := prefers_urlPart (s := x ++ s) hu hne hm
  have hquery : Prefers (seqs [chr '?', many visible]) ('?' :: x) [] s :=
    takes_chr.prefers.cons (prefers_many hx hs).last
  have hall := (hpart.group.cons hquery).replaceAll (f := fun hit => hit.groups.getD 0 [])
    anchorFree_urlRegex (by simp)
  have hassoc : u ++ m ++ '?' :: x ++ s = u ++ (m ++ '?' :: (x ++ s)) := by
    rw [List.append_assoc, List.append_assoc, List.cons_append]
  rw [hassoc] at hall
  exact hall.trans (List.append_assoc u m _)

/-! ## What is in a word -/

theorem visible_of_urlChar (h : urlChar c = true) : visible c = true := by
  rw [urlChar, Bool.and_eq_true, Bool.and_eq_true] at h
  exact h.1.1

theorem ne_mark_of_urlChar (h : urlChar c = true) : c ≠ '?' := by
  rintro rfl
  exact absurd h (by decide)

theorem isScheme_of_mem (hu : u ∈ ["http://".toList, "https://".toList]) : IsScheme u := by
  simp only [List.mem_cons, List.not_mem_nil, or_false] at hu
  rcases hu with rfl | rfl
  · exact List.mem_cons_self
  · exact List.mem_cons_of_mem _ List.mem_cons_self

theorem visible_of_isScheme (hu : IsScheme u) (hc : c ∈ u) : visible c = true := by
  have hlower : ∀ l ∈ ["http://".toList, "https://".toList], ∀ d ∈ l, visible d = true := by
    decide
  have := hlower _ hu _ (List.mem_map_of_mem hc)
  rwa [visible, isWhitespace_toLower] at this

theorem IsScheme.not_mem_mark (hu : IsScheme u) : '?' ∉ u := fun hc => by
  have hlower : ∀ l ∈ ["http://".toList, "https://".toList], '?' ∉ l := by decide
  exact hlower _ hu (List.mem_map_of_mem (f := Char.toLower) hc)

theorem visible_of_isQueried (h : IsQueried l) (hc : c ∈ l) : visible c = true := by
  obtain ⟨u, m, rfl, hu, hm⟩ := h
  rcases List.mem_append.1 hc with hc | hc
  · exact visible_of_isScheme hu hc
  rcases List.mem_append.1 hc with hc | hc
  · exact hm c hc
  · rw [List.mem_singleton.1 hc]
    rfl

theorem IsCaught.isQueried (h : IsCaught l) : IsQueried l := by
  obtain ⟨u, m, rfl, hu, -, hm⟩ := h
  exact ⟨u, m, rfl, isScheme_of_mem hu, fun c hc => visible_of_urlChar (hm c hc)⟩

/-- What has no white space and starts a text starts its first word. -/
theorem prefix_word (hq : ∀ c ∈ q, visible c = true) (hs : ∀ c ∈ s.head?, visible c = false)
    (h : q <+: word ++ s) : q <+: word := by
  rcases List.prefix_or_prefix_of_prefix h (List.prefix_append word s) with h | ⟨y, rfl⟩
  · exact h
  rcases y with - | ⟨c, y⟩
  · rw [List.append_nil]
  · obtain ⟨t, rfl⟩ := (List.prefix_append_right_inj word).1 h
    have hc := hq c (List.mem_append_right word List.mem_cons_self)
    rw [hs c rfl] at hc
    cases hc

/-- In a word with nothing to find, nothing is found, whatever follows it. -/
theorem run_drop_eq_nil (hs : ∀ c ∈ s.head?, visible c = false) (hk : k < word.length)
    (h : ¬ ∃ q, q <+: word.drop k ∧ IsCaught q) :
    urlRegex.run none ((word ++ s).drop k) = [] := by
  by_contra hne
  obtain ⟨q, hq, hcaught⟩ := run_ne_nil_iff_caught.1 hne
  rw [List.drop_append_of_le_length hk.le] at hq
  exact h ⟨q, prefix_word (fun c hc => visible_of_isQueried hcaught.isQueried hc) hs hq, hcaught⟩

/-- The first URL in a text that is found, where there is one. -/
theorem exists_first (h : Contains IsCaught word) : ∃ a u m x, word = a ++ (u ++ (m ++ '?' :: x)) ∧
    (u ∈ ["http://".toList, "https://".toList] ∧ m ≠ [] ∧ ∀ c ∈ m, urlChar c = true) ∧
      ∀ k < a.length, ¬ ∃ q, q <+: word.drop k ∧ IsCaught q := by
  have hex : ∃ k, ∃ q, q <+: word.drop k ∧ IsCaught q := by
    obtain ⟨q, ⟨a, b, rfl⟩, hcaught⟩ := h
    refine ⟨a.length, q, ?_, hcaught⟩
    rw [List.append_assoc, List.drop_left]
    exact List.prefix_append q b
  classical
  obtain ⟨_, ⟨x, hx⟩, u, m, rfl, hurl⟩ := Nat.find_spec hex
  rw [List.append_assoc, List.append_assoc, List.singleton_append] at hx
  refine ⟨word.take (Nat.find hex), u, m, x, ?_, hurl, fun k hk => Nat.find_min hex ?_⟩
  · rw [hx, List.take_append_drop]
  · rw [List.length_take] at hk
    omega

/-- Nothing is found before the query of the first URL that is. -/
theorem not_contains_before_first
    (hurl : u ∈ ["http://".toList, "https://".toList] ∧ m ≠ [] ∧ ∀ c ∈ m, urlChar c = true)
    (hfirst : ∀ k < a.length, ¬ ∃ q, q <+: (a ++ (u ++ (m ++ '?' :: x))).drop k ∧ IsCaught q) :
    ¬ Contains IsCaught (a ++ (u ++ m)) := by
  rintro ⟨_, ⟨b, c, hb⟩, v, n, rfl, hv⟩
  have hmark : '?' ∉ u ++ m := fun h => (List.mem_append.1 h).elim
    (isScheme_of_mem hurl.1).not_mem_mark fun h => ne_mark_of_urlChar (hurl.2.2 _ h) rfl
  have heq : (b ++ (v ++ n)) ++ '?' :: c = a ++ (u ++ m) := by
    rw [← hb]
    simp only [List.append_assoc, List.singleton_append]
  -- the `?` of a URL before it is not in the URL, so the other one starts sooner
  rcases List.append_eq_append_iff.1 heq with ⟨y, rfl, hy⟩ | ⟨y, hy, hum⟩
  · cases y with
    | nil => exact hmark (hy ▸ List.mem_cons_self)
    | cons d y =>
      obtain ⟨rfl, -⟩ := List.cons.inj hy
      refine hfirst b.length ?_ ⟨v ++ (n ++ ['?']), ?_, v, n, rfl, hv⟩
      · rw [List.length_append, List.length_append, List.length_cons]
        omega
      · rw [List.append_assoc, List.append_assoc, List.drop_left]
        exact ⟨y ++ (u ++ (m ++ '?' :: x)), by simp⟩
  · exact hmark (hum ▸ List.mem_append_right y List.mem_cons_self)

/-- A word in which nothing is found stays, whatever follows it. -/
theorem sanitize_of_not_contains (h : ¬ Contains IsCaught word)
    (hs : ∀ c ∈ s.head?, visible c = false) :
    sanitizeUrlInError (word ++ s) = word ++ sanitizeUrlInError s := by
  refine replaceAll_of_no_start anchorFree_urlRegex fun k hk => run_drop_eq_nil hs hk ?_
  rintro ⟨q, hq, hcaught⟩
  exact h ⟨q, hq.isInfix.trans (List.drop_suffix k word).isInfix, hcaught⟩

/-- **What is left of a word**: nothing that is found, and the whole word or what stands
before the query of a URL. -/
structure IsCut (word t : Text) : Prop where
  free : ¬ Contains IsCaught t
  whole_or : t = word ∨ ∃ a u m x, word = a ++ (u ++ (m ++ '?' :: x)) ∧ t = a ++ (u ++ m) ∧
    u ∈ ["http://".toList, "https://".toList] ∧ m ≠ [] ∧ ∀ c ∈ m, urlChar c = true

/-- **A word is cut at the first query that is found.** -/
theorem exists_isCut (hword : ∀ c ∈ word, visible c = true) : ∃ t, IsCut word t ∧
    ∀ s, (∀ c ∈ s.head?, visible c = false) →
      sanitizeUrlInError (word ++ s) = t ++ sanitizeUrlInError s := by
  by_cases h : Contains IsCaught word
  · obtain ⟨a, u, m, x, rfl, hurl, hfirst⟩ := exists_first h
    refine ⟨a ++ (u ++ m), ⟨not_contains_before_first hurl hfirst,
      .inr ⟨a, u, m, x, rfl, rfl, hurl⟩⟩, fun s hs => ?_⟩
    have hx : ∀ c ∈ x, visible c = true := fun c hc => hword c (by simp [hc])
    have hassoc : a ++ (u ++ (m ++ '?' :: x)) ++ s = a ++ (u ++ (m ++ '?' :: (x ++ s))) := by simp
    have hstart : ∀ k < a.length,
        urlRegex.run none ((a ++ (u ++ (m ++ '?' :: (x ++ s)))).drop k) = [] := fun k hk => by
      rw [← hassoc]
      exact run_drop_eq_nil hs (by rw [List.length_append]; omega) (hfirst k hk)
    have hbefore : sanitizeUrlInError (a ++ (u ++ (m ++ '?' :: (x ++ s)))) =
        a ++ sanitizeUrlInError (u ++ (m ++ '?' :: (x ++ s))) :=
      replaceAll_of_no_start anchorFree_urlRegex hstart
    rw [hassoc, hbefore, sanitize_query hurl.1 hurl.2.1 hurl.2.2 hx hs, List.append_assoc,
      List.append_assoc]
  · exact ⟨word, ⟨h, .inl rfl⟩, fun s hs => sanitize_of_not_contains h hs⟩

/-- What is left of a word starts it. -/
theorem IsCut.prefix (h : IsCut word t) : t <+: word := by
  rcases h.whole_or with rfl | ⟨a, u, m, x, rfl, rfl, -⟩
  · exact List.prefix_rfl
  · exact ⟨'?' :: x, by simp⟩

/-! ## Word by word -/

/-- A message is gone through word by word. -/
theorem word_induction {P : Text → Prop} (hlast : ∀ word, (∀ c ∈ word, visible c = true) → P word)
    (hmore : ∀ word c s, (∀ c ∈ word, visible c = true) → visible c = false → P s →
      P (word ++ c :: s)) (msg : Text) : P msg := by
  induction hn : msg.length using Nat.strong_induction_on generalizing msg with
  | _ n ih =>
    have hword : ∀ c ∈ msg.takeWhile visible, visible c = true :=
      fun c hc => List.mem_takeWhile_imp hc
    have hsplit := List.takeWhile_append_dropWhile (p := visible) (l := msg)
    rcases hrest : msg.dropWhile visible with - | ⟨c, s⟩
    · rw [hrest, List.append_nil] at hsplit
      rw [← hsplit]
      exact hlast _ hword
    · have hc : visible c = false := by
        have := List.head?_dropWhile_not visible msg
        rw [hrest] at this
        simpa using this
      rw [hrest] at hsplit
      rw [← hsplit]
      refine hmore _ c s hword hc (ih s.length ?_ s rfl)
      rw [← hn, ← hsplit, List.length_append, List.length_cons]
      omega

theorem sanitize_cons (hc : visible c = false) :
    sanitizeUrlInError (c :: s) = c :: sanitizeUrlInError s := by
  have hhead : ∀ d ∈ (c :: s).head?, visible d = false := fun d hd => Option.some.inj hd ▸ hc
  refine replaceAll_cons anchorFree_urlRegex ?_
  by_contra hne
  obtain ⟨q, hq, hcaught⟩ := run_ne_nil_iff_caught.1 hne
  have hvisible : ∀ d ∈ q, visible d = true :=
    fun d hd => visible_of_isQueried hcaught.isQueried hd
  obtain ⟨u, m, rfl, -⟩ := hcaught
  have hnil : u ++ (m ++ ['?']) <+: [] := prefix_word hvisible hhead hq
  simp at hnil

/-- What is left of a message, the first word and what follows it. -/
theorem sanitize_word (hword : ∀ c ∈ word, visible c = true) : ∃ t, IsCut word t ∧
    sanitizeUrlInError word = t ∧ ∀ c s, visible c = false →
      sanitizeUrlInError (word ++ c :: s) = t ++ c :: sanitizeUrlInError s := by
  obtain ⟨t, ht, hall⟩ := exists_isCut hword
  refine ⟨t, ht, ?_, fun c s hc => ?_⟩
  · have hlast := hall [] (by simp)
    rw [List.append_nil] at hlast
    exact hlast.trans (List.append_nil t)
  · rw [hall (c :: s) (by simp [hc]), sanitize_cons hc]

theorem contains_queried_append (hc : visible c = false) :
    Contains IsQueried (t ++ c :: s) ↔ Contains IsQueried t ∨ Contains IsQueried s := by
  refine contains_append_cons fun l hl hmem => ?_
  rw [visible_of_isQueried hl hmem] at hc
  cases hc

/-- A word begins where it begins. -/
theorem exposed_word (hword : ∀ c ∈ word, visible c = true) : Exposed word ↔
    ∃ z, z <+: word ∧ Contains IsQueried z ∧ ¬ Contains IsCaught z := by
  constructor
  · rintro ⟨a, z, b, rfl, ha, -, hz⟩
    rcases List.eq_nil_or_concat' a with rfl | ⟨a, c, rfl⟩
    · exact ⟨z, ⟨b, rfl⟩, hz⟩
    · have hc := ha c (by simp)
      rw [hword c (by simp)] at hc
      cases hc
  · rintro ⟨z, ⟨b, rfl⟩, hz⟩
    exact ⟨[], z, b, rfl, by simp, fun c hc => hword c (List.mem_append_left b hc), hz⟩

/-- **Words are exposed one by one.** -/
theorem exposed_append (hword : ∀ c ∈ word, visible c = true) (hc : visible c = false) :
    Exposed (word ++ c :: s) ↔ Exposed word ∨ Exposed s := by
  rw [exposed_word hword]
  constructor
  · rintro ⟨a, z, b, heq, ha, hvisible, hz⟩
    rcases List.eq_nil_or_concat' a with rfl | ⟨a, d, rfl⟩
    · refine .inl ⟨z, prefix_word hvisible (s := c :: s) (by simp [hc]) ⟨b, heq.symm⟩, hz⟩
    · -- white space before the beginning is after the first word
      have hd : visible d = false := ha d (by simp)
      rw [List.append_assoc, List.singleton_append] at heq
      rcases List.append_eq_append_iff.1 heq with ⟨y, rfl, hy⟩ | ⟨y, rfl, hy⟩
      · rcases y with - | ⟨e, y⟩
        · obtain ⟨-, rfl⟩ := List.cons.inj hy
          exact .inr ⟨[], z, b, rfl, by simp, hvisible, hz⟩
        · obtain ⟨-, rfl⟩ := List.cons.inj hy
          refine .inr ⟨y ++ [d], z, b, by simp, ?_, hvisible, hz⟩
          simpa using hd
      · rcases y with - | ⟨e, y⟩
        · obtain ⟨-, rfl⟩ := List.cons.inj hy
          exact .inr ⟨[], z, b, rfl, by simp, hvisible, hz⟩
        · obtain ⟨rfl, -⟩ := List.cons.inj hy
          rw [hword d (by simp)] at hd
          cases hd
  · rintro (⟨z, ⟨b, rfl⟩, hz⟩ | ⟨a, z, b, rfl, ha, hz⟩)
    · exact ⟨[], z, b ++ c :: s, by simp, by simp,
        fun d hd => hword d (List.mem_append_left b hd), hz⟩
    · refine ⟨word ++ c :: a, z, b, by simp, ?_, hz⟩
      rcases List.eq_nil_or_concat' a with rfl | ⟨a, d, rfl⟩
      · simpa using hc
      · rw [← List.cons_append, ← List.append_assoc, List.getLast?_concat]
        rwa [List.getLast?_concat] at ha

/-- **A word is exposed where what is left of it is.** -/
theorem IsCut.contains_queried_iff (h : IsCut word t) (hword : ∀ c ∈ word, visible c = true) :
    Contains IsQueried t ↔ Exposed word := by
  rw [exposed_word hword]
  refine ⟨fun ht => ⟨t, h.prefix, ht, h.free⟩, ?_⟩
  rintro ⟨z, hz, hqueried, hfree⟩
  rcases List.prefix_or_prefix_of_prefix hz h.prefix with hin | ⟨y, rfl⟩
  · exact hqueried.mono hin.isInfix
  rcases h.whole_or with rfl | ⟨a, u, m, x, rfl, rfl, hurl⟩
  · exact hqueried.mono hz.isInfix
  rcases y with - | ⟨d, y⟩
  · rwa [List.append_nil] at hqueried
  · -- a longer beginning has the query in it
    have hmark : d :: y <+: '?' :: x := by
      have hassoc : a ++ (u ++ (m ++ '?' :: x)) = a ++ (u ++ m) ++ '?' :: x := by simp
      rw [hassoc] at hz
      exact (List.prefix_append_right_inj _).1 hz
    obtain ⟨rfl, -⟩ := List.cons_prefix_cons.1 hmark
    refine absurd ⟨u ++ (m ++ ['?']), ⟨a, y, by simp⟩, u, m, rfl, hurl⟩ hfree

/-! ## The whole message -/

/-- **What is exposed is what is left.** -/
theorem contains_queried_sanitize (msg : Text) :
    Contains IsQueried (sanitizeUrlInError msg) ↔ Exposed msg := by
  induction msg using word_induction with
  | hlast word hword =>
    obtain ⟨t, ht, heq, -⟩ := sanitize_word hword
    rw [heq, ht.contains_queried_iff hword]
  | hmore word c s hword hc ih =>
    obtain ⟨t, ht, -, heq⟩ := sanitize_word hword
    rw [heq c s hc, contains_queried_append hc, ht.contains_queried_iff hword, ih,
      exposed_append hword hc]

/-- Nothing is found in what is left. -/
theorem sanitize_sanitize (msg : Text) :
    sanitizeUrlInError (sanitizeUrlInError msg) = sanitizeUrlInError msg := by
  induction msg using word_induction with
  | hlast word hword =>
    obtain ⟨t, ht, heq, -⟩ := sanitize_word hword
    have hkept := sanitize_of_not_contains ht.free (s := []) (by simp)
    rw [List.append_nil] at hkept
    rw [heq, hkept]
    exact List.append_nil t
  | hmore word c s hword hc ih =>
    obtain ⟨t, ht, -, heq⟩ := sanitize_word hword
    rw [heq c s hc, sanitize_of_not_contains ht.free (by simp [hc]), sanitize_cons hc, ih]

theorem Stripped.append (h : Stripped s t) : ∀ a : Text, Stripped (a ++ s) (a ++ t)
  | [] => h
  | c :: a => (h.append a).kept c

theorem IsCut.stripped (h : IsCut word t) (hword : ∀ c ∈ word, visible c = true)
    (hs : ∀ c ∈ s.head?, visible c = false) (hrest : Stripped s r) :
    Stripped (word ++ s) (t ++ r) := by
  rcases h.whole_or with rfl | ⟨a, u, m, x, rfl, rfl, hu, -, hm⟩
  · exact hrest.append t
  · have hquery : Stripped (u ++ (m ++ '?' :: (x ++ s))) (u ++ (m ++ r)) :=
      .query (isScheme_of_mem hu)
        (fun c hc => ⟨visible_of_urlChar (hm c hc), ne_mark_of_urlChar (hm c hc)⟩)
        (fun c hc => hword c (by simp [hc])) hs hrest
    simpa using hquery.append a

/-- **Nothing is left out but queries of URLs.** -/
theorem stripped_sanitize (msg : Text) : Stripped msg (sanitizeUrlInError msg) := by
  induction msg using word_induction with
  | hlast word hword =>
    obtain ⟨t, ht, heq, -⟩ := sanitize_word hword
    have hcut := ht.stripped hword (s := []) (by simp) .nil
    rwa [List.append_nil, List.append_nil, ← heq] at hcut
  | hmore word c s hword hc ih =>
    obtain ⟨t, ht, -, heq⟩ := sanitize_word hword
    rw [heq c s hc]
    exact ht.stripped hword (by simp [hc]) (ih.kept c)

/-! ## Truncating -/

theorem boundaryUpTo_le : ∀ n, boundaryUpTo body n ≤ n
  | 0 => le_rfl
  | n + 1 => by
    rw [boundaryUpTo]
    split
    · exact le_rfl
    · exact (boundaryUpTo_le n).trans n.le_succ

/-- Where the cut is, the text can be cut. -/
theorem splitAtByte_boundaryUpTo (body : Text) :
    ∀ n, (splitAtByte (boundaryUpTo body n) body).isSome
  | 0 => by
    rw [boundaryUpTo, splitAtByte]
    rfl
  | n + 1 => by
    rw [boundaryUpTo]
    split
    · next h => exact h
    · exact splitAtByte_boundaryUpTo body n

/-- **A body is truncated at a character**, and a short one is not. -/
theorem truncateErrorBody_cases (body : Text) (maxLen : ℕ) :
    (byteLen body ≤ maxLen ∧ truncateErrorBody body maxLen = some body) ∨
      maxLen < byteLen body ∧ ∃ kept, kept <+: body ∧ byteLen kept ≤ maxLen ∧
        truncateErrorBody body maxLen = some (kept ++ truncationMark) := by
  rcases Nat.lt_or_ge maxLen (byteLen body) with hlong | hshort
  · obtain ⟨⟨kept, rest⟩, hsplit⟩ := Option.isSome_iff_exists.1
      (splitAtByte_boundaryUpTo body maxLen)
    obtain ⟨hbody, hlen⟩ := splitAtByte_eq_some hsplit
    refine .inr ⟨hlong, kept, ⟨rest, hbody.symm⟩, hlen ▸ boundaryUpTo_le maxLen, ?_⟩
    rw [truncateErrorBody, if_neg hlong.not_ge, hsplit]
    rfl
  · exact .inl ⟨hshort, if_pos hshort⟩

/-! ## The result -/

/-- **No secret is shown**: the sanitizer leaves no URL with a query, stays as it is
when it is applied again and leaves out nothing but queries; a body that is too long
is cut. -/
structure Sanitizes (msg body : Text) (maxLen : ℕ) : Prop where
  noQuery : ¬ Contains IsQueried (sanitizeUrlInError msg)
  idempotent : sanitizeUrlInError (sanitizeUrlInError msg) = sanitizeUrlInError msg
  stripped : Stripped msg (sanitizeUrlInError msg)
  truncated : (byteLen body ≤ maxLen ∧ truncateErrorBody body maxLen = some body) ∨
    maxLen < byteLen body ∧ ∃ kept, kept <+: body ∧ byteLen kept ≤ maxLen ∧
      truncateErrorBody body maxLen = some (kept ++ truncationMark)

/-- **Errors are shown without secrets exactly when no word is exposed.** -/
theorem sanitizes_iff (msg body : Text) (maxLen : ℕ) :
    Sanitizes msg body maxLen ↔ ¬ Exposed msg := by
  rw [← contains_queried_sanitize]
  exact ⟨Sanitizes.noQuery, fun h => ⟨h, sanitize_sanitize msg, stripped_sanitize msg,
    truncateErrorBody_cases body maxLen⟩⟩

/-- A URL in capitals keeps its key. -/
theorem capitals_keep_query :
    ¬ Sanitizes "HTTPS://host/?api-key=sk-1".toList [] 0 ∧
      sanitizeUrlInError "HTTPS://host/?api-key=sk-1".toList =
        "HTTPS://host/?api-key=sk-1".toList := by
  have hkept : sanitizeUrlInError "HTTPS://host/?api-key=sk-1".toList =
      "HTTPS://host/?api-key=sk-1".toList := by decide +kernel
  refine ⟨fun h => h.noQuery ?_, hkept⟩
  rw [hkept]
  refine ⟨"HTTPS://host/?".toList, by decide +kernel, "HTTPS://".toList, "host/".toList, rfl, ?_, ?_⟩
  · decide +kernel
  · decide +kernel

example : sanitizeUrlInError "at https://x.test/a?token=b now".toList =
    "at https://x.test/a now".toList := by decide +kernel

end SubxCore.Ai
