import SubxCore.Translation.Requests
/-!
# The glossary of a user

A glossary is read line by line: `source -> target`, or `source = target` in a line without an
arrow. Comments, and lines that are neither, are passed over. What is read can be written with
arrows and read again; and in a translation it goes before what the provider comes up with,
the last line of a term before the others.
-/

namespace SubxCore

open Text Function

/-- The text before and after the first `sep`, as `splitn(2, sep)` cuts it. -/
def splitFirst (sep : Text) : Text → Option (Text × Text)
  | [] => none
  | c :: s =>
    if sep <+: c :: s then some ([], (c :: s).drop sep.length)
    else (splitFirst sep s).map fun parts => (c :: parts.1, parts.2)

def arrow : Text := "->".toList

/-- The separator of a line, which has an arrow first. -/
def glossarySeparator (line : Text) : Option Text :=
  if containsStr arrow line then some arrow
  else if containsStr ['='] line then some ['=']
  else none

/-- What `parse_glossary_text` reads in a line. -/
def parseGlossaryLine (rawLine : Text) : Option GlossaryEntry := do
  let line := trim rawLine
  if line = [] ∨ line.head? = some '#' then none
  let separator ← glossarySeparator line
  let (before, after) ← splitFirst separator line
  if trim before = [] ∨ trim after = [] then none
  return ⟨trim before, trim after⟩

/-- `parse_glossary_text`. -/
def parseGlossaryText (text : Text) : List GlossaryEntry := (lines text).filterMap parseGlossaryLine

/-- An entry as a line with an arrow. -/
def GlossaryEntry.line (entry : GlossaryEntry) : Text := entry.source ++ " -> ".toList ++ entry.target

/-- A glossary with a line for each entry. -/
def glossaryText (entries : List GlossaryEntry) : Text := entries.flatMap fun e => e.line ++ ['\n']

/-- **An entry that a line can hold.** -/
structure GlossaryEntry.Writable (entry : GlossaryEntry) : Prop where
  source : trim entry.source = entry.source ∧ entry.source ≠ []
  target : trim entry.target = entry.target ∧ entry.target ≠ []
  comment : entry.source.head? ≠ some '#'
  arrow : ¬ SubxCore.arrow <:+: entry.source
  line : '\n' ∉ entry.line

variable {sep s a b rawLine text : Text} {e : GlossaryEntry} {es : List GlossaryEntry}

/-! ## The first separator -/

/-- A cut is at a separator, and there is none before it. -/
theorem splitFirst_eq_some (hsep : sep ≠ []) (h : splitFirst sep s = some (a, b)) :
    s = a ++ sep ++ b ∧ ¬ sep <:+: a := by
  induction s generalizing a with
  | nil => cases h
  | cons c s ih =>
    rw [splitFirst] at h
    split at h
    · next hpre =>
      cases h
      refine ⟨?_, fun hinside => hsep (List.infix_nil.1 hinside)⟩
      obtain ⟨t, ht⟩ := hpre
      rw [← ht, List.drop_left, List.nil_append]
    · next hpre =>
      obtain ⟨⟨a', b'⟩, hrest, heq⟩ := Option.map_eq_some_iff.1 h
      cases heq
      obtain ⟨rfl, hno⟩ := ih hrest
      refine ⟨rfl, fun hinside => ?_⟩
      rcases List.infix_cons_iff.1 hinside with hstart | hinside
      · exact hpre (hstart.trans ⟨sep ++ b', by simp⟩)
      · exact hno hinside

/-- **An arrow after a blank is where the line is cut**, where none is before it. -/
theorem splitFirst_arrow (h : ¬ arrow <:+: s) (t : Text) :
    splitFirst arrow (s ++ " -> ".toList ++ t) = some (s ++ [' '], ' ' :: t) := by
  induction s with
  | nil => rfl
  | cons c s ih =>
    have hno : ¬ arrow <+: c :: (s ++ " -> ".toList ++ t) := by
      -- the arrow would be in the source, or end in the blank after it
      rintro hpre
      obtain ⟨hc, hpre⟩ := List.cons_prefix_cons.1 hpre
      cases s with
      | nil => exact absurd (List.cons_prefix_cons.1 hpre).1 (by decide)
      | cons d s =>
        obtain ⟨hd, -⟩ := List.cons_prefix_cons.1 hpre
        exact h ⟨[], s, by rw [← hc, ← hd]; rfl⟩
    rw [List.cons_append, List.cons_append, splitFirst, if_neg hno,
      ih fun hinside => h (hinside.trans (List.infix_cons List.infix_rfl))]
    rfl

/-! ## A line -/

/-- What is cut out of a trimmed line can be written, if no arrow is before the cut. -/
theorem writable_of_cut (hline : trim rawLine = a ++ sep ++ b)
    (hcomment : (trim rawLine).head? ≠ some '#') (harrow : ¬ arrow <:+: a)
    (ha : trim a ≠ []) (hb : trim b ≠ []) (hn : '\n' ∉ rawLine) :
    GlossaryEntry.Writable ⟨trim a, trim b⟩ where
  source := ⟨trim_trim, ha⟩
  target := ⟨trim_trim, hb⟩
  comment := by
    have hne : a ≠ [] := by
      rintro rfl
      exact ha rfl
    obtain ⟨c, a', rfl⟩ := List.exists_cons_of_ne_nil hne
    have hhead : (trim rawLine).head? = some c := by
      rw [hline]
      rfl
    have hstart : trimStart (c :: a') = c :: a' := by
      rw [trimStart, List.dropWhile_cons_of_neg]
      rw [head?_trim hhead]
      decide
    have hpre : trim (c :: a') <+: c :: a' := by
      rw [trim, hstart]
      exact List.rdropWhile_prefix isWhitespace (c :: a')
    obtain ⟨d, s, hs⟩ := List.exists_cons_of_ne_nil ha
    dsimp only
    rw [hs] at hpre ⊢
    rw [List.head?_cons, (List.cons_prefix_cons.1 hpre).1, ← hhead]
    exact hcomment
  arrow h := harrow (h.trans infix_trim)
  line h := by
    have hinside : a ++ sep ++ b <:+: rawLine := hline ▸ infix_trim
    have hmem : ∀ c, c ∈ a ∨ c ∈ b → c ∈ rawLine := by
      intro c hc
      refine hinside.subset ?_
      rw [List.mem_append, List.mem_append]
      rcases hc with hc | hc
      · exact .inl (.inl hc)
      · exact .inr hc
    have hline' : '\n' ∈ trim a ∨ '\n' ∈ trim b := by
      rw [GlossaryEntry.line, List.mem_append, List.mem_append] at h
      rcases h with (h | h) | h
      · exact .inl h
      · exact absurd h (by decide)
      · exact .inr h
    rcases hline' with h | h
    · exact hn (hmem _ (.inl (infix_trim.subset h)))
    · exact hn (hmem _ (.inr (infix_trim.subset h)))

/-- **What a line is read as can be written.** -/
theorem writable_of_parseGlossaryLine (hn : '\n' ∉ rawLine)
    (h : parseGlossaryLine rawLine = some e) : e.Writable := by
  unfold parseGlossaryLine at h
  dsimp only at h
  split at h
  · cases h
  next hline =>
  obtain ⟨hne, hcomment⟩ := not_or.1 hline
  obtain ⟨separator, hseparator, h⟩ := Option.bind_eq_some_iff.1 h
  obtain ⟨⟨before, after⟩, hcut, h⟩ := Option.bind_eq_some_iff.1 h
  dsimp only at h
  split at h
  · cases h
  next hparts =>
  obtain ⟨hbefore, hafter⟩ := not_or.1 hparts
  obtain rfl := Option.some.inj h
  unfold glossarySeparator at hseparator
  split at hseparator
  · obtain rfl := Option.some.inj hseparator
    obtain ⟨heq, hno⟩ := splitFirst_eq_some (by decide) hcut
    exact writable_of_cut heq hcomment hno hbefore hafter hn
  next harrow =>
  split at hseparator
  · obtain rfl := Option.some.inj hseparator
    obtain ⟨heq, -⟩ := splitFirst_eq_some (by decide) hcut
    refine writable_of_cut heq hcomment (fun hinside => harrow (decide_eq_true ?_)) hbefore hafter hn
    -- no arrow is in the line, so none is before the equals sign
    rw [heq, List.append_assoc]
    exact hinside.trans (List.prefix_append _ _).isInfix
  · cases hseparator

/-- **And what can be written is read back.** -/
theorem parseGlossaryLine_line (h : e.Writable) : parseGlossaryLine e.line = some e := by
  obtain ⟨c, source, hsource⟩ := List.exists_cons_of_ne_nil h.source.2
  have hhead : ∀ d ∈ e.line.head?, isWhitespace d = false := by
    intro d hd
    refine head?_trim (s := e.source) ?_
    rw [GlossaryEntry.line, hsource] at hd
    rw [h.source.1, hsource]
    exact hd
  have hlast : ∀ d ∈ e.line.getLast?, isWhitespace d = false := by
    intro d hd
    refine getLast?_trim (s := e.target) ?_
    rw [GlossaryEntry.line, List.getLast?_append_of_ne_nil _ h.target.2] at hd
    rw [h.target.1]
    exact hd
  have htrim : trim e.line = e.line := trim_eq_self hhead hlast
  have hne : ¬ (e.line = [] ∨ e.line.head? = some '#') := by
    rw [GlossaryEntry.line, hsource]
    rintro (hnil | hcomment)
    · cases hnil
    · refine h.comment ?_
      rw [hsource]
      exact hcomment
  have hseparator : glossarySeparator e.line = some arrow := by
    have hinside : arrow <:+: e.line := ⟨e.source ++ [' '], ' ' :: e.target, by
      rw [GlossaryEntry.line, arrow]
      simp⟩
    rw [glossarySeparator, containsStr, if_pos (decide_eq_true hinside)]
  have hsourceTrim : trim (e.source ++ [' ']) = e.source := by
    rw [trim_concat_whitespace (by decide), h.source.1]
  have htargetTrim : trim (' ' :: e.target) = e.target := by
    rw [trim_cons_whitespace (by decide), h.target.1]
  have hparts : ¬ (e.source = [] ∨ e.target = []) := not_or.2 ⟨h.source.2, h.target.2⟩
  unfold parseGlossaryLine
  dsimp only
  rw [htrim, if_neg hne, hseparator, Option.bind_eq_bind, Option.bind_some, GlossaryEntry.line,
    splitFirst_arrow h.arrow, Option.bind_eq_bind, Option.bind_some]
  dsimp only
  rw [hsourceTrim, htargetTrim, if_neg hparts]
  rfl

/-! ## A glossary -/

theorem writable_of_mem_parseGlossaryText (h : e ∈ parseGlossaryText text) : e.Writable := by
  obtain ⟨rawLine, hline, hparse⟩ := List.mem_filterMap.1 h
  exact writable_of_parseGlossaryLine (newline_not_mem_of_mem_lines hline) hparse

theorem parseGlossaryText_of_writable (h : ∀ e ∈ es, e.Writable) :
    parseGlossaryText (glossaryText es) = es := by
  have hlines : lines (glossaryText es) = es.map GlossaryEntry.line := by
    have htext : glossaryText es = (es.map GlossaryEntry.line).flatMap (fun l => l ++ ['\n']) ++ [] := by
      rw [glossaryText, List.flatMap_map, List.append_nil]
    rw [htext, lines_flatMap_newline, lines_nil, List.append_nil]
    · intro l hl
      obtain ⟨e, he, rfl⟩ := List.mem_map.1 hl
      exact (h e he).line
    · intro l hl hr
      obtain ⟨e, he, rfl⟩ := List.mem_map.1 hl
      rw [GlossaryEntry.line, List.getLast?_append_of_ne_nil _ (h e he).target.2,
        ← (h e he).target.1] at hr
      exact absurd (getLast?_trim hr) (by decide)
  rw [parseGlossaryText, hlines, List.filterMap_map]
  calc es.filterMap (parseGlossaryLine ∘ GlossaryEntry.line)
      = es.filterMap some := List.filterMap_congr fun e he => parseGlossaryLine_line (h e he)
    _ = es := List.filterMap_some

/-- **A glossary can be written and read again.** What is read of any text can be written, and
entries that are written are read back exactly when each can be. So what has been read once is
read the same from then on. -/
theorem parseGlossaryText_glossaryText (text : Text) (es : List GlossaryEntry) :
    (parseGlossaryText (glossaryText es) = es ↔ ∀ e ∈ es, e.Writable) ∧
      parseGlossaryText (glossaryText (parseGlossaryText text)) = parseGlossaryText text := by
  refine ⟨⟨fun h e he => ?_, parseGlossaryText_of_writable⟩, ?_⟩
  · rw [← h] at he
    exact writable_of_mem_parseGlossaryText he
  · exact parseGlossaryText_of_writable fun _ => writable_of_mem_parseGlossaryText

example : parseGlossaryText "# names\nHAL = 9000 \n- Dave -> Bowman\n".toList =
    [⟨"HAL".toList, "9000".toList⟩, ⟨"- Dave".toList, "Bowman".toList⟩] := by
  decide +kernel

/-! ## A translation with a glossary -/

/-- The target of the last entry of a term. -/
def lastTarget (entries : List GlossaryEntry) (source : Text) : Option Text :=
  (entries.reverse.find? (·.source = source)).map GlossaryEntry.target

/-- The glossary goes over the generated terms, its last entry of a term over the others. -/
theorem mergeTerminology_of_writable (generated : TextMap) (h : ∀ e ∈ es, e.Writable)
    (source : Text) :
    mergeTerminology generated es source = (lastTarget es source).or (generated source) := by
  induction es using List.reverseRecOn with
  | nil => rfl
  | append_singleton es e ih =>
    have he := h e (List.mem_append_right _ List.mem_cons_self)
    have hmerge : mergeTerminology generated (es ++ [e]) =
        update (mergeTerminology generated es) e.source (some e.target) := by
      rw [mergeTerminology, List.foldl_concat, he.source.1, he.target.1,
        if_neg (not_or.2 ⟨he.source.2, he.target.2⟩)]
      rfl
    rw [hmerge, lastTarget, List.reverse_append, List.reverse_singleton, List.singleton_append]
    by_cases hsource : source = e.source
    · subst hsource
      rw [update_self, List.find?_cons_of_pos (by simp)]
      rfl
    · rw [update_of_ne hsource, ih fun e he => h e (List.mem_append_left _ he),
        List.find?_cons_of_neg (by simpa using Ne.symm hsource)]
      rfl

/-- The terms of a run are the glossary over those of the terminology reply. -/
theorem terminology_of_translateInitial {engine : TranslationEngine} {replies : Replies}
    {request : TranslationRequest} {ids : List Text} {cues : List ProtectedCueText}
    {terminology translations : TextMap} {batchCount : ℕ} {log : Log}
    (h : translateInitial engine replies request ids cues =
      (.ok (terminology, translations, batchCount), log)) :
    ∃ generated, extractTerminology replies = .ok generated ∧
      terminology = mergeTerminology generated request.glossaryEntries := by
  unfold translateInitial at h
  split at h
  · cases h
  next generated hgenerated =>
  split at h
  · cases h
  · cases h
    exact ⟨generated, hgenerated, rfl⟩

/-- **A translation goes by the glossary first.** Whatever the provider answers, the terms a
translation ends with are those of the glossary file, each with the target of its last line,
and for the rest what the provider came up with. -/
theorem glossary_first {engine : TranslationEngine} {replies : Replies} {targetLanguage : Text}
    {subtitle : Subtitle} {ids : CueIds subtitle.entries.length} {result : TranslationResult}
    (hcues : subtitle.entries ≠ [])
    (h : (translateSubtitle engine replies ⟨targetLanguage, parseGlossaryText text⟩ subtitle ids).1 =
      .ok result) :
    ∃ generated, extractTerminology replies = .ok generated ∧ ∀ source,
      result.outcome.effectiveTerminology source =
        (lastTarget (parseGlossaryText text) source).or (generated source) := by
  obtain ⟨terminology, translations, batchCount, log, translations', fallback, batchCount', entries,
    hinitial, -, -, rfl⟩ := translateSubtitle_eq_ok hcues h
  obtain ⟨generated, hgenerated, rfl⟩ := terminology_of_translateInitial hinitial
  exact ⟨generated, hgenerated, mergeTerminology_of_writable generated fun _ =>
    writable_of_mem_parseGlossaryText⟩

/-- A provider that knows two terms. -/
def wordyReplies : Replies := fun k =>
  if k = 0 then .ok [("HAL".toList, "Hal".toList), ("pod".toList, "Kapsel".toList)]
  else forgetfulReplies k

/-- A glossary has another word for one of them. -/
theorem glossary_first_wordy : ∃ result, (translateSubtitle ⟨1, by decide⟩ wordyReplies
    ⟨"de".toList, parseGlossaryText "HAL -> Karl\nHAL = CARL\n".toList⟩ twoCues twoCueIds).1 =
      .ok result ∧ result.outcome.effectiveTerminology "HAL".toList = some "CARL".toList ∧
      result.outcome.effectiveTerminology "pod".toList = some "Kapsel".toList := by
  have hok : (translateSubtitle ⟨1, by decide⟩ wordyReplies
      ⟨"de".toList, parseGlossaryText "HAL -> Karl\nHAL = CARL\n".toList⟩ twoCues
      twoCueIds).1.isOk = true := by
    decide +kernel
  rcases hrun : (translateSubtitle ⟨1, by decide⟩ wordyReplies
    ⟨"de".toList, parseGlossaryText "HAL -> Karl\nHAL = CARL\n".toList⟩ twoCues
    twoCueIds).1 with err | result
  · rw [hrun] at hok
    cases hok
  · obtain ⟨generated, hgenerated, hterms⟩ := glossary_first (List.cons_ne_nil _ _) hrun
    have hpod : (extractTerminology wordyReplies).map (· "pod".toList) =
        .ok (some "Kapsel".toList) := by
      decide +kernel
    rw [hgenerated] at hpod
    refine ⟨result, rfl, ?_, ?_⟩
    · rw [hterms]
      have hlast : lastTarget (parseGlossaryText "HAL -> Karl\nHAL = CARL\n".toList) "HAL".toList =
          some "CARL".toList := by
        decide +kernel
      rw [hlast]
      rfl
    · rw [hterms]
      have hlast : lastTarget (parseGlossaryText "HAL -> Karl\nHAL = CARL\n".toList) "pod".toList =
          none := by
        decide +kernel
      rw [hlast]
      exact Except.ok.inj hpod

end SubxCore
