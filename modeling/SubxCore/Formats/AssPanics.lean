import SubxCore.Formats.Ass
/-!
# The indices of the ASS parser

The ASS parser cuts its keywords off by their length in bytes, and takes the
columns of a row by positions found on another line. Rust checks each of these
indices when it is used. Here the parser is written with its checks, and none of
them fails: a keyword is found in ASCII only, and a row has as many columns as
its `Format:` line.
-/

namespace SubxCore

open Text Decimal

variable {α : Type} {s t : Text} {xs : List α} {i : ℕ}

/-- An index that Rust refuses. -/
inductive IndexPanic
  /-- Out of range. -/
  | outOfRange
  /-- Inside a character. -/
  | charBoundary
  deriving DecidableEq, Repr

/-- How a parse stops early. -/
inductive ParseStop
  | failed (error : SubXError)
  | panicked (panic : IndexPanic)
  deriving DecidableEq, Repr

/-- `&s[n..]`: the text from a byte on. -/
def sliceFrom : ℕ → Text → Except ParseStop Text
  | 0, s => .ok s
  | _ + 1, [] => .error (.panicked .outOfRange)
  | n + 1, c :: s =>
    if n + 1 < c.utf8Size then .error (.panicked .charBoundary)
    else sliceFrom (n + 1 - c.utf8Size) s

/-- `xs[i]`. -/
def elementAt (xs : List α) (i : ℕ) : Except ParseStop α :=
  match xs[i]? with
  | some x => .ok x
  | none => .error (.panicked .outOfRange)

/-- `&xs[i..]`. -/
def elementsFrom (xs : List α) (i : ℕ) : Except ParseStop (List α) :=
  if i ≤ xs.length then .ok (xs.drop i) else .error (.panicked .outOfRange)

/-! ## The parser with its checks -/

/-- `assReadRow` after a `Format:` line, with its indices checked. -/
def assReadRowIndexed (fields : List Text) (count : ℕ) (row : Text) :
    Except ParseStop (Option SubtitleEntry) := do
  let parts := splitN ',' fields.length (trim row)
  if parts.length ≠ fields.length then return none
  let startIndex ← (assColumn fields "start".toList "Start".toList).mapError .failed
  let endIndex ← (assColumn fields "end".toList "End".toList).mapError .failed
  let textIndex ← (assColumn fields "text".toList "Text".toList).mapError .failed
  let start := trim (← elementAt parts startIndex)
  let stop := trim (← elementAt parts endIndex)
  if start.head? = some '-' ∨ stop.head? = some '-' then return none
  let text := replaceStr "\\N".toList ['\n'] (join [','] (← elementsFrom parts textIndex))
  if maxCueBytes < byteLen text then
    throw (.failed (assError ("Dialogue text exceeds per-cue byte cap (".toList ++
      decimal (byteLen text) ++ " > ".toList ++ decimal maxCueBytes ++ ")".toList)))
  let startTime ← (parseAssTime start).mapError .failed
  let endTime ← (parseAssTime stop).mapError .failed
  return some
    { index := count + 1
      startTime := startTime
      endTime := endTime
      text := text
      styling := none }

/-- `assStep`, with its indices checked. -/
def assStepIndexed (st : AssState) (line : Text) : Except ParseStop AssState := do
  let l := trimStart line
  if eqIgnoreAsciiCase l "[events]".toList then
    return { st with inEvents := true, sawEventsHeader := true }
  if ¬ st.inEvents then return st
  if l.head? = some '[' ∧ l.getLast? = some ']' then return { st with inEvents := false }
  if "format:".toList <+: toLowercase l then
    let names ← sliceFrom (byteLen "Format:".toList) l
    return { st with fields := (names.splitOn ',').map trim }
  if "dialogue:".toList <+: toLowercase l then
    if st.fields = [] then return st
    let row ← sliceFrom (byteLen "Dialogue:".toList) l
    match ← assReadRowIndexed st.fields st.entries.length row with
    | none => return st
    | some entry => return { st with entries := st.entries ++ [entry] }
  return st

/-- `assParse`, with its indices checked. -/
def assParseIndexed (content : Text) : Except ParseStop Subtitle := do
  let content := stripPrefix bom content
  if trim content = [] then throw (.failed (assError "Empty input".toList))
  let st ← (lines content).foldlM assStepIndexed .init
  if ¬ st.sawEventsHeader then throw (.failed (assError "Missing [Events] section".toList))
  return parsedSubtitle .ass st.entries

/-! ## No check fails -/

/-- What is in ASCII in lowercase is in ASCII. -/
theorem utf8Size_of_toLower {c : Char} (h : c.toLower.toNat < 128) : c.utf8Size = 1 := by
  rw [toNat_toLower] at h
  have hc : c.toNat ≤ 127 := by split_ifs at h <;> omega
  have hle : c.val ≤ 127 := UInt32.le_iff_toNat_le.2 hc
  exact Char.utf8Size_eq_one_iff.2 hle

/-- A keyword found in a text in lowercase is there in ASCII. The Kelvin sign and
the dotted capital I have ASCII letters in their lowercase: `k`, and an `i` that is
followed by a combining dot. -/
theorem exists_ascii_of_prefix_toLowercase : ∀ {word s : Text},
    (∀ c ∈ word, c.toNat < 128 ∧ c ≠ 'k') → word.getLast? ≠ some 'i' →
      word <+: toLowercase s →
      ∃ u t, s = u ++ t ∧ u.length = word.length ∧ ∀ c ∈ u, c.utf8Size = 1
  | [], s, _, _, _ => ⟨[], s, rfl, rfl, by simp⟩
  | _ :: _, [], _, _, h => by simp [toLowercase] at h
  | w :: word, c :: s, hword, hlast, h => by
    have hw := hword w List.mem_cons_self
    have hrest : ∀ d ∈ word, d.toNat < 128 ∧ d ≠ 'k' := fun d hd =>
      hword d (List.mem_cons_of_mem w hd)
    rw [toLowercase, List.flatMap_cons, lowerChar] at h
    -- the Kelvin sign, the dotted capital I, or a character that keeps its size
    split at h
    · exact absurd (List.cons_prefix_cons.1 h).1 hw.2
    split at h
    · obtain ⟨rfl, h'⟩ := List.cons_prefix_cons.1 h
      rcases word with - | ⟨d, word⟩
      · exact absurd rfl hlast
      · have hd : d = '\u0307' := (List.cons_prefix_cons.1 h').1
        exact absurd (hrest d List.mem_cons_self).1 (by rw [hd]; decide)
    · obtain ⟨rfl, h'⟩ := List.cons_prefix_cons.1 h
      have hlast : word.getLast? ≠ some 'i' := by
        rcases word with - | ⟨d, word⟩
        · simp
        · rwa [List.getLast?_cons_cons] at hlast
      obtain ⟨u, t, rfl, hlength, hu⟩ := exists_ascii_of_prefix_toLowercase hrest hlast
        (s := s) h'
      refine ⟨c :: u, t, rfl, by simp [hlength], fun d hd => ?_⟩
      rcases List.mem_cons.1 hd with rfl | hd
      · exact utf8Size_of_toLower hw.1
      · exact hu d hd

/-- A cut after ASCII is the cut after as many characters. -/
theorem sliceFrom_eq_drop (h : ∀ c ∈ s, c.utf8Size = 1) :
    sliceFrom s.length (s ++ t) = .ok ((s ++ t).drop s.length) := by
  induction s with
  | nil => rw [List.length_nil, sliceFrom, List.drop_zero]
  | cons c s ih =>
    have hc : c.utf8Size = 1 := h c List.mem_cons_self
    rw [List.length_cons, List.cons_append, sliceFrom, hc, if_neg (by omega), Nat.add_sub_cancel,
      ih fun d hd => h d (List.mem_cons_of_mem c hd), List.drop_succ_cons]

/-- **A keyword is cut off where it ends.** -/
theorem sliceFrom_keyword {word : Text} (hword : ∀ c ∈ word, c.toNat < 128 ∧ c ≠ 'k')
    (hlast : word.getLast? ≠ some 'i') (h : word <+: toLowercase s) :
    sliceFrom word.length s = .ok (s.drop word.length) := by
  obtain ⟨u, t, rfl, hlength, hu⟩ := exists_ascii_of_prefix_toLowercase hword hlast h
  rw [← hlength]
  exact sliceFrom_eq_drop hu

theorem elementAt_of_lt {parts : List Text} (h : i < parts.length) :
    elementAt parts i = .ok (parts.getD i []) := by
  rw [elementAt, List.getElem?_eq_getElem h, List.getD_eq_getElem _ _ h]

theorem elementsFrom_of_le (h : i ≤ xs.length) : elementsFrom xs i = .ok (xs.drop i) := if_pos h

/-- A column that is found is one of the fields. -/
theorem lt_of_assColumn {fields : List Text} {name label : Text}
    (h : assColumn fields name label = .ok i) : i < fields.length := by
  unfold assColumn at h
  split at h
  · next j hj =>
    obtain rfl := Except.ok.inj h
    exact (List.findIdx?_eq_some_iff_getElem.1 hj).1
  · cases h

/-- **The columns of a row are there.** -/
theorem assReadRowIndexed_eq {fields : List Text} (hne : fields ≠ []) (count : ℕ) (row : Text) :
    assReadRowIndexed fields count row = (assReadRow fields count row).mapError .failed := by
  unfold assReadRowIndexed assReadRow
  dsimp only
  rw [if_neg hne]
  by_cases hcolumns : (splitN ',' fields.length (trim row)).length ≠ fields.length
  · rw [if_pos hcolumns, if_pos hcolumns]
    rfl
  rw [if_neg hcolumns, if_neg hcolumns]
  have hlength := not_not.1 hcolumns
  generalize splitN ',' fields.length (trim row) = parts at hlength
  rcases hstart : assColumn fields "start".toList "Start".toList with e | startIndex
  · rfl
  rcases hstop : assColumn fields "end".toList "End".toList with e | endIndex
  · rfl
  rcases htext : assColumn fields "text".toList "Text".toList with e | textIndex
  · rfl
  -- the positions were found in the fields, and the row has as many columns
  have hstart := hlength ▸ lt_of_assColumn hstart
  have hstop := hlength ▸ lt_of_assColumn hstop
  have htext := hlength ▸ lt_of_assColumn htext
  simp only [Except.mapError, bind, Except.bind, elementAt_of_lt hstart, elementAt_of_lt hstop,
    elementsFrom_of_le htext.le]
  split
  · rfl
  split
  · rfl
  rcases parseAssTime (trim (parts.getD startIndex [])) with e | startTime
  · rfl
  rcases parseAssTime (trim (parts.getD endIndex [])) with e | endTime
  · rfl
  rfl

/-- **A line of the loop does not panic.** -/
theorem assStepIndexed_eq (st : AssState) (line : Text) :
    assStepIndexed st line = (assStep st line).mapError .failed := by
  unfold assStepIndexed assStep
  dsimp only
  split
  · rfl
  split
  · rfl
  split
  · rfl
  split
  · next hformat =>
    have hbytes : byteLen "Format:".toList = "format:".toList.length := by decide
    have hchars : "Format:".length = "format:".toList.length := by decide
    have hcut : sliceFrom (byteLen "Format:".toList) (trimStart line) =
        .ok ((trimStart line).drop "Format:".length) := by
      rw [hbytes, hchars]
      exact sliceFrom_keyword (by decide) (by decide) hformat
    rw [hcut]
    rfl
  split
  · next hdialogue =>
    have hbytes : byteLen "Dialogue:".toList = "dialogue:".toList.length := by decide
    have hchars : "Dialogue:".length = "dialogue:".toList.length := by decide
    have hcut : sliceFrom (byteLen "Dialogue:".toList) (trimStart line) =
        .ok ((trimStart line).drop "Dialogue:".length) := by
      rw [hbytes, hchars]
      exact sliceFrom_keyword (by decide) (by decide) hdialogue
    by_cases hne : st.fields = []
    · rw [if_pos hne, assReadRow, if_pos hne]
      rfl
    · rw [if_neg hne, hcut]
      simp only [bind, Except.bind]
      rw [assReadRowIndexed_eq hne]
      rcases assReadRow st.fields st.entries.length _ with e | (- | entry) <;> rfl
  · rfl

/-- **The parser does not panic**: no index is out of range or inside a character. -/
theorem assParseIndexed_eq (content : Text) :
    assParseIndexed content = (assParse content).mapError .failed := by
  have hfold : ∀ ls st, List.foldlM assStepIndexed st ls =
      (List.foldlM assStep st ls).mapError .failed := by
    intro ls
    induction ls with
    | nil => exact fun _ => rfl
    | cons line ls ih =>
      intro st
      rw [List.foldlM_cons, List.foldlM_cons, assStepIndexed_eq]
      rcases assStep st line with e | st'
      · rfl
      · exact ih st'
  unfold assParseIndexed assParse
  dsimp only
  split
  · rfl
  rw [hfold]
  rcases (lines (stripPrefix bom content)).foldlM assStep .init with e | st
  · rfl
  simp only [bind, Except.bind, Except.mapError]
  split <;> rfl

end SubxCore
