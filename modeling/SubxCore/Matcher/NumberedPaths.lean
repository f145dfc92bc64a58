import SubxCore.Matcher.Task
/-!
# Numbered names

Where a conflict takes a file, and where a backup is: the numbered paths of
a target lie in its directory and have its extension. So a backup is never
in the way of a subtitle.
-/

namespace SubxCore

open Text Decimal

variable {dir : Path} {name : FileName} {p q target : Path} {i : ℕ}

/-! ## Names with a number -/

/-- A file name with a number before its extension. -/
def numberedText (text : Text) (i : ℕ) : Text :=
  let stem := (Path.splitExtension text).1
  let ext := (Path.splitExtension text).2.getD []
  if ext = [] then stem ++ '.' :: decimal i else stem ++ '.' :: decimal i ++ '.' :: ext

/-- A file name is its stem and its extension. -/
theorem eq_of_splitExtension (text : Text) :
    ((Path.splitExtension text).2 = none ∧ text = (Path.splitExtension text).1) ∨
      ∃ ext, (Path.splitExtension text).2 = some ext ∧
        text = (Path.splitExtension text).1 ++ '.' :: ext := by
  unfold Path.splitExtension
  rcases hsplit : rsplitOnce '.' text with - | ⟨before, after⟩
  · exact Or.inl ⟨rfl, rfl⟩
  · dsimp only
    split
    · exact Or.inl ⟨rfl, rfl⟩
    · exact Or.inr ⟨after, rfl, (rsplitOnce_eq_some hsplit).1⟩

/-- A name put together from a stem and an extension. -/
theorem splitExtension_append {stem ext : Text} (hstem : stem ≠ []) (hext : '.' ∉ ext) :
    Path.splitExtension (stem ++ '.' :: ext) = (stem, some ext) := by
  rw [Path.splitExtension, rsplitOnce_append hext]
  dsimp only
  rw [if_neg hstem]

/-- **A number keeps the extension of a name.** -/
theorem splitExtension_numberedText {text ext : Text} (hext : (Path.splitExtension text).2 = some ext)
    (hne : ext ≠ []) (i : ℕ) : (Path.splitExtension (numberedText text i)).2 = some ext := by
  have hdot : '.' ∉ ext := by
    unfold Path.splitExtension at hext
    split at hext
    · next before after hsplit =>
      split at hext
      · cases hext
      · cases hext
        exact (rsplitOnce_eq_some hsplit).2
    · cases hext
  unfold numberedText
  dsimp only
  rw [hext, Option.getD_some, if_neg hne, splitExtension_append (by simp) hdot]

theorem mem_of_mem_splitExtension_fst {text : Text} {c : Char}
    (h : c ∈ (Path.splitExtension text).1) : c ∈ text := by
  rcases eq_of_splitExtension text with ⟨-, htext⟩ | ⟨ext, -, htext⟩
  · rw [htext]
    exact h
  · rw [htext]
    exact List.mem_append_left _ h

theorem mem_of_mem_splitExtension_snd {text : Text} {c : Char}
    (h : c ∈ (Path.splitExtension text).2.getD []) : c ∈ text := by
  rcases eq_of_splitExtension text with ⟨hext, -⟩ | ⟨ext, hext, htext⟩
  · rw [hext] at h
    cases h
  · rw [hext, Option.getD_some] at h
    rw [htext]
    exact List.mem_append_right _ (List.mem_cons_of_mem _ h)

/-- A name with a number is a file name. -/
theorem isFileName_numberedText (name : FileName) (i : ℕ) :
    IsFileName (numberedText name.text i) := by
  have hslash := name.isFileName.2.2.2
  obtain ⟨d, ds, hdecimal⟩ := List.exists_cons_of_ne_nil (decimal_ne_nil (n := i))
  have hdigit : d.isDigit = true := isDigit_of_mem_decimal (hdecimal ▸ List.mem_cons_self)
  have hdot : d ≠ '.' := by
    rintro rfl
    cases hdigit
  have hstem : '/' ∉ (Path.splitExtension name.text).1 :=
    fun h => hslash (mem_of_mem_splitExtension_fst h)
  have hext : '/' ∉ (Path.splitExtension name.text).2.getD [] :=
    fun h => hslash (mem_of_mem_splitExtension_snd h)
  have hnumber : '/' ∉ decimal i := fun h => absurd (isDigit_of_mem_decimal h) (by decide)
  have hmem : d ∈ numberedText name.text i := by
    unfold numberedText
    dsimp only
    rw [hdecimal]
    split
    · simp
    · simp
  refine isFileName_of_mem hmem hdot ?_
  unfold numberedText
  dsimp only
  split
  · simp [hstem, hnumber]
  · simp [hstem, hext, hnumber]

/-- The path with a number is that name in the same directory. -/
theorem numberedPath_concat (dir : Path) (name : FileName) (i : ℕ) :
    numberedPath (dir ++ [.normal name]) i =
      dir ++ [.normal ⟨numberedText name.text i, isFileName_numberedText name i⟩] := by
  have hjoin := Path.join_of_isFileName dir (isFileName_numberedText name i)
  have hstem : (dir ++ [Component.normal name]).fileStem =
      some (Path.splitExtension name.text).1 := by
    rw [Path.fileStem, Path.fileName_concat]
    rfl
  have hext : (dir ++ [Component.normal name]).extension =
      (Path.splitExtension name.text).2 := by
    rw [Path.extension, Path.fileName_concat]
    rfl
  rw [← hjoin]
  unfold numberedPath
  rw [hstem, hext, Path.parent_concat]
  rfl

/-- The numbered paths of a target lie beside it. -/
theorem exists_of_mem_numberedPaths (h : q ∈ numberedPaths (dir ++ [.normal name])) :
    q = dir ++ [.normal name] ∨
      ∃ i, q = dir ++ [.normal ⟨numberedText name.text i, isFileName_numberedText name i⟩] := by
  rcases List.mem_cons.1 h with rfl | h
  · exact Or.inl rfl
  · obtain ⟨i, -, rfl⟩ := List.mem_map.1 h
    exact Or.inr ⟨i, numberedPath_concat dir name i⟩

/-- In the same directory. -/
theorem parent_of_mem_numberedPaths (htarget : target.fileName.isSome)
    (h : q ∈ numberedPaths target) : q.parent = target.parent := by
  obtain ⟨dir, name, rfl⟩ := Path.exists_concat_of_fileName htarget
  rcases exists_of_mem_numberedPaths h with rfl | ⟨i, rfl⟩
  · rfl
  · rw [Path.parent_concat, Path.parent_concat]

/-- In the same directory, also when the target has no name of its own. -/
theorem parent_of_mem_numberedPaths_of_parent (hparent : target.parent = some dir)
    (h : q ∈ numberedPaths target) : q.parent = some dir := by
  rcases hname : target.fileName with - | name
  · rcases List.mem_cons.1 h with rfl | h
    · exact hparent
    obtain ⟨i, -, rfl⟩ := List.mem_map.1 h
    have hstem : IsFileName ("file".toList ++ '.' :: decimal i) := by
      refine isFileName_of_mem (c := 'f') (List.mem_append_left _ (by decide)) (by decide) ?_
      have hnumber : '/' ∉ decimal i := fun h => absurd (isDigit_of_mem_decimal h) (by decide)
      simp [hnumber]
    unfold numberedPath
    rw [Path.fileStem, Path.extension, hname, hparent]
    dsimp only [Option.map_none, Option.bind_none, Option.getD_none, Option.getD_some]
    rw [if_pos rfl, Path.join_of_isFileName dir hstem, Path.parent_concat]
  · rw [parent_of_mem_numberedPaths (Option.isSome_of_eq_some hname) h, hparent]

/-- With the same extension. -/
theorem extension_of_mem_numberedPaths {ext : Text} (hext : target.extension = some ext)
    (hne : ext ≠ []) (h : q ∈ numberedPaths target) : q.extension = some ext := by
  obtain ⟨name, hname, hsplit⟩ := Option.bind_eq_some_iff.1 hext
  obtain ⟨dir, name', rfl⟩ := Path.exists_concat_of_fileName (Option.isSome_of_eq_some hname)
  rw [Path.fileName_concat] at hname
  obtain rfl := Option.some.inj hname
  rcases exists_of_mem_numberedPaths h with rfl | ⟨i, rfl⟩
  · exact hext
  · rw [Path.extension, Path.fileName_concat]
    exact splitExtension_numberedText hsplit hne i

/-! ## Names of backups -/

/-- The extension of a backup. -/
def backupExtension : Text := "backup".toList

/-- A path with the extension of a backup. -/
def IsBackup (p : Path) : Prop := p.extension = some backupExtension

instance : DecidablePred IsBackup := fun p =>
  inferInstanceAs (Decidable (p.extension = some backupExtension))

/-- The numbered paths of a backup are those of a backup. -/
theorem isBackup_of_mem_numberedPaths (hp : IsBackup p) (h : q ∈ numberedPaths p) : IsBackup q :=
  extension_of_mem_numberedPaths hp (by decide) h

/-- The backup of a file: in its directory, its name with its extension kept
and that of a backup added. -/
theorem withExtension_backup (dir : Path) (name : FileName) {ext : Text} (hext : '/' ∉ ext) :
    ∃ name' : FileName,
      Path.withExtension (dir ++ [.normal name]) (ext ++ ".backup".toList) =
        dir ++ [.normal name'] ∧ IsBackup (dir ++ [.normal name']) := by
  have hne : ext ++ ".backup".toList ≠ [] := List.append_ne_nil_of_right_ne_nil _ (by decide)
  have hslash : '/' ∉ (Path.splitExtension name.text).1 :=
    fun h => name.isFileName.2.2.2 (mem_of_mem_splitExtension_fst h)
  have htext : (Path.splitExtension name.text).1 ++ '.' :: (ext ++ ".backup".toList) =
      ((Path.splitExtension name.text).1 ++ '.' :: ext) ++ '.' :: backupExtension := by
    rw [List.append_assoc, List.cons_append]
    rfl
  have hname : IsFileName ((Path.splitExtension name.text).1 ++ '.' :: (ext ++ ".backup".toList)) := by
    have hp : 'p' ∈ backupExtension := by decide
    have hbackup : '/' ∉ backupExtension := by decide
    rw [htext]
    refine isFileName_of_mem (c := 'p')
      (List.mem_append_right _ (List.mem_cons_of_mem '.' hp)) (by decide) ?_
    simp only [List.mem_append, List.mem_cons, not_or]
    exact ⟨⟨hslash, by decide, hext⟩, by decide, hbackup⟩
  refine ⟨⟨_, hname⟩, ?_, ?_⟩
  · rw [Path.withExtension, Path.fileStem, Path.fileName_concat]
    dsimp only [Option.map_some]
    rw [if_neg hne, List.dropLast_concat]
    exact Path.join_of_isFileName dir hname
  · rw [IsBackup, Path.extension, Path.fileName_concat]
    dsimp only [Option.bind_some]
    rw [htext, splitExtension_append (by simp) (by decide)]

end SubxCore
