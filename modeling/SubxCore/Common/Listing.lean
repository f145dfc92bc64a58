import Mathlib.Data.List.Nodup
/-!
# Directory listings

A directory as the list of its entries, each a file or a directory again. What is
at a sequence of names is found entry by entry; all files below a directory are
gone through entry by entry too (`files`), and where no two entries of a directory
have one name these are the same, each once (`mem_files`, `nodup_files`).
-/

universe u

/-- What a directory holds. -/
inductive Listing (ν : Type u)
  | nil
  | file (name : ν) (rest : Listing ν)
  | directory (name : ν) (inner rest : Listing ν)
  deriving DecidableEq, Repr

namespace Listing

variable {ν : Type u} {l inner rest : Listing ν} {name n : ν} {names names' : List ν}

/-- What an entry is. -/
inductive Entry (ν : Type u)
  | file
  | directory (inner : Listing ν)
  deriving DecidableEq, Repr

/-- The names of the entries. -/
def entryNames : Listing ν → List ν
  | nil => []
  | file name rest | directory name _ rest => name :: rest.entryNames

/-- The files of a directory itself. -/
def ownFiles : Listing ν → List ν
  | nil => []
  | file name rest => name :: rest.ownFiles
  | directory _ _ rest => rest.ownFiles

/-- The files below a directory. -/
def files : Listing ν → List (List ν)
  | nil => []
  | file name rest => [name] :: rest.files
  | directory name inner rest => inner.files.map (name :: ·) ++ rest.files

/-- No two entries of a directory have one name. -/
def Distinct : Listing ν → Prop
  | nil => True
  | file name rest => name ∉ rest.entryNames ∧ rest.Distinct
  | directory name inner rest => name ∉ rest.entryNames ∧ inner.Distinct ∧ rest.Distinct

/-! ## Files, by name -/

theorem ownFiles_subset : ∀ n ∈ l.ownFiles, n ∈ l.entryNames := by
  induction l with
  | nil => exact fun n hn => hn
  | file name rest ih =>
    intro n hn
    rcases List.mem_cons.1 hn with rfl | hn
    · exact List.mem_cons_self
    · exact List.mem_cons_of_mem _ (ih n hn)
  | directory name inner rest _ ih => exact fun n hn => List.mem_cons_of_mem _ (ih n hn)

theorem nodup_ownFiles (hl : l.Distinct) : l.ownFiles.Nodup := by
  induction l with
  | nil => exact List.nodup_nil
  | file name rest ih =>
    exact List.nodup_cons.2 ⟨fun hn => hl.1 (ownFiles_subset name hn), ih hl.2⟩
  | directory name inner rest _ ih => exact ih hl.2.2

/-- A file is at some names. -/
theorem ne_nil_of_mem_files (h : names ∈ l.files) : names ≠ [] := by
  induction l with
  | nil => cases h
  | file name rest ih =>
    rcases List.mem_cons.1 h with rfl | h
    · exact List.cons_ne_nil name []
    · exact ih h
  | directory name inner rest _ ih =>
    rcases List.mem_append.1 h with h | h
    · obtain ⟨names, -, rfl⟩ := List.mem_map.1 h
      exact List.cons_ne_nil name names
    · exact ih h

/-! ## What is at some names -/

variable [DecidableEq ν]

/-- The entry of a name. -/
def find (n : ν) : Listing ν → Option (Entry ν)
  | nil => none
  | file name rest => if name = n then some .file else rest.find n
  | directory name inner rest => if name = n then some (.directory inner) else rest.find n

/-- What is below an entry. -/
def Entry.below (get : Listing ν → Option (Entry ν)) (names : List ν) :
    Entry ν → Option (Entry ν)
  | .directory inner => get inner
  | .file => if names = [] then some .file else none

/-- What is at some names below a directory. -/
def entryAt : List ν → Listing ν → Option (Entry ν)
  | [], l => some (.directory l)
  | n :: names, l => (l.find n).bind (Entry.below (entryAt names) names)

instance decidableDistinct : (l : Listing ν) → Decidable l.Distinct
  | nil => inferInstanceAs (Decidable True)
  | file _ rest =>
    have := rest.decidableDistinct
    inferInstanceAs (Decidable (_ ∧ _))
  | directory _ inner rest =>
    have := inner.decidableDistinct
    have := rest.decidableDistinct
    inferInstanceAs (Decidable (_ ∧ _ ∧ _))

/-! ## Entries -/

theorem find_eq_none_iff : l.find n = none ↔ n ∉ l.entryNames := by
  induction l with
  | nil => simp [find, entryNames]
  | file name rest ih =>
    rw [find, entryNames, List.mem_cons, not_or, ← ih]
    split
    · next h => exact iff_of_false (Option.some_ne_none _) fun hn => hn.1 h.symm
    · next h => exact ⟨fun hn => ⟨Ne.symm h, hn⟩, And.right⟩
  | directory name inner rest _ ih =>
    rw [find, entryNames, List.mem_cons, not_or, ← ih]
    split
    · next h => exact iff_of_false (Option.some_ne_none _) fun hn => hn.1 h.symm
    · next h => exact ⟨fun hn => ⟨Ne.symm h, hn⟩, And.right⟩

/-- Below a directory there are no files of other names than its entries. -/
theorem head_mem_entryNames {e : Entry ν} (h : entryAt (n :: names) l = some e) :
    n ∈ l.entryNames := by
  by_contra hn
  rw [entryAt, find_eq_none_iff.2 hn] at h
  cases h

/-- A single name is looked for in the directory itself. -/
theorem entryAt_singleton : entryAt [n] l = l.find n := by
  rw [entryAt]
  rcases l.find n with - | - | inner <;> rfl

theorem entryAt_append :
    entryAt (names ++ names') l = (entryAt names l).bind (Entry.below (entryAt names') names') := by
  induction names generalizing l with
  | nil => rfl
  | cons n names ih =>
    rw [List.cons_append, entryAt, entryAt]
    rcases l.find n with - | - | inner
    · rfl
    · cases names <;> rfl
    · exact ih

theorem distinct_of_find (hl : l.Distinct) (h : l.find n = some (.directory inner)) :
    inner.Distinct := by
  induction l with
  | nil => cases h
  | file name rest ih =>
    rw [find] at h
    split at h
    · cases h
    · exact ih hl.2 h
  | directory name _ rest _ ih =>
    rw [find] at h
    split at h
    · cases h
      exact hl.2.1
    · exact ih hl.2.2 h

/-- Nor have two entries of a directory below it one name. -/
theorem distinct_of_entryAt (hl : l.Distinct) (h : entryAt names l = some (.directory inner)) :
    inner.Distinct := by
  induction names generalizing l with
  | nil =>
    cases h
    exact hl
  | cons n names ih =>
    obtain ⟨e, he, hbelow⟩ := Option.bind_eq_some_iff.1 h
    rcases e with - | inner'
    · rw [Entry.below] at hbelow
      split at hbelow <;> cases hbelow
    · exact ih (distinct_of_find hl he) hbelow

theorem mem_ownFiles (hl : l.Distinct) : n ∈ l.ownFiles ↔ l.find n = some .file := by
  induction l with
  | nil => simp [ownFiles, find]
  | file name rest ih =>
    rw [ownFiles, find, List.mem_cons]
    split
    · next h => exact iff_of_true (.inl h.symm) rfl
    · next h => rw [ih hl.2, or_iff_right (Ne.symm h)]
  | directory name inner rest _ ih =>
    rw [ownFiles, find, ih hl.2.2]
    split
    · next h =>
      -- a name of a directory is no name of another entry
      have hnone : rest.find n = none := find_eq_none_iff.2 (h ▸ hl.1)
      rw [hnone]
      simp
    · rfl

/-! ## All files -/

/-- **The files below a directory are what is found there.** -/
theorem mem_files (hl : l.Distinct) : names ∈ l.files ↔ entryAt names l = some .file := by
  induction l generalizing names with
  | nil =>
    rw [files]
    cases names <;> simp [entryAt, find]
  | file name rest ih =>
    rcases names with - | ⟨n, names⟩
    · exact iff_of_false (fun h => ne_nil_of_mem_files h rfl) (by simp [entryAt])
    rw [files, List.mem_cons, entryAt, find]
    split
    · next h =>
      subst h
      have hrest : name :: names ∉ rest.files := fun h => hl.1 (head_mem_entryNames ((ih hl.2).1 h))
      rw [or_iff_left hrest, Option.bind_some, Entry.below]
      simp
    · next h =>
      rw [or_iff_right fun heq => h (List.cons.inj heq).1.symm, ih hl.2, entryAt]
  | directory name inner rest ihInner ih =>
    rcases names with - | ⟨n, names⟩
    · exact iff_of_false (fun h => ne_nil_of_mem_files h rfl) (by simp [entryAt])
    rw [files, List.mem_append, entryAt, find]
    split
    · next h =>
      subst h
      have hrest : name :: names ∉ rest.files :=
        fun h => hl.1 (head_mem_entryNames ((ih hl.2.2).1 h))
      rw [or_iff_left hrest, Option.bind_some, Entry.below, ← ihInner hl.2.1]
      simp
    · next h =>
      have hinner : n :: names ∉ inner.files.map (name :: ·) := fun hmem => by
        obtain ⟨_, -, heq⟩ := List.mem_map.1 hmem
        exact h (List.cons.inj heq).1
      rw [or_iff_right hinner, ih hl.2.2, entryAt]

/-- **Each file is gone through once.** -/
theorem nodup_files (hl : l.Distinct) : l.files.Nodup := by
  induction l with
  | nil => exact List.nodup_nil
  | file name rest ih =>
    refine List.nodup_cons.2 ⟨fun h => hl.1 ?_, ih hl.2⟩
    exact head_mem_entryNames ((mem_files hl.2).1 h)
  | directory name inner rest ihInner ih =>
    refine List.nodup_append.2 ⟨List.Nodup.map (fun _ _ h => (List.cons.inj h).2)
      (ihInner hl.2.1), ih hl.2.2, ?_⟩
    rintro names h _ hrest rfl
    obtain ⟨names, -, rfl⟩ := List.mem_map.1 h
    exact hl.1 (head_mem_entryNames ((mem_files hl.2.2).1 hrest))

end Listing
