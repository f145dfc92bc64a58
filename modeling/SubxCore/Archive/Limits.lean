import SubxCore.Archive.Confinement
import Mathlib.Algebra.BigOperators.Group.List.Basic
/-!
# How much an extraction writes

The limits count the files and add up the sizes that the headers claim, while
what is written is what the readers give. The files are never more than the
limit. For the content it is the entries that the extraction comes to that
count, up to the first that the limits, the crate or a reader stop it at. No
more is written than these give, and no less unless the file system refuses a
call; so it is at most the limit where none of their readers gives more than
its header claims and the sum does not wrap around, and, of course, where there
is no more to be had.
-/

namespace SubxCore

namespace Archive

open DirTree Program

variable {κ : Type} {s s' : Storage} {effects : List Effect} {dest p : Path} {root : Location}
variable {f : Format κ} {overflowChecks : Bool} {destCanonical : Path}
variable {loop loop' : Loop} {entry : Entry κ} {items : List (Item κ)} {bytes : Bytes}

/-! ## Files and content -/

/-- The files an extraction has created or truncated. -/
def filesCreated (s : Storage) : ℕ := s.history.countP Effect.isCreation

/-- The content it has written. -/
def contentWritten (s : Storage) : ℕ := (s.history.map Effect.size).sum

theorem filesCreated_evolves (h : Evolves s effects s') :
    filesCreated s' = filesCreated s + effects.countP Effect.isCreation := by
  rw [filesCreated, h.history, List.countP_append, filesCreated]

theorem contentWritten_evolves (h : Evolves s effects s') :
    contentWritten s' = contentWritten s + (effects.map Effect.size).sum := by
  rw [contentWritten, h.history, List.map_append, List.sum_append, contentWritten]

theorem countP_madeDirectory (ls : List Location) :
    (ls.map Effect.madeDirectory).countP Effect.isCreation = 0 := by
  rw [List.countP_eq_zero]
  intro e he
  obtain ⟨l, -, rfl⟩ := List.mem_map.1 he
  exact Bool.false_ne_true

theorem sum_size_madeDirectory (ls : List Location) :
    ((ls.map Effect.madeDirectory).map Effect.size).sum = 0 := by
  rw [List.sum_eq_zero]
  intro n hn
  obtain ⟨e, he, rfl⟩ := List.mem_map.1 hn
  obtain ⟨l, -, rfl⟩ := List.mem_map.1 he
  rfl

theorem MadeDirectories.filesCreated (h : MadeDirectories s p s') :
    filesCreated s' = filesCreated s := by
  obtain ⟨ls, -, hs'⟩ := h
  rw [filesCreated_evolves hs', countP_madeDirectory, Nat.add_zero]

theorem MadeDirectories.contentWritten (h : MadeDirectories s p s') :
    contentWritten s' = contentWritten s := by
  obtain ⟨ls, -, hs'⟩ := h
  rw [contentWritten_evolves hs', sum_size_madeDirectory, Nat.add_zero]

theorem Written.filesCreated (h : Written s p bytes s') :
    filesCreated s' = filesCreated s + 1 := by
  obtain ⟨ls, l, -, -, -, hs'⟩ := h
  rw [filesCreated_evolves hs', List.countP_append, countP_madeDirectory, Nat.zero_add]
  rfl

theorem Written.contentWritten (h : Written s p bytes s') :
    contentWritten s' = contentWritten s + bytes.length := by
  obtain ⟨ls, l, -, -, -, hs'⟩ := h
  rw [contentWritten_evolves hs', List.map_append, List.sum_append, sum_size_madeDirectory,
    Nat.zero_add]
  simp [Effect.size]

/-! ## The number of files -/

/-- The files created have been counted. -/
def Counted (loop : Loop) (s : Storage) : Prop :=
  filesCreated s ≤ loop.limits.entryCount ∧ loop.limits.entryCount ≤ maxEntryCount

theorem Counted.handled (h : Counted loop s)
    (hs' : Handled f overflowChecks dest destCanonical loop entry s loop' s') :
    Counted loop' s' := by
  cases hs' with
  | skipped => exact h
  | directory _ hmade =>
    rcases hmade with rfl | ⟨target, -, hmade⟩
    · exact h
    · rw [Counted, hmade.filesCreated]
      exact h
  | refused _ hlimits =>
    obtain ⟨rfl, hcount, -⟩ := checkEntry_eq_ok hlimits
    exact ⟨h.1.trans (Nat.le_succ _), hcount⟩
  | extracted _ hlimits _ hwritten =>
    obtain ⟨rfl, hcount, -⟩ := checkEntry_eq_ok hlimits
    refine ⟨?_, hcount⟩
    rw [hwritten.filesCreated]
    exact Nat.succ_le_succ h.1

theorem Counted.abandoned (h : Counted loop s)
    (hs' : Abandoned f overflowChecks dest destCanonical loop entry s s') :
    filesCreated s' ≤ maxEntryCount := by
  cases hs' with
  | limit => exact h.1.trans h.2
  | directories _ hmade =>
    rw [hmade.filesCreated]
    exact h.1.trans h.2
  | content _ hlimits _ hwritten =>
    obtain ⟨-, hcount, -⟩ := checkEntry_eq_ok hlimits
    rw [hwritten.filesCreated]
    exact (Nat.succ_le_succ h.1).trans hcount

/-! ## The entries an extraction comes to -/

/-- The entries that `check_entry` lets in, one after the other: up to the first
that it refuses, that the crate fails to yield, or whose reader fails. -/
def admitted (f : Format κ) (overflowChecks : Bool) :
    ExtractionLimits → List (Item κ) → List (Entry κ)
  | _, [] => []
  | _, .error _ :: _ => []
  | limits, .ok entry :: items =>
    match f.disposition entry.kind with
    | .extract =>
      match limits.checkEntry overflowChecks entry.size with
      | .error _ => []
      | .ok limits' =>
        -- a refused name is counted, and its reader is not asked
        if (f.entryPath entry.name).isSome ∧ entry.ending.isSome then [entry]
        else entry :: admitted f overflowChecks limits' items
    | _ => admitted f overflowChecks limits items

/-- Those of them that are written. -/
def reached (f : Format κ) (overflowChecks : Bool) (limits : ExtractionLimits)
    (items : List (Item κ)) : List (Entry κ) :=
  (admitted f overflowChecks limits items).filter fun entry => (f.entryPath entry.name).isSome

/-- What their readers give. -/
def available (f : Format κ) (overflowChecks : Bool) (limits : ExtractionLimits)
    (items : List (Item κ)) : ℕ :=
  ((reached f overflowChecks limits items).map fun entry => entry.data.length).sum

/-- What the headers claim of the entries let in. -/
def claimed (f : Format κ) (overflowChecks : Bool) (limits : ExtractionLimits)
    (items : List (Item κ)) : ℕ :=
  ((admitted f overflowChecks limits items).map fun entry => entry.size.toNat).sum

/-- **The headers can be relied on**: no reader that is come to gives more than
is claimed, and the claims let in add up to what a `u64` holds, where that is
not checked. -/
structure Reliable (f : Format κ) (overflowChecks : Bool) (limits : ExtractionLimits)
    (items : List (Item κ)) : Prop where
  data : ∀ entry ∈ reached f overflowChecks limits items, entry.data.length ≤ entry.size.toNat
  sums : overflowChecks = true ∨
    limits.totalSize.toNat + claimed f overflowChecks limits items < 2 ^ 64

variable {limits limits' : ExtractionLimits}

theorem admitted_cons_of_not_extract (h : f.disposition entry.kind ≠ .extract) :
    admitted f overflowChecks limits (.ok entry :: items) =
      admitted f overflowChecks limits items := by
  rw [admitted]
  split
  · next hextract => exact absurd hextract h
  · rfl

theorem admitted_cons_of_refused {stop : Stop} (hextract : f.disposition entry.kind = .extract)
    (hlimits : limits.checkEntry overflowChecks entry.size = .error stop) :
    admitted f overflowChecks limits (.ok entry :: items) = [] := by
  rw [admitted, hextract]
  dsimp only
  rw [hlimits]

theorem admitted_cons (hextract : f.disposition entry.kind = .extract)
    (hlimits : limits.checkEntry overflowChecks entry.size = .ok limits') :
    admitted f overflowChecks limits (.ok entry :: items) =
      if (f.entryPath entry.name).isSome ∧ entry.ending.isSome then [entry]
      else entry :: admitted f overflowChecks limits' items := by
  rw [admitted, hextract]
  dsimp only
  rw [hlimits]

theorem available_cons_of_not_extract (h : f.disposition entry.kind ≠ .extract) :
    available f overflowChecks limits (.ok entry :: items) =
      available f overflowChecks limits items := by
  rw [available, reached, admitted_cons_of_not_extract h, available, reached]

theorem available_cons_of_refused {stop : Stop} (hextract : f.disposition entry.kind = .extract)
    (hlimits : limits.checkEntry overflowChecks entry.size = .error stop) :
    available f overflowChecks limits (.ok entry :: items) = 0 := by
  rw [available, reached, admitted_cons_of_refused hextract hlimits]
  rfl

theorem available_cons_of_name_refused (hextract : f.disposition entry.kind = .extract)
    (hlimits : limits.checkEntry overflowChecks entry.size = .ok limits')
    (hname : f.entryPath entry.name = none) :
    available f overflowChecks limits (.ok entry :: items) =
      available f overflowChecks limits' items := by
  rw [available, reached, admitted_cons hextract hlimits, hname]
  simp [hname, available, reached]

theorem available_cons_of_read (hextract : f.disposition entry.kind = .extract)
    (hlimits : limits.checkEntry overflowChecks entry.size = .ok limits')
    (hname : (f.entryPath entry.name).isSome) (hending : entry.ending = none) :
    available f overflowChecks limits (.ok entry :: items) =
      entry.data.length + available f overflowChecks limits' items := by
  rw [available, reached, admitted_cons hextract hlimits, hending]
  simp [hname, available, reached]

theorem available_cons_of_failed (hextract : f.disposition entry.kind = .extract)
    (hlimits : limits.checkEntry overflowChecks entry.size = .ok limits')
    (hname : (f.entryPath entry.name).isSome) (hending : entry.ending ≠ none) :
    available f overflowChecks limits (.ok entry :: items) = entry.data.length := by
  rw [available, reached, admitted_cons hextract hlimits,
    if_pos ⟨hname, Option.isSome_iff_ne_none.2 hending⟩]
  simp [hname]

/-- The sum that the limits keep is the sum of the claims. -/
theorem Reliable.toNat_totalSize
    (h : Reliable f overflowChecks limits (.ok entry :: items))
    (hextract : f.disposition entry.kind = .extract)
    (hlimits : limits.checkEntry overflowChecks entry.size = .ok limits') :
    limits'.totalSize.toNat = limits.totalSize.toNat + entry.size.toNat := by
  obtain ⟨rfl, -, -, hchecks⟩ := checkEntry_eq_ok hlimits
  have hclaimed : entry.size.toNat ≤ claimed f overflowChecks limits (.ok entry :: items) := by
    rw [claimed, admitted_cons hextract hlimits]
    split
    · rw [List.map_singleton, List.sum_singleton]
    · rw [List.map_cons, List.sum_cons]
      exact Nat.le_add_right _ _
  have hlt : limits.totalSize.toNat + entry.size.toNat < 2 ^ 64 :=
    h.sums.elim hchecks fun hsums => (Nat.add_le_add_left hclaimed _).trans_lt hsums
  rw [UInt64.toNat_add, Nat.mod_eq_of_lt hlt]

/-- What is relied on, of the entries after one that is not stopped at. -/
theorem Reliable.tail (h : Reliable f overflowChecks limits (.ok entry :: items))
    (hextract : f.disposition entry.kind = .extract)
    (hlimits : limits.checkEntry overflowChecks entry.size = .ok limits')
    (hgoes : ¬ ((f.entryPath entry.name).isSome ∧ entry.ending.isSome)) :
    Reliable f overflowChecks limits' items := by
  have hadmitted : admitted f overflowChecks limits (.ok entry :: items) =
      entry :: admitted f overflowChecks limits' items :=
    (admitted_cons hextract hlimits).trans (if_neg hgoes)
  refine ⟨fun e he => h.data e ?_, h.sums.imp_right fun hsums => ?_⟩
  · rw [reached, hadmitted, List.filter_cons]
    split
    · exact List.mem_cons_of_mem _ he
    · exact he
  · rw [claimed, hadmitted, List.map_cons, List.sum_cons] at hsums
    rw [h.toNat_totalSize hextract hlimits, Nat.add_assoc]
    exact hsums

/-- **What can be relied on stays within the limit.** -/
theorem Reliable.available_le (h : Reliable f overflowChecks limits items)
    (hle : limits.totalSize ≤ maxExpandedSize) :
    limits.totalSize.toNat + available f overflowChecks limits items ≤ maxExpandedSize.toNat := by
  induction items generalizing limits with
  | nil => exact UInt64.le_iff_toNat_le.1 hle
  | cons item items ih =>
    rcases item with error | entry
    · exact UInt64.le_iff_toNat_le.1 hle
    by_cases hextract : f.disposition entry.kind = .extract
    · cases hlimits : limits.checkEntry overflowChecks entry.size with
      | error stop =>
        rw [available_cons_of_refused hextract hlimits]
        exact UInt64.le_iff_toNat_le.1 hle
      | ok limits' =>
        have htotal := h.toNat_totalSize hextract hlimits
        have hle' := (checkEntry_eq_ok hlimits).2.2.1
        cases hname : f.entryPath entry.name with
        | none =>
          have hgoes : ¬ ((f.entryPath entry.name).isSome ∧ entry.ending.isSome) := by simp [hname]
          have hrest := ih (h.tail hextract hlimits hgoes) hle'
          rw [available_cons_of_name_refused hextract hlimits hname]
          omega
        | some name' =>
          have hsome := Option.isSome_of_eq_some hname
          have hdata : entry.data.length ≤ entry.size.toNat := by
            refine h.data entry (List.mem_filter.2 ⟨?_, hsome⟩)
            rw [admitted_cons hextract hlimits]
            split
            · exact List.mem_singleton_self _
            · exact List.mem_cons_self ..
          by_cases hending : entry.ending = none
          · have hgoes : ¬ ((f.entryPath entry.name).isSome ∧ entry.ending.isSome) := by
              simp [hending]
            have hrest := ih (h.tail hextract hlimits hgoes) hle'
            rw [available_cons_of_read hextract hlimits hsome hending]
            omega
          · have hmax := UInt64.le_iff_toNat_le.1 hle'
            rw [available_cons_of_failed hextract hlimits hsome hending]
            omega
    · have hadmitted : admitted f overflowChecks limits (.ok entry :: items) =
          admitted f overflowChecks limits items := admitted_cons_of_not_extract hextract
      rw [available_cons_of_not_extract hextract]
      refine ih ⟨fun e he => h.data e ?_, h.sums.imp_right fun hsums => ?_⟩ hle
      · rw [reached, hadmitted]
        exact he
      · rwa [claimed, hadmitted] at hsums

/-! ## What the entries are written with -/

/-- **The file system refuses a call** for an entry: one for its directory, or,
once the limits have let it in, one for the directories it lies in, its file or
its content. -/
def Refuses (f : Format κ) (overflowChecks : Bool) (dest destCanonical : Path) (loop : Loop)
    (entry : Entry κ) (s : Storage) : Prop :=
  ∃ target, f.target dest destCanonical entry.name s = some target ∧
    match f.disposition entry.kind with
    | .skip => False
    | .makeDirectory => ∃ error, ((createDirAll target.path).exec s).1 = .error error
    | .extract => (∃ limits, loop.limits.checkEntry overflowChecks entry.size = .ok limits) ∧
      -- whatever the reader ends with
      ∃ stop, ((writeEntry f { entry with ending := none } target).exec s).1 = .error stop

/-- It does, for an entry that the loop comes to. -/
def refusedFrom (f : Format κ) (overflowChecks : Bool) (dest destCanonical : Path) :
    List (Item κ) → Loop → Storage → Prop
  | [], _, _ => False
  | .error _ :: _, _, _ => False
  | .ok entry :: items, loop, s =>
    Refuses f overflowChecks dest destCanonical loop entry s ∨
      ∃ loop' s', (extractEntry f overflowChecks dest destCanonical loop entry).exec s =
          (.ok loop', s') ∧
        refusedFrom f overflowChecks dest destCanonical items loop' s'

/-- **The file system refuses a call of an extraction.** -/
def Refused (f : Format κ) (overflowChecks : Bool) (dest : Path) (items : List (Item κ))
    (s : Storage) : Prop :=
  refusedFrom f overflowChecks dest (s.canonicalOr dest) items ⟨.new, []⟩ s

/-- A reader that fails does so once what it gave is written. -/
theorem exec_writeEntry (f : Format κ) (entry : Entry κ) (target : PathBuf) (s : Storage) :
    (writeEntry f entry target).exec s =
      match (writeEntry f { entry with ending := none } target).exec s with
      | (.ok (), s') =>
        (match entry.ending with
          | none => .ok ()
          | some error => .error (.failed (f.describe (.write target.path) error)), s')
      | (.error stop, s') => (.error stop, s') := by
  unfold writeEntry
  rcases hparents : (createParents f entry target).exec s with ⟨stop | ⟨⟩, s₁⟩
  · rw [exec_bind_of_error hparents]
    have hparents' : (createParents f { entry with ending := none } target).exec s =
        (.error stop, s₁) := hparents
    rw [exec_bind_of_error hparents']
  have hparents' : (createParents f { entry with ending := none } target).exec s =
      (.ok (), s₁) := hparents
  rw [exec_bind_of_ok hparents, exec_bind_of_ok hparents']
  rcases hcreate : (mapError (Stop.failed ∘ f.describe (.create target.path))
      (createFile target)).exec s₁ with ⟨stop | l, s₂⟩
  · rw [exec_bind_of_error hcreate, exec_bind_of_error hcreate]
  rw [exec_bind_of_ok hcreate, exec_bind_of_ok hcreate, exec_mapError, exec_mapError]
  unfold copyInto call
  rw [exec_step, exec_step]
  cases s₂.faults 0 with
  | some fault => rfl
  | none =>
    cases entry.ending with
    | none => rfl
    | some error => rfl

/-- An entry with a refused name is counted, and no more. -/
theorem exec_extractEntry_of_refused (hextract : f.disposition entry.kind = .extract)
    (hlimits : loop.limits.checkEntry overflowChecks entry.size = .ok limits)
    (hname : f.entryPath entry.name = none) :
    (extractEntry f overflowChecks dest destCanonical loop entry).exec s =
      (.ok { loop with limits }, s) := by
  have hlook : (look (ε := Stop) (f.target dest destCanonical entry.name)).exec s =
      (.ok none, s) := by
    obtain ⟨base, -, heq⟩ := f.target_eq dest destCanonical entry.name s
    rw [look, exec_step, heq, hname]
    rfl
  have hcheck : (Program.ofExcept (σ := Storage) ((loop.limits.checkEntry overflowChecks
      entry.size).mapError (describeLimit f))).exec s = (.ok limits, s) := by
    rw [exec_ofExcept, hlimits]
    rfl
  unfold extractEntry
  rw [hextract]
  dsimp only
  rw [exec_bind_of_ok hcheck, exec_bind_of_ok hlook]
  rfl

/-- An entry that the limits let in is written. -/
theorem exec_extractEntry_of_admitted {target : PathBuf}
    (hextract : f.disposition entry.kind = .extract)
    (hlimits : loop.limits.checkEntry overflowChecks entry.size = .ok limits)
    (htarget : f.target dest destCanonical entry.name s = some target) :
    (extractEntry f overflowChecks dest destCanonical loop entry).exec s =
      match (writeEntry f entry target).exec s with
      | (.ok (), s') => (.ok ⟨limits, loop.extractedPaths ++ [target.path]⟩, s')
      | (.error stop, s') => (.error stop, s') := by
  have hlook : (look (ε := Stop) (f.target dest destCanonical entry.name)).exec s =
      (.ok (some target), s) := by
    rw [look, exec_step, htarget]
  have hcheck : (Program.ofExcept (σ := Storage) ((loop.limits.checkEntry overflowChecks
      entry.size).mapError (describeLimit f))).exec s = (.ok limits, s) := by
    rw [exec_ofExcept, hlimits]
    rfl
  unfold extractEntry
  rw [hextract]
  dsimp only
  rw [exec_bind_of_ok hcheck, exec_bind_of_ok hlook]
  dsimp only
  rcases hwrite : (writeEntry f entry target).exec s with ⟨stop | ⟨⟩, s'⟩
  · rw [exec_bind_of_error hwrite]
  · rw [exec_bind_of_ok hwrite]
    rfl

/-- **The body of the loop writes what the entry has to give**: all of it when
the loop goes on; when it stops, no more, and no less unless the file system
refuses a call. -/
def WritesGiven (f : Format κ) (overflowChecks : Bool) (dest destCanonical : Path) (loop : Loop)
    (entry : Entry κ) (items : List (Item κ)) (s : Storage) : Prop :=
  let given := contentWritten s + available f overflowChecks loop.limits (.ok entry :: items)
  match (extractEntry f overflowChecks dest destCanonical loop entry).exec s with
  | (.ok loop', s') =>
    contentWritten s' + available f overflowChecks loop'.limits items = given
  | (.error _, s') => contentWritten s' ≤ given ∧
    (¬ Refuses f overflowChecks dest destCanonical loop entry s → contentWritten s' = given)

theorem writesGiven_of_skip (hkind : f.disposition entry.kind = .skip) :
    WritesGiven f overflowChecks dest destCanonical loop entry items s := by
  have hrun : (extractEntry f overflowChecks dest destCanonical loop entry).exec s =
      (.ok loop, s) := by
    rw [extractEntry, hkind]
    rfl
  rw [WritesGiven, hrun]
  dsimp only
  rw [available_cons_of_not_extract (hkind ▸ Disposition.noConfusion)]

/-- A directory has no content. -/
theorem writesGiven_of_directory (hkind : f.disposition entry.kind = .makeDirectory) :
    WritesGiven f overflowChecks dest destCanonical loop entry items s := by
  have hlook : (look (ε := Stop) (f.target dest destCanonical entry.name)).exec s =
      (.ok (f.target dest destCanonical entry.name s), s) := rfl
  rw [WritesGiven, available_cons_of_not_extract (hkind ▸ Disposition.noConfusion), extractEntry,
    hkind]
  dsimp only
  rw [exec_bind_of_ok hlook]
  cases htarget : f.target dest destCanonical entry.name s with
  | none => rfl
  | some target =>
    rcases hmake : (createDirAll target.path).exec s with ⟨error | ⟨⟩, s'⟩
    · have hmade : MadeDirectories s target.path s' :=
        (triple_createDirAll s target.path).of_error rfl hmake
      have hentry : (makeEntryDirectory (some target)).exec s = (.error (.failed error), s') := by
        rw [makeEntryDirectory, exec_mapError, hmake]
        rfl
      rw [exec_bind_of_error hentry]
      dsimp only
      rw [hmade.contentWritten]
      refine ⟨Nat.le_add_right _ _, fun hnot => absurd ⟨target, htarget, ?_⟩ hnot⟩
      rw [hkind]
      exact ⟨error, congrArg Prod.fst hmake⟩
    · have hmade : MadeDirectories s target.path s' :=
        (triple_createDirAll s target.path).of_ok rfl hmake
      have hentry : (makeEntryDirectory (some target)).exec s = (.ok (), s') := by
        rw [makeEntryDirectory, exec_mapError, hmake]
        rfl
      rw [exec_bind_of_ok hentry, ← hmade.contentWritten]
      rfl

/-- Nor has an entry that the limits refuse. -/
theorem writesGiven_of_limit {stop : Stop} (hkind : f.disposition entry.kind = .extract)
    (hlimits : loop.limits.checkEntry overflowChecks entry.size = .error stop) :
    WritesGiven f overflowChecks dest destCanonical loop entry items s := by
  have hcheck : (Program.ofExcept (σ := Storage) ((loop.limits.checkEntry overflowChecks
      entry.size).mapError (describeLimit f))).exec s = (.error (describeLimit f stop), s) := by
    rw [exec_ofExcept, hlimits]
    rfl
  have hrun : (extractEntry f overflowChecks dest destCanonical loop entry).exec s =
      (.error (describeLimit f stop), s) := by
    rw [extractEntry, hkind]
    exact exec_bind_of_error hcheck
  rw [WritesGiven, hrun, available_cons_of_refused hkind hlimits]
  exact ⟨le_refl _, fun _ => rfl⟩

/-- A file is written whole, before its reader fails if it does, or the file
system refuses a call and at most the beginning is. -/
theorem writesGiven_of_target {target : PathBuf} (hkind : f.disposition entry.kind = .extract)
    (hlimits : loop.limits.checkEntry overflowChecks entry.size = .ok limits)
    (hname : (f.entryPath entry.name).isSome)
    (htarget : f.target dest destCanonical entry.name s = some target) :
    WritesGiven f overflowChecks dest destCanonical loop entry items s := by
  have hwritten := triple_writeEntry f { entry with ending := none } target s
  rw [WritesGiven, exec_extractEntry_of_admitted hkind hlimits htarget, exec_writeEntry]
  rcases hwrite : (writeEntry f { entry with ending := none } target).exec s with
    ⟨stop | ⟨⟩, s'⟩
  · have hdata : entry.data.length ≤
        available f overflowChecks loop.limits (.ok entry :: items) := by
      by_cases hending : entry.ending = none
      · rw [available_cons_of_read hkind hlimits hname hending]
        exact Nat.le_add_right _ _
      · rw [available_cons_of_failed hkind hlimits hname hending]
    refine ⟨?_, fun hnot => absurd ⟨target, htarget, ?_⟩ hnot⟩
    · rcases hwritten.of_error rfl hwrite with hmade | ⟨n, hs'⟩
      · rw [hmade.contentWritten]
        exact Nat.le_add_right _ _
      · rw [hs'.contentWritten]
        exact Nat.add_le_add_left ((List.length_take_le' _ _).trans hdata) _
    · rw [hkind]
      exact ⟨⟨limits, hlimits⟩, stop, congrArg Prod.fst hwrite⟩
  · have hs' : Written s target.path entry.data s' := hwritten.of_ok rfl hwrite
    cases hending : entry.ending with
    | none =>
      dsimp only
      rw [hs'.contentWritten, available_cons_of_read hkind hlimits hname hending, Nat.add_assoc]
    | some error =>
      dsimp only
      rw [hs'.contentWritten, available_cons_of_failed hkind hlimits hname
        (hending ▸ Option.some_ne_none error)]
      exact ⟨le_refl _, fun _ => rfl⟩

theorem writesGiven (hf : f.Encloses) (hready : Ready dest root s)
    (hdest : destCanonical = canonicalPath root) :
    WritesGiven f overflowChecks dest destCanonical loop entry items s := by
  cases hkind : f.disposition entry.kind with
  | skip => exact writesGiven_of_skip hkind
  | makeDirectory => exact writesGiven_of_directory hkind
  | extract =>
    cases hlimits : loop.limits.checkEntry overflowChecks entry.size with
    | error stop => exact writesGiven_of_limit hkind hlimits
    | ok limits =>
      cases hname : f.entryPath entry.name with
      | none =>
        rw [WritesGiven, exec_extractEntry_of_refused hkind hlimits hname]
        dsimp only
        rw [available_cons_of_name_refused hkind hlimits hname]
      | some name' =>
        exact writesGiven_of_target hkind hlimits (Option.isSome_of_eq_some hname)
          (target_eq_joined hf hready hdest hname)

/-- **The loop writes what the entries it comes to have to give**: no more, and
no less where the file system refuses no call. -/
theorem contentWritten_extractEntries {tree : Tree FileName Bytes} (hf : f.Encloses)
    (hdest : destCanonical = canonicalPath root) (i : ℕ) (items : List (Item κ)) (loop : Loop)
    (h : Confined dest root tree s) :
    contentWritten
        ((extractEntries f overflowChecks dest destCanonical i items loop).exec s).2 ≤
      contentWritten s + available f overflowChecks loop.limits items ∧
    (¬ refusedFrom f overflowChecks dest destCanonical items loop s →
      contentWritten
          ((extractEntries f overflowChecks dest destCanonical i items loop).exec s).2 =
        contentWritten s + available f overflowChecks loop.limits items) := by
  induction items generalizing i loop s with
  | nil => exact ⟨Nat.le_add_right _ _, fun _ => rfl⟩
  | cons item items ih =>
    rcases item with error | entry
    · exact ⟨Nat.le_add_right _ _, fun _ => rfl⟩
    rw [extractEntries]
    have hentry : WritesGiven f overflowChecks dest destCanonical loop entry items s :=
      writesGiven hf h.ready hdest
    rw [WritesGiven] at hentry
    rcases hrun : (extractEntry f overflowChecks dest destCanonical loop entry).exec s with
      ⟨stop | loop', s'⟩
    · rw [hrun] at hentry
      rw [exec_bind_of_error hrun]
      exact ⟨hentry.1, fun hnot => hentry.2 fun hhere => hnot (.inl hhere)⟩
    · rw [hrun] at hentry
      dsimp only at hentry
      rw [exec_bind_of_ok hrun, ← hentry]
      obtain ⟨hle, heq⟩ := ih (i + 1) loop' (h.handled hf ((triple_extractEntry s).of_ok rfl hrun))
      exact ⟨hle, fun hnot => heq fun hlater => hnot (.inr ⟨loop', s', hrun, hlater⟩)⟩

/-! ## Whole extractions -/

/-- No more files are created than may be. -/
theorem filesCreated_extract (hstart : s.history = []) :
    filesCreated ((extract f overflowChecks dest items).exec s).2 ≤ maxEntryCount := by
  have hcounted : Counted ⟨.new, []⟩ s := by
    refine ⟨?_, Nat.zero_le _⟩
    rw [filesCreated, hstart]
    rfl
  have htriple : Triple (· = s) (extract f overflowChecks dest items)
      (fun _ s' => filesCreated s' ≤ maxEntryCount) fun _ s' => filesCreated s' ≤ maxEntryCount :=
    triple_extract (P := fun _ _ => Counted) hcounted (fun _ _ _ _ _ _ _ h hs' => h.handled hs')
      (fun _ _ _ _ _ _ h hs' => h.abandoned hs') (fun _ _ _ _ _ h => h.1.trans h.2)
      fun _ _ _ h => h.1.trans h.2
  rcases hrun : (extract f overflowChecks dest items).exec s with ⟨e | paths, s'⟩
  · exact htriple.of_error rfl hrun
  · exact htriple.of_ok rfl hrun

/-- **What an extraction writes**: no more than the entries it comes to give, and
all of that where the file system refuses no call. -/
theorem contentWritten_extract (hf : f.Encloses) (hready : Ready dest root s)
    (hstart : s.history = []) :
    contentWritten ((extract f overflowChecks dest items).exec s).2 ≤
      available f overflowChecks .new items ∧
    (¬ Refused f overflowChecks dest items s →
      contentWritten ((extract f overflowChecks dest items).exec s).2 =
        available f overflowChecks .new items) := by
  have hconfined : Confined dest root s.tree s :=
    ⟨hready, fun e he => absurd he (hstart ▸ List.not_mem_nil), fun _ _ => rfl⟩
  have hnone : contentWritten s = 0 := by
    rw [contentWritten, hstart]
    rfl
  have hexec : ((extract f overflowChecks dest items).exec s).2 =
      ((extractEntries f overflowChecks dest (s.canonicalOr dest) 0 items
        ⟨.new, []⟩).exec s).2 := by
    have hlook : (look (ε := Stop) (·.canonicalOr dest)).exec s =
        (.ok (s.canonicalOr dest), s) := rfl
    rw [extract, exec_bind_of_ok hlook, exec_bind]
    rcases (extractEntries f overflowChecks dest (s.canonicalOr dest) 0 items
      ⟨.new, []⟩).exec s with ⟨stop | loop, s'⟩
    · rfl
    · rfl
  have hgiven : contentWritten s + available f overflowChecks .new items =
      available f overflowChecks .new items := by
    rw [hnone, Nat.zero_add]
  rw [hexec, ← hgiven]
  exact contentWritten_extractEntries hf hready.canonicalOr 0 items ⟨.new, []⟩ hconfined

/-- **The limits hold where the headers of the entries come to can be relied on.**
Every extraction creates at most 10,000 files. Into a directory it writes at most
1 GiB where, of the entries it comes to, no reader gives more than its header
claims and the sum of the claims does not wrap around, or where they give no
more; and only there, unless the file system refuses a call. -/
theorem extract_within_limits (f : Format κ) (overflowChecks : Bool) (dest : Path)
    (items : List (Item κ)) (hstart : s.history = []) :
    filesCreated ((extract f overflowChecks dest items).exec s).2 ≤ maxEntryCount ∧
      ∀ root, f.Encloses → Ready dest root s →
        (Reliable f overflowChecks .new items ∨
            available f overflowChecks .new items ≤ maxExpandedSize.toNat →
          contentWritten ((extract f overflowChecks dest items).exec s).2 ≤
            maxExpandedSize.toNat) ∧
        (contentWritten ((extract f overflowChecks dest items).exec s).2 ≤
            maxExpandedSize.toNat →
          (Reliable f overflowChecks .new items ∨
            available f overflowChecks .new items ≤ maxExpandedSize.toNat) ∨
          Refused f overflowChecks dest items s) := by
  refine ⟨filesCreated_extract hstart, fun root hf hready => ?_⟩
  refine ⟨fun h => (contentWritten_extract hf hready hstart).1.trans ?_, fun h => ?_⟩
  · rcases h with hreliable | havailable
    · have hzero : ExtractionLimits.new.totalSize ≤ maxExpandedSize :=
        UInt64.le_iff_toNat_le.2 (Nat.zero_le _)
      exact (Nat.le_add_left _ _).trans (hreliable.available_le hzero)
    · exact havailable
  · by_cases hrefused : Refused f overflowChecks dest items s
    · exact .inr hrefused
    · rw [(contentWritten_extract hf hready hstart).2 hrefused] at h
      exact .inl (.inr h)

theorem extract_within_limits_sample :
    filesCreated ((extractTarGz [] false (canonicalPath [sampleDir]) [sampleEntry ['a'] 1 [0]]).exec
        sampleStorage).2 ≤ maxEntryCount ∧
      contentWritten ((extractTarGz [] false (canonicalPath [sampleDir])
        [sampleEntry ['a'] 1 [0]]).exec sampleStorage).2 ≤ maxExpandedSize.toNat := by
  have h := extract_within_limits (tarGzFormat []) false (canonicalPath [sampleDir])
    [sampleEntry ['a'] 1 [0]] (s := sampleStorage) rfl
  exact ⟨h.1, (h.2 [sampleDir] (tarGzFormat_encloses []) ⟨rfl, rfl⟩).1 (.inr (by decide))⟩

/-- A zip archive with one file that claims to be empty. -/
def understated (data : Bytes) : List (Item ZipKind) := [.ok ⟨.file, ['a'], 0, data, none⟩]

theorem contentWritten_understated (data : Bytes) :
    contentWritten ((extractZip some false (canonicalPath [sampleDir]) (understated data)).exec
      sampleStorage).2 = data.length := by
  have hhistory : ((extractZip some false (canonicalPath [sampleDir]) (understated data)).exec
      sampleStorage).2.history = [.createdFile [sampleDir, ⟨['a'], by decide⟩],
        .wrote [sampleDir, ⟨['a'], by decide⟩] data] := rfl
  rw [contentWritten, hhistory]
  simp [Effect.size]

/-- A file that claims to be empty and is not is written all the same. -/
theorem understated_size_overruns :
    maxExpandedSize.toNat < contentWritten ((extractZip some false (canonicalPath [sampleDir])
      (understated (List.replicate (2 ^ 30 + 1) 0))).exec sampleStorage).2 := by
  rw [contentWritten_understated, List.length_replicate]
  exact Nat.lt_succ_self _

end Archive

end SubxCore
