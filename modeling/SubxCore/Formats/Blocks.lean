import SubxCore.Common.Run
import SubxCore.Formats.Types
/-!
# Cue blocks

The loop the block-based parsers share: the blocks of a text are read in
order, a block yields a cue, is skipped, or ends the parse with an error.
The reader of a block is told how many cues came before it.
-/

namespace SubxCore

open Text

/-- What one block comes to: a cue, nothing, or an error. -/
abbrev BlockReader := ℕ → Text → Except SubXError (Option SubtitleEntry)

/-- The cues of a list of blocks, with `count` cues before them. -/
def readBlocks (read : BlockReader) : ℕ → List Text → Except SubXError (List SubtitleEntry)
  | _, [] => .ok []
  | count, block :: blocks => do
    match ← read count block with
    | none => readBlocks read count blocks
    | some entry => return entry :: (← readBlocks read (count + 1) blocks)

/-- The first block over the cap. -/
def firstOversized (blocks : List Text) : Option Text :=
  blocks.find? fun block => maxCueBytes < byteLen block

variable {read : BlockReader} {count : ℕ} {block : Text} {blocks : List Text}

@[simp] theorem readBlocks_nil : readBlocks read count [] = .ok [] := rfl

/-- A block that is skipped. -/
theorem readBlocks_skip (h : read count block = .ok none) :
    readBlocks read count (block :: blocks) = readBlocks read count blocks := by
  rw [readBlocks, h]
  rfl

/-- A block that is a cue. -/
theorem readBlocks_cue {entry : SubtitleEntry} {entries : List SubtitleEntry}
    (h : read count block = .ok (some entry))
    (hrest : readBlocks read (count + 1) blocks = .ok entries) :
    readBlocks read count (block :: blocks) = .ok (entry :: entries) := by
  rw [readBlocks, h]
  simp only [bind, Except.bind, hrest, pure, Except.pure]

/-- A block that is read, and the blocks after it. -/
theorem readBlocks_cons {cue : Option SubtitleEntry} {entries : List SubtitleEntry}
    (h : read count block = .ok cue) (hrest : ∀ n, readBlocks read n blocks = .ok entries) :
    readBlocks read count (block :: blocks) = .ok (cue.toList ++ entries) := by
  cases cue with
  | none => exact (readBlocks_skip h).trans (hrest count)
  | some cue => exact readBlocks_cue h (hrest (count + 1))

/-- What every block that is a cue makes, the whole list is made of. -/
theorem forall_mem_of_readBlocks {P : SubtitleEntry → Prop} {entries : List SubtitleEntry}
    (h : ∀ count block entry, read count block = .ok (some entry) → P entry)
    (hrun : readBlocks read count blocks = .ok entries) : ∀ e ∈ entries, P e := by
  induction blocks generalizing count entries with
  | nil =>
    obtain rfl := Except.ok.inj hrun
    simp
  | cons b bs ih =>
    obtain ⟨cue, hcue, hrun⟩ := Run.bind_eq_ok.1 hrun
    cases cue with
    | none => exact ih hrun
    | some cue =>
      obtain ⟨es, hes, hrun⟩ := Run.bind_eq_ok.1 hrun
      obtain rfl := Except.ok.inj hrun
      intro e he
      rcases List.mem_cons.1 he with rfl | he
      · exact h count b _ hcue
      · exact ih hes e he

/-- **A reader that does not count** reads a list of blocks exactly when it
reads every block, and then the cues are those of the blocks in turn. -/
theorem readBlocks_eq_ok_iff {read : Text → Except SubXError (Option SubtitleEntry)}
    {entries : List SubtitleEntry} :
    readBlocks (fun _ => read) count blocks = .ok entries ↔
      (∀ b ∈ blocks, ∃ cue, read b = .ok cue) ∧
        entries = blocks.filterMap fun b => (read b).toOption.join := by
  induction blocks generalizing count entries with
  | nil => simp [readBlocks, eq_comm]
  | cons b bs ih =>
    rcases hb : read b with e | cue
    · have herr : readBlocks (fun _ => read) count (b :: bs) = .error e := by
        rw [readBlocks, hb]
        rfl
      simp [herr, hb]
    cases cue with
    | none =>
      rw [readBlocks_skip hb, ih]
      simp [hb, Except.toOption]
    | some cue =>
      have hrun : readBlocks (fun _ => read) count (b :: bs) = .ok entries ↔
          ∃ es, readBlocks (fun _ => read) (count + 1) bs = .ok es ∧ entries = cue :: es := by
        rw [readBlocks, hb]
        rcases readBlocks (fun _ => read) (count + 1) bs with e | es
        · simp [bind, Except.bind]
        · simp [bind, Except.bind, pure, Except.pure, eq_comm]
      rw [hrun]
      simp only [ih]
      simp [hb, Except.toOption]

/-- It fails exactly when it fails at a block. -/
theorem readBlocks_eq_error_iff {read : Text → Except SubXError (Option SubtitleEntry)} :
    (∃ e, readBlocks (fun _ => read) count blocks = .error e) ↔
      ∃ b ∈ blocks, ∃ e, read b = .error e := by
  simp only [Run.exists_error_iff, readBlocks_eq_ok_iff]
  simp

/-! ## Numbered cues -/

/-- Cues numbered as they come, after `count` others. -/
def numbered (count : ℕ) (entries : List SubtitleEntry) : List SubtitleEntry :=
  (entries.zipIdx (count + 1)).map fun (entry, number) => { entry with index := number }

/-- The reader looks at the count for the number of its cue only. -/
def Numbers (read : BlockReader) : Prop :=
  ∀ count block, read count block =
    (read 0 block).map fun cue => cue.map fun entry => { entry with index := count + 1 }

theorem numbered_cons (entry : SubtitleEntry) (entries : List SubtitleEntry) :
    numbered count (entry :: entries) =
      { entry with index := count + 1 } :: numbered (count + 1) entries := rfl

theorem getElem?_numbered (k : ℕ) (entries : List SubtitleEntry) :
    (numbered count entries)[k]? =
      entries[k]?.map fun entry => { entry with index := count + k + 1 } := by
  rw [numbered, List.getElem?_map, List.getElem?_zipIdx, Option.map_map]
  congr 1
  funext entry
  simp only [Function.comp_apply, Nat.add_right_comm]

/-- What does not look at the number of a cue does not see the numbering. -/
theorem map_numbered {α : Type} {f : SubtitleEntry → α}
    (hf : ∀ e n, f { e with index := n } = f e) (entries : List SubtitleEntry) :
    (numbered count entries).map f = entries.map f := by
  induction entries generalizing count with
  | nil => rfl
  | cons e es ih => rw [numbered_cons, List.map_cons, List.map_cons, hf, ih]

/-- **A reader that numbers its cues** reads a list of blocks exactly when it
reads every block, and then the cues are those of the blocks, numbered. -/
theorem Numbers.readBlocks_eq_ok_iff (h : Numbers read) {entries : List SubtitleEntry} :
    readBlocks read count blocks = .ok entries ↔
      (∀ b ∈ blocks, ∃ cue, read 0 b = .ok cue) ∧
        entries = numbered count (blocks.filterMap fun b => (read 0 b).toOption.join) := by
  induction blocks generalizing count entries with
  | nil => simp [readBlocks, numbered, eq_comm]
  | cons b bs ih =>
    have hread := h count b
    rcases hb : read 0 b with e | cue <;> rw [hb] at hread
    · have herr : readBlocks read count (b :: bs) = .error e := by
        rw [readBlocks, hread]
        rfl
      simp [herr, hb]
    cases cue with
    | none =>
      rw [readBlocks_skip hread, ih]
      simp [hb, Except.toOption]
    | some cue =>
      have hrun : readBlocks read count (b :: bs) = .ok entries ↔
          ∃ es, readBlocks read (count + 1) bs = .ok es ∧
            entries = { cue with index := count + 1 } :: es := by
        rw [readBlocks, hread]
        rcases readBlocks read (count + 1) bs with e | es
        · simp [bind, Except.bind, Except.map]
        · simp [bind, Except.bind, Except.map, pure, Except.pure, eq_comm]
      rw [hrun]
      simp only [ih]
      simp [hb, Except.toOption, numbered_cons]

/-- It fails exactly when it fails at a block. -/
theorem Numbers.readBlocks_eq_error_iff (h : Numbers read) :
    (∃ e, readBlocks read count blocks = .error e) ↔ ∃ b ∈ blocks, ∃ e, read 0 b = .error e := by
  simp only [Run.exists_error_iff, h.readBlocks_eq_ok_iff]
  simp

/-! ## The size cap -/

/-- Nothing is over the cap exactly when every block fits. -/
theorem firstOversized_eq_none :
    firstOversized blocks = none ↔ ∀ b ∈ blocks, byteLen b ≤ maxCueBytes := by
  simp [firstOversized]

end SubxCore
