import SubxCore.Archive.Extraction
/-!
# What the calls do to the storage

For each call, and for writing an entry, the effects it can have had, when it
goes through and when it fails: a few missing directories, then the file, then
its content or the beginning of it.
-/

namespace SubxCore

namespace Archive

open DirTree Function Program

variable {κ : Type} {s s' s'' : Storage} {effects effects' : List Effect} {here l : Location}
variable {rest rest' : List (Step FileName)}

/-! ## Effects one after the other -/

/-- What effects leave. -/
def leave (tree : Tree FileName Bytes) (effects : List Effect) : Tree FileName Bytes :=
  effects.foldl (fun tree effect => update tree effect.location (some effect.node)) tree

/-- **One storage becomes another** by some effects. -/
structure Evolves (s : Storage) (effects : List Effect) (s' : Storage) : Prop where
  tree : s'.tree = leave s.tree effects
  cwd : s'.cwd = s.cwd
  history : s'.history = s.history ++ effects

theorem Evolves.refl (s : Storage) : Evolves s [] s := ⟨rfl, rfl, (List.append_nil _).symm⟩

theorem Evolves.trans (h : Evolves s effects s') (h' : Evolves s' effects' s'') :
    Evolves s (effects ++ effects') s'' := by
  refine ⟨?_, h'.cwd.trans h.cwd, ?_⟩
  · rw [h'.tree, h.tree, leave, leave, leave, List.foldl_append]
  · rw [h'.history, h.history, List.append_assoc]

theorem Evolves.after (s : Storage) (effect : Option Effect) :
    Evolves s effect.toList (s.after effect) := by
  cases effect with
  | none => exact ⟨rfl, rfl, (List.append_nil _).symm⟩
  | some effect => exact ⟨rfl, rfl, rfl⟩

/-- Where no effect was, nothing has changed. -/
theorem leave_of_notMem {tree : Tree FileName Bytes} (h : ∀ e ∈ effects, e.location ≠ l) :
    leave tree effects l = tree l := by
  induction effects generalizing tree with
  | nil => rfl
  | cons effect effects ih =>
    rw [leave, List.foldl_cons]
    refine (ih fun e he => h e (List.mem_cons_of_mem _ he)).trans ?_
    exact update_of_ne (h effect (List.mem_cons_self ..)).symm _ _

/-- Directories made leave a location as it was, or a directory. -/
theorem leave_madeDirectory (tree : Tree FileName Bytes) (ls : List Location) (l : Location) :
    leave tree (ls.map .madeDirectory) l = if l ∈ ls then some .directory else tree l := by
  induction ls generalizing tree with
  | nil => rfl
  | cons l' ls ih =>
    rw [List.map_cons, leave, List.foldl_cons]
    refine (ih _).trans ?_
    by_cases hl : l ∈ ls
    · rw [if_pos hl, if_pos (List.mem_cons_of_mem _ hl)]
    · rw [if_neg hl]
      by_cases heq : l = l'
      · subst heq
        rw [if_pos (List.mem_cons_self ..)]
        exact update_self ..
      · rw [if_neg (List.not_mem_cons_of_ne_of_not_mem heq hl)]
        exact update_of_ne heq _ _

/-! ## The calls -/

theorem triple_look {ε α : Type} {P : Storage → Prop} {E : ε → Storage → Prop} {f : Storage → α} :
    Triple P (look f) (fun a s => a = f s ∧ P s) E := fun _ hs => ⟨rfl, hs⟩

/-- A call fails for reasons of its own, or acts. -/
theorem triple_call {α : Type} {broken : Fault → Option Effect}
    {act : Storage → Except IoError α × Option Effect} {P : Storage → Prop}
    {Q : α → Storage → Prop} {E : IoError → Storage → Prop}
    (hfault : ∀ s fault, P s → E (.other fault.message) (s.after (broken fault)))
    (hok : ∀ s a effect, P s → act s = (.ok a, effect) → Q a (s.after effect))
    (herror : ∀ s err effect, P s → act s = (.error err, effect) → E err (s.after effect)) :
    Triple P (call broken act) Q E := by
  intro s hs
  rw [call, exec_step]
  cases s.faults 0 with
  | some fault => exact hfault s fault hs
  | none =>
    rcases hact : act s with ⟨err | a, effect⟩
    · exact herror s err effect hs hact
    · exact hok s a effect hs hact

/-- Directories that were missing, each where some of the steps lead. -/
def Missing (s : Storage) (here : Location) (rest : List (Step FileName)) (ls : List Location) :
    Prop := ∀ l ∈ ls, s.tree l = none ∧ ∃ some, some <+: rest ∧ l = goal here some

/-- The directories on a path, made where they were missing. -/
def MadeDirectories (s : Storage) (p : Path) (s' : Storage) : Prop :=
  ∃ ls, Missing s s.cwd (steps p) ls ∧ Evolves s (ls.map .madeDirectory) s'

/-- A file written, with the directories it lies in. -/
def Written (s : Storage) (target : Path) (bytes : Bytes) (s' : Storage) : Prop :=
  ∃ ls l, Missing s s.cwd (steps target) ls ∧
    walk (leave s.tree (ls.map .madeDirectory)) s.cwd (steps target) = some l ∧
    leave s.tree (ls.map .madeDirectory) l ≠ some .directory ∧
    Evolves s (ls.map .madeDirectory ++ [.createdFile l, .wrote l bytes]) s'

theorem MadeDirectories.refl (s : Storage) (p : Path) : MadeDirectories s p s :=
  ⟨[], fun _ h => absurd h List.not_mem_nil, .refl s⟩

theorem missing_nil : Missing s here rest [] := fun _ h => absurd h List.not_mem_nil

/-- **`mkdir`** makes the directory, where nothing was. -/
theorem triple_makeDirectory (s : Storage) (l : Location) :
    Triple (· = s) (makeDirectory l)
      (fun _ s' => s.tree l = none ∧ Evolves s [.madeDirectory l] s')
      fun _ s' => Evolves s [] s' := by
  refine triple_call ?_ ?_ ?_
  · rintro s fault rfl
    exact .after s none
  · rintro s a effect rfl hact
    split at hact
    · cases hact
    · next hnone =>
      cases hact
      exact ⟨hnone, .after s (some _)⟩
  · rintro s err effect rfl hact
    split at hact
    · cases hact
      exact .after s none
    · cases hact

/-- A directory is there, or is made. -/
theorem triple_ensureDirectory (s : Storage) (inTheWay : IoError) (l : Location) :
    Triple (· = s) (ensureDirectory inTheWay l)
      (fun _ s' => ∃ ls : List Location, (∀ l' ∈ ls, s.tree l' = none ∧ l' = l) ∧
        Evolves s (ls.map .madeDirectory) s')
      fun _ s' => Evolves s [] s' := by
  refine .bind triple_look fun node => ?_
  rcases node with - | - | content
  · refine (triple_makeDirectory s l).weaken (fun _ hs => hs.2) ?_ fun _ _ h => h
    rintro _ s' ⟨hnone, hs'⟩
    exact ⟨[l], fun l' hl' => by rw [List.mem_singleton.1 hl']; exact ⟨hnone, rfl⟩, hs'⟩
  · refine .pure ?_
    rintro s' ⟨-, rfl⟩
    exact ⟨[], fun _ h => absurd h List.not_mem_nil, .refl s'⟩
  · refine .throw ?_
    rintro s' ⟨-, rfl⟩
    exact .refl s'

/-- **`create_dir_all`**, from where it has come to. -/
theorem triple_makeDirectories (s : Storage) (here : Location) (rest : List (Step FileName)) :
    Triple (· = s) (makeDirectories here rest)
      (fun _ s' => ∃ ls, Missing s here rest ls ∧ Evolves s (ls.map .madeDirectory) s')
      fun _ s' => ∃ ls, Missing s here rest ls ∧ Evolves s (ls.map .madeDirectory) s' := by
  induction rest generalizing here s with
  | nil =>
    refine .pure fun s' hs => ?_
    subst hs
    exact ⟨[], missing_nil, .refl s'⟩
  | cons step rest ih =>
    refine .bind ((triple_ensureDirectory s _ _).weaken_error ?_) ?_
    · exact fun _ s' h => ⟨[], missing_nil, h⟩
    · intro _
      refine .each fun s₁ ⟨ls, hls, hs₁⟩ => ?_
      have hmore : ∀ s', (∃ ls', Missing s₁ (step.lead here) rest ls' ∧
          Evolves s₁ (ls'.map .madeDirectory) s') →
          ∃ ls', Missing s here (step :: rest) ls' ∧ Evolves s (ls'.map .madeDirectory) s' := by
        rintro s' ⟨ls', hls', hs'⟩
        refine ⟨ls ++ ls', fun l hl => ?_, List.map_append ▸ hs₁.trans hs'⟩
        rcases List.mem_append.1 hl with hl | hl
        · obtain ⟨hnone, rfl⟩ := hls l hl
          exact ⟨hnone, [step], List.prefix_iff_eq_take.2 rfl, rfl⟩
        · obtain ⟨hnone, some, hsome, rfl⟩ := hls' l hl
          refine ⟨?_, step :: some, (List.prefix_cons_inj step).2 hsome, rfl⟩
          rw [hs₁.tree, leave_madeDirectory] at hnone
          split at hnone
          · cases hnone
          · exact hnone
      exact (ih s₁ _).weaken (fun _ h => h) (fun _ s' h => hmore s' h) fun _ s' h => hmore s' h

/-- `create_dir_all`. -/
theorem triple_createDirAll (s : Storage) (p : Path) :
    Triple (· = s) (createDirAll p) (fun _ s' => MadeDirectories s p s')
      fun _ s' => MadeDirectories s p s' := by
  refine .bind triple_look fun cwd => .each ?_
  rintro s' ⟨rfl, rfl⟩
  exact triple_makeDirectories s' _ _

/-- **`File::create`** leaves an empty file where no directory was. -/
theorem triple_createFile (s : Storage) (p : PathBuf) :
    Triple (· = s) (createFile p)
      (fun l s' => walk s.tree s.cwd (steps p.path) = some l ∧ s.tree l ≠ some .directory ∧
        Evolves s [.createdFile l] s')
      fun _ s' => Evolves s [] s' := by
  refine triple_call ?_ ?_ ?_
  · rintro s fault rfl
    exact .after s none
  · rintro s l effect rfl hact
    split at hact
    · cases hact
    · next l' hwalk =>
      split at hact
      · cases hact
      · next hnot =>
        split at hact
        · cases hact
        · cases hact
          exact ⟨hwalk, hnot, .after s (some _)⟩
  · rintro s err effect rfl hact
    split at hact
    · cases hact
      exact .after s none
    · split at hact
      · cases hact
        exact .after s none
      · split at hact
        · cases hact
          exact .after s none
        · cases hact

/-- **`io::copy`** writes what the reader gives, or the beginning of it. -/
theorem triple_copyInto (s : Storage) (l : Location) (data : Bytes) (ending : Option IoError) :
    Triple (· = s) (copyInto l data ending)
      (fun _ s' => Evolves s [.wrote l data] s')
      fun _ s' => ∃ n, Evolves s [.wrote l (data.take n)] s' := by
  refine triple_call ?_ ?_ ?_
  · rintro s fault rfl
    exact ⟨fault.written, .after s (some _)⟩
  · rintro s a effect rfl hact
    obtain ⟨-, rfl⟩ := Prod.mk.inj hact
    exact .after s (some _)
  · rintro s err effect rfl hact
    obtain ⟨-, rfl⟩ := Prod.mk.inj hact
    exact ⟨data.length, by rw [List.take_length]; exact .after s (some _)⟩

/-! ## Writing an entry -/

theorem missing_of_parent {p parent : Path} {ls : List Location} (hp : p.parent = some parent)
    (h : Missing s s.cwd (steps parent) ls) : Missing s s.cwd (steps p) ls := by
  intro l hl
  obtain ⟨hnone, some, hsome, rfl⟩ := h l hl
  refine ⟨hnone, some, hsome.trans ?_, rfl⟩
  unfold Path.parent at hp
  split at hp
  · cases hp
  · cases hp
  · cases hp
    exact (List.dropLast_prefix p).map componentStep

theorem triple_createParents (f : Format κ) (entry : Entry κ) (target : PathBuf) (s : Storage) :
    Triple (· = s) (createParents f entry target) (fun _ s' => MadeDirectories s target.path s')
      fun _ s' => MadeDirectories s target.path s' := by
  unfold createParents
  split
  · refine .pure fun s' hs => ?_
    subst hs
    exact .refl s' _
  · next parent hparent =>
    have hmore : ∀ {s'}, MadeDirectories s parent s' → MadeDirectories s target.path s' :=
      fun ⟨ls, hls, hs'⟩ => ⟨ls, missing_of_parent hparent hls, hs'⟩
    exact .mapError ((triple_createDirAll s parent).weaken (fun _ h => h) (fun _ _ h => hmore h)
      fun _ _ h => hmore h)

/-- **Writing an entry** writes its file, or fails with the directories made and
at most the beginning of the file written. -/
theorem triple_writeEntry (f : Format κ) (entry : Entry κ) (target : PathBuf) (s : Storage) :
    Triple (· = s) (writeEntry f entry target)
      (fun _ s' => Written s target.path entry.data s')
      fun _ s' => MadeDirectories s target.path s' ∨
        ∃ n, Written s target.path (entry.data.take n) s' := by
  refine .bind ((triple_createParents f entry target s).weaken_error fun _ _ h => .inl h)
    fun _ => .each ?_
  rintro s₁ ⟨ls, hls, hs₁⟩
  refine .bind (.mapError ((triple_createFile s₁ target).weaken_error ?_)) fun l => .each ?_
  · intro _ s' hs'
    exact .inl ⟨ls, hls, List.append_nil (ls.map Effect.madeDirectory) ▸ hs₁.trans hs'⟩
  · rintro s₂ ⟨hwalk, hnot, hs₂⟩
    rw [hs₁.tree, hs₁.cwd] at hwalk
    rw [hs₁.tree] at hnot
    have hwritten : ∀ {bytes s'}, Evolves s₂ [.wrote l bytes] s' →
        Written s target.path bytes s' :=
      fun hs' => ⟨ls, l, hls, hwalk, hnot, hs₁.trans (hs₂.trans hs')⟩
    exact .mapError ((triple_copyInto s₂ l _ _).weaken (fun _ h => h) (fun _ _ h => hwritten h)
      fun _ _ ⟨n, h⟩ => .inr ⟨n, hwritten h⟩)

theorem triple_makeEntryDirectory (s : Storage) (target : Option PathBuf) :
    Triple (· = s) (makeEntryDirectory target)
      (fun _ s' => s' = s ∨ ∃ p ∈ target, MadeDirectories s p.path s')
      fun _ s' => ∃ p ∈ target, MadeDirectories s p.path s' := by
  cases target with
  | none => exact .pure fun _ h => .inl h
  | some target =>
    exact .mapError ((triple_createDirAll s target.path).weaken (fun _ h => h)
      (fun _ _ h => .inr ⟨target, rfl, h⟩) fun _ _ h => ⟨target, rfl, h⟩)

/-! ## The body of the loop -/

variable {f : Format κ} {overflowChecks : Bool} {dest destCanonical : Path}
variable {loop loop' : Loop} {entry : Entry κ} {limits limits' : ExtractionLimits}

/-- What `check_entry` lets through. -/
theorem checkEntry_eq_ok {size : UInt64} (h : limits.checkEntry overflowChecks size = .ok limits') :
    limits' = ⟨limits.totalSize + size, limits.entryCount + 1⟩ ∧
      limits.entryCount + 1 ≤ maxEntryCount ∧ limits'.totalSize ≤ maxExpandedSize ∧
      (overflowChecks = true → limits.totalSize.toNat + size.toNat < 2 ^ 64) := by
  unfold ExtractionLimits.checkEntry at h
  dsimp only at h
  split at h
  · cases h
  · next hcount =>
    split at h
    · cases h
    · next hsum =>
      split at h
      · cases h
      · next hsize =>
        cases h
        exact ⟨rfl, Nat.not_lt.1 hcount, UInt64.not_lt.1 hsize,
          fun hchecks => Nat.not_le.1 fun hle => hsum ⟨hchecks, hle⟩⟩

/-- **An entry handled**: what the loop and the storage are afterwards. -/
inductive Handled (f : Format κ) (overflowChecks : Bool) (dest destCanonical : Path) (loop : Loop)
    (entry : Entry κ) (s : Storage) : Loop → Storage → Prop
  | skipped : f.disposition entry.kind = .skip →
      Handled f overflowChecks dest destCanonical loop entry s loop s
  | directory {s' : Storage} : f.disposition entry.kind = .makeDirectory →
      (s' = s ∨ ∃ target, f.target dest destCanonical entry.name s = some target ∧
        MadeDirectories s target.path s') →
      Handled f overflowChecks dest destCanonical loop entry s loop s'
  | refused {limits : ExtractionLimits} : f.disposition entry.kind = .extract →
      loop.limits.checkEntry overflowChecks entry.size = .ok limits →
      f.target dest destCanonical entry.name s = none →
      Handled f overflowChecks dest destCanonical loop entry s { loop with limits } s
  | extracted {limits : ExtractionLimits} {target : PathBuf} {s' : Storage} :
      f.disposition entry.kind = .extract →
      loop.limits.checkEntry overflowChecks entry.size = .ok limits →
      f.target dest destCanonical entry.name s = some target →
      Written s target.path entry.data s' →
      Handled f overflowChecks dest destCanonical loop entry s
        ⟨limits, loop.extractedPaths ++ [target.path]⟩ s'

/-- **An entry at which the extraction stops**: what the storage is afterwards. -/
inductive Abandoned (f : Format κ) (overflowChecks : Bool) (dest destCanonical : Path) (loop : Loop)
    (entry : Entry κ) (s : Storage) : Storage → Prop
  | limit : Abandoned f overflowChecks dest destCanonical loop entry s s
  | directories {target : PathBuf} {s' : Storage} :
      f.target dest destCanonical entry.name s = some target → MadeDirectories s target.path s' →
      Abandoned f overflowChecks dest destCanonical loop entry s s'
  | content {limits : ExtractionLimits} {target : PathBuf} {n : ℕ} {s' : Storage} :
      f.disposition entry.kind = .extract →
      loop.limits.checkEntry overflowChecks entry.size = .ok limits →
      f.target dest destCanonical entry.name s = some target →
      Written s target.path (entry.data.take n) s' →
      Abandoned f overflowChecks dest destCanonical loop entry s s'

/-- **The body of the loop** handles the entry, or abandons it. -/
theorem triple_extractEntry (s : Storage) :
    Triple (· = s) (extractEntry f overflowChecks dest destCanonical loop entry)
      (Handled f overflowChecks dest destCanonical loop entry s)
      fun _ => Abandoned f overflowChecks dest destCanonical loop entry s := by
  unfold extractEntry
  split
  · next hskip =>
    refine .pure fun s' hs => ?_
    subst hs
    exact .skipped hskip
  · next hdirectory =>
    refine .bind triple_look fun target => .each ?_
    rintro s' ⟨htarget, rfl⟩
    refine .bind ((triple_makeEntryDirectory s' target).weaken_error ?_) fun _ => .pure ?_
    · rintro _ s'' ⟨p, hp, hs''⟩
      exact .directories (htarget ▸ hp) hs''
    · rintro s'' (rfl | ⟨p, hp, hs''⟩)
      · exact .directory hdirectory (.inl rfl)
      · exact .directory hdirectory (.inr ⟨p, htarget ▸ hp, hs''⟩)
  · next hextract =>
    refine .bind (Q := fun limits s' =>
      loop.limits.checkEntry overflowChecks entry.size = .ok limits ∧ s' = s) ?_
      fun limits => .each ?_
    · refine .ofExcept (fun limits s' hok hs => ?_) fun e s' _ hs => ?_
      · subst hs
        refine ⟨?_, rfl⟩
        cases hcheck : loop.limits.checkEntry overflowChecks entry.size with
        | error e =>
          rw [hcheck] at hok
          cases hok
        | ok limits' =>
          rw [hcheck] at hok
          cases hok
          rfl
      · subst hs
        exact .limit
    · rintro s' ⟨hlimits, rfl⟩
      refine .bind triple_look fun target => .each ?_
      rintro s'' ⟨htarget, rfl⟩
      cases target with
      | none =>
        refine .pure fun s' hs => ?_
        subst hs
        exact .refused hextract hlimits htarget.symm
      | some target =>
        refine .bind ((triple_writeEntry f entry target s'').weaken_error ?_)
          fun _ => .pure fun s' hs => ?_
        · rintro _ s' (hs | ⟨n, hs⟩)
          · exact .directories htarget.symm hs
          · exact .content hextract hlimits htarget.symm hs
        · exact .extracted hextract hlimits htarget.symm hs

/-- **The loop rule**: an invariant of what is left to do, kept by each entry
handled, and a property it leaves when an entry is abandoned. -/
theorem triple_extractEntries {P : List (Item κ) → Loop → Storage → Prop} {E : Storage → Prop}
    (hhandled : ∀ entry items loop loop' s s', P (.ok entry :: items) loop s →
      Handled f overflowChecks dest destCanonical loop entry s loop' s' → P items loop' s')
    (habandoned : ∀ entry items loop s s', P (.ok entry :: items) loop s →
      Abandoned f overflowChecks dest destCanonical loop entry s s' → E s')
    (hunread : ∀ err items loop s, P (.error err :: items) loop s → E s)
    (i : ℕ) (items : List (Item κ)) (loop : Loop) :
    Triple (P items loop) (extractEntries f overflowChecks dest destCanonical i items loop)
      (P []) fun _ => E := by
  induction items generalizing i loop with
  | nil => exact .pure fun _ h => h
  | cons item items ih =>
    cases item with
    | error err => exact .throw fun s hs => hunread err items loop s hs
    | ok entry =>
      refine .bind (Q := P items) (.each fun s hs => ?_) fun loop' => ih (i + 1) loop'
      exact (triple_extractEntry s).weaken (fun _ h => h)
        (fun loop' s' h => hhandled entry items loop loop' s s' hs h)
        fun _ s' h => habandoned entry items loop s s' hs h

/-- The loop rule for a whole extraction. -/
theorem triple_extract {P : Path → List (Item κ) → Loop → Storage → Prop} {E : Storage → Prop}
    {Q : List Path → Storage → Prop} {items : List (Item κ)} {s : Storage}
    (hstart : P (s.canonicalOr dest) items ⟨.new, []⟩ s)
    (hhandled : ∀ destCanonical entry items loop loop' s s',
      P destCanonical (.ok entry :: items) loop s →
      Handled f overflowChecks dest destCanonical loop entry s loop' s' →
      P destCanonical items loop' s')
    (habandoned : ∀ destCanonical entry items loop s s',
      P destCanonical (.ok entry :: items) loop s →
      Abandoned f overflowChecks dest destCanonical loop entry s s' → E s')
    (hunread : ∀ destCanonical err items loop s,
      P destCanonical (.error err :: items) loop s → E s)
    (hend : ∀ destCanonical loop s, P destCanonical [] loop s → Q loop.extractedPaths s) :
    Triple (· = s) (extract f overflowChecks dest items) Q fun _ => E := by
  refine .bind triple_look fun destCanonical => .each ?_
  rintro s' ⟨rfl, rfl⟩
  refine .bind (Q := P (s'.canonicalOr dest) []) ?_ fun loop => .pure fun s hs => hend _ loop s hs
  exact (triple_extractEntries (hhandled _) (habandoned _) (hunread _) 0 items
    ⟨.new, []⟩).weaken_pre fun _ h => h ▸ hstart

end Archive

end SubxCore
