import SubxCore.Archive.Limits
import Mathlib.Data.List.Nodup
import Mathlib.Data.List.Forall2
/-!
# What an extraction returns

The paths that an extraction returns against the files it leaves. Names that
differ can denote one place, and a file created there again is truncated
without a word; the paths stand for the files exactly when no two entries go
to one place.
-/

namespace SubxCore

namespace Archive

open DirTree Function Program

variable {κ : Type} {s s' : Storage} {dest p : Path} {root l ns : Location}
variable {f : Format κ} {overflowChecks : Bool} {destCanonical : Path}
variable {loop loop' : Loop} {entry : Entry κ} {items : List (Item κ)} {bytes : Bytes}

/-! ## What the result should be -/

/-- The file an effect created. -/
def createdAt : Effect → Option Location
  | .createdFile l => some l
  | _ => none

/-- **The paths stand for the files**: they are distinct and are the files there
are, each with the content of its entry, and no file was created twice. -/
structure Faithful (root : Location) (entries : List (Entry κ)) (paths : List Path) (s : Storage) :
    Prop where
  distinct : paths.Nodup
  files : ∀ ns, (∃ bytes, s.tree (root ++ ns) = some (.file bytes)) ↔
    ∃ p ∈ paths, walk s.tree s.cwd (steps p) = some (root ++ ns)
  contents : List.Forall₂ (fun (entry : Entry κ) p => ∃ l,
    walk s.tree s.cwd (steps p) = some l ∧ s.tree l = some (.file entry.data)) entries paths
  once : (s.history.filterMap createdAt).Nodup

/-- The destination is an empty directory. -/
def Fresh (dest : Path) (root : Location) (s : Storage) : Prop :=
  Ready dest root s ∧ (∀ ns, ns ≠ [] → s.tree (root ++ ns) = none) ∧ s.history = []

/-- An entry that passes the check of its kind and name. -/
def extractable (f : Format κ) : Item κ → Option (Entry κ)
  | .ok entry =>
    if f.disposition entry.kind = .extract ∧ (f.entryPath entry.name).isSome then some entry
    else none
  | .error _ => none

/-- The entries that do. -/
def extracted (f : Format κ) (items : List (Item κ)) : List (Entry κ) :=
  items.filterMap (extractable f)

theorem extracted_cons : extracted f (.ok entry :: items) =
    if f.disposition entry.kind = .extract ∧ (f.entryPath entry.name).isSome then
      entry :: extracted f items
    else extracted f items := by
  unfold extracted
  by_cases h : f.disposition entry.kind = .extract ∧ (f.entryPath entry.name).isSome
  · have hsome : extractable f (.ok entry) = some entry := if_pos h
    rw [if_pos h, List.filterMap_cons_some hsome]
  · have hnone : extractable f (.ok entry) = none := if_neg h
    rw [if_neg h, List.filterMap_cons_none hnone]

/-- The place an entry goes to, below the destination. -/
def place (f : Format κ) (entry : Entry κ) : Option Location :=
  (f.entryPath entry.name).bind within

/-- The places the entries extracted go to. -/
def places (f : Format κ) (items : List (Item κ)) : List Location :=
  (extracted f items).filterMap (place f)

/-! ## What an extraction that goes through leaves -/

/-- An entry with the path and the place it went to. -/
structure Placed (κ : Type) where
  entry : Entry κ
  path : Path
  place : Location

/-- What is where once some entries have been extracted. -/
structure Laid (f : Format κ) (dest : Path) (root : Location) (done : List (Placed κ))
    (paths : List Path) (s : Storage) : Prop where
  ready : Ready dest root s
  paths : paths = done.map Placed.path
  placed : ∀ d ∈ done, place f d.entry = some d.place
  walks : ∀ d ∈ done, walk s.tree s.cwd (steps d.path) = some (root ++ d.place)
  created : s.history.filterMap createdAt = done.map fun d => root ++ d.place
  files : ∀ ns, (∃ bytes, s.tree (root ++ ns) = some (.file bytes)) ↔ ∃ d ∈ done, d.place = ns
  contents : (done.map Placed.place).Nodup →
    ∀ d ∈ done, s.tree (root ++ d.place) = some (.file d.entry.data)

variable {done : List (Placed κ)} {paths : List Path}

theorem filterMap_createdAt_madeDirectory (ls : List Location) :
    (ls.map Effect.madeDirectory).filterMap createdAt = [] := by
  rw [List.filterMap_eq_nil_iff]
  intro e he
  obtain ⟨l, -, rfl⟩ := List.mem_map.1 he
  rfl

/-- Directories made where nothing was are no files. -/
theorem file_iff_of_missing {here : Location} {rest : List (Step FileName)} {ls : List Location}
    (hls : Missing s here rest ls) (l : Location) (bytes : Bytes) :
    leave s.tree (ls.map .madeDirectory) l = some (.file bytes) ↔
      s.tree l = some (.file bytes) := by
  rw [leave_madeDirectory]
  split
  · next hl =>
    rw [(hls l hl).1]
    simp
  · rfl

/-- Making directories changes no file. -/
theorem Laid.made (h : Laid f dest root done paths s) (hs' : MadeDirectories s p s') :
    Laid f dest root done paths s' := by
  have hmore : ∀ l, s.tree l = some .directory → s'.tree l = some .directory :=
    fun _ hl => hs'.directory hl
  obtain ⟨ls, hls, hs'⟩ := hs'
  have hfile : ∀ l bytes, s'.tree l = some (.file bytes) ↔ s.tree l = some (.file bytes) :=
    fun l bytes => hs'.tree ▸ file_iff_of_missing hls l bytes
  refine ⟨h.ready.evolves hs' hmore, h.paths, h.placed, fun d hd => ?_, ?_, fun ns => ?_,
    fun hnodup d hd => (hfile _ _).2 (h.contents hnodup d hd)⟩
  · rw [hs'.cwd]
    exact walk_mono hmore (h.walks d hd)
  · rw [hs'.history, List.filterMap_append, filterMap_createdAt_madeDirectory, List.append_nil]
    exact h.created
  · simp only [hfile]
    exact h.files ns

/-- **Writing a file adds it**, and takes the place of what went there before. -/
theorem Laid.written (h : Laid f dest root done paths s) {name : Text}
    (hplace : place f entry = some ns) (hname : within name = some ns)
    (hs' : Written s (joined dest name).path entry.data s') :
    Laid f dest root (done ++ [⟨entry, (joined dest name).path, ns⟩])
      (paths ++ [(joined dest name).path]) s' := by
  have hmore : ∀ l, s.tree l = some .directory → s'.tree l = some .directory :=
    fun _ hl => hs'.directory hl
  obtain ⟨ls, l, hls, hwalk, hnot, hs'⟩ := hs'
  obtain rfl : l = root ++ ns := (eq_goal_of_walk hwalk).trans (goal_joined h.ready hname)
  have hself : s'.tree (root ++ ns) = some (.file entry.data) := by
    rw [hs'.tree_written, update_self]
  have hother : ∀ ns', ns' ≠ ns → ∀ bytes,
      s'.tree (root ++ ns') = some (.file bytes) ↔ s.tree (root ++ ns') = some (.file bytes) := by
    intro ns' hne bytes
    rw [hs'.tree_written, update_of_ne fun heq => hne (List.append_cancel_left heq)]
    exact file_iff_of_missing hls _ bytes
  refine ⟨h.ready.evolves hs' hmore, ?_, ?_, ?_, ?_, ?_, ?_⟩
  · rw [h.paths, List.map_append]
    rfl
  · intro d hd
    rcases List.mem_append.1 hd with hd | hd
    · exact h.placed d hd
    · rw [List.mem_singleton.1 hd]
      exact hplace
  · intro d hd
    rw [hs'.cwd]
    rcases List.mem_append.1 hd with hd | hd
    · exact walk_mono hmore (h.walks d hd)
    · rw [List.mem_singleton.1 hd]
      refine walk_mono (fun l hl => ?_) hwalk
      rw [hs'.tree_written, update_of_ne]
      · exact hl
      · rintro rfl
        exact hnot hl
  · rw [hs'.history, List.filterMap_append, List.filterMap_append,
      filterMap_createdAt_madeDirectory, h.created, List.map_append]
    rfl
  · intro ns'
    by_cases hne : ns' = ns
    · subst hne
      exact ⟨fun _ => ⟨_, List.mem_append_right _ (List.mem_singleton_self _), rfl⟩,
        fun _ => ⟨_, hself⟩⟩
    · simp only [hother ns' hne, h.files ns', List.mem_append, List.mem_singleton]
      constructor
      · rintro ⟨d, hd, heq⟩
        exact ⟨d, .inl hd, heq⟩
      · rintro ⟨d, hd | rfl, heq⟩
        · exact ⟨d, hd, heq⟩
        · exact absurd heq.symm hne
  · intro hnodup d hd
    rw [List.map_append, List.nodup_append] at hnodup
    obtain ⟨hdone, -, hdisjoint⟩ := hnodup
    rcases List.mem_append.1 hd with hd | hd
    · have hne : d.place ≠ ns :=
        hdisjoint _ (List.mem_map_of_mem hd) _ (List.mem_singleton_self _)
      exact (hother _ hne _).2 (h.contents hdone d hd)
    · rw [List.mem_singleton.1 hd]
      exact hself

/-- **An entry handled**, with those before it laid out, is laid out too. -/
theorem Laid.handled (items : List (Item κ)) (hf : f.Encloses)
    (hdest : destCanonical = canonicalPath root) (h : Laid f dest root done loop.extractedPaths s)
    (hs' : Handled f overflowChecks dest destCanonical loop entry s loop' s') :
    ∃ done', extracted f (.ok entry :: items) = done'.map Placed.entry ++ extracted f items ∧
      Laid f dest root (done ++ done') loop'.extractedPaths s' := by
  have hnot : ¬ (f.disposition entry.kind = .extract ∧ (f.entryPath entry.name).isSome) →
      Laid f dest root done loop.extractedPaths s' →
      ∃ done', extracted f (.ok entry :: items) = done'.map Placed.entry ++ extracted f items ∧
        Laid f dest root (done ++ done') loop.extractedPaths s' := by
    intro hnot hlaid
    refine ⟨[], ?_, (List.append_nil done).symm ▸ hlaid⟩
    rw [extracted_cons, if_neg hnot]
    rfl
  cases hs' with
  | skipped hd => exact hnot (fun h => Disposition.noConfusion (hd.symm.trans h.1)) h
  | directory hd hmade =>
    refine hnot (fun h => Disposition.noConfusion (hd.symm.trans h.1)) ?_
    rcases hmade with rfl | ⟨target, -, hmade⟩
    · exact h
    · exact h.made hmade
  | refused _ _ htarget =>
    refine hnot (fun ⟨_, hname⟩ => ?_) h
    obtain ⟨name', hname'⟩ := Option.isSome_iff_exists.1 hname
    rw [target_eq_joined hf h.ready hdest hname'] at htarget
    cases htarget
  | extracted hd _ htarget hwritten =>
    obtain ⟨name', hname', rfl⟩ := exists_of_target_eq_some htarget
    obtain ⟨ns, hns⟩ := Option.isSome_iff_exists.1 (hf _ name' hname')
    have hplace : place f entry = some ns := by
      rw [place, hname', Option.bind_some, hns]
    refine ⟨[⟨entry, (joined dest name').path, ns⟩], ?_, h.written hplace hns hwritten⟩
    rw [extracted_cons, if_pos ⟨hd, Option.isSome_of_eq_some hname'⟩]
    rfl

/-- An extraction that goes through has laid out every entry. -/
theorem laid_of_ok (hf : f.Encloses) (hfresh : Fresh dest root s)
    (hok : ((extract f overflowChecks dest items).exec s).1 = .ok paths) :
    ∃ done, extracted f items = done.map Placed.entry ∧
      Laid f dest root done paths ((extract f overflowChecks dest items).exec s).2 := by
  obtain ⟨hready, hempty, hstart⟩ := hfresh
  have hlaid : Laid f dest root [] [] s := by
    refine ⟨hready, rfl, fun d hd => absurd hd List.not_mem_nil,
      fun d hd => absurd hd List.not_mem_nil, by rw [hstart]; rfl, fun ns => ?_,
      fun _ d hd => absurd hd List.not_mem_nil⟩
    refine ⟨fun ⟨bytes, hfile⟩ => ?_, fun ⟨d, hd, _⟩ => absurd hd List.not_mem_nil⟩
    by_cases hns : ns = []
    · rw [hns, List.append_nil, hready.2] at hfile
      cases hfile
    · rw [hempty ns hns] at hfile
      cases hfile
  have htriple : Triple (· = s) (extract f overflowChecks dest items)
      (fun paths s' => ∃ done, extracted f items = done.map Placed.entry ∧
        Laid f dest root done paths s') fun _ _ => True :=
    triple_extract
      (P := fun base rest loop s' => base = canonicalPath root ∧ ∃ done,
        extracted f items = done.map Placed.entry ++ extracted f rest ∧
          Laid f dest root done loop.extractedPaths s')
      ⟨hready.canonicalOr, [], rfl, hlaid⟩
      (fun base entry rest loop loop' s₁ s₂ h hs₂ => by
        obtain ⟨hbase, done, hdone, hlaid⟩ := h
        obtain ⟨done', hdone', hlaid'⟩ := hlaid.handled rest hf hbase hs₂
        refine ⟨hbase, done ++ done', ?_, hlaid'⟩
        rw [hdone, hdone', List.map_append, List.append_assoc])
      (fun _ _ _ _ _ _ _ _ => trivial) (fun _ _ _ _ _ _ => trivial)
      fun _ _ _ ⟨_, done, hdone, hlaid⟩ =>
        ⟨done, hdone.trans (List.append_nil (done.map Placed.entry)), hlaid⟩
  rcases hrun : (extract f overflowChecks dest items).exec s with ⟨e | paths', s'⟩
  · rw [hrun] at hok
    cases hok
  · rw [hrun] at hok
    cases hok
    exact htriple.of_ok rfl hrun

theorem Laid.places_eq (h : Laid f dest root done paths s)
    (hall : extracted f items = done.map Placed.entry) :
    places f items = done.map Placed.place := by
  rw [places, hall, List.filterMap_map, ← List.filterMap_eq_map']
  exact List.filterMap_congr h.placed

/-- Different places make different locations. -/
theorem nodup_locations (root : Location) (h : (done.map Placed.place).Nodup) :
    (done.map fun d => root ++ d.place).Nodup := by
  have hmap := h.map (List.append_right_injective root)
  rw [List.map_map] at hmap
  exact hmap

/-- A path leads to one place, so paths to different places differ. -/
theorem Laid.nodup_paths (h : Laid f dest root done paths s)
    (hnodup : (done.map Placed.place).Nodup) : paths.Nodup := by
  have hwalks : (done.map fun d => some (root ++ d.place)).Nodup := by
    have hmap := (nodup_locations root hnodup).map (Option.some_injective Location)
    rw [List.map_map] at hmap
    exact hmap
  rw [← List.map_congr_left h.walks] at hwalks
  rw [h.paths]
  refine List.Nodup.of_map (fun p => walk s.tree s.cwd (steps p)) ?_
  rw [List.map_map]
  exact hwalks

theorem Laid.faithful (h : Laid f dest root done paths s)
    (hnodup : (done.map Placed.place).Nodup) :
    Faithful root (done.map Placed.entry) paths s := by
  refine ⟨h.nodup_paths hnodup, fun ns => ?_, ?_, h.created ▸ nodup_locations root hnodup⟩
  · rw [h.files ns, h.paths]
    constructor
    · rintro ⟨d, hd, rfl⟩
      exact ⟨d.path, List.mem_map_of_mem hd, h.walks d hd⟩
    · rintro ⟨p, hp, hwalk⟩
      obtain ⟨d, hd, rfl⟩ := List.mem_map.1 hp
      rw [h.walks d hd] at hwalk
      exact ⟨d, hd, List.append_cancel_left (Option.some.inj hwalk)⟩
  · rw [h.paths, List.forall₂_map_left_iff, List.forall₂_map_right_iff, List.forall₂_same]
    exact fun d hd => ⟨_, h.walks d hd, h.contents hnodup d hd⟩

/-- **The paths stand for the files exactly when no two entries go to one
place**, once an extraction has gone through. -/
theorem extract_faithful_iff (f : Format κ) (overflowChecks : Bool) (items : List (Item κ))
    (hf : f.Encloses) (hfresh : Fresh dest root s)
    (hok : ((extract f overflowChecks dest items).exec s).1 = .ok paths) :
    Faithful root (extracted f items) paths ((extract f overflowChecks dest items).exec s).2 ↔
      (places f items).Nodup := by
  obtain ⟨done, hall, hlaid⟩ := laid_of_ok hf hfresh hok
  rw [hlaid.places_eq hall, hall]
  constructor
  · intro h
    have honce := hlaid.created ▸ h.once
    refine List.Nodup.of_map (root ++ ·) ?_
    rw [List.map_map]
    exact honce
  · exact hlaid.faithful

/-- A name as the zip crate encloses it: nothing above where it is joined. -/
def sampleEnclosedName (name : Text) : Option Text :=
  if (within name).isSome then some name else none

theorem sampleEnclosedName_encloses : (zipFormat sampleEnclosedName).Encloses := by
  intro name name' h
  unfold zipFormat sampleEnclosedName at h
  dsimp only at h
  split at h
  · next hname =>
    cases h
    exact hname
  · cases h

theorem fresh_sample : Fresh (canonicalPath [sampleDir]) [sampleDir] sampleStorage := by
  refine ⟨⟨rfl, rfl⟩, fun ns hns => if_neg ?_, rfl⟩
  rintro (h | h)
  · cases h
  · exact hns (List.append_right_eq_self.1 h)

/-- Two files of a zip archive. -/
def twoFiles : List (Item ZipKind) :=
  [.ok ⟨.file, ['a'], 1, [0], none⟩, .ok ⟨.file, ['b'], 1, [1], none⟩]

theorem extract_faithful_iff_twoFiles :
    Faithful [sampleDir] (extracted (zipFormat sampleEnclosedName) twoFiles)
      [canonicalPath [sampleDir, ⟨['a'], by decide⟩], canonicalPath [sampleDir, ⟨['b'], by decide⟩]]
      ((extractZip sampleEnclosedName false (canonicalPath [sampleDir]) twoFiles).exec
        sampleStorage).2 :=
  (extract_faithful_iff (zipFormat sampleEnclosedName) false twoFiles sampleEnclosedName_encloses
    fresh_sample (by decide +kernel)).2 (by decide +kernel)

/-- Two names of one place. -/
def oneTarget : List (Item EntryType) :=
  [sampleEntry ['a'] 1 [0], sampleEntry ['.', '/', 'a'] 1 [1]]

/-- The second file takes the place of the first, and its path is returned
twice. -/
theorem repeated_target_truncates :
    ((extractTarGz [] false (canonicalPath [sampleDir]) oneTarget).exec sampleStorage).1 =
        .ok [canonicalPath [sampleDir, ⟨['a'], by decide⟩],
          canonicalPath [sampleDir, ⟨['a'], by decide⟩]] ∧
      ((extractTarGz [] false (canonicalPath [sampleDir]) oneTarget).exec sampleStorage).2.tree
        [sampleDir, ⟨['a'], by decide⟩] = some (.file [1]) ∧
      ¬ Faithful [sampleDir] (extracted (tarGzFormat []) oneTarget)
        [canonicalPath [sampleDir, ⟨['a'], by decide⟩],
          canonicalPath [sampleDir, ⟨['a'], by decide⟩]]
        ((extractTarGz [] false (canonicalPath [sampleDir]) oneTarget).exec sampleStorage).2 := by
  refine ⟨by decide +kernel, by decide +kernel, fun h => ?_⟩
  exact absurd h.distinct (by decide)

end Archive

end SubxCore
