import SubxCore.Input.InputPaths
import SubxCore.Matcher.NumberedPaths
/-!
# Pairing a video and a subtitle

`resolve_sync_pairing` decides what a sync command works on. The documented
algorithm resolves a video and a subtitle, from one path and what is beside it, from
two paths or from the options, and then decides the same way for all three. The
source decides in each of the three places anew: beside one path a manual offset
drops the video even where there is one, and with two paths it never relaxes.
-/

namespace SubxCore

open Text

/-- `SYNC_VIDEO_EXTENSIONS`. -/
def syncVideoExtensions : List Text := ["mp4", "mkv", "avi", "mov"].map String.toList

/-- `SYNC_SUBTITLE_EXTENSIONS`. -/
def syncSubtitleExtensions : List Text := ["srt", "ass", "vtt", "sub"].map String.toList

/-- `BatchRequest`. -/
inductive BatchRequest
  | off
  | auto
  | directory (dir : Path)
  deriving DecidableEq, Repr

/-- `SyncPairingRequest`. -/
structure SyncPairingRequest where
  positionalPaths : List Path
  inputPaths : List Path
  video : Option Path
  subtitle : Option Path
  batch : BatchRequest
  recursive : Bool
  noExtract : Bool
  manual : Bool
  deriving DecidableEq, Repr

/-- `SyncMode`. -/
inductive SyncMode
  | single (video subtitle : Path)
  | batch (handler : InputPathHandler)
  deriving DecidableEq, Repr

namespace SyncPairingRequest

variable (pathExists : Path → Bool)

/-- What selects a batch. -/
def batchTrigger (r : SyncPairingRequest) : Bool :=
  r.batch != .off || !r.inputPaths.isEmpty || r.positionalPaths.any (·.extension.isNone)

/-- The paths of a batch. -/
def batchPaths (r : SyncPairingRequest) : List Path :=
  let paths :=
    (match r.batch with
      | .directory dir => [dir]
      | _ => []) ++ r.inputPaths ++ r.positionalPaths
  if paths = [] then [[.curDir]] else paths

/-- The extension of a path in lower case. -/
def lowerExtension (path : Path) : Text := toLowercase (path.extension.getD [])

/-- The paths beside a path that have its stem and one of some extensions. -/
def candidates (extensions : List Text) (path : Path) : List Path :=
  path.fileStem.elim [] fun stem =>
    extensions.map fun ext => (path.parent.getD [.curDir]).join (stem ++ '.' :: ext)

/-- The first of them that exists. -/
def sibling (extensions : List Text) (path : Path) : Option Path :=
  (candidates extensions path).find? pathExists

/-- A lone path and what is beside it. -/
def besideOne (path : Path) : Option Path × Option Path :=
  if lowerExtension path ∈ syncVideoExtensions then
    (some path, sibling pathExists syncSubtitleExtensions path)
  else if lowerExtension path ∈ syncSubtitleExtensions then
    (sibling pathExists syncVideoExtensions path, some path)
  else (none, none)

/-- A path put in its place. -/
def place (pair : Option Path × Option Path) (path : Path) : Option Path × Option Path :=
  (if lowerExtension path ∈ syncVideoExtensions then some path else pair.1,
    if lowerExtension path ∈ syncSubtitleExtensions then some path else pair.2)

/-- A pair, where both are there. -/
def bothOf : Option Path × Option Path → Except SubXError SyncMode
  | (some video, some subtitle) => .ok (.single video subtitle)
  | _ => .error .invalidSyncConfiguration

/-- `resolve_sync_pairing`. -/
def resolveSyncPairing (r : SyncPairingRequest) : Except SubXError SyncMode :=
  if r.batchTrigger then do
    let handler ← InputPathHandler.fromArgs pathExists r.batchPaths r.recursive
    let handler := handler.withExtensions (syncVideoExtensions ++ syncSubtitleExtensions)
    return .batch (handler.withNoExtract r.noExtract)
  else
    match r.positionalPaths with
    | [path] =>
      match r.manual, (besideOne pathExists path).2 with
      | true, some subtitle => .ok (.single [] subtitle)
      | _, _ => bothOf (besideOne pathExists path)
    | [path, path'] => bothOf ([path, path'].foldl place (none, none))
    | _ =>
      match r.video, r.subtitle with
      | some video, some subtitle => .ok (.single video subtitle)
      | _, some subtitle =>
        if r.manual then .ok (.single [] subtitle) else .error .invalidSyncConfiguration
      | _, none => .error .invalidSyncConfiguration

/-! ## The documented algorithm -/

/-- A path with the extension of a video. -/
def IsVideo (path : Path) : Prop := lowerExtension path ∈ syncVideoExtensions

/-- A path with the extension of a subtitle. -/
def IsSubtitle (path : Path) : Prop := lowerExtension path ∈ syncSubtitleExtensions

instance : DecidablePred IsVideo := fun path =>
  inferInstanceAs (Decidable (lowerExtension path ∈ syncVideoExtensions))

instance : DecidablePred IsSubtitle := fun path =>
  inferInstanceAs (Decidable (lowerExtension path ∈ syncSubtitleExtensions))

/-- The video and the subtitle that are resolved. -/
def resolved (r : SyncPairingRequest) : Option Path × Option Path :=
  match r.positionalPaths with
  | [path] =>
    if IsVideo path then (some path, sibling pathExists syncSubtitleExtensions path)
    else if IsSubtitle path then (sibling pathExists syncVideoExtensions path, some path)
    else (none, none)
  | [path, path'] => ([path', path].find? (IsVideo ·), [path', path].find? (IsSubtitle ·))
  | _ => (r.video, r.subtitle)

/-- What is decided on a resolved video and subtitle. -/
def decided (manual : Bool) : Option Path × Option Path → Except SubXError SyncMode
  | (some video, some subtitle) => .ok (.single video subtitle)
  | (none, some subtitle) =>
    if manual then .ok (.single [] subtitle) else .error .invalidSyncConfiguration
  | (_, none) => .error .invalidSyncConfiguration

/-- What is documented: the pair is decided on as documented, and of two paths, one a
video and the other a subtitle, either may come first. -/
def PairsAsDocumented (r : SyncPairingRequest) : Prop :=
  resolveSyncPairing pathExists r = decided r.manual (resolved pathExists r) ∧
    ∀ path path', r.positionalPaths = [path, path'] → IsVideo path → IsSubtitle path' →
      resolveSyncPairing pathExists { r with positionalPaths := [path', path] } =
        resolveSyncPairing pathExists r

/-- What a manual offset does no harm to: a lone path that is paired with nothing beside
it, and two paths with a video among them or no subtitle. -/
def ManualSafe (r : SyncPairingRequest) : Prop :=
  match r.positionalPaths with
  | [path] =>
    (IsVideo path → ∀ p ∈ candidates syncSubtitleExtensions path, pathExists p = false) ∧
      (IsSubtitle path → ∀ p ∈ candidates syncVideoExtensions path, pathExists p = false)
  | [path, path'] => IsSubtitle path ∨ IsSubtitle path' → IsVideo path ∨ IsVideo path'
  | _ => True

variable {pathExists} {r : SyncPairingRequest} {path path' : Path}

theorem not_isSubtitle_of_isVideo (h : IsVideo path) : ¬ IsSubtitle path := by
  have hdisjoint : ∀ ext ∈ syncVideoExtensions, ext ∉ syncSubtitleExtensions := by decide
  exact hdisjoint _ h

theorem sibling_eq_none_iff {extensions : List Text} : sibling pathExists extensions path = none ↔
    ∀ p ∈ candidates extensions path, pathExists p = false := by
  rw [sibling, List.find?_eq_none]
  exact forall₂_congr fun p _ => iff_of_eq (Bool.not_eq_true _)

theorem resolved_one (h : r.positionalPaths = [path]) :
    resolved pathExists r = besideOne pathExists path := by
  rw [resolved, h]
  rfl

/-- Of two paths of a kind the later one counts. -/
theorem resolved_two (h : r.positionalPaths = [path, path']) :
    resolved pathExists r = [path, path'].foldl place (none, none) := by
  have hfind : ∀ (P : Path → Prop) [DecidablePred P], [path', path].find? (P ·) =
      if P path' then some path' else if P path then some path else none := by
    intro P _
    by_cases h' : P path' <;> by_cases h : P path <;> simp [h, h']
  rw [resolved, h]
  simp only [hfind]
  rfl

/-- Without the relaxation a pair is decided on by whether both are there. -/
theorem decided_eq_bothOf_iff {manual : Bool} {pair : Option Path × Option Path} :
    decided manual pair = bothOf pair ↔ manual = true → pair.2.isSome → pair.1.isSome := by
  obtain ⟨video, subtitle⟩ := pair
  rcases video with - | video <;> rcases subtitle with - | subtitle <;> cases manual <;>
    simp [decided, bothOf]

/-! ## One path -/

theorem resolveSyncPairing_one (hbatch : r.batchTrigger = false) (h : r.positionalPaths = [path]) :
    resolveSyncPairing pathExists r =
      match r.manual, (besideOne pathExists path).2 with
      | true, some subtitle => .ok (.single [] subtitle)
      | _, _ => bothOf (besideOne pathExists path) := by
  rw [resolveSyncPairing, hbatch, if_neg Bool.false_ne_true, h]

/-- A lone path is paired with something beside it. -/
theorem besideOne_both_iff :
    ((besideOne pathExists path).1.isSome ∧ (besideOne pathExists path).2.isSome) ↔
      (IsVideo path ∧ (sibling pathExists syncSubtitleExtensions path).isSome) ∨
        (IsSubtitle path ∧ (sibling pathExists syncVideoExtensions path).isSome) := by
  unfold besideOne
  split
  · next hvideo =>
    have hsubtitle : ¬ IsSubtitle path := not_isSubtitle_of_isVideo hvideo
    simp [IsVideo, hvideo, hsubtitle]
  · next hvideo =>
    split
    · next hsubtitle => simp [IsVideo, IsSubtitle, hvideo, hsubtitle]
    · next hsubtitle => simp [IsVideo, IsSubtitle, hvideo, hsubtitle]

/-- An extension as the two lists hold it. -/
def IsPlainExtension (ext : Text) : Prop := '/' ∉ ext ∧ ∃ c ∈ ext, c ≠ '.'

theorem isPlainExtension_of_mem {ext : Text}
    (h : ext ∈ syncVideoExtensions ++ syncSubtitleExtensions) : IsPlainExtension ext := by
  have hplain : ∀ ext ∈ syncVideoExtensions ++ syncSubtitleExtensions,
      '/' ∉ ext ∧ ∃ c ∈ ext, c ≠ '.' := by decide
  exact hplain ext h

/-- What is beside a path is no empty path. -/
theorem ne_nil_of_mem_candidates {extensions : List Text} {p : Path}
    (hplain : ∀ ext ∈ extensions, IsPlainExtension ext) (hp : p ∈ candidates extensions path) :
    p ≠ [] := by
  rw [candidates, Path.fileStem] at hp
  rcases hfile : path.fileName with - | name <;> rw [hfile] at hp
  · cases hp
  obtain ⟨ext, hext, rfl⟩ := List.mem_map.1 hp
  obtain ⟨hslash, c, hc, hdot⟩ := hplain ext hext
  have hname : IsFileName ((Path.splitExtension name.text).1 ++ '.' :: ext) := by
    refine isFileName_of_mem (List.mem_append_right _ (List.mem_cons_of_mem _ hc)) hdot fun h => ?_
    rcases List.mem_append.1 h with h | h
    · exact name.isFileName.2.2.2 (mem_of_mem_splitExtension_fst h)
    · exact hslash ((List.mem_cons.1 h).resolve_left (by decide))
  rw [Path.join_of_isFileName _ hname]
  exact List.append_ne_nil_of_right_ne_nil _ (List.cons_ne_nil _ _)

/-- Nor is a path with an extension, so the video of a lone path is none. -/
theorem video_ne_nil {video : Path} (hext : path.extension.isSome)
    (hvideo : (besideOne pathExists path).1 = some video) : video ≠ [] := by
  unfold besideOne at hvideo
  split at hvideo
  · obtain rfl := Option.some.inj hvideo
    rintro rfl
    cases hext
  · split at hvideo
    · exact ne_nil_of_mem_candidates (fun ext hext => isPlainExtension_of_mem
        (List.mem_append_left _ hext)) (List.mem_of_find?_eq_some hvideo)
    · cases hvideo

/-- **One path is paired as documented where no manual offset meets a pair.** -/
theorem resolveSyncPairing_one_iff (hbatch : r.batchTrigger = false)
    (h : r.positionalPaths = [path]) (hext : path.extension.isSome) :
    resolveSyncPairing pathExists r = decided r.manual (resolved pathExists r) ↔
      (r.manual = true → ¬ ((besideOne pathExists path).1.isSome ∧
        (besideOne pathExists path).2.isSome)) := by
  have hne : ∀ video, (besideOne pathExists path).1 = some video → video ≠ [] :=
    fun video => video_ne_nil hext
  rw [resolveSyncPairing_one hbatch h, resolved_one h]
  generalize besideOne pathExists path = pair at hne ⊢
  obtain ⟨video, subtitle⟩ := pair
  rcases subtitle with - | subtitle <;> rcases video with - | video <;> cases r.manual
  all_goals simp [decided, bothOf]
  exact hne video rfl

/-! ## Two paths -/

theorem resolveSyncPairing_two (hbatch : r.batchTrigger = false)
    (h : r.positionalPaths = [path, path']) :
    resolveSyncPairing pathExists r = bothOf (resolved pathExists r) := by
  rw [resolved_two h, resolveSyncPairing, hbatch, if_neg Bool.false_ne_true, h]

/-- **Two paths are paired as documented where no manual offset meets a subtitle without a
video.** -/
theorem resolveSyncPairing_two_iff (hbatch : r.batchTrigger = false)
    (h : r.positionalPaths = [path, path']) :
    resolveSyncPairing pathExists r = decided r.manual (resolved pathExists r) ↔
      (r.manual = true → IsSubtitle path ∨ IsSubtitle path' → IsVideo path ∨ IsVideo path') := by
  rw [resolveSyncPairing_two hbatch h, eq_comm, decided_eq_bothOf_iff, resolved, h]
  have hfind : ∀ (P : Path → Prop) [DecidablePred P],
      ([path', path].find? (P ·)).isSome ↔ P path ∨ P path' := by
    intro P _
    rw [List.find?_isSome]
    simp [or_comm]
  simp only [hfind]

/-- A video and a subtitle are a pair in either order. -/
theorem resolveSyncPairing_swap (hbatch : r.batchTrigger = false)
    (h : r.positionalPaths = [path, path']) (hvideo : IsVideo path) (hsubtitle : IsSubtitle path') :
    resolveSyncPairing pathExists { r with positionalPaths := [path', path] } =
      resolveSyncPairing pathExists r := by
  have hswapped : ({ r with positionalPaths := [path', path] } : SyncPairingRequest).batchTrigger =
      false := by
    rw [← hbatch, batchTrigger, batchTrigger, h]
    simp [Bool.or_comm]
  have hnot : ¬ IsSubtitle path := not_isSubtitle_of_isVideo hvideo
  have hnot' : ¬ IsVideo path' := fun hvideo => not_isSubtitle_of_isVideo hvideo hsubtitle
  rw [resolveSyncPairing_two hbatch h, resolveSyncPairing_two hswapped rfl, resolved, resolved, h]
  simp [hvideo, hsubtitle, hnot, hnot']

/-! ## Any number of paths -/

/-- The options are decided on as documented. -/
theorem resolveSyncPairing_options (hbatch : r.batchTrigger = false)
    (hone : ∀ path, r.positionalPaths ≠ [path])
    (htwo : ∀ path path', r.positionalPaths ≠ [path, path']) :
    resolveSyncPairing pathExists r = decided r.manual (resolved pathExists r) := by
  rw [resolveSyncPairing, hbatch, if_neg Bool.false_ne_true, resolved]
  split
  · next path hpaths => exact absurd hpaths (hone path)
  · next path path' hpaths => exact absurd hpaths (htwo path path')
  · rcases r.video with - | video <;> rcases r.subtitle with - | subtitle <;> rfl

/-- **A pair is resolved as documented exactly where no manual offset is given or it does
no harm.** -/
theorem pairsAsDocumented_iff (pathExists : Path → Bool) (r : SyncPairingRequest)
    (hbatch : r.batch = .off) (hinput : r.inputPaths = [])
    (hext : ∀ path ∈ r.positionalPaths, path.extension.isSome) :
    PairsAsDocumented pathExists r ↔ r.manual = true → ManualSafe pathExists r := by
  have htrigger : r.batchTrigger = false := by
    have hnone : ∀ path ∈ r.positionalPaths, path.extension ≠ none := fun path hpath =>
      Option.isSome_iff_ne_none.1 (hext path hpath)
    simpa [batchTrigger, hbatch, hinput] using hnone
  have hswap : ∀ path path', r.positionalPaths = [path, path'] → IsVideo path →
      IsSubtitle path' → resolveSyncPairing pathExists { r with positionalPaths := [path', path] } =
        resolveSyncPairing pathExists r := fun _ _ => resolveSyncPairing_swap htrigger
  rw [PairsAsDocumented, and_iff_left hswap]
  rcases hpaths : r.positionalPaths with - | ⟨path, - | ⟨path', - | ⟨path'', rest⟩⟩⟩
  · rw [ManualSafe, hpaths]
    exact iff_of_true (resolveSyncPairing_options htrigger (by simp [hpaths]) (by simp [hpaths]))
      fun _ => trivial
  · rw [resolveSyncPairing_one_iff htrigger hpaths
        (hext path (hpaths ▸ List.mem_singleton_self path)),
      ManualSafe, hpaths, besideOne_both_iff, not_or, not_and, not_and]
    simp only [Option.not_isSome_iff_eq_none, sibling_eq_none_iff]
  · rw [resolveSyncPairing_two_iff htrigger hpaths, ManualSafe, hpaths]
  · rw [ManualSafe, hpaths]
    exact iff_of_true (resolveSyncPairing_options htrigger (by simp [hpaths]) (by simp [hpaths]))
      fun _ => trivial

/-- A lone subtitle with a manual offset. -/
def manualSubtitle : SyncPairingRequest where
  positionalPaths := [Path.ofText "movie.srt".toList]
  inputPaths := []
  video := none
  subtitle := none
  batch := .off
  recursive := false
  noExtract := false
  manual := true

/-- Where nothing else is there, it is resolved as documented. -/
theorem manualSubtitle_alone : PairsAsDocumented (fun _ => false) manualSubtitle ↔
    manualSubtitle.manual = true → ManualSafe (fun _ => false) manualSubtitle :=
  pairsAsDocumented_iff (fun _ => false) manualSubtitle rfl rfl (by decide)

/-- Beside its video it loses it. -/
theorem manualSubtitle_beside_video :
    ¬ PairsAsDocumented (· = Path.ofText "movie.mp4".toList) manualSubtitle := by
  rintro ⟨hresolved, -⟩
  revert hresolved
  decide

end SyncPairingRequest

end SubxCore
