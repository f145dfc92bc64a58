import SubxCore.Common.Contains
import SubxCore.Translation.Engine
import Mathlib.Data.List.Perm.Subperm
import Mathlib.Data.List.Nodup
/-!
# What replies are accepted

A translation reply is read entry by entry, and the first entry that offends
ends the reading: `parseTranslationResponsePartial_eq` says so in one
equation. An accepted reply that is as long as the list of ids asked for has
them all, which is a matter of counting.
-/

namespace SubxCore

open Text

variable {expectedIds seen : List Text} {entries taken map : List (Text × Text)}
variable {entry : Text × Text} {err : SubXError} {id : Text}

/-- The ids a reply is checked against: no two alike, none empty, each trimmed. -/
structure ExpectedIds where
  ids : List Text
  nodup : ids.Nodup
  ne_nil : ∀ id ∈ ids, id ≠ []
  trimmed : ∀ id ∈ ids, trim id = id

/-- The id an entry is about. -/
def replyId (entry : Text × Text) : Text := trim entry.1

/-- `parse_translation_response`, of a decoded reply. How a list of ids is
written in an error is left open. -/
def parseTranslationResponse (debug : List Text → Text) (entries : List (Text × Text))
    (expectedIds : List Text) : Except SubXError (List (Text × Text)) := do
  let translations ← parseTranslationResponsePartial entries expectedIds
  if translations.length ≠ expectedIds.length then
    let missing := expectedIds.filter fun id => id ∉ translations.map Prod.fst
    throw (.aiService ("Translation response missing cue ids: ".toList ++ debug missing))
  return translations

/-- What is wrong with an entry, if anything, after entries with the ids `seen`. -/
def Offends (expectedIds seen : List Text) (entry : Text × Text) : Prop :=
  replyId entry = [] ∨ replyId entry ∉ expectedIds ∨ replyId entry ∈ seen

instance : Decidable (Offends expectedIds seen entry) :=
  inferInstanceAs (Decidable (replyId entry = [] ∨ _ ∨ _))

/-- The first entry that offends. -/
def firstOffending (expectedIds : List Text) : List Text → List (Text × Text) →
    Option (Text × Text)
  | _, [] => none
  | seen, entry :: entries =>
    if Offends expectedIds seen entry then some entry
    else firstOffending expectedIds (seen ++ [replyId entry]) entries

/-- The error for an entry that offends. -/
def offence (expectedIds : List Text) (entry : Text × Text) : SubXError :=
  if replyId entry = [] then .aiService "Translation entry has empty cue id".toList
  else if replyId entry ∉ expectedIds then unknownCueIdError (replyId entry)
  else .aiService ("Translation response contained duplicate cue id: ".toList ++ replyId entry)

/-! ## One entry -/

theorem parseTranslationEntry_of_offends (h : Offends expectedIds (taken.map Prod.fst) entry) :
    parseTranslationEntry expectedIds taken entry = .error (offence expectedIds entry) := by
  unfold Offends replyId at h
  unfold parseTranslationEntry offence replyId
  dsimp only
  split
  · rfl
  · next hid =>
    split
    · rfl
    · next hexpected => rw [if_pos ((h.resolve_left hid).resolve_left hexpected)]

theorem parseTranslationEntry_of_not_offends
    (h : ¬ Offends expectedIds (taken.map Prod.fst) entry) :
    parseTranslationEntry expectedIds taken entry = .ok (taken ++ [(replyId entry, entry.2)]) := by
  simp only [Offends, replyId, not_or] at h
  unfold parseTranslationEntry replyId
  dsimp only
  rw [if_neg h.1, if_neg h.2.1, if_neg h.2.2]

/-! ## The reading -/

/-- Reading on, after the entries already taken. -/
theorem foldlM_parseTranslationEntry (expectedIds : List Text) (taken entries : List (Text × Text)) :
    entries.foldlM (parseTranslationEntry expectedIds) taken =
      (firstOffending expectedIds (taken.map Prod.fst) entries).elim
        (.ok (taken ++ entries.map fun entry => (replyId entry, entry.2)))
        fun entry => .error (offence expectedIds entry) := by
  induction entries generalizing taken with
  | nil => simp [firstOffending, pure, Except.pure]
  | cons entry entries ih =>
    by_cases h : Offends expectedIds (taken.map Prod.fst) entry
    · rw [firstOffending, if_pos h, List.foldlM_cons, parseTranslationEntry_of_offends h]
      rfl
    · rw [Run.foldlM_cons_of_ok (parseTranslationEntry_of_not_offends h), ih, firstOffending,
        if_neg h, List.map_append, List.append_assoc]
      rfl

/-- **A reply is taken whole, or not at all for its first offending entry.** -/
theorem parseTranslationResponsePartial_eq (entries : List (Text × Text))
    (expectedIds : List Text) :
    parseTranslationResponsePartial entries expectedIds =
      (firstOffending expectedIds [] entries).elim
        (.ok (entries.map fun entry => (replyId entry, entry.2)))
        fun entry => .error (offence expectedIds entry) :=
  foldlM_parseTranslationEntry expectedIds [] entries

/-- No entry offends when the ids are expected and no two are alike. -/
theorem firstOffending_eq_none_iff (hseen : seen.Nodup) :
    firstOffending expectedIds seen entries = none ↔
      (∀ id ∈ entries.map replyId, id ≠ [] ∧ id ∈ expectedIds) ∧
        (seen ++ entries.map replyId).Nodup := by
  induction entries generalizing seen with
  | nil => simpa [firstOffending] using hseen
  | cons entry entries ih =>
    rw [firstOffending, List.map_cons, List.forall_mem_cons,
      List.append_cons seen _ (entries.map replyId)]
    by_cases h : Offends expectedIds seen entry
    · -- each reason to offend breaks one of the conditions
      rw [if_pos h]
      refine iff_of_false (by simp) ?_
      rintro ⟨⟨⟨hid, hexpected⟩, -⟩, hnodup⟩
      rcases h with h | h | h
      · exact hid h
      · exact h hexpected
      · have hold := (List.nodup_append.1 hnodup).1
        exact (List.nodup_append.1 hold).2.2 _ h _ List.mem_cons_self rfl
    · obtain ⟨hid, hexpected, hnew⟩ := by simpa only [Offends, not_or] using h
      have hseen' : (seen ++ [replyId entry]).Nodup := by
        rw [List.nodup_append]
        refine ⟨hseen, List.nodup_singleton _, ?_⟩
        rintro id hmem _ hlast rfl
        obtain rfl := List.mem_singleton.1 hlast
        exact hnew hmem
      rw [if_neg h, ih hseen']
      constructor
      · rintro ⟨hall, hnodup⟩
        exact ⟨⟨⟨hid, not_not.1 hexpected⟩, hall⟩, hnodup⟩
      · rintro ⟨⟨-, hall⟩, hnodup⟩
        exact ⟨hall, hnodup⟩

/-! ## The errors -/

/-- **The error names an unknown id exactly for an id that is not empty and not
expected.** -/
theorem offence_eq_unknownCueIdError_iff :
    (∃ id, offence expectedIds entry = unknownCueIdError id) ↔
      replyId entry ≠ [] ∧ replyId entry ∉ expectedIds := by
  unfold offence unknownCueIdError unknownCueIdErrorMarker
  split
  · next hid => exact iff_of_false (by rintro ⟨id, h⟩; simp at h) fun h => h.1 hid
  · next hid =>
    split
    · next hexpected => exact iff_of_true ⟨_, rfl⟩ ⟨hid, hexpected⟩
    · next hexpected =>
      exact iff_of_false (by rintro ⟨id, h⟩; simp at h) fun h => hexpected h.2

/-- The error for an unknown id is recognised. -/
theorem isUnknownCueIdError_unknownCueIdError (id : Text) :
    isUnknownCueIdError (unknownCueIdError id) = true := by
  have h : unknownCueIdErrorMarker <+: unknownCueIdErrorMarker ++ ": ".toList ++ id :=
    (List.prefix_append _ _).trans (List.prefix_append _ id)
  exact decide_eq_true h.isInfix

/-- Recognising goes by the message alone: the error for an id that is there
twice passes for one about an unknown id when the id has the marker in it. -/
theorem isUnknownCueIdError_duplicate_iff (id : Text) :
    isUnknownCueIdError (.aiService
      ("Translation response contained duplicate cue id: ".toList ++ id)) = true ↔
      unknownCueIdErrorMarker <:+: id := by
  refine decide_eq_true_iff.trans ⟨fun h => ?_, fun h => h.trans (List.suffix_append _ id).isInfix⟩
  rcases List.infix_append_iff.1 h with h | h | ⟨l₁, l₂, hmarker, h₁, h₂⟩
  · exact absurd h (by decide)
  · exact h
  · -- the marker has its first letter at the start of the message only
    have hnone : ∀ l ∈ "Translation response contained duplicate cue id: ".toList.tails,
        l <+: unknownCueIdErrorMarker → l = [] := by decide
    obtain rfl := hnone l₁ ((List.mem_tails _ _).2 h₁) (hmarker ▸ List.prefix_append l₁ l₂)
    exact hmarker ▸ h₂.isInfix

/-! ## Complete replies -/

section Complete

variable {expected : ExpectedIds}

/-- A reply is read to its end exactly when no two ids are alike and all are
expected. -/
theorem parseTranslationResponsePartial_ok_iff (expected : ExpectedIds) :
    parseTranslationResponsePartial entries expected.ids = .ok map ↔
      ((entries.map replyId).Nodup ∧ ∀ id ∈ entries.map replyId, id ∈ expected.ids) ∧
        map = entries.map fun entry => (replyId entry, entry.2) := by
  have hnone : firstOffending expected.ids [] entries = none ↔ _ :=
    firstOffending_eq_none_iff List.nodup_nil
  have hids : (∀ id ∈ entries.map replyId, id ≠ [] ∧ id ∈ expected.ids) ↔
      ∀ id ∈ entries.map replyId, id ∈ expected.ids :=
    forall₂_congr fun id _ => ⟨And.right, fun h => ⟨expected.ne_nil id h, h⟩⟩
  rw [hids, List.nil_append, and_comm] at hnone
  rw [parseTranslationResponsePartial_eq, ← hnone]
  rcases firstOffending expected.ids [] entries with - | entry
  · simp [eq_comm]
  · simp

/-- A reply about distinct expected ids is about all of them when it is long
enough. -/
theorem perm_of_length_eq (hnodup : (entries.map replyId).Nodup)
    (hids : ∀ id ∈ entries.map replyId, id ∈ expectedIds)
    (hlength : entries.length = expectedIds.length) :
    (entries.map replyId).Perm expectedIds :=
  (List.subperm_of_subset hnodup hids).perm_of_length_le (by rw [List.length_map, hlength])

/-- Where no two ids are alike, every id has the text that came with it. -/
theorem lookup_of_mem (hnodup : (entries.map replyId).Nodup) (h : entry ∈ entries) :
    (entries.map fun entry => (replyId entry, entry.2)).lookup (replyId entry) = some entry.2 := by
  obtain ⟨before, after, rfl⟩ := List.append_of_mem h
  rw [List.lookup_eq_some_iff]
  refine ⟨_, _, List.map_append, ?_⟩
  intro p hp
  obtain ⟨e, he, rfl⟩ := List.mem_map.1 hp
  rw [List.map_append, List.nodup_append] at hnodup
  have hne := hnodup.2.2 _ (List.mem_map_of_mem he) _ List.mem_cons_self
  exact bne_iff_ne.2 (Ne.symm hne)

/-- A complete reply is one whose ids are those asked for, in any order. -/
theorem parseTranslationResponse_ok_iff (debug : List Text → Text) (expected : ExpectedIds) :
    parseTranslationResponse debug entries expected.ids = .ok map ↔
      (entries.map replyId).Perm expected.ids ∧
        map = entries.map fun entry => (replyId entry, entry.2) := by
  unfold parseTranslationResponse
  rw [Run.bind_eq_ok]
  constructor
  · -- distinct, expected, and as many as there are: all of the expected ids
    rintro ⟨translations, hpartial, hlength⟩
    obtain ⟨⟨hnodup, hids⟩, rfl⟩ := (parseTranslationResponsePartial_ok_iff expected).1 hpartial
    split at hlength
    · cases hlength
    · next hlen =>
      cases hlength
      rw [not_not, List.length_map] at hlen
      exact ⟨perm_of_length_eq hnodup hids hlen, rfl⟩
  · rintro ⟨hperm, rfl⟩
    refine ⟨_, (parseTranslationResponsePartial_ok_iff expected).2
      ⟨⟨hperm.nodup_iff.2 expected.nodup, fun id hid => hperm.subset hid⟩, rfl⟩, ?_⟩
    have hlength : entries.length = expected.ids.length := by
      rw [← hperm.length_eq, List.length_map]
    rw [if_neg (by simpa using hlength)]
    rfl

end Complete

/-- **What replies are accepted, and for what they are refused.** -/
theorem parseTranslationResponse_spec (debug : List Text → Text) (expected : ExpectedIds)
    (entries : List (Text × Text)) :
    ((∃ map, parseTranslationResponse debug entries expected.ids = .ok map) ↔
      (entries.map replyId).Perm expected.ids) ∧
    (∀ map, parseTranslationResponse debug entries expected.ids = .ok map →
      (map.map Prod.fst).Perm expected.ids ∧
      ∀ raw text, (raw, text) ∈ entries → map.lookup (trim raw) = some text) ∧
    ((∃ map, parseTranslationResponsePartial entries expected.ids = .ok map) ↔
      (entries.map replyId).Nodup ∧ ∀ id ∈ entries.map replyId, id ∈ expected.ids) ∧
    (∀ err, parseTranslationResponsePartial entries expected.ids = .error err →
      ((∃ id, err = unknownCueIdError id) ↔
        ∃ entry, firstOffending expected.ids [] entries = some entry ∧
          replyId entry ≠ [] ∧ replyId entry ∉ expected.ids)) := by
  refine ⟨?_, ?_, ?_, ?_⟩
  · simp only [parseTranslationResponse_ok_iff debug expected, exists_and_left, exists_eq, and_true]
  · intro map hmap
    obtain ⟨hperm, rfl⟩ := (parseTranslationResponse_ok_iff debug expected).1 hmap
    refine ⟨by simpa [Function.comp_def] using hperm, fun raw text hmem => ?_⟩
    exact lookup_of_mem (hperm.nodup_iff.2 expected.nodup) hmem
  · simp only [parseTranslationResponsePartial_ok_iff expected, exists_and_left, exists_eq,
      and_true]
  · intro err herr
    rw [parseTranslationResponsePartial_eq] at herr
    rcases hfirst : firstOffending expected.ids [] entries with - | entry <;> rw [hfirst] at herr
    · cases herr
    · cases herr
      rw [offence_eq_unknownCueIdError_iff]
      simp

/-- The ids of two cues. -/
def twoIds : ExpectedIds where
  ids := ["cue-1".toList, "cue-2".toList]
  nodup := by decide
  ne_nil := by decide
  trimmed := by decide

/-- An answer to both, the other way round and with spaces. -/
def swappedReply : List (Text × Text) :=
  [(" cue-2 ".toList, "deux".toList), ("cue-1".toList, "un".toList)]

/-- It is accepted, and each cue has the text that came with it. -/
theorem parseTranslationResponse_spec_swapped :
    ∃ map, parseTranslationResponse (fun _ => []) swappedReply twoIds.ids = .ok map ∧
      map.lookup "cue-2".toList = some "deux".toList := by
  obtain ⟨haccepted, hlookup, -, -⟩ := parseTranslationResponse_spec (fun _ => []) twoIds swappedReply
  obtain ⟨map, hmap⟩ := haccepted.2 (by decide)
  exact ⟨map, hmap, (hlookup map hmap).2 " cue-2 ".toList "deux".toList List.mem_cons_self⟩

end SubxCore
