import SubxCore.Matcher.Planning
/-!
# The preview of a content

The preview of a subtitle is cut at a number of bytes. The cut falls between
two characters or the engine panics, and nothing makes it fall there: an
error body is cut with care, a preview is not.
-/

namespace SubxCore

open Text

variable {config : PlanConfig} {content s p result : Text} {max n : ℕ}

/-- The first twenty lines of a content, joined by newlines. -/
def previewText (content : Text) : Text := join ['\n'] ((lines content).take 20)

/-- `is_char_boundary`: `n` bytes into a text, no character is cut in two. -/
def IsCharBoundary (s : Text) (n : ℕ) : Prop := ∃ p ∈ s.inits, byteLen p = n

instance : Decidable (IsCharBoundary s n) :=
  inferInstanceAs (Decidable (∃ p ∈ s.inits, byteLen p = n))

/-- **A preview of a text**, of at most `max` bytes and with dots where the text
was longer. -/
def IsPreview (max : ℕ) (text result : Text) : Prop :=
  ∃ p, p <+: text ∧ byteLen p ≤ max ∧
    result = p ++ if max < byteLen text then "...".toList else []

/-! ## The first bytes of a text -/

/-- The bytes of a prefix are taken. -/
theorem takeBytes_of_prefix (h : p <+: s) : takeBytes (byteLen p) s = .ok p := by
  induction p generalizing s with
  | nil => simp [takeBytes]
  | cons c p ih =>
    obtain ⟨rest, rfl⟩ := h
    have hsize : 0 < c.utf8Size := c.utf8Size_pos
    obtain ⟨k, hk⟩ : ∃ k, byteLen (c :: p) = k + 1 := ⟨byteLen (c :: p) - 1, by
      rw [byteLen_cons]; omega⟩
    rw [byteLen_cons] at hk
    have hrest : k + 1 - c.utf8Size = byteLen p := by omega
    rw [byteLen_cons, hk, List.cons_append, takeBytes, if_neg (by omega), hrest,
      ih (List.prefix_append p rest)]
    rfl

/-- What is taken is a prefix, and it is as long as asked unless the text is
too short. -/
theorem takeBytes_eq_ok (h : takeBytes n s = .ok p) :
    p <+: s ∧ (byteLen p = n ∨ (p = s ∧ byteLen s < n)) := by
  induction s generalizing n p with
  | nil =>
    cases n with
    | zero => cases h; exact ⟨List.nil_prefix, .inl rfl⟩
    | succ n => cases h; exact ⟨List.nil_prefix, .inr ⟨rfl, n.succ_pos⟩⟩
  | cons c s ih =>
    cases n with
    | zero => cases h; exact ⟨List.nil_prefix, .inl rfl⟩
    | succ n =>
      rw [takeBytes] at h
      split at h
      · cases h
      · next hfits =>
        rcases htake : takeBytes (n + 1 - c.utf8Size) s with err | q <;> rw [htake] at h
        · cases h
        · cases h
          obtain ⟨hpre, hlength⟩ := ih htake
          refine ⟨(List.prefix_cons_inj c).2 hpre, ?_⟩
          rcases hlength with hlength | ⟨rfl, hlength⟩
          · exact .inl (by rw [byteLen_cons]; omega)
          · exact .inr ⟨rfl, by rw [byteLen_cons]; omega⟩

/-- **A cut inside the text is one between two characters.** -/
theorem exists_takeBytes_iff (h : n ≤ byteLen s) :
    (∃ p, takeBytes n s = .ok p) ↔ IsCharBoundary s n := by
  constructor
  · rintro ⟨p, hp⟩
    obtain ⟨hpre, hlength | ⟨rfl, hlength⟩⟩ := takeBytes_eq_ok hp
    · exact ⟨p, (List.mem_inits _ _).2 hpre, hlength⟩
    · omega
  · rintro ⟨p, hp, rfl⟩
    exact ⟨p, takeBytes_of_prefix ((List.mem_inits _ _).1 hp)⟩

/-! ## The preview -/

theorem createContentPreview_eq (config : PlanConfig) (content : Text) :
    createContentPreview config content =
      if config.maxSampleLength < byteLen (previewText content) then
        (takeBytes config.maxSampleLength (previewText content)).map (· ++ "...".toList)
      else .ok (previewText content) := rfl

/-- What the engine returns is a preview. -/
theorem isPreview_of_createContentPreview (h : createContentPreview config content = .ok result) :
    IsPreview config.maxSampleLength (previewText content) result := by
  rw [createContentPreview_eq] at h
  split at h
  · next hlong =>
    rcases htake : takeBytes config.maxSampleLength (previewText content) with err | p <;>
      rw [htake] at h
    · cases h
    · cases h
      obtain ⟨hpre, hlength | ⟨rfl, hlength⟩⟩ := takeBytes_eq_ok htake
      · exact ⟨p, hpre, hlength.le, by rw [if_pos hlong]⟩
      · -- the text is longer than the limit
        omega
  · next hshort =>
    cases h
    exact ⟨_, List.prefix_rfl, not_lt.1 hshort, by rw [if_neg hshort, List.append_nil]⟩

/-- **A preview is returned exactly when the text fits or the cut falls
between two characters.** Otherwise the engine panics. -/
theorem createContentPreview_isPreview_iff (config : PlanConfig) (content : Text) :
    (∃ result, createContentPreview config content = .ok result ∧
      IsPreview config.maxSampleLength (previewText content) result) ↔
    byteLen (previewText content) ≤ config.maxSampleLength ∨
      IsCharBoundary (previewText content) config.maxSampleLength := by
  have hpreview : (∃ result, createContentPreview config content = .ok result ∧
      IsPreview config.maxSampleLength (previewText content) result) ↔
      ∃ result, createContentPreview config content = .ok result :=
    exists_congr fun result => ⟨And.left, fun h => ⟨h, isPreview_of_createContentPreview h⟩⟩
  rw [hpreview, createContentPreview_eq]
  -- only a text over the limit is cut
  by_cases hlong : config.maxSampleLength < byteLen (previewText content)
  · rw [if_pos hlong, or_iff_right (not_le.2 hlong), ← exists_takeBytes_iff hlong.le]
    constructor
    · rintro ⟨result, h⟩
      rcases htake : takeBytes config.maxSampleLength (previewText content) with err | p
      · rw [htake] at h
        cases h
      · exact ⟨p, rfl⟩
    · rintro ⟨p, hp⟩
      exact ⟨_, by rw [hp]; rfl⟩
  · rw [if_neg hlong]
    exact iff_of_true ⟨_, rfl⟩ (.inl (not_lt.1 hlong))

/-- Ninety-nine letters and an accented one, in 101 bytes. -/
def accentedContent : Text := List.replicate 99 'a' ++ ['é']

/-- A configuration for previews of a hundred bytes. -/
def hundredBytes : PlanConfig where
  backupEnabled := false
  relocationMode := .none
  conflictResolution := .skip
  confidenceThreshold := 0
  maxSampleLength := 100
  enableContentAnalysis := true
  aiModel := []
  maxSubtitleBytes := 1000

set_option maxRecDepth 4000 in
/-- The hundredth byte is the first of two. -/
theorem createContentPreview_accentedContent :
    createContentPreview hundredBytes accentedContent = .error .charBoundary ∧
    ¬ ∃ result, createContentPreview hundredBytes accentedContent = .ok result ∧
      IsPreview hundredBytes.maxSampleLength (previewText accentedContent) result := by
  have h : createContentPreview hundredBytes accentedContent = .error .charBoundary := by rfl
  refine ⟨h, ?_⟩
  rintro ⟨result, hresult, -⟩
  rw [h] at hresult
  cases hresult

end SubxCore
