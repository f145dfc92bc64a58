import SubxCore.Common.Text
/-!
# Offsets in bytes

A text is searched for a character, and cut, at offsets in bytes. A search
gives the offset of a character, so where two searches give the ends of a cut
the cut is never inside a character (`slice_append`); all that can go wrong is
that the ends come the wrong way round (`slice_eq_none_of_lt`).
-/

namespace Text

variable {c : Char} {a b i : ℕ} {s p r : Text}

/-- The offset of the first such character. -/
def find (c : Char) : Text → Option ℕ
  | [] => none
  | d :: s => if d = c then some 0 else (find c s).map (d.utf8Size + ·)

/-- The offset of the last such character. -/
def rfind (c : Char) : Text → Option ℕ
  | [] => none
  | d :: s =>
    match rfind c s with
    | some i => some (d.utf8Size + i)
    | none => if d = c then some 0 else none

/-- A text cut at an offset, if that is between two characters. -/
def splitAtByte : ℕ → Text → Option (Text × Text)
  | 0, s => some ([], s)
  | _ + 1, [] => none
  | n + 1, c :: s =>
    if n + 1 < c.utf8Size then none
    else (splitAtByte (n + 1 - c.utf8Size) s).map fun (before, after) => (c :: before, after)

/-- A slice from one offset to another, if they are in order and both between two
characters. -/
def slice (s : Text) (a b : ℕ) : Option Text :=
  if a ≤ b then do
    let (_, rest) ← splitAtByte a s
    let (middle, _) ← splitAtByte (b - a) rest
    return middle
  else none

/-! ## Searching -/

theorem find_eq_none : find c s = none ↔ c ∉ s := by
  induction s with
  | nil => exact iff_of_true rfl (List.not_mem_nil)
  | cons d s ih =>
    rw [find, List.mem_cons, not_or]
    split
    · next h => exact iff_of_false (Option.some_ne_none _) fun hne => hne.1 h.symm
    · next h =>
      rw [Option.map_eq_none_iff, ih]
      exact ⟨fun hs => ⟨fun heq => h heq.symm, hs⟩, And.right⟩

theorem rfind_eq_none : rfind c s = none ↔ c ∉ s := by
  induction s with
  | nil => exact iff_of_true rfl (List.not_mem_nil)
  | cons d s ih =>
    rw [rfind, List.mem_cons, not_or, ← ih]
    cases h : rfind c s with
    | some i => exact iff_of_false (Option.some_ne_none _) fun hne => Option.some_ne_none _ hne.2
    | none =>
      dsimp only
      split
      · next heq => exact iff_of_false (Option.some_ne_none _) fun hne => hne.1 heq.symm
      · next hne => exact iff_of_true rfl ⟨fun heq => hne heq.symm, rfl⟩

/-- The first is found where none stands before it. -/
theorem find_append (h : c ∉ p) (r : Text) : find c (p ++ c :: r) = some (byteLen p) := by
  induction p with
  | nil => rw [List.nil_append, find, if_pos rfl, byteLen_nil]
  | cons d p ih =>
    rw [List.mem_cons, not_or] at h
    rw [List.cons_append, find, if_neg fun heq => h.1 heq.symm, ih h.2, byteLen_cons]
    rfl

/-- The last is found where none stands after it. -/
theorem rfind_append (p : Text) (h : c ∉ r) : rfind c (p ++ c :: r) = some (byteLen p) := by
  induction p with
  | nil => rw [List.nil_append, rfind, rfind_eq_none.2 h, byteLen_nil]; exact if_pos rfl
  | cons d p ih => rw [List.cons_append, rfind, ih, byteLen_cons]

/-- A text with a character in it, at the last of them. -/
theorem exists_eq_append_last (h : c ∈ s) : ∃ p r, s = p ++ c :: r ∧ c ∉ r := by
  obtain ⟨r, p, hs, hr⟩ := List.eq_append_cons_of_mem (List.mem_reverse.2 h)
  refine ⟨p.reverse, r.reverse, ?_, fun hc => hr (List.mem_reverse.1 hc)⟩
  have := congrArg List.reverse hs
  rwa [List.reverse_reverse, List.reverse_append, List.reverse_cons, List.append_assoc,
    List.singleton_append] at this

/-! ## Cutting -/

/-- A text is cut where one part ends. -/
theorem splitAtByte_append (p r : Text) : splitAtByte (byteLen p) (p ++ r) = some (p, r) := by
  induction p with
  | nil => rw [byteLen_nil, List.nil_append, splitAtByte]
  | cons c p ih =>
    obtain ⟨k, hk⟩ : ∃ k, byteLen (c :: p) = k + 1 :=
      ⟨byteLen (c :: p) - 1, by have := c.utf8Size_pos; rw [byteLen_cons]; omega⟩
    rw [byteLen_cons] at hk
    have hrest : k + 1 - c.utf8Size = byteLen p := by omega
    rw [byteLen_cons, hk, List.cons_append, splitAtByte, if_neg (by omega), hrest, ih]
    rfl

/-- And only there. -/
theorem splitAtByte_eq_some : ∀ {n : ℕ} {s p r : Text}, splitAtByte n s = some (p, r) →
    s = p ++ r ∧ byteLen p = n
  | 0, s, p, r, h => by
    rw [splitAtByte] at h
    cases h
    exact ⟨rfl, rfl⟩
  | n + 1, [], p, r, h => by cases h
  | n + 1, c :: s, p, r, h => by
    rw [splitAtByte] at h
    split at h
    · cases h
    · obtain ⟨⟨p, r⟩, hrest, h⟩ := Option.map_eq_some_iff.1 h
      cases h
      obtain ⟨rfl, hlen⟩ := splitAtByte_eq_some hrest
      refine ⟨rfl, ?_⟩
      rw [byteLen_cons, hlen]
      omega

/-- **A slice between two parts** is what stands between them. -/
theorem slice_append (p m r : Text) :
    slice (p ++ (m ++ r)) (byteLen p) (byteLen p + byteLen m) = some m := by
  rw [slice, if_pos (Nat.le_add_right ..), splitAtByte_append]
  dsimp only [Option.bind_eq_bind, Option.bind_some]
  rw [Nat.add_sub_cancel_left, splitAtByte_append]
  rfl

/-- A slice may be empty. -/
theorem slice_self (p r : Text) : slice (p ++ r) (byteLen p) (byteLen p) = some [] :=
  slice_append p [] r

/-- No slice goes backwards. -/
theorem slice_eq_none_of_lt (h : b < a) : slice s a b = none := if_neg (Nat.not_le.2 h)

end Text
