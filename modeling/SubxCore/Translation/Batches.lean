import SubxCore.Common.Attempts
import SubxCore.Translation.Engine
import Mathlib.Data.List.Nodup
import Mathlib.Data.List.Range
/-!
# Which requests a run sends

A run goes through a plan of batches, the initial ones and possibly one
for the missing cues, and sends each of them once or twice. The initial
batches cut the cues into pieces of at most the batch size, every cue in
exactly one. What is counted about a run is read off these two facts: how
many requests there are, how many cues each carries, and how often a cue
is sent.
-/

namespace SubxCore

variable {replies : Replies} {sent : SentRequest} {batches : List SentRequest} {log : Log}
variable {translations : TextMap} {map : List (Text × Text)} {issued batchCount : ℕ}

/-! ## One batch -/

/-- The reply to request `k` of the log went through the checks. -/
def Accepted (replies : Replies) (log : Log) (k : ℕ) (sent : SentRequest)
    (map : List (Text × Text)) : Prop :=
  log[k]? = some sent ∧ readReply replies k sent.ids = .ok map

/-- A batch that went through: its last request was accepted, and no other
of its requests. -/
structure BatchDone (replies : Replies) (sent : SentRequest) (log new : Log)
    (map : List (Text × Text)) (issued : ℕ) : Prop where
  issued_eq : issued = new.length
  last : ∃ k, Accepted replies (log ++ new) k sent map
  only : ∀ k s m, log.length ≤ k → Accepted replies (log ++ new) k s m → s = sent ∧ m = map

/-- A request answered at once. -/
theorem batchDone_once (h : readReply replies log.length sent.ids = .ok map) :
    BatchDone replies sent log [sent] map 1 := by
  refine ⟨rfl, ⟨log.length, List.getElem?_concat_length, h⟩, fun k s m hk hacc => ?_⟩
  obtain ⟨hget, hread⟩ := hacc
  rw [List.getElem?_append_right hk, List.getElem?_singleton] at hget
  split at hget
  · obtain rfl := Option.some.inj hget
    obtain rfl : k = log.length := by omega
    exact ⟨rfl, Except.ok.inj (hread.symm.trans h)⟩
  · cases hget

/-- A request answered at the second try. -/
theorem batchDone_twice {err : SubXError} (hfirst : readReply replies log.length sent.ids = .error err)
    (h : readReply replies (log.length + 1) sent.ids = .ok map) :
    BatchDone replies sent log [sent, sent] map 2 := by
  refine ⟨rfl, ⟨log.length + 1, ?_, h⟩, fun k s m hk hacc => ?_⟩
  · rw [List.getElem?_append_right (Nat.le_add_right _ 1), Nat.add_sub_cancel_left]
    rfl
  obtain ⟨hget, hread⟩ := hacc
  obtain ⟨d, rfl⟩ := Nat.exists_eq_add_of_le hk
  rw [List.getElem?_append_right hk, Nat.add_sub_cancel_left] at hget
  rcases d with - | d
  · -- the first reply was rejected
    obtain rfl := Option.some.inj hget
    rw [Nat.add_zero, hfirst] at hread
    cases hread
  · rcases d with - | d
    · obtain rfl := Option.some.inj hget
      exact ⟨rfl, Except.ok.inj (hread.symm.trans h)⟩
    · cases hget

/-- **What a batch comes to.** Its request is sent once or twice, and if it
goes through, one reply to it has been accepted. -/
theorem translateBatch_cases (replies : Replies) (sent : SentRequest) (log : Log) :
    ∃ new, Attempted [sent] new ∧
      (translateBatchWithUnknownRetry replies sent log).2 = log ++ new ∧
      ∀ map issued, (translateBatchWithUnknownRetry replies sent log).1 = .ok (map, issued) →
        BatchDone replies sent log new map issued := by
  have honce : Attempted [sent] [sent] := .once .nil
  have htwice : Attempted [sent] [sent, sent] := .twice .nil
  have hlen : (log ++ [sent]).length = log.length + 1 := List.length_append
  have hlog : log ++ [sent] ++ [sent] = log ++ [sent, sent] := by simp
  unfold translateBatchWithUnknownRetry translateBatchOnce
  rcases hfirst : readReply replies log.length sent.ids with err | map
  · by_cases hunknown : isUnknownCueIdError err
    · simp only [hunknown, if_true, hlen]
      rcases hsecond : readReply replies (log.length + 1) sent.ids with err' | map
      · refine ⟨[sent, sent], htwice, ?_, fun map issued h => ?_⟩
        · dsimp only
          split <;> exact hlog
        · dsimp only at h
          split at h <;> cases h
      · refine ⟨[sent, sent], htwice, hlog, fun map' issued h => ?_⟩
        obtain ⟨rfl, rfl⟩ := Prod.mk.inj (Except.ok.inj h)
        exact batchDone_twice hfirst hsecond
    · simp only [hunknown]
      exact ⟨[sent], honce, rfl, fun map issued h => by cases h⟩
  · refine ⟨[sent], honce, rfl, fun map' issued h => ?_⟩
    obtain ⟨rfl, rfl⟩ := Prod.mk.inj (Except.ok.inj h)
    exact batchDone_once hfirst

/-! ## The initial batches -/

/-- **What the initial batches come to.** In a run that fails the batches
sent are the first ones of the plan, in one that does not all of them. -/
theorem translateBatches_cases (replies : Replies) :
    ∀ (batches : List SentRequest) (translations : TextMap) (batchCount : ℕ) (log : Log),
    ∃ done new, done <+: batches ∧ Attempted done new ∧
      (translateBatches replies batches translations batchCount log).2 = log ++ new ∧
      ∀ translations' batchCount',
        (translateBatches replies batches translations batchCount log).1 =
          .ok (translations', batchCount') →
        done = batches ∧ batchCount' = batchCount + new.length
  | [], translations, batchCount, log =>
    ⟨[], [], List.prefix_rfl, .nil, (List.append_nil log).symm, fun translations' batchCount' h =>
      ⟨rfl, (Prod.mk.inj (Except.ok.inj h)).2.symm⟩⟩
  | sent :: batches, translations, batchCount, log => by
    obtain ⟨new, hnew, hlog, hdone⟩ := translateBatch_cases replies sent log
    rw [translateBatches]
    rcases hrun : translateBatchWithUnknownRetry replies sent log with ⟨err | ⟨map, issued⟩, log'⟩
    · rw [hrun] at hlog
      exact ⟨[sent], new, List.prefix_append [sent] batches, hnew, hlog, fun _ _ h => by cases h⟩
    · rw [hrun] at hlog hdone
      obtain rfl : log' = log ++ new := hlog
      have hissued := (hdone map issued rfl).issued_eq
      obtain ⟨done, rest, hpre, hrest, hlog', hok⟩ := translateBatches_cases replies batches
        (translations.insertAll map) (batchCount + issued) (log ++ new)
      refine ⟨sent :: done, new ++ rest, List.cons_prefix_cons.2 ⟨rfl, hpre⟩, hnew.append hrest,
        by rw [hlog', List.append_assoc], fun translations' batchCount' h => ?_⟩
      obtain ⟨rfl, hcount⟩ := hok _ _ h
      exact ⟨rfl, by rw [hcount, hissued, List.length_append, Nat.add_assoc]⟩

/-! ## Chunks -/

/-- The chunks are the indices in order. -/
theorem flatten_chunkRangesFrom {b total : ℕ} (hb : 0 < b) :
    ∀ fuel start, total - start ≤ fuel →
      (chunkRangesFrom b total fuel start).flatten = List.range' start (total - start)
  | 0, start, h => by
    rw [chunkRangesFrom, Nat.le_zero.1 h]
    rfl
  | fuel + 1, start, h => by
    rw [chunkRangesFrom]
    split
    · next hlt =>
      have hstop : min (start + b) total = start + (min (start + b) total - start) := by omega
      rw [List.flatten_cons, flatten_chunkRangesFrom hb fuel _ (by omega)]
      nth_rewrite 2 [hstop]
      rw [List.range'_append_1]
      congr 1
      omega
    · next hge =>
      rw [show total - start = 0 by omega]
      rfl

/-- There are as many as it takes. -/
theorem length_chunkRangesFrom {b total : ℕ} (hb : 0 < b) :
    ∀ fuel start, total - start ≤ fuel →
      (chunkRangesFrom b total fuel start).length = (total - start + b - 1) / b
  | 0, start, h => by
    rw [chunkRangesFrom, Nat.le_zero.1 h, Nat.zero_add, Nat.div_eq_of_lt (by omega)]
    rfl
  | fuel + 1, start, h => by
    rw [chunkRangesFrom]
    split
    · next hlt =>
      rw [List.length_cons, length_chunkRangesFrom hb fuel _ (by omega)]
      by_cases hfull : start + b ≤ total
      · rw [Nat.min_eq_left hfull,
          show total - start + b - 1 = total - (start + b) + b - 1 + b by omega,
          Nat.add_div_right _ hb]
      · rw [Nat.min_eq_right (by omega), Nat.sub_self, Nat.zero_add, Nat.div_eq_of_lt (by omega)]
        symm
        rw [Nat.div_eq_iff hb]
        omega
    · next hge =>
      rw [show total - start = 0 by omega, Nat.zero_add, Nat.div_eq_of_lt (by omega)]
      rfl

/-- No chunk is over the batch size. -/
theorem length_le_of_mem_chunkRangesFrom {b total : ℕ} {chunk : List ℕ} :
    ∀ fuel start, chunk ∈ chunkRangesFrom b total fuel start → chunk.length ≤ b
  | 0, start, h => by
    rw [chunkRangesFrom] at h
    cases h
  | fuel + 1, start, h => by
    rw [chunkRangesFrom] at h
    split at h
    · rcases List.mem_cons.1 h with rfl | h
      · rw [List.length_range']
        omega
      · exact length_le_of_mem_chunkRangesFrom fuel _ h
    · cases h

/-- **The chunks of a list of cues.** -/
theorem flatten_chunkRanges {b total : ℕ} (hb : 0 < b) :
    (chunkRanges total b).flatten = List.range total := by
  rw [chunkRanges, flatten_chunkRangesFrom hb total 0 (by omega), List.range_eq_range', Nat.sub_zero]

theorem length_chunkRanges {b total : ℕ} (hb : 0 < b) :
    (chunkRanges total b).length = (total + b - 1) / b := by
  rw [chunkRanges, length_chunkRangesFrom hb total 0 (by omega), Nat.sub_zero]

end SubxCore
