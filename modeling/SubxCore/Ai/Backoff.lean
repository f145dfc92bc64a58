import SubxCore.Formats.Types
import Mathlib.Algebra.Order.BigOperators.Group.List
import Mathlib.Algebra.Group.Action.Defs
/-!
# Retrying with a backoff

`retry_with_backoff` calls an operation until it succeeds or the attempts are used up, and
sleeps between two calls, longer from one to the next but never longer than a limit. The
number of milliseconds, a product of floats made an integer, is a parameter.
-/

namespace SubxCore.Ai

/-- `RetryConfig`, with the multiplier taken together with the product it is in. -/
structure RetryConfig where
  maxAttempts : ℕ
  baseDelay : Duration
  maxDelay : Duration
  /-- The delay after an attempt, in milliseconds, before it is limited. -/
  scaled : Duration → ℕ → ℕ

/-- `std::cmp::min`. -/
def shorter (a b : Duration) : Duration := if a.nanos ≤ b.nanos then a else b

/-- The delay after an attempt. -/
def RetryConfig.delay (config : RetryConfig) (attempt : ℕ) : Duration :=
  shorter (Duration.fromMillis (config.scaled config.baseDelay attempt)) config.maxDelay

/-- What a retry has done: the calls it has made, the sleeps between them, and its result. -/
structure Retried (α : Type) where
  calls : ℕ
  sleeps : List Duration
  result : Except SubXError α

variable {α : Type}

/-- The loop, with the attempts that are left; the operation is told by its calls. -/
def retryFrom (config : RetryConfig) (operation : ℕ → Except SubXError α) :
    ℕ → ℕ → Option SubXError → Retried α
  | 0, _, lastError =>
    ⟨0, [], .error (lastError.getD (.aiService "Retry loop produced no error state".toList))⟩
  | left + 1, attempt, _ =>
    match operation attempt with
    | .ok result => ⟨1, [], .ok result⟩
    | .error e =>
      let rest := retryFrom config operation left (attempt + 1) (some e)
      { rest with
        calls := rest.calls + 1
        sleeps :=
          if attempt < config.maxAttempts - 1 then config.delay attempt :: rest.sleeps
          else rest.sleeps }

/-- `retry_with_backoff`. -/
def retryWithBackoff (config : RetryConfig) (operation : ℕ → Except SubXError α) : Retried α :=
  if config.maxAttempts = 0 then
    ⟨0, [], .error (.aiService
      "Retry configuration invalid: max_attempts must be at least 1".toList)⟩
  else retryFrom config operation config.maxAttempts 0 none

variable {config : RetryConfig} {operation : ℕ → Except SubXError α} {lastError : Option SubXError}
variable {left attempt : ℕ}

theorem shorter_le_right (a b : Duration) : (shorter a b).nanos ≤ b.nanos := by
  unfold shorter
  split
  · assumption
  · exact le_rfl

theorem delay_le (config : RetryConfig) (attempt : ℕ) :
    (config.delay attempt).nanos ≤ config.maxDelay.nanos := by
  unfold RetryConfig.delay
  exact shorter_le_right _ _

/-- **A retry that calls up to some attempt**: the attempts before it have failed, it succeeds
or is the last one, its result is that of the retry, and there was a sleep after each before it. -/
structure EndsAt (config : RetryConfig) (operation : ℕ → Except SubXError α) (attempt k : ℕ)
    (run : Retried α) : Prop where
  calls : run.calls = k + 1
  within : attempt + k < config.maxAttempts
  failed : ∀ i < k, ∃ e, operation (attempt + i) = .error e
  result : run.result = operation (attempt + k)
  last : ∀ e, operation (attempt + k) = .error e → attempt + k + 1 = config.maxAttempts
  sleeps : run.sleeps = (List.range' attempt k).map config.delay

/-- It ends where the operation succeeds. -/
theorem EndsAt.succeeded {result : α} (hcall : operation attempt = .ok result)
    (hwithin : attempt < config.maxAttempts) :
    EndsAt config operation attempt 0 ⟨1, [], .ok result⟩ where
  calls := rfl
  within := hwithin
  failed i hi := absurd hi (Nat.not_lt_zero i)
  result := hcall.symm
  last e he := by
    rw [Nat.add_zero, hcall] at he
    cases he
  sleeps := rfl

/-- Or at the last attempt, with its error. -/
theorem EndsAt.gave_up {e : SubXError} (hcall : operation attempt = .error e)
    (hlast : attempt + 1 = config.maxAttempts) :
    EndsAt config operation attempt 0 ⟨1, [], .error e⟩ where
  calls := rfl
  within := by omega
  failed i hi := absurd hi (Nat.not_lt_zero i)
  result := hcall.symm
  last _ _ := hlast
  sleeps := rfl

/-- An attempt that fails goes before the others, with a sleep. -/
theorem EndsAt.again {e : SubXError} {k : ℕ} {rest : Retried α}
    (hcall : operation attempt = .error e) (h : EndsAt config operation (attempt + 1) k rest) :
    EndsAt config operation attempt (k + 1)
      { rest with calls := rest.calls + 1, sleeps := config.delay attempt :: rest.sleeps } where
  calls := congrArg (· + 1) h.calls
  within := by
    have := h.within
    omega
  failed i hi := by
    cases i with
    | zero => exact ⟨e, hcall⟩
    | succ i =>
      rw [← Nat.add_assoc, Nat.add_right_comm]
      exact h.failed i (by omega)
  result := by
    rw [← Nat.add_assoc, Nat.add_right_comm]
    exact h.result
  last e' he' := by
    rw [← Nat.add_assoc, Nat.add_right_comm] at he'
    have := h.last e' he'
    omega
  sleeps := by
    rw [h.sleeps, List.range'_succ, List.map_cons]

/-- The loop ends at an attempt, as long as one is left. -/
theorem exists_endsAt (hleft : attempt + (left + 1) = config.maxAttempts) :
    ∃ k, EndsAt config operation attempt k
      (retryFrom config operation (left + 1) attempt lastError) := by
  induction left generalizing attempt lastError with
  | zero =>
    refine ⟨0, ?_⟩
    rw [retryFrom]
    rcases hcall : operation attempt with e | result
    · have hno : ¬ attempt < config.maxAttempts - 1 := by omega
      dsimp only
      rw [if_neg hno]
      exact .gave_up hcall hleft
    · exact .succeeded hcall (by omega)
  | succ left ih =>
    rw [retryFrom]
    rcases hcall : operation attempt with e | result
    · have hrest : attempt + 1 + (left + 1) = config.maxAttempts := by omega
      obtain ⟨k, hk⟩ := ih hrest
      have hmore : attempt < config.maxAttempts - 1 := by omega
      dsimp only
      rw [if_pos hmore]
      exact ⟨k + 1, hk.again hcall⟩
    · exact ⟨0, .succeeded hcall (by omega)⟩

/-- All its sleeps together are no longer than the limit for each. -/
theorem EndsAt.sleeps_sum_le {k : ℕ} {run : Retried α} (h : EndsAt config operation attempt k run) :
    (run.sleeps.map Duration.nanos).sum ≤ k * config.maxDelay.nanos := by
  have hle : ∀ n ∈ (run.sleeps.map Duration.nanos), n ≤ config.maxDelay.nanos := by
    rw [h.sleeps]
    intro n hn
    obtain ⟨d, hd, rfl⟩ := List.mem_map.1 hn
    obtain ⟨i, -, rfl⟩ := List.mem_map.1 hd
    exact delay_le config i
  have hsum := List.sum_le_card_nsmul _ _ hle
  have hlength : run.sleeps.length = k := by
    rw [h.sleeps, List.length_map, List.length_range']
  rwa [List.length_map, hlength, smul_eq_mul] at hsum

/-- **What a retry comes to.** Without attempts nothing is called, and that is an error.
Otherwise the operation is called until it first succeeds, or as often as is allowed, and the
last call decides: its result is handed on, and an error only when all attempts are made.
Between two calls there is a sleep, and all of them together are no longer than the limit for
each. -/
theorem retryWithBackoff_spec (config : RetryConfig) (operation : ℕ → Except SubXError α) :
    (config.maxAttempts = 0 ∧ retryWithBackoff config operation =
      ⟨0, [], .error (.aiService
        "Retry configuration invalid: max_attempts must be at least 1".toList)⟩) ∨
      ∃ k, EndsAt config operation 0 k (retryWithBackoff config operation) ∧
        ((retryWithBackoff config operation).sleeps.map Duration.nanos).sum ≤
          (config.maxAttempts - 1) * config.maxDelay.nanos := by
  unfold retryWithBackoff
  split
  · exact .inl ⟨‹_›, rfl⟩
  · next hattempts =>
    obtain ⟨left, hleft⟩ := Nat.exists_eq_succ_of_ne_zero hattempts
    obtain ⟨k, hk⟩ := exists_endsAt
      (by omega : 0 + (left + 1) = config.maxAttempts)
    have hk : EndsAt config operation 0 k
        (retryFrom config operation config.maxAttempts 0 none) := by
      rwa [hleft]
    have hwithin := hk.within
    refine .inr ⟨k, hk, ?_⟩
    calc _ ≤ k * config.maxDelay.nanos := hk.sleeps_sum_le
      _ ≤ (config.maxAttempts - 1) * config.maxDelay.nanos :=
        Nat.mul_le_mul_right _ (by omega)

/-- Three attempts, with delays that double up to a limit. -/
def doubling : RetryConfig :=
  ⟨3, Duration.fromMillis 1000, Duration.fromMillis 1500, fun base n => base.nanos / 1000000 * 2 ^ n⟩

/-- An operation that fails once. -/
def failsOnce (attempt : ℕ) : Except SubXError ℕ :=
  if attempt = 0 then .error (.aiService "busy".toList) else .ok attempt

/-- It is called twice, with one sleep in between. -/
theorem retryWithBackoff_spec_failsOnce :
    (retryWithBackoff doubling failsOnce).calls = 2 ∧
      ∃ delay, (retryWithBackoff doubling failsOnce).sleeps = [delay] := by
  have hattempts : doubling.maxAttempts ≠ 0 := by decide
  rcases retryWithBackoff_spec doubling failsOnce with ⟨hzero, -⟩ | ⟨k, hk, -⟩
  · exact absurd hzero hattempts
  obtain rfl : k = 1 := by
    have hfirst : failsOnce (0 + 0) = .error (.aiService "busy".toList) := rfl
    rcases k with - | - | k
    · exact absurd (hk.last _ hfirst) (by decide)
    · rfl
    · obtain ⟨e, he⟩ := hk.failed 1 (by omega)
      cases he
  exact ⟨hk.calls, _, hk.sleeps⟩

end SubxCore.Ai
