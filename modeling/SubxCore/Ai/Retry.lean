import Mathlib.Order.Bounds.Basic
import Mathlib.Order.Interval.Set.Basic
import Mathlib.Tactic.Linarith
/-!
# Retrying requests

The three loops that send a chat request again: the shared one of
`HttpRetryClient`, the one of the Azure client and the one of the local
client. Each stops at the first attempt with some property, which is
another property in each, and `alike_iff` says for which outcomes the three
come to the same.
-/

namespace SubxCore.Ai

/-- What comes of sending a request: an error of the transport, or a response. -/
inductive Outcome (E : Type)
  | failed (error : E)
  | answered (status : ℕ)
  deriving DecidableEq

/-- `is_client_error`. -/
def isClientError (status : ℕ) : Bool := 400 ≤ status ∧ status < 500

/-- `is_server_error`. -/
def isServerError (status : ℕ) : Bool := 500 ≤ status ∧ status < 600

/-- What a loop has done: how many requests it has sent, and the attempt whose outcome
it returns, as a response or as an error. -/
structure Run (E : Type) where
  sent : ℕ
  attempt : ℕ
  result : Except (Outcome E) ℕ
  deriving DecidableEq

/-- A run with one more request before it. -/
def Run.again {E : Type} (run : Run E) : Run E := { run with sent := run.sent + 1 }

variable {E : Type}

/-! ## The loops

A chat request has a JSON body, so a clone of it is always to be had. The
counters stay below the limit, and a limit is one of an `u32`. -/

/-- `make_http_request_with_retry_impl`, from some attempt on. -/
def sharedRetry (retryAttempts : UInt32) (outcomes : ℕ → Outcome E) (attempts : ℕ) : Run E :=
  match outcomes attempts with
  | .answered status =>
    -- `error_for_status` makes an error of a response
    if isClientError status || isServerError status then
      if attempts + 1 ≥ retryAttempts.toNat then
        ⟨1, attempts, .error (.answered status)⟩
      else (sharedRetry retryAttempts outcomes (attempts + 1)).again
    else ⟨1, attempts, .ok status⟩
  | .failed error =>
    if attempts + 1 ≥ retryAttempts.toNat then ⟨1, attempts, .error (.failed error)⟩
    else (sharedRetry retryAttempts outcomes (attempts + 1)).again
termination_by retryAttempts.toNat - attempts

/-- `make_request_with_retry` of the Azure client. -/
def azureRetry (retryAttempts : UInt32) (outcomes : ℕ → Outcome E) (attempts : ℕ) : Run E :=
  match outcomes attempts with
  | .answered status => ⟨1, attempts, .ok status⟩
  | .failed error =>
    if attempts < retryAttempts.toNat then
      (azureRetry retryAttempts outcomes (attempts + 1)).again
    else ⟨1, attempts, .error (.failed error)⟩
termination_by retryAttempts.toNat - attempts

/-- `send_with_retry` of the local client. -/
def localRetry (retryAttempts : UInt32) (outcomes : ℕ → Outcome E) (attempts : ℕ) : Run E :=
  match outcomes attempts with
  | .answered status =>
    if isServerError status ∧ attempts < retryAttempts.toNat then
      (localRetry retryAttempts outcomes (attempts + 1)).again
    else ⟨1, attempts, .ok status⟩
  | .failed error =>
    if attempts < retryAttempts.toNat then
      (localRetry retryAttempts outcomes (attempts + 1)).again
    else ⟨1, attempts, .error (.failed error)⟩
termination_by retryAttempts.toNat - attempts

/-! ## Where they stop -/

/-- A loop that stops at the first attempt with a property: it has sent a request for
each attempt until then. -/
structure StopsAtFirst (stop : ℕ → Prop) (start : ℕ) (run : Run E) : Prop where
  stops : stop run.attempt
  first : ∀ i, start ≤ i → i < run.attempt → ¬ stop i
  sent : start + run.sent = run.attempt + 1

namespace StopsAtFirst

variable {stop : ℕ → Prop} {start : ℕ} {run : Run E}

theorem here {result : Except (Outcome E) ℕ} (h : stop start) :
    StopsAtFirst stop start ⟨1, start, result⟩ :=
  ⟨h, fun _ hi hlt => absurd hlt (not_lt.2 hi), rfl⟩

theorem again (hnot : ¬ stop start) (h : StopsAtFirst stop (start + 1) run) :
    StopsAtFirst stop start run.again where
  stops := h.stops
  first i hi hlt := by
    rcases hi.eq_or_lt with rfl | hgt
    · exact hnot
    · exact h.first i hgt hlt
  sent := by
    have := h.sent
    simp only [Run.again]
    omega

/-- **It stops at the least.** -/
theorem isLeast (h : StopsAtFirst stop 0 run) : IsLeast {i | stop i} run.attempt :=
  ⟨h.stops, fun i hi => not_lt.1 fun hlt => h.first i i.zero_le hlt hi⟩

theorem attempt_eq {i : ℕ} (h : StopsAtFirst stop 0 run) (hstop : stop i)
    (hfirst : ∀ j < i, ¬ stop j) : run.attempt = i :=
  h.isLeast.unique ⟨hstop, fun j hj => not_lt.1 fun hlt => hfirst j hlt hj⟩

theorem sent_eq (h : StopsAtFirst stop 0 run) : run.sent = run.attempt + 1 := by
  have := h.sent
  omega

end StopsAtFirst

variable {n : UInt32} {outcomes : ℕ → Outcome E}

/-- The shared loop stops at a response that is no error, or when all attempts are
made. -/
def SharedStops (n : UInt32) (outcomes : ℕ → Outcome E) (i : ℕ) : Prop :=
  (∃ status, outcomes i = .answered status ∧
    ¬ (isClientError status || isServerError status) = true) ∨ n.toNat ≤ i + 1

/-- The Azure client stops at any response, or when all attempts after the first are
made. -/
def AzureStops (n : UInt32) (outcomes : ℕ → Outcome E) (i : ℕ) : Prop :=
  (∃ status, outcomes i = .answered status) ∨ n.toNat ≤ i

/-- The local client stops at a response that is no error of the server, or when all
attempts after the first are made. -/
def LocalStops (n : UInt32) (outcomes : ℕ → Outcome E) (i : ℕ) : Prop :=
  (∃ status, outcomes i = .answered status ∧ ¬ isServerError status = true) ∨
    n.toNat ≤ i

theorem sharedRetry_stopsAtFirst (n : UInt32) (outcomes : ℕ → Outcome E) (attempts : ℕ) :
    StopsAtFirst (SharedStops n outcomes) attempts
      (sharedRetry n outcomes attempts) := by
  fun_induction sharedRetry n outcomes attempts with
  | case1 attempts status hstatus herror hlast => exact .here (.inr hlast)
  | case2 attempts status hstatus herror hmore ih =>
    refine .again ?_ ih
    rintro (⟨status', hstatus', hok⟩ | hlast)
    · rw [hstatus] at hstatus'
      cases hstatus'
      exact hok herror
    · exact hmore hlast
  | case3 attempts status hstatus hok => exact .here (.inl ⟨status, hstatus, hok⟩)
  | case4 attempts error hfailed hlast => exact .here (.inr hlast)
  | case5 attempts error hfailed hmore ih =>
    refine .again ?_ ih
    rintro (⟨status, hstatus, -⟩ | hlast)
    · rw [hfailed] at hstatus
      cases hstatus
    · exact hmore hlast

theorem azureRetry_stopsAtFirst (n : UInt32) (outcomes : ℕ → Outcome E) (attempts : ℕ) :
    StopsAtFirst (AzureStops n outcomes) attempts
      (azureRetry n outcomes attempts) := by
  fun_induction azureRetry n outcomes attempts with
  | case1 attempts status hstatus => exact .here (.inl ⟨status, hstatus⟩)
  | case2 attempts error hfailed hmore ih =>
    refine .again ?_ ih
    rintro (⟨status, hstatus⟩ | hlast)
    · rw [hfailed] at hstatus
      cases hstatus
    · omega
  | case3 attempts error hfailed hlast => exact .here (.inr (not_lt.1 hlast))

theorem localRetry_stopsAtFirst (n : UInt32) (outcomes : ℕ → Outcome E) (attempts : ℕ) :
    StopsAtFirst (LocalStops n outcomes) attempts
      (localRetry n outcomes attempts) := by
  fun_induction localRetry n outcomes attempts with
  | case1 attempts status hstatus hmore ih =>
    refine .again ?_ ih
    rintro (⟨status', hstatus', hok⟩ | hlast)
    · rw [hstatus] at hstatus'
      cases hstatus'
      exact hok hmore.1
    · omega
  | case2 attempts status hstatus hstop =>
    refine .here ?_
    by_cases herror : isServerError status = true
    · exact .inr (not_lt.1 fun hlt => hstop ⟨herror, hlt⟩)
    · exact .inl ⟨status, hstatus, herror⟩
  | case3 attempts error hfailed hmore ih =>
    refine .again ?_ ih
    rintro (⟨status, hstatus, -⟩ | hlast)
    · rw [hfailed] at hstatus
      cases hstatus
    · omega
  | case4 attempts error hfailed hlast => exact .here (.inr (not_lt.1 hlast))

/-! ## When they come to the same -/

/-- The three loops send as many requests and return what comes of the same attempt;
without retries they send one. -/
def Alike (n : UInt32) (outcomes : ℕ → Outcome E) : Prop :=
  let shared := sharedRetry n outcomes 0
  let azure := azureRetry n outcomes 0
  let own := localRetry n outcomes 0
  (azure.sent = shared.sent ∧ own.sent = shared.sent) ∧
    (azure.attempt = shared.attempt ∧ own.attempt = shared.attempt) ∧
    (n = 0 → shared.sent = 1)

/-- The loops stop alike where each of them stops, and none before. -/
theorem alike_of_stops {i : ℕ} (hzero : n = 0 → i = 0)
    (hshared : SharedStops n outcomes i ∧ ∀ j < i, ¬ SharedStops n outcomes j)
    (hazure : AzureStops n outcomes i ∧ ∀ j < i, ¬ AzureStops n outcomes j)
    (hlocal : LocalStops n outcomes i ∧ ∀ j < i, ¬ LocalStops n outcomes j) :
    Alike n outcomes := by
  have hs := sharedRetry_stopsAtFirst n outcomes 0
  have ha := azureRetry_stopsAtFirst n outcomes 0
  have hl := localRetry_stopsAtFirst n outcomes 0
  have hsi := hs.attempt_eq hshared.1 hshared.2
  have hai := ha.attempt_eq hazure.1 hazure.2
  have hli := hl.attempt_eq hlocal.1 hlocal.2
  refine ⟨⟨?_, ?_⟩, ⟨hai.trans hsi.symm, hli.trans hsi.symm⟩, fun hn => ?_⟩
  · rw [ha.sent_eq, hs.sent_eq, hai, hsi]
  · rw [hl.sent_eq, hs.sent_eq, hli, hsi]
  · rw [hs.sent_eq, hsi, hzero hn]

/-- **The loops come to the same exactly when** there are no retries, or there is a
response among the attempts that all of them make, and the first one is neither an
error of the server nor, before the last of these attempts, one of the client. -/
theorem alike_iff (n : UInt32) (outcomes : ℕ → Outcome E) :
    Alike n outcomes ↔ n = 0 ∨
      ∃ i < n.toNat, (∀ j < i, ∃ error, outcomes j = .failed error) ∧
        ∃ status, outcomes i = .answered status ∧ ¬ isServerError status = true ∧
          (isClientError status = true → i + 1 = n.toNat) := by
  constructor
  · rintro ⟨-, ⟨hazure, hlocal⟩, -⟩
    by_cases hn : n = 0
    · exact .inl hn
    have hpos : n.toNat ≠ 0 := fun h => hn (UInt32.toNat_inj.1 h)
    have hs := sharedRetry_stopsAtFirst n outcomes 0
    have ha := azureRetry_stopsAtFirst n outcomes 0
    have hl := localRetry_stopsAtFirst n outcomes 0
    have hle : (sharedRetry n outcomes 0).attempt ≤ n.toNat - 1 :=
      hs.isLeast.2 (.inr (by omega))
    obtain ⟨status, hstatus⟩ := ha.stops.resolve_right (by omega)
    obtain ⟨status', hstatus', hserver⟩ := hl.stops.resolve_right (by omega)
    rw [hazure] at hstatus
    rw [hlocal, hstatus] at hstatus'
    cases hstatus'
    refine .inr ⟨_, by omega, fun j hj => ?_, status, hstatus, hserver, fun hclient => ?_⟩
    · have hnot := ha.first j j.zero_le (hj.trans_eq hazure.symm)
      cases houtcome : outcomes j with
      | failed error => exact ⟨error, rfl⟩
      | answered status => exact absurd (.inl ⟨status, houtcome⟩) hnot
    · rcases hs.stops with ⟨status', hstatus', hok⟩ | hlast
      · rw [hstatus] at hstatus'
        cases hstatus'
        exact absurd (by rw [hclient, Bool.true_or]) hok
      · omega
  · rintro (rfl | ⟨i, hlt, hfailed, status, hstatus, hserver, hclient⟩)
    · have hnone {stop : ℕ → Prop} : ∀ j < 0, ¬ stop j := fun j hj => absurd hj j.not_lt_zero
      exact alike_of_stops (fun _ => rfl) ⟨.inr (Nat.zero_le _), hnone⟩
        ⟨.inr (Nat.zero_le _), hnone⟩ ⟨.inr (Nat.zero_le _), hnone⟩
    · have hanswer {j status : ℕ} (hj : j < i) : outcomes j ≠ .answered status := by
        obtain ⟨error, herror⟩ := hfailed j hj
        rw [herror]
        simp
      refine alike_of_stops (fun hn => by rw [hn] at hlt; exact absurd hlt (Nat.not_lt_zero _))
        ⟨?_, ?_⟩ ⟨.inl ⟨status, hstatus⟩, ?_⟩ ⟨.inl ⟨status, hstatus, hserver⟩, ?_⟩
      · cases hclient' : isClientError status with
        | true => exact .inr (hclient hclient').ge
        | false => exact .inl ⟨status, hstatus, by simpa [hclient'] using hserver⟩
      · rintro j hj (⟨status', hstatus', -⟩ | hlast)
        · exact hanswer hj hstatus'
        · omega
      · rintro j hj (⟨status', hstatus'⟩ | hlast)
        · exact hanswer hj hstatus'
        · omega
      · rintro j hj (⟨status', hstatus', -⟩ | hlast)
        · exact hanswer hj hstatus'
        · omega

/-- **One response 503** is final for the Azure client, and is not for the others. -/
theorem not_alike_on_503 : ¬ ∀ (E : Type) (n : UInt32) (outcomes : ℕ → Outcome E),
    Alike n outcomes := by
  intro h
  have hsent := (h Unit 3 fun i => if i = 0 then .answered 503 else .answered 200).1.1
  simp [sharedRetry, azureRetry, Run.again, isClientError, isServerError] at hsent

end SubxCore.Ai
