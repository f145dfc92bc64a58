import SubxCore.Common.Machine
import Mathlib.Logic.Function.Basic
import Mathlib.Data.List.GetD
import Mathlib.Data.List.Nodup
/-!
# The lock of SubX operations

Every command that changes the journal or the cache takes an exclusive lock on one file
before, and has it until its guard is dropped. While another one has it, `try_lock` is
refused, and is tried again after a pause, for two seconds. In every interleaving of any
number of commands, what they do under the lock is done by one after the other
(`commands_serialize`), and a command gives up only after it has been refused at every
try, by another one that had the lock (`timedOut_of_refused`).
-/

namespace SubxCore

namespace SubxLock

open Function

/-! ## The system -/

/-- How long is tried: two seconds, in nanoseconds. -/
def timeout : ℕ := 2000000000

/-- How long is slept between two tries: 100 milliseconds. -/
def pause : ℕ := 100000000

/-- Where a command is in `acquire_lock_blocking`, or after it. Noted are the time when the
file was opened and the commands that had the lock at the tries so far. -/
inductive Stage (ι : Type)
  | idle
  | trying (start : ℕ) (seen : List ι)
  | blocked (start : ℕ) (seen : List ι)
  | sleeping (start : ℕ) (seen : List ι) (wake : ℕ)
  /-- It has the guard, and has done so many steps of its work. -/
  | holding (done : ℕ)
  | released
  | timedOut (start : ℕ) (seen : List ι)
  /-- An error of the file, or the process was ended. -/
  | failed
  deriving DecidableEq, Repr

/-- A state of all commands: of the file only the lock on it is told, of the files that are
changed under the lock what they hold, and of the commands that have dropped their guards how
many steps each has done. -/
structure State (ι σ : Type) where
  stage : ι → Stage ι
  holder : Option ι
  now : ℕ
  store : σ
  finished : List (ι × ℕ)

inductive Action (ι : Type)
  | openFile (p : ι)
  /-- `try_lock` when another command has the lock. -/
  | refused (p : ι) (start : ℕ) (seen : List ι) (q : ι)
  /-- `try_lock` when none has. -/
  | locked (p : ι) (start : ℕ) (seen : List ι)
  /-- The deadline has passed. -/
  | giveUp (p : ι) (start : ℕ) (seen : List ι)
  | sleep (p : ι) (start : ℕ) (seen : List ι)
  | wake (p : ι) (start : ℕ) (seen : List ι) (wake : ℕ)
  /-- A step of what the command does under the lock. -/
  | work (p : ι) (done : ℕ)
  /-- `drop`, at any time: a command may fail half-way. -/
  | drop (p : ι) (done : ℕ)
  | fail (p : ι)
  /-- Time passes. -/
  | tick (n : ℕ)
  deriving DecidableEq, Repr

/-- A command that waits for the lock. -/
def Stage.waits {ι : Type} : Stage ι → Bool
  | .trying _ _ | .blocked _ _ | .sleeping _ _ _ => true
  | _ => false

variable {ι σ : Type} [DecidableEq ι]

/-- When an action can be taken. -/
def enabled (work : ι → List (σ → σ)) (s : State ι σ) : Action ι → Prop
  | .openFile p => s.stage p = .idle
  | .refused p start seen q => s.stage p = .trying start seen ∧ s.holder = some q
  | .locked p start seen => s.stage p = .trying start seen ∧ s.holder = none
  | .giveUp p start seen => s.stage p = .blocked start seen ∧ start + timeout ≤ s.now
  | .sleep p start seen => s.stage p = .blocked start seen ∧ s.now < start + timeout
  | .wake p start seen wake => s.stage p = .sleeping start seen wake ∧ wake ≤ s.now
  | .work p done => s.stage p = .holding done ∧ done < (work p).length
  | .drop p done => s.stage p = .holding done
  | .fail p => (s.stage p).waits
  | .tick _ => True

instance (work : ι → List (σ → σ)) (s : State ι σ) (a : Action ι) :
    Decidable (enabled work s a) := by
  cases a <;> dsimp only [enabled] <;> infer_instance

/-- A command at another stage. -/
def State.goTo (s : State ι σ) (p : ι) (stage : Stage ι) : State ι σ :=
  { s with stage := update s.stage p stage }

/-- What an action does. -/
def act (work : ι → List (σ → σ)) (s : State ι σ) : Action ι → State ι σ
  | .openFile p => s.goTo p (.trying s.now [])
  | .refused p start seen q => s.goTo p (.blocked start (seen ++ [q]))
  | .locked p _ _ => { s.goTo p (.holding 0) with holder := some p }
  | .giveUp p start seen => s.goTo p (.timedOut start seen)
  | .sleep p start seen => s.goTo p (.sleeping start seen (s.now + pause))
  | .wake p start seen _ => s.goTo p (.trying start seen)
  | .work p done =>
    { s.goTo p (.holding (done + 1)) with store := ((work p).getD done id) s.store }
  | .drop p done =>
    { s.goTo p .released with holder := none, finished := s.finished ++ [(p, done)] }
  | .fail p => s.goTo p .failed
  | .tick n => { s with now := s.now + n }

/-- The commands, with what each does under the lock. -/
def commands (work : ι → List (σ → σ)) : Machine (State ι σ) (Action ι) where
  enabled := enabled work
  effect := act work

instance (work : ι → List (σ → σ)) (s : State ι σ) (a : Action ι) :
    Decidable ((commands work).enabled s a) :=
  inferInstanceAs (Decidable (enabled work s a))

/-- Nothing has been started. -/
def init (ι : Type) {σ : Type} (store : σ) : State ι σ := ⟨fun _ => .idle, none, 0, store, []⟩

/-- The states the commands can be in. -/
def Reachable (work : ι → List (σ → σ)) (store : σ) (s : State ι σ) : Prop :=
  (commands work).Reaches (init ι store) s

/-- The first steps of what a command does. -/
def after (work : ι → List (σ → σ)) (store : σ) (p : ι) (done : ℕ) : σ :=
  ((work p).take done).foldl (fun store step => step store) store

/-- Some commands one after the other, each with no other in between. -/
def serial (work : ι → List (σ → σ)) (store : σ) (finished : List (ι × ℕ)) : σ :=
  finished.foldl (fun store x => after work store x.1 x.2) store

variable {work : ι → List (σ → σ)} {store : σ} {s : State ι σ} {a : Action ι} {p q : ι}
variable {start done now : ℕ} {seen : List ι} {stage : Stage ι}

omit [DecidableEq ι] in
theorem after_succ (h : done < (work p).length) :
    after work store p (done + 1) = (work p).getD done id (after work store p done) := by
  rw [after, List.take_succ_eq_append_getElem h, List.foldl_append, List.getD_eq_getElem _ _ h]
  rfl

/-! ## One after the other -/

/-- **What holds of the lock**: the one that has it is the one that holds a guard, and what is
stored is what the commands before it have made, and then its own first steps. -/
structure Invariant (work : ι → List (σ → σ)) (store : σ) (s : State ι σ) : Prop where
  holder : ∀ p, s.holder = some p ↔ ∃ done, s.stage p = .holding done
  idle : s.holder = none → s.store = serial work store s.finished
  busy : ∀ p done, s.stage p = .holding done →
    s.store = after work (serial work store s.finished) p done
  finished : ∀ p, p ∈ s.finished.map Prod.fst ↔ s.stage p = .released
  nodup : (s.finished.map Prod.fst).Nodup

/-- A command that goes from a stage to another, neither with the guard. -/
theorem Invariant.goTo (h : Invariant work store s)
    (hbefore : (∀ done, s.stage p ≠ .holding done) ∧ s.stage p ≠ .released)
    (hafter : (∀ done, stage ≠ .holding done) ∧ stage ≠ .released) :
    Invariant work store (s.goTo p stage) := by
  have hholding : ∀ q done, (s.goTo p stage).stage q = .holding done ↔
      s.stage q = .holding done := by
    intro q done
    by_cases hq : q = p
    · subst hq
      simp [State.goTo, hafter.1, hbefore.1]
    · simp [State.goTo, hq]
  refine ⟨fun q => ?_, h.idle, fun q done hq => h.busy q done ((hholding q done).1 hq),
    fun q => ?_, h.nodup⟩
  · rw [show (s.goTo p stage).holder = s.holder from rfl, h.holder q]
    exact exists_congr fun done => (hholding q done).symm
  · rw [show (s.goTo p stage).finished = s.finished from rfl, h.finished q]
    by_cases hq : q = p
    · subst hq
      simp [State.goTo, hafter.2, hbefore.2]
    · simp [State.goTo, hq]

/-- The lock is taken where it is free. -/
theorem Invariant.locked (h : Invariant work store s) (hstage : s.stage p = .trying start seen)
    (hfree : s.holder = none) :
    Invariant work store { s.goTo p (.holding 0) with holder := some p } := by
  have hnone : ∀ q done, s.stage q ≠ .holding done := by
    intro q done hq
    have hholder := (h.holder q).2 ⟨done, hq⟩
    rw [hfree] at hholder
    cases hholder
  refine ⟨fun q => ?_, nofun, fun q done hq => ?_, fun q => ?_, h.nodup⟩
  · by_cases hq : q = p
    · subst hq
      simp [State.goTo]
    · simp [State.goTo, hq, hnone, Ne.symm hq]
  · by_cases hqp : q = p
    · subst hqp
      have hdone : 0 = done := by simpa [State.goTo] using hq
      subst hdone
      exact h.idle hfree
    · exact absurd (by simpa [State.goTo, hqp] using hq) (hnone q done)
  · refine (h.finished q).trans ?_
    by_cases hq : q = p
    · subst hq
      simp [State.goTo, hstage]
    · simp [State.goTo, hq]

/-- The one that has it does a step. -/
theorem Invariant.worked (h : Invariant work store s) (hstage : s.stage p = .holding done)
    (hlt : done < (work p).length) :
    Invariant work store { s.goTo p (.holding (done + 1)) with
      store := ((work p).getD done id) s.store } := by
  have hholder := (h.holder p).2 ⟨done, hstage⟩
  refine ⟨fun q => ?_, fun hnone => ?_, fun q n hq => ?_, fun q => ?_, h.nodup⟩
  · refine (h.holder q).trans ?_
    by_cases hq : q = p
    · subst hq
      simp [State.goTo, hstage]
    · simp [State.goTo, hq]
  · rw [show s.holder = none from hnone] at hholder
    cases hholder
  · by_cases hqp : q = p
    · subst hqp
      have hn : done + 1 = n := by simpa [State.goTo] using hq
      subst hn
      exact (congrArg ((work q).getD done id) (h.busy q done hstage)).trans (after_succ hlt).symm
    · -- another one cannot have it
      have hq : s.stage q = .holding n := by simpa [State.goTo, hqp] using hq
      rw [(h.holder q).2 ⟨n, hq⟩] at hholder
      exact absurd (Option.some.inj hholder) hqp
  · refine (h.finished q).trans ?_
    by_cases hq : q = p
    · subst hq
      simp [State.goTo, hstage]
    · simp [State.goTo, hq]

/-- It drops its guard. -/
theorem Invariant.dropped (h : Invariant work store s) (hstage : s.stage p = .holding done) :
    Invariant work store
      { s.goTo p .released with holder := none, finished := s.finished ++ [(p, done)] } := by
  have hholder := (h.holder p).2 ⟨done, hstage⟩
  have hothers : ∀ q n, q ≠ p → s.stage q ≠ .holding n := by
    intro q n hqp hq
    rw [(h.holder q).2 ⟨n, hq⟩] at hholder
    exact hqp (Option.some.inj hholder)
  have hnot : p ∉ s.finished.map Prod.fst := by
    rw [h.finished, hstage]
    nofun
  have hfinished : (s.finished ++ [(p, done)]).map Prod.fst = s.finished.map Prod.fst ++ [p] := by
    rw [List.map_append]
    rfl
  refine ⟨fun q => ?_, fun _ => ?_, fun q n hq => ?_, fun q => ?_, ?_⟩
  · by_cases hq : q = p
    · subst hq
      simp [State.goTo]
    · simp [State.goTo, hq, hothers]
  · rw [serial, List.foldl_append]
    exact h.busy p done hstage
  · by_cases hqp : q = p
    · subst hqp
      simp [State.goTo] at hq
    · exact absurd (by simpa [State.goTo, hqp] using hq) (hothers q n hqp)
  · rw [hfinished, List.mem_append, List.mem_singleton, h.finished q]
    by_cases hq : q = p
    · subst hq
      simp [State.goTo]
    · simp [State.goTo, hq]
  · rw [hfinished]
    exact List.nodup_append.2 ⟨h.nodup, List.nodup_singleton p, fun q hq q' hq' hne => by
      rw [List.mem_singleton.1 hq'] at hne
      exact hnot (hne ▸ hq)⟩

omit [DecidableEq ι] in
theorem invariant_init : Invariant work store (init ι store) where
  holder _ := ⟨nofun, nofun⟩
  idle _ := rfl
  busy _ _ := nofun
  finished _ := ⟨nofun, nofun⟩
  nodup := List.nodup_nil

/-- Every action keeps it. -/
theorem invariant_effect (ha : enabled work s a) (h : Invariant work store s) :
    Invariant work store ((commands work).effect s a) := by
  have hstill : ∀ {p : ι} {stage stage' : Stage ι}, s.stage p = stage →
      ((∀ done, stage ≠ .holding done) ∧ stage ≠ .released) →
      ((∀ done, stage' ≠ .holding done) ∧ stage' ≠ .released) →
      Invariant work store (s.goTo p stage') := fun hstage hbefore hafter =>
    h.goTo (hstage ▸ hbefore) hafter
  cases a with
  | openFile p => exact hstill ha ⟨nofun, nofun⟩ ⟨nofun, nofun⟩
  | refused p start seen q => exact hstill ha.1 ⟨nofun, nofun⟩ ⟨nofun, nofun⟩
  | giveUp p start seen => exact hstill ha.1 ⟨nofun, nofun⟩ ⟨nofun, nofun⟩
  | sleep p start seen => exact hstill ha.1 ⟨nofun, nofun⟩ ⟨nofun, nofun⟩
  | wake p start seen wake => exact hstill ha.1 ⟨nofun, nofun⟩ ⟨nofun, nofun⟩
  | fail p =>
    refine h.goTo ⟨fun done hstage => ?_, fun hstage => ?_⟩ ⟨nofun, nofun⟩
    · rw [enabled, hstage] at ha
      cases ha
    · rw [enabled, hstage] at ha
      cases ha
  | tick n => exact ⟨h.holder, h.idle, h.busy, h.finished, h.nodup⟩
  | locked p start seen => exact h.locked ha.1 ha.2
  | work p done => exact h.worked ha.1 ha.2
  | drop p done => exact h.dropped ha

/-- **What commands do under the lock is done one after the other.** In every interleaving, at
most one has a guard; what is stored is what the commands that have dropped theirs make, in that
order and without another in between, and then the first steps of the one that has it. No
command comes twice. -/
theorem commands_serialize (hs : Reachable work store s) :
    (∀ p q m n, s.stage p = .holding m → s.stage q = .holding n → p = q) ∧
      ((∀ p n, s.stage p ≠ .holding n) → s.store = serial work store s.finished) ∧
      (∀ p n, s.stage p = .holding n →
        s.store = after work (serial work store s.finished) p n) ∧
      (s.finished.map Prod.fst).Nodup := by
  have h : Invariant work store s :=
    hs.invariant invariant_init fun _ _ _ ha ht => invariant_effect ha ht
  refine ⟨fun p q m n hp hq => ?_, fun hnone => h.idle ?_, h.busy, h.nodup⟩
  · have hholder := (h.holder p).2 ⟨m, hp⟩
    rw [(h.holder q).2 ⟨n, hq⟩] at hholder
    exact (Option.some.inj hholder).symm
  · rw [Option.eq_none_iff_forall_ne_some]
    intro p hp
    obtain ⟨n, hn⟩ := (h.holder p).1 hp
    exact hnone p n hn

/-- Two commands that write a letter each, the second while the first is waiting. -/
def twoLetters : Bool → List (List Char → List Char)
  | true => [fun s => s ++ ['a'], fun s => s ++ ['b']]
  | false => [fun s => s ++ ['c']]

def twoRun : List (Action Bool) :=
  [.openFile true, .locked true 0 [], .openFile false, .work true 0, .refused false 0 [] true,
    .work true 1, .sleep false 0 [true], .drop true 2, .tick pause, .wake false 0 [true] pause,
    .locked false 0 [true], .work false 0, .drop false 1]

theorem commands_serialize_twoLetters : ∃ s : State Bool (List Char),
    s.store = serial twoLetters [] s.finished ∧ s.store = ['a', 'b', 'c'] := by
  obtain ⟨s, hs, hstate⟩ := Machine.exists_reaches_of_run
    (by decide : ((commands twoLetters).run (init Bool []) twoRun).any
      (fun s => decide (s.store = ['a', 'b', 'c'] ∧ s.stage true = .released ∧
        s.stage false = .released)) = true)
  obtain ⟨hstore, htrue, hfalse⟩ := of_decide_eq_true hstate
  refine ⟨s, (commands_serialize hs).2.1 fun p n => ?_, hstore⟩
  cases p with
  | true =>
    rw [htrue]
    nofun
  | false =>
    rw [hfalse]
    nofun

/-! ## Waiting -/

/-- What a stage says of the tries before it: they were at least a pause apart, at most 21, and
another one had the lock at each. -/
def Timely (now : ℕ) (p : ι) : Stage ι → Prop
  | .trying start seen => p ∉ seen ∧ start + seen.length * pause ≤ now ∧ seen.length ≤ 20
  | .blocked start seen =>
    p ∉ seen ∧ seen ≠ [] ∧ start + seen.length * pause ≤ now + pause ∧ seen.length ≤ 21
  | .sleeping start seen wake =>
    p ∉ seen ∧ start + seen.length * pause ≤ wake ∧ seen.length ≤ 20
  | .timedOut start seen => p ∉ seen ∧ seen ≠ [] ∧ start + timeout ≤ now ∧ seen.length ≤ 21
  | _ => True

omit [DecidableEq ι] in
/-- It still says so later. -/
theorem Timely.later (h : Timely now p stage) (n : ℕ) : Timely (now + n) p stage := by
  cases stage with
  | trying start seen => exact ⟨h.1, Nat.le_add_right_of_le h.2.1, h.2.2⟩
  | blocked start seen =>
    refine ⟨h.1, h.2.1, ?_, h.2.2.2⟩
    calc start + seen.length * pause ≤ now + pause := h.2.2.1
      _ ≤ now + n + pause := Nat.add_le_add_right (Nat.le_add_right _ _) _
  | sleeping start seen wake => exact h
  | timedOut start seen => exact ⟨h.1, h.2.1, Nat.le_add_right_of_le h.2.2.1, h.2.2.2⟩
  | _ => trivial

/-- A stage that is timely leaves the others so. -/
theorem timely_goTo (h : ∀ q, Timely s.now q (s.stage q)) (hp : Timely s.now p stage) (q : ι) :
    Timely s.now q ((s.goTo p stage).stage q) := by
  by_cases hq : q = p
  · subst hq
    simpa [State.goTo] using hp
  · simpa [State.goTo, hq] using h q

omit [DecidableEq ι] in
/-- A pause before the deadline is one of twenty. -/
theorem length_le_of_lt (h : start + seen.length * pause ≤ now + pause)
    (hlt : now < start + timeout) : seen.length ≤ 20 := by
  have htimeout : timeout = 20 * pause := rfl
  rw [htimeout] at hlt
  have hmul : seen.length * pause < 21 * pause := by omega
  exact Nat.lt_succ_iff.1 (Nat.lt_of_mul_lt_mul_right hmul)

/-- Every action keeps all stages timely. -/
theorem timely_effect (ha : enabled work s a) (hinv : Invariant work store s)
    (h : ∀ q, Timely s.now q (s.stage q)) :
    ∀ q, Timely ((commands work).effect s a).now q (((commands work).effect s a).stage q) := by
  cases a with
  | openFile p => exact timely_goTo h ⟨List.not_mem_nil, by simp, Nat.zero_le _⟩
  | refused p start seen q =>
    have hp := h p
    rw [ha.1] at hp
    obtain ⟨hnot, htime, hlength⟩ := hp
    have hpq : p ≠ q := by
      rintro rfl
      obtain ⟨n, hn⟩ := (hinv.holder p).1 ha.2
      rw [ha.1] at hn
      cases hn
    have hseen : (seen ++ [q]).length = seen.length + 1 := List.length_append
    refine timely_goTo h ⟨by simp [hnot, hpq], by simp, ?_, ?_⟩
    · rw [hseen, Nat.succ_mul]
      omega
    · rw [hseen]
      omega
  | locked p start seen => exact timely_goTo h trivial
  | giveUp p start seen =>
    have hp := h p
    rw [ha.1] at hp
    exact timely_goTo h ⟨hp.1, hp.2.1, ha.2, hp.2.2.2⟩
  | sleep p start seen =>
    have hp := h p
    rw [ha.1] at hp
    exact timely_goTo h ⟨hp.1, hp.2.2.1, length_le_of_lt hp.2.2.1 ha.2⟩
  | wake p start seen wake =>
    have hp := h p
    rw [ha.1] at hp
    exact timely_goTo h ⟨hp.1, Nat.le_trans hp.2.1 ha.2, hp.2.2⟩
  | work p done => exact timely_goTo h trivial
  | drop p done => exact timely_goTo h trivial
  | fail p => exact timely_goTo h trivial
  | tick n => exact fun q => (h q).later n

/-- **A command gives up only when it has to.** One that has given up has tried for two seconds,
at least once and at most 21 times, and at every try another command had the lock. -/
theorem timedOut_of_refused (hs : Reachable work store s)
    (hp : s.stage p = .timedOut start seen) :
    start + timeout ≤ s.now ∧ seen ≠ [] ∧ seen.length ≤ 21 ∧ p ∉ seen := by
  have h : Invariant work store s ∧ ∀ q, Timely s.now q (s.stage q) :=
    hs.invariant (P := fun s => Invariant work store s ∧ ∀ q, Timely s.now q (s.stage q))
      ⟨invariant_init, fun _ => trivial⟩
      fun _ _ _ ha ht => ⟨invariant_effect ha ht.1, timely_effect ha ht.1 ht.2⟩
  have htimely := h.2 p
  rw [hp] at htimely
  obtain ⟨hnot, hne, htime, hlength⟩ := htimely
  exact ⟨htime, hne, hlength, hnot⟩

/-- The first command keeps its guard for too long. -/
theorem timedOut_of_refused_twoLetters : ∃ s : State Bool (List Char),
    s.stage false = .timedOut 0 [true] ∧ 0 + timeout ≤ s.now := by
  obtain ⟨s, hs, hstate⟩ := Machine.exists_reaches_of_run
    (by decide : ((commands twoLetters).run (init Bool [])
      [.openFile true, .locked true 0 [], .openFile false, .refused false 0 [] true,
        .tick timeout, .giveUp false 0 [true]]).any
      (fun s => decide (s.stage false = .timedOut 0 [true])) = true)
  have hstage := of_decide_eq_true hstate
  exact ⟨s, hstage, (timedOut_of_refused hs hstage).1⟩

end SubxLock

end SubxCore
