import SubxCore.Common.Machine
import Mathlib.Data.Finset.Card
import Mathlib.Data.Fintype.Powerset
import Mathlib.Logic.Function.Basic
/-!
# The worker pool

Calls of `execute` on clones of one pool. A call checks the capacity, spawns
its task and registers the worker, each apart from the other; tasks finish
whenever they do, and a shutdown takes the whole map. Two calls that have
both passed the check register both, and a worker whose task has finished
still counts. Where neither happens the pool is bounded and refuses only
when it is busy (`bounded_of_orderly`).
-/

namespace SubxCore

namespace WorkerPool

open Function

variable {ι : Type} [DecidableEq ι]

/-! ## States -/

/-- Where a call of `execute` is: not begun, past the check, with its task
spawned, or returned. -/
inductive Stage
  | idle
  | passed
  | spawned
  | accepted
  | refused
  deriving DecidableEq, Repr

/-- The calls, the registered workers, each under the call that registered it,
and which tasks have finished. -/
structure State (ι : Type) where
  stage : ι → Stage
  workers : Finset ι
  finished : ι → Bool

/-- `WorkerPool::new`. -/
def new (ι : Type) : State ι := ⟨fun _ => .idle, ∅, fun _ => false⟩

/-- `get_active_count`. -/
def State.getActiveCount (s : State ι) : ℕ := s.workers.card

/-- The critical sections of `execute`, the spawning between them, the end of a
task, and what `shutdown` does to the map. -/
inductive Action (ι : Type)
  | check (c : ι)
  | spawn (c : ι)
  | register (c : ι)
  | finish (c : ι)
  | take
  deriving DecidableEq, Repr

/-- When a step can be taken. -/
def Enabled (s : State ι) : Action ι → Prop
  | .check c => s.stage c = .idle
  | .spawn c => s.stage c = .passed
  | .register c => s.stage c = .spawned
  | .finish c => (s.stage c = .spawned ∨ s.stage c = .accepted) ∧ s.finished c = false
  | .take => True

/-- A step. -/
def act (maxWorkers : ℕ) (s : State ι) : Action ι → State ι
  | .check c =>
    if maxWorkers ≤ s.getActiveCount then { s with stage := update s.stage c .refused }
    else { s with stage := update s.stage c .passed }
  | .spawn c => { s with stage := update s.stage c .spawned }
  | .register c =>
    { s with stage := update s.stage c .accepted, workers := insert c s.workers }
  | .finish c => { s with finished := update s.finished c true }
  | .take => { s with workers := ∅ }

/-- The pool, of some capacity. -/
def pool (ι : Type) [DecidableEq ι] (maxWorkers : ℕ) : Machine (State ι) (Action ι) where
  enabled := Enabled
  effect := act maxWorkers

instance (s : State ι) (a : Action ι) : Decidable (Enabled s a) :=
  match a with
  | .check c => inferInstanceAs (Decidable (s.stage c = .idle))
  | .spawn c => inferInstanceAs (Decidable (s.stage c = .passed))
  | .register c => inferInstanceAs (Decidable (s.stage c = .spawned))
  | .finish c => inferInstanceAs
      (Decidable ((s.stage c = .spawned ∨ s.stage c = .accepted) ∧ s.finished c = false))
  | .take => inferInstanceAs (Decidable True)

instance (maxWorkers : ℕ) (s : State ι) (a : Action ι) :
    Decidable ((pool ι maxWorkers).enabled s a) :=
  inferInstanceAs (Decidable (Enabled s a))

variable {maxWorkers : ℕ} {s : State ι} {a : Action ι} {as : List (Action ι)} {c d : ι}
variable {T : Finset ι}

/-! ## What is asked -/

/-- So many tasks that were accepted are still unfinished. -/
def Busy (maxWorkers : ℕ) (s : State ι) : Prop :=
  ∃ T : Finset ι, maxWorkers ≤ T.card ∧ ∀ c ∈ T, s.stage c = .accepted ∧ s.finished c = false

/-- **A run is bounded**: there are never more workers than the capacity, and a
call is refused only while the pool is busy. -/
structure Bounded (maxWorkers : ℕ) (as : List (Action ι)) : Prop where
  workers : ∀ s, (pool ι maxWorkers).Visits (new ι) as s → s.getActiveCount ≤ maxWorkers
  refusals : ∀ s c, (pool ι maxWorkers).Takes (new ι) as s (.check c) →
    (act maxWorkers s (.check c)).stage c = .refused → Busy maxWorkers s

/-- Past the check, and not registered yet. -/
def State.InFlight (s : State ι) (c : ι) : Prop := s.stage c = .passed ∨ s.stage c = .spawned

/-- A check that passes finds room for all the calls in flight and one more, and
one that does not finds no worker whose task has finished. -/
def Orderly (maxWorkers : ℕ) (s : State ι) (a : Action ι) : Prop :=
  ∀ c, a = .check c →
    (s.getActiveCount < maxWorkers → ∀ T : Finset ι, (∀ d ∈ T, s.InFlight d) →
      s.getActiveCount + T.card < maxWorkers) ∧
    (maxWorkers ≤ s.getActiveCount → ∀ d ∈ s.workers, s.finished d = false)

/-! ## One step -/

/-- There is room for the workers and all calls in flight, and the workers are of
calls that were accepted. -/
structure HasRoom (maxWorkers : ℕ) (s : State ι) : Prop where
  room : ∀ T : Finset ι, (∀ d ∈ T, s.InFlight d) → s.getActiveCount + T.card ≤ maxWorkers
  accepted : ∀ d ∈ s.workers, s.stage d = .accepted

omit [DecidableEq ι] in
theorem hasRoom_new (maxWorkers : ℕ) : HasRoom maxWorkers (new ι) := by
  refine ⟨fun T hT => ?_, fun d hd => (Finset.notMem_empty d hd).elim⟩
  have hempty : T = ∅ := Finset.eq_empty_of_forall_notMem fun d hd => by
    rcases hT d hd with h | h <;> cases h
  rw [hempty]
  exact Nat.zero_le _

/-- A call goes on without being in flight, and the others stay. -/
theorem inFlight_of_update {stage : Stage} (hstage : stage ≠ .passed ∧ stage ≠ .spawned)
    (h : State.InFlight { s with stage := update s.stage c stage } d) : d ≠ c ∧ s.InFlight d := by
  have hne : d ≠ c := by
    rintro rfl
    rcases h with h | h
    · exact hstage.1 ((update_self ..).symm.trans h)
    · exact hstage.2 ((update_self ..).symm.trans h)
  refine ⟨hne, ?_⟩
  unfold State.InFlight at h ⊢
  dsimp only at h
  rwa [update_of_ne hne] at h

/-- A worker is of a call that was accepted before another went on. -/
theorem accepted_update {stage : Stage} (hacc : ∀ d ∈ s.workers, s.stage d = .accepted)
    (hc : s.stage c ≠ .accepted) (hd : d ∈ s.workers) : update s.stage c stage d = .accepted := by
  have hne : d ≠ c := by
    rintro rfl
    exact hc (hacc d hd)
  rw [update_of_ne hne, hacc d hd]

/-- **One step.** -/
theorem HasRoom.act (h : HasRoom maxWorkers s) (ha : Enabled s a) (hok : Orderly maxWorkers s a) :
    HasRoom maxWorkers (act maxWorkers s a) := by
  obtain ⟨hroom, hacc⟩ := h
  cases a with
  | check c =>
    have hidle : s.stage c ≠ .accepted := by
      rw [show s.stage c = .idle from ha]
      decide
    unfold WorkerPool.act
    dsimp only
    split
    · refine ⟨fun T hT => hroom T fun d hd => ?_, fun d hd => accepted_update hacc hidle hd⟩
      exact (inFlight_of_update (by decide) (hT d hd)).2
    · next hfree =>
      refine ⟨fun T hT => ?_, fun d hd => accepted_update hacc hidle hd⟩
      -- the others in flight leave room for one more
      have hothers : ∀ d ∈ T.erase c, s.InFlight d := by
        intro d hd
        obtain ⟨hne, hd⟩ := Finset.mem_erase.1 hd
        have hflight := hT d hd
        unfold State.InFlight at hflight ⊢
        dsimp only at hflight
        rwa [update_of_ne hne] at hflight
      have hlt := (hok c rfl).1 (not_le.1 hfree) _ hothers
      have hcard : T.card - 1 ≤ (T.erase c).card := Finset.pred_card_le_card_erase
      have hcount : s.getActiveCount + T.card ≤ maxWorkers := by omega
      exact hcount
  | spawn c =>
    have hpassed : s.stage c = .passed := ha
    refine ⟨fun T hT => hroom T fun d hd => ?_, fun d hd => ?_⟩
    · by_cases hne : d = c
      · exact Or.inl (hne ▸ hpassed)
      · have hflight := hT d hd
        unfold State.InFlight WorkerPool.act at hflight
        dsimp only at hflight
        rwa [update_of_ne hne] at hflight
    · exact accepted_update hacc (by rw [hpassed]; decide) hd
  | register c =>
    -- the call leaves those in flight as it joins the workers
    have hspawned : s.stage c = .spawned := ha
    refine ⟨fun T hT => ?_, fun d hd => ?_⟩
    · have hother : ∀ d ∈ T, d ≠ c ∧ s.InFlight d := fun d hd =>
        inFlight_of_update ⟨Stage.noConfusion, Stage.noConfusion⟩ (hT d hd)
      have hinsert := hroom (insert c T) fun d hd => by
        rcases Finset.mem_insert.1 hd with rfl | hd
        · exact Or.inr hspawned
        · exact (hother d hd).2
      rw [Finset.card_insert_of_notMem fun hc => (hother c hc).1 rfl] at hinsert
      have hworkers : (insert c s.workers).card ≤ s.getActiveCount + 1 :=
        Finset.card_insert_le c s.workers
      have hcount : (insert c s.workers).card + T.card ≤ maxWorkers := by omega
      exact hcount
    · rcases Finset.mem_insert.1 hd with rfl | hd
      · exact update_self ..
      · exact accepted_update hacc (by rw [hspawned]; decide) hd
  | finish c => exact ⟨hroom, hacc⟩
  | take =>
    refine ⟨fun T hT => ?_, fun d hd => (Finset.notMem_empty d hd).elim⟩
    have hcard := hroom T hT
    have hcount : 0 + T.card ≤ maxWorkers := by omega
    exact hcount

/-! ## Every run -/

/-- **An orderly run is bounded.** -/
theorem bounded_of_orderly
    (h : ∀ s a, (pool ι maxWorkers).Takes (new ι) as s a → Orderly maxWorkers s a) :
    Bounded maxWorkers as := by
  have hall : ∀ s, (pool ι maxWorkers).Visits (new ι) as s → HasRoom maxWorkers s := by
    intro s hs
    refine (hs.reaches h).invariant (hasRoom_new maxWorkers) ?_
    rintro t a - ⟨ha, hok⟩ hroom
    exact hroom.act ha hok
  refine ⟨fun s hs => ?_, fun s c hstep hrefused => ?_⟩
  · have hcount := (hall s hs).room ∅ fun d hd => (Finset.notMem_empty d hd).elim
    rwa [Finset.card_empty, Nat.add_zero] at hcount
  · have hfull : maxWorkers ≤ s.getActiveCount := by
      by_contra hfree
      unfold act at hrefused
      dsimp only at hrefused
      rw [if_neg hfree] at hrefused
      dsimp only at hrefused
      rw [update_self] at hrefused
      cases hrefused
    exact ⟨s.workers, hfull, fun d hd => ⟨(hall s hstep.visits).accepted d hd,
      (h s _ hstep c rfl).2 hfull d hd⟩⟩

/-! ## Calls that pass the check together -/

theorem reaches_act (h : Enabled s a) :
    (pool ι maxWorkers).Reaches s (act maxWorkers s a) :=
  Machine.Reaches.step (M := pool ι maxWorkers) (a := a) Machine.Reaches.refl h

/-- A call in flight comes to register its worker. -/
theorem reaches_register (h : s.InFlight c) :
    ∃ t, (pool ι maxWorkers).Reaches s t ∧ t.workers = insert c s.workers ∧
      t.stage = update s.stage c .accepted := by
  rcases h with hpassed | hspawned
  · have hstage : (act maxWorkers s (.spawn c)).stage c = .spawned := update_self ..
    exact ⟨_, (reaches_act (a := .spawn c) hpassed).trans (reaches_act (a := .register c) hstage),
      rfl, update_idem ..⟩
  · exact ⟨_, reaches_act (a := .register c) hspawned, rfl, rfl⟩

/-- And so do all of them. -/
theorem reaches_registerAll : ∀ {l : List ι} {s : State ι}, l.Nodup → (∀ d ∈ l, s.InFlight d) →
    ∃ t, (pool ι maxWorkers).Reaches s t ∧ t.workers = s.workers ∪ l.toFinset
  | [], s, _, _ => ⟨s, Machine.Reaches.refl, by rw [List.toFinset_nil, Finset.union_empty]⟩
  | d :: l, s, hnodup, hflight => by
    obtain ⟨hd, hnodup⟩ := List.nodup_cons.1 hnodup
    obtain ⟨hfirst, hothers⟩ := List.forall_mem_cons.1 hflight
    obtain ⟨t, ht, hworkers, hstage⟩ := reaches_register hfirst
    have hflight' : ∀ e ∈ l, t.InFlight e := by
      intro e he
      have hne : e ≠ d := fun heq => hd (heq ▸ he)
      unfold State.InFlight
      rw [hstage, update_of_ne hne]
      exact hothers e he
    obtain ⟨u, hu, hall⟩ := reaches_registerAll hnodup hflight'
    refine ⟨u, ht.trans hu, ?_⟩
    rw [hall, hworkers, List.toFinset_cons, Finset.insert_union, Finset.union_insert]

/-- **A check that passes without room** for those in flight lets the pool exceed
its capacity. -/
theorem exceeds_of_crowded (hworkers : ∀ d ∈ s.workers, s.stage d = .accepted)
    (hc : s.stage c = .idle) (hfree : s.getActiveCount < maxWorkers)
    (hT : ∀ d ∈ T, s.InFlight d) (hcrowded : maxWorkers ≤ s.getActiveCount + T.card) :
    ∃ t, (pool ι maxWorkers).Reaches s t ∧ maxWorkers < t.getActiveCount := by
  have hcT : c ∉ T := by
    intro hmem
    rcases hT c hmem with h | h <;> cases hc.symm.trans h
  have hpassed : act maxWorkers s (.check c) = { s with stage := update s.stage c .passed } :=
    if_neg (not_le.2 hfree)
  have hflight : ∀ d ∈ c :: T.toList, (act maxWorkers s (.check c)).InFlight d := by
    intro d hd
    rw [hpassed]
    rcases List.mem_cons.1 hd with rfl | hd
    · exact Or.inl (update_self ..)
    · have hne : d ≠ c := fun heq => hcT (heq ▸ Finset.mem_toList.1 hd)
      unfold State.InFlight
      dsimp only
      rw [update_of_ne hne]
      exact hT d (Finset.mem_toList.1 hd)
  have hnodup : (c :: T.toList).Nodup :=
    List.nodup_cons.2 ⟨fun hmem => hcT (Finset.mem_toList.1 hmem), T.nodup_toList⟩
  obtain ⟨t, ht, hall⟩ := reaches_registerAll hnodup hflight
  refine ⟨t, (reaches_act (a := .check c) hc).trans ht, ?_⟩
  -- no worker is of a call that was in flight
  have hdisjoint : Disjoint s.workers (insert c T) := by
    rw [Finset.disjoint_left]
    intro d hd hmem
    have hacc := hworkers d hd
    rcases Finset.mem_insert.1 hmem with rfl | hmem
    · cases hc.symm.trans hacc
    · rcases hT d hmem with h | h <;> cases h.symm.trans hacc
  have hcount : t.getActiveCount = s.getActiveCount + (T.card + 1) := by
    unfold State.getActiveCount
    rw [hall, List.toFinset_cons, Finset.toList_toFinset, hpassed,
      Finset.card_union_of_disjoint hdisjoint, Finset.card_insert_of_notMem hcT]
  omega

/-! ## Runs of two calls -/

/-- A pool for one worker: both calls pass the check before either registers. -/
def checkedTogether : List (Action Bool) :=
  [.check false, .check true, .spawn false, .spawn true, .register false, .register true]

/-- A pool for one worker: the first task has finished when the second call comes. -/
def finishedBefore : List (Action Bool) :=
  [.check false, .spawn false, .register false, .finish false, .check true]

instance (s : State ι) (c : ι) : Decidable (s.InFlight c) :=
  inferInstanceAs (Decidable (s.stage c = .passed ∨ s.stage c = .spawned))

instance [Fintype ι] (s : State ι) (a : Action ι) : Decidable (Orderly maxWorkers s a) :=
  inferInstanceAs (Decidable (∀ c, a = .check c →
    (s.getActiveCount < maxWorkers → ∀ T : Finset ι, (∀ d ∈ T, s.InFlight d) →
      s.getActiveCount + T.card < maxWorkers) ∧
    (maxWorkers ≤ s.getActiveCount → ∀ d ∈ s.workers, s.finished d = false)))

/-- A second call that comes while the first task is unfinished. -/
theorem bounded_of_orderly_inTurn :
    Bounded 1 ([.check false, .spawn false, .register false, .check true] : List (Action Bool)) :=
  have hall : (pool Bool 1).allSteps (fun s a => decide (Orderly 1 s a)) (new Bool)
      [.check false, .spawn false, .register false, .check true] = true := by decide +kernel
  bounded_of_orderly fun s a h => of_decide_eq_true (Machine.of_allSteps hall s a h)

/-- **The pool is not bounded**: it comes to hold two workers where there may be
one, and it refuses a call when no task is unfinished. -/
theorem not_bounded : ¬ Bounded 1 checkedTogether ∧ ¬ Bounded 1 finishedBefore := by
  constructor
  · intro h
    have hrun : ((pool Bool 1).run (new Bool) checkedTogether).any
        (fun s => decide (1 < s.getActiveCount)) = true := by decide +kernel
    obtain ⟨s, hs, hcount⟩ := (Option.any_eq_true _ _).1 hrun
    have hvisits : (pool Bool 1).Visits (new Bool) checkedTogether s :=
      ⟨checkedTogether, [], (List.append_nil _).symm, hs⟩
    exact (h.workers s hvisits).not_gt (of_decide_eq_true hcount)
  · intro h
    have hrun : ((pool Bool 1).run (new Bool)
        [.check false, .spawn false, .register false, .finish false]).any (fun s => decide
          ((pool Bool 1).enabled s (.check true) ∧
            (act 1 s (.check true)).stage true = .refused ∧
            ∀ c, s.stage c = .accepted → s.finished c = true)) = true := by decide +kernel
    obtain ⟨s, hs, hfacts⟩ := (Option.any_eq_true _ _).1 hrun
    obtain ⟨henabled, hrefused, hfinished⟩ := of_decide_eq_true hfacts
    obtain ⟨T, hcard, hT⟩ := h.refusals s true ⟨_, [], rfl, hs, henabled⟩ hrefused
    obtain ⟨c, hc⟩ := Finset.card_pos.1 (Nat.lt_of_lt_of_le Nat.zero_lt_one hcard)
    exact Bool.false_ne_true ((hT c hc).2.symm.trans (hfinished c (hT c hc).1))

end WorkerPool

end SubxCore
