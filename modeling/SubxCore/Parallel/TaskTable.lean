import SubxCore.Parallel.TaskStatus
/-!
# The table of active tasks

What `get_task_status` and `list_active_tasks` say of a task while calls, loops and
executions go on. A task has an entry from its registration until its call takes it
out, unless it is evicted, when the call that evicts it takes it out (`lists_effect`,
`cleared_effect`). So the table is that of what goes on (`task_table`), whatever
interleaves, except for what a batch that is cancelled or turned away leaves in it.
-/

namespace SubxCore

namespace Scheduler

open Function PendingTask

variable {ι : Type} [DecidableEq ι] {config : ParallelConfig} {submissions : ι → Submission}
variable {s : State ι} {a : Action ι} {t : Token ι} {task : BoxedTask} {c : ι} {i j k : ℕ}
variable {p : PendingTask (Token ι)} {call : Call} {submission : Submission} {id : Text}

/-! ## Which entries there are -/

/-- At this stage a call has registered its task and not yet taken its entry out. -/
def Stage.Lists (receivers : List ℕ) (i : ℕ) : Stage → Prop
  | .register j => i < j
  | .check j | .poll j | .evict j | .clear j _ | .enqueue j => i ≤ j
  | .await k | .cleanup k => i ∉ receivers.take k
  | .ensure | .spawn | .store _ | .dropGuard _ => True
  | .idle | .returned _ | .cancelled => False

/-- A batch that has returned or been cancelled looks after its entries no more. -/
def Submission.Leaves : Submission → Stage → Prop
  | .batch _, .returned _ | .batch _, .cancelled => True
  | _, _ => False

/-- The task has been evicted, and its entry taken out by the call that did that. -/
def State.Cleared (t : Token ι) (task : BoxedTask) (s : State ι) : Prop :=
  .evicted t ∈ s.log ∧ ∀ c i, (s.calls c).stage ≠ .clear i task.taskId

/-- The action registers the task. -/
def Action.Registers (t : Token ι) : Action ι → Prop
  | .register c i _ => (c, i) = t
  | _ => False

/-- The call of the task takes its entry out. -/
def Action.Closes (submissions : ι → Submission) (t : Token ι) : Action ι → Prop
  | .cleanup c _ i _ => (c, i) = t
  | .dropGuard c _ | .cancel c => c = t.1 ∧ ∃ task priority, submissions c = .single task priority
  | _ => False

/-- A call that has evicted the task takes its entry out. -/
def Action.Clears (task : BoxedTask) : Action ι → Prop
  | .clear _ _ evicted => evicted = task.taskId
  | _ => False

omit [DecidableEq ι] in
/-- The task of a single call. -/
theorem IsTask.of_single {priority : TaskPriority} {task' : BoxedTask}
    (ht : IsTask submissions t task) (hsubmission : submissions t.1 = .single task' priority) :
    t.2 = 0 ∧ task = task' := by
  have hget : [task'][t.2]? = some task := by
    rw [IsTask, hsubmission] at ht
    exact ht
  rw [List.getElem?_singleton] at hget
  split at hget
  · next hzero => exact ⟨hzero, (Option.some.inj hget).symm⟩
  · cases hget

/-- **Which entries an action leaves.** -/
theorem mem_taskIds_effect (hids : UniqueIds submissions) (ht : IsTask submissions t task)
    (ha : enabled config submissions s a) :
    task.taskId ∈ ((scheduler config submissions).effect s a).active.taskIds ↔
      (task.taskId ∈ s.active.taskIds ∨ a.Registers t) ∧
        ¬ a.Closes submissions t ∧ ¬ a.Clears task := by
  have hsame : ∀ {c i task'}, IsTask submissions (c, i) task' →
      (task'.taskId = task.taskId ↔ (c, i) = t) := by
    intro c i task' ht'
    refine ⟨hids.eq ht ht', fun heq => ?_⟩
    subst heq
    rw [Option.some.inj (ht'.symm.trans ht)]
  cases a with
  | register c i task' =>
    rw [show ((scheduler config submissions).effect s (.register c i task')).active = _ from rfl]
    simp only [scheduler, act, ActiveTasks.mem_taskIds_insert, Action.Registers, Action.Closes,
      Action.Clears, not_false_eq_true, and_true]
    rw [← hsame ha.2, or_comm, eq_comm]
  | cleanup c k i task' =>
    simp only [scheduler, act, ActiveTasks.mem_taskIds_remove, Action.Registers, Action.Closes,
      Action.Clears, not_false_eq_true, and_true, or_false]
    rw [← hsame ha.2.2, ne_comm]
  | clear c i evicted =>
    simp only [scheduler, act, ActiveTasks.mem_taskIds_remove, Action.Registers, Action.Closes,
      Action.Clears, not_false_eq_true, true_and, or_false]
    rw [ne_comm]
  | dropGuard c | cancel c =>
    simp only [scheduler, act, Action.Registers, Action.Closes, Action.Clears, not_false_eq_true,
      and_true, or_false]
    cases hsubmission : submissions c with
    | batch tasks => simp [Submission.dropGuard]
    | single task' priority =>
      have ht' : IsTask submissions (c, 0) task' := by rw [IsTask, hsubmission]; rfl
      rw [Submission.dropGuard, ActiveTasks.mem_taskIds_remove, ne_comm, ne_eq, hsame ht']
      refine and_congr_right fun _ => not_congr ⟨fun heq => ?_, fun hcloses => ?_⟩
      · exact ⟨congrArg Prod.fst heq, task', priority, rfl⟩
      · obtain ⟨hc, -⟩ := hcloses
        subst hc
        rw [← (ht.of_single hsubmission).1]
  | start l | report k =>
    simp [scheduler, act, Action.Registers, Action.Closes, Action.Clears]
  | _ =>
    simp [scheduler, act, Action.Registers, Action.Closes, Action.Clears]

/-! ## Evicted entries -/

theorem nextTask_ne_clear : nextTask submission i ≠ .clear j id := by
  unfold nextTask
  split <;> nofun

theorem nextReceiver_ne_clear : nextReceiver call k ≠ .clear j id := by
  unfold nextReceiver
  split <;> nofun

theorem overflow_ne_clear {strategy : OverflowStrategy} :
    overflow strategy submission i ≠ .clear j id := by
  cases strategy with
  | block | dropOldest | expand => nofun
  | reject => cases submission <;> nofun
  | drop =>
    cases submission with
    | single task priority => nofun
    | batch tasks => exact nextTask_ne_clear

theorem receive_ne_clear {result : Option TaskResult} :
    (call.receive submission k result).stage ≠ .clear j id := by
  cases submission <;> nofun

/-- A call comes to take an entry out by evicting its task only, and then does it. -/
theorem clear_of_effect (h : (((scheduler config submissions).effect s a).calls c).stage =
    .clear j id) :
    (s.calls c).stage = .clear j id ∧ a.caller ≠ some c ∨
      ∃ p rest, a = .evict c j p rest ∧ p.taskId = id := by
  by_cases hc : a.caller = some c
  swap
  · rw [calls_effect_of_ne hc] at h
    exact .inl ⟨h, hc⟩
  cases a with
  | evict c i p rest =>
    cases hc
    simp only [scheduler, act, State.goTo, update_self, Stage.clear.injEq] at h
    exact .inr ⟨p, rest, by rw [h.1], h.2⟩
  | begin c =>
    cases hc
    simp only [scheduler, act, State.goTo, update_self] at h
    exact absurd h nextTask_ne_clear
  | isFull c =>
    cases hc
    simp only [scheduler, act, State.goTo, update_self] at h
    exact absurd h overflow_ne_clear
  | enqueue c =>
    cases hc
    simp only [scheduler, act, update_self] at h
    exact absurd h nextTask_ne_clear
  | ensure c =>
    cases hc
    simp only [scheduler, act, State.goTo, update_self] at h
    split at h
    · cases h
    · exact absurd h nextReceiver_ne_clear
  | store c | cleanup c =>
    cases hc
    simp only [scheduler, act, State.goTo, update_self] at h
    exact absurd h nextReceiver_ne_clear
  | receive c =>
    cases hc
    simp only [scheduler, act, update_self] at h
    exact absurd h receive_ne_clear
  | register c | hasRoom c | poll c | evictNone c | clear c | spawn c | dropGuard c | cancel c =>
    cases hc
    simp only [scheduler, act, State.goTo, update_self] at h
    cases h
  | _ => cases hc

/-- What the call does not do is to evict its own way out of taking an entry out. -/
theorem clear_effect (h : (s.calls c).stage = .clear j id) (hc : a.caller ≠ some c) :
    (((scheduler config submissions).effect s a).calls c).stage = .clear j id := by
  rwa [calls_effect_of_ne hc]

/-- The entry of an evicted task is taken out by one call, the one that evicted it. -/
structure Clearing (t : Token ι) (task : BoxedTask) (s : State ι) : Prop where
  evicted : ∀ c i, (s.calls c).stage = .clear i task.taskId → .evicted t ∈ s.log
  one : ∀ c i c' i', (s.calls c).stage = .clear i task.taskId →
    (s.calls c').stage = .clear i' task.taskId → c = c'

theorem evicted_of_evict {rest : List (PendingTask (Token ι))} (hids : UniqueIds submissions)
    (ht : IsTask submissions t task) (hs : Reachable config submissions s)
    (ha : enabled config submissions s (.evict c i p rest)) (hid : p.taskId = task.taskId) :
    p.resultSender = t ∧ .evicted t ∉ s.log := by
  have hqueued : p ∈ s.queue := ha.2 ▸ List.mem_cons_self
  have hsender : p.resultSender = t :=
    not_not.1 fun hsender => (hs.genuine.queue p hqueued).taskId_ne hids ht hsender hid
  exact ⟨hsender, List.count_eq_zero.1 (not_started_of_queued hs hqueued hsender).2⟩

theorem Clearing.effect (h : Clearing t task s) (hids : UniqueIds submissions)
    (ht : IsTask submissions t task) (hs : Reachable config submissions s)
    (ha : enabled config submissions s a) :
    Clearing t task ((scheduler config submissions).effect s a) := by
  constructor
  · intro c i hclear
    rcases clear_of_effect hclear with ⟨hclear, -⟩ | ⟨p, rest, rfl, hid⟩
    · exact List.mem_append_left _ (h.evicted c i hclear)
    · obtain ⟨rfl, -⟩ := evicted_of_evict hids ht hs ha hid
      exact List.mem_append_right _ List.mem_cons_self
  · intro c i c' i' hclear hclear'
    rcases clear_of_effect hclear with ⟨hold, -⟩ | ⟨p, rest, rfl, hid⟩
    · rcases clear_of_effect hclear' with ⟨hold', -⟩ | ⟨p', rest', rfl, hid'⟩
      · exact h.one c i c' i' hold hold'
      · exact absurd (h.evicted c i hold) (evicted_of_evict hids ht hs ha hid').2
    · rcases clear_of_effect hclear' with ⟨hold', -⟩ | ⟨p', rest', heq, -⟩
      · exact absurd (h.evicted c' i' hold') (evicted_of_evict hids ht hs ha hid).2
      · cases heq
        rfl

theorem Reachable.clearing (hs : Reachable config submissions s) (hids : UniqueIds submissions)
    (ht : IsTask submissions t task) : Clearing t task s :=
  hs.invariant ⟨nofun, nofun⟩ fun _ _ hs ha h => h.effect hids ht hs ha

/-- **An evicted task is cleared by the call that clears it**, and stays so. -/
theorem cleared_effect (hids : UniqueIds submissions) (ht : IsTask submissions t task)
    (hs : Reachable config submissions s) (ha : enabled config submissions s a) :
    ((scheduler config submissions).effect s a).Cleared t task ↔
      s.Cleared t task ∨ a.Clears task := by
  have hclearing := hs.clearing hids ht
  constructor
  · rintro ⟨hevicted, hnone⟩
    by_cases hclears : a.Clears task
    · exact .inr hclears
    refine .inl ⟨?_, fun c i hclear => ?_⟩
    · rcases List.mem_append.1 hevicted with hevicted | hevicted
      · exact hevicted
      · -- the call that evicts it now is about to clear it
        cases a with
        | evict c i p rest =>
          simp only [Action.events, List.mem_cons, Event.evicted.injEq, reduceCtorEq,
            List.not_mem_nil, or_false] at hevicted
          have hqueued : p ∈ s.queue := ha.2 ▸ List.mem_cons_self
          have hid := (hs.genuine.queue p hqueued).taskId_eq ht hevicted.symm
          refine absurd ?_ (hnone c i)
          simp only [scheduler, act, State.goTo, update_self, hid]
        | _ => exact absurd hevicted (List.count_eq_zero.1 rfl)
    · by_cases hc : a.caller = some c
      · cases a with
        | clear c' i' evicted =>
          cases hc
          have hstage : (s.calls c).stage = .clear i' evicted := ha
          rw [hclear] at hstage
          cases hstage
          exact hclears rfl
        | begin c' | ensure c' | spawn c' | store c' | dropGuard c' =>
          cases hc
          have hstage : (s.calls c).stage = _ := ha
          rw [hclear] at hstage
          cases hstage
        | cancel c' =>
          cases hc
          have hwaiting : (s.calls c).stage.IsWaiting := ha
          rw [hclear] at hwaiting
          exact hwaiting
        | register c' | hasRoom c' | isFull c' | poll c' | evict c' | evictNone c' | enqueue c'
        | receive c' | cleanup c' =>
          cases hc
          have hstage := ha.1
          rw [hclear] at hstage
          cases hstage
        | _ => cases hc
      · exact hnone c i (clear_effect hclear hc)
  · rintro (⟨hevicted, hnone⟩ | hclears)
    · refine ⟨List.mem_append_left _ hevicted, fun c i hclear => ?_⟩
      rcases clear_of_effect hclear with ⟨hclear, -⟩ | ⟨p, rest, rfl, hid⟩
      · exact hnone c i hclear
      · exact (evicted_of_evict hids ht hs ha hid).2 hevicted
    · cases a with
      | clear c i evicted =>
        have hstage : (s.calls c).stage = .clear i evicted := ha
        rw [show evicted = task.taskId from hclears] at hstage
        refine ⟨List.mem_append_left _ (hclearing.evicted c i hstage), fun c' i' hclear => ?_⟩
        rcases clear_of_effect hclear with ⟨hclear, hne⟩ | ⟨p, rest, heq, -⟩
        · exact hne (congrArg some (hclearing.one c i c' i' hstage hclear))
        · cases heq
      | _ => exact hclears.elim

/-! ## What a call still has in the table -/

/-- A single call waits for its one receiver, and has no more to clean up. -/
def Stage.Suits : Submission → List ℕ → Stage → Prop
  | .single _ _, receivers, .ensure | .single _ _, receivers, .spawn
  | .single _ _, receivers, .store _ => receivers = [0]
  | .single _ _, receivers, .await k => receivers = [0] ∧ k = 0
  | .single _ _, _, .cleanup _ => False
  | _, _, _ => True

theorem suits_nextTask {receivers : List ℕ}
    (h : ∀ task priority, submission = .single task priority → i ≠ 0 → receivers = [0]) :
    (nextTask submission i).Suits submission receivers := by
  unfold nextTask
  cases submission with
  | batch tasks => split <;> trivial
  | single task priority =>
    split
    · trivial
    · next hlt => exact h task priority rfl fun hi => hlt (hi ▸ Nat.one_pos)

theorem suits_nextReceiver (h : ∀ task priority, submission = .single task priority →
    call.receivers = [0] ∧ k = 0) : (nextReceiver call k).Suits submission call.receivers := by
  unfold nextReceiver
  cases submission with
  | batch tasks => split <;> trivial
  | single task priority =>
    split
    · exact h task priority rfl
    · trivial

theorem suits_overflow {strategy : OverflowStrategy} {receivers : List ℕ} :
    (overflow strategy submission i).Suits submission receivers := by
  cases strategy with
  | block | dropOldest | expand => cases submission <;> trivial
  | reject => cases submission <;> trivial
  | drop =>
    cases submission with
    | single task priority => trivial
    | batch tasks => exact suits_nextTask nofun

/-- The call is at a stage that suits it. -/
def AtStage (submissions : ι → Submission) (c : ι) (s : State ι) : Prop :=
  (s.calls c).stage.Suits (submissions c) (s.calls c).receivers

theorem AtStage.effect (h : AtStage submissions c s) (hs : Reachable config submissions s)
    (ha : enabled config submissions s a) :
    AtStage submissions c ((scheduler config submissions).effect s a) := by
  unfold AtStage at h ⊢
  by_cases hc : a.caller = some c
  swap
  · rwa [calls_effect_of_ne hc]
  cases a with
  | begin c =>
    cases hc
    simp only [scheduler, act, State.goTo, update_self]
    exact suits_nextTask fun _ _ _ hne => absurd rfl hne
  | isFull c =>
    cases hc
    simp only [scheduler, act, State.goTo, update_self]
    exact suits_overflow
  | enqueue c i task =>
    cases hc
    simp only [scheduler, act, update_self]
    refine suits_nextTask fun task' priority hsubmission _ => ?_
    -- the one task of the call, whose receiver is the first
    have hprogress : (s.calls c).Accords (submissions c) (keptBefore config s.log c) :=
      hs.progress c
    rw [Call.Accords, ha.1] at hprogress
    obtain ⟨hi, hreceivers, -⟩ := hprogress
    obtain rfl : i = 0 := (IsTask.of_single (t := (c, i)) ha.2 hsubmission).1
    rw [hreceivers]
    rfl
  | ensure c =>
    cases hc
    rw [show (s.calls c).stage = _ from ha] at h
    simp only [scheduler, act, State.goTo, update_self]
    split
    · cases hsubmission : submissions c <;> rw [hsubmission] at h <;> exact h
    · refine suits_nextReceiver fun task priority hsubmission => ?_
      rw [hsubmission] at h
      exact ⟨h, rfl⟩
  | spawn c =>
    cases hc
    rw [show (s.calls c).stage = _ from ha] at h
    simp only [scheduler, act, State.goTo, update_self]
    cases hsubmission : submissions c <;> rw [hsubmission] at h <;> exact h
  | store c =>
    cases hc
    rw [show (s.calls c).stage = _ from ha] at h
    simp only [scheduler, act, State.goTo, update_self]
    refine suits_nextReceiver fun task priority hsubmission => ?_
    rw [hsubmission] at h
    exact ⟨h, rfl⟩
  | receive c k i result =>
    cases hc
    simp only [scheduler, act, update_self]
    cases hsubmission : submissions c <;> trivial
  | cleanup c k i task =>
    cases hc
    rw [ha.1] at h
    simp only [scheduler, act, State.goTo, update_self]
    refine suits_nextReceiver fun task priority hsubmission => ?_
    rw [hsubmission] at h
    exact h.elim
  | register c | hasRoom c | poll c | evict c | evictNone c | clear c | dropGuard c | cancel c =>
    cases hc
    simp only [scheduler, act, State.goTo, update_self]
    cases hsubmission : submissions c <;> trivial
  | _ => cases hc

theorem Reachable.atStage (hs : Reachable config submissions s) (c : ι) :
    AtStage submissions c s := by
  refine hs.invariant ?_ fun _ _ hs ha h => h.effect hs ha
  unfold AtStage
  cases hsubmission : submissions c <;> trivial

theorem lists_nextTask {receivers : List ℕ} (hj : j < submission.tasks.length) :
    (nextTask submission i).Lists receivers j ↔ j < i := by
  unfold nextTask
  split
  · exact Iff.rfl
  · next hlt => exact iff_of_true trivial (lt_of_lt_of_le hj (not_lt.1 hlt))

theorem lists_nextReceiver (hleaves : ¬ submission.Leaves (nextReceiver call k))
    (hreceivers : ∀ task priority, submission = .single task priority → k < call.receivers.length) :
    (nextReceiver call k).Lists call.receivers j ↔ j ∉ call.receivers.take k := by
  unfold nextReceiver at hleaves ⊢
  split
  · exact Iff.rfl
  · next hlt =>
    rw [if_neg hlt] at hleaves
    cases submission with
    | single task priority => exact absurd (hreceivers task priority rfl) hlt
    | batch tasks => exact absurd trivial hleaves

/-- What a task that meets a full queue leaves in the table. -/
theorem lists_overflow {strategy : OverflowStrategy} {receivers : List ℕ}
    (hleaves : ¬ submission.Leaves (overflow strategy submission i))
    (hj : j < submission.tasks.length) :
    (overflow strategy submission i).Lists receivers j ↔ j ≤ i := by
  have hsingle : ∀ task priority, submission = .single task priority → j ≤ i := by
    rintro task priority rfl
    exact Nat.le_of_lt_succ (lt_of_lt_of_le hj (Nat.succ_le_succ (Nat.zero_le i)))
  cases strategy with
  | block | dropOldest | expand => exact Iff.rfl
  | reject =>
    cases submission with
    | single task priority => exact iff_of_true trivial (hsingle task priority rfl)
    | batch tasks => exact absurd trivial hleaves
  | drop =>
    cases submission with
    | single task priority => exact iff_of_true trivial (hsingle task priority rfl)
    | batch tasks => exact (lists_nextTask hj).trans Nat.lt_succ_iff

/-- After an action a call lists what it did before and what the action registers, but not
what the action closes. -/
def ListsStep (config : ParallelConfig) (submissions : ι → Submission) (s : State ι) (t : Token ι)
    (a : Action ι) : Prop :=
  (((scheduler config submissions).effect s a).calls t.1).stage.Lists
      (((scheduler config submissions).effect s a).calls t.1).receivers t.2 ↔
    ((s.calls t.1).stage.Lists (s.calls t.1).receivers t.2 ∨ a.Registers t) ∧
      ¬ a.Closes submissions t

section Steps

/-- Another's action is none of the call's. -/
theorem lists_of_ne (hc : a.caller ≠ some t.1) : ListsStep config submissions s t a := by
  obtain ⟨c, j⟩ := t
  have hregisters : ¬ a.Registers (c, j) := by
    cases a with
    | register c' => exact fun heq => hc (congrArg some (congrArg Prod.fst heq))
    | _ => exact id
  have hcloses : ¬ a.Closes submissions (c, j) := by
    cases a with
    | cleanup c' => exact fun heq => hc (congrArg some (congrArg Prod.fst heq))
    | dropGuard c' | cancel c' => exact fun heq => hc (congrArg some heq.1)
    | _ => exact id
  rw [ListsStep, calls_effect_of_ne hc, or_iff_left hregisters, and_iff_left hcloses]

variable (hj : j < (submissions c).tasks.length) (hstage : AtStage submissions c s)

include hj

theorem lists_begin (ha : enabled config submissions s (.begin c)) :
    ListsStep config submissions s (c, j) (.begin c) := by
  rw [ListsStep, show (s.calls c).stage = _ from ha]
  simp only [scheduler, act, State.goTo, update_self, lists_nextTask hj]
  simp [Stage.Lists, Action.Registers]

theorem lists_isFull (ha : enabled config submissions s (.isFull c i))
    (hleaves : ¬ (submissions c).Leaves
      (((scheduler config submissions).effect s (.isFull c i)).calls c).stage) :
    ListsStep config submissions s (c, j) (.isFull c i) := by
  rw [ListsStep, ha.1]
  simp only [scheduler, act, State.goTo, update_self] at hleaves ⊢
  rw [lists_overflow hleaves hj]
  simp [Stage.Lists, Action.Registers, Action.Closes]

theorem lists_enqueue (ha : enabled config submissions s (.enqueue c i task)) :
    ListsStep config submissions s (c, j) (.enqueue c i task) := by
  rw [ListsStep, ha.1]
  simp only [scheduler, act, update_self, lists_nextTask hj, Nat.lt_succ_iff]
  simp [Stage.Lists, Action.Registers, Action.Closes]

omit hj

theorem lists_register (ha : enabled config submissions s (.register c i task)) :
    ListsStep config submissions s (c, j) (.register c i task) := by
  rw [ListsStep, ha.1]
  simp only [scheduler, act, State.goTo, update_self, Stage.Lists, Action.Registers,
    Action.Closes, not_false_eq_true, and_true, Prod.mk.injEq, true_and]
  rw [le_iff_lt_or_eq, @eq_comm _ j i]

include hstage

theorem lists_ensure (ha : enabled config submissions s (.ensure c))
    (hleaves : ¬ (submissions c).Leaves
      (((scheduler config submissions).effect s (.ensure c)).calls c).stage) :
    ListsStep config submissions s (c, j) (.ensure c) := by
  unfold AtStage at hstage
  rw [show (s.calls c).stage = _ from ha] at hstage
  rw [ListsStep, show (s.calls c).stage = _ from ha]
  simp only [scheduler, act, State.goTo, update_self] at hleaves ⊢
  split at hleaves
  · next hrestart =>
    rw [if_pos hrestart]
    simp [Stage.Lists, Action.Registers, Action.Closes]
  · next hrestart =>
    rw [if_neg hrestart, lists_nextReceiver hleaves fun task priority hsubmission => ?_]
    · simp [Stage.Lists, Action.Registers, Action.Closes]
    · rw [hsubmission] at hstage
      rw [show (s.calls c).receivers = [0] from hstage]
      exact Nat.one_pos

theorem lists_store (ha : enabled config submissions s (.store c k))
    (hleaves : ¬ (submissions c).Leaves
      (((scheduler config submissions).effect s (.store c k)).calls c).stage) :
    ListsStep config submissions s (c, j) (.store c k) := by
  unfold AtStage at hstage
  rw [show (s.calls c).stage = _ from ha] at hstage
  rw [ListsStep, show (s.calls c).stage = _ from ha]
  simp only [scheduler, act, State.goTo, update_self] at hleaves ⊢
  rw [lists_nextReceiver hleaves fun task priority hsubmission => ?_]
  · simp [Stage.Lists, Action.Registers, Action.Closes]
  · rw [hsubmission] at hstage
    rw [show (s.calls c).receivers = [0] from hstage]
    exact Nat.one_pos

theorem lists_receive {result : Option TaskResult}
    (ha : enabled config submissions s (.receive c k i result)) :
    ListsStep config submissions s (c, j) (.receive c k i result) := by
  unfold AtStage at hstage
  rw [ha.1] at hstage
  rw [ListsStep, ha.1]
  simp only [scheduler, act, update_self]
  cases hsubmission : submissions c with
  | batch tasks => simp [Call.receive, Stage.Lists, Action.Registers, Action.Closes]
  | single task' priority =>
    rw [hsubmission] at hstage
    simp [Call.receive, Stage.Lists, Action.Registers, Action.Closes, hstage.2]

theorem lists_cleanup (ha : enabled config submissions s (.cleanup c k i task))
    (hleaves : ¬ (submissions c).Leaves
      (((scheduler config submissions).effect s (.cleanup c k i task)).calls c).stage) :
    ListsStep config submissions s (c, j) (.cleanup c k i task) := by
  unfold AtStage at hstage
  rw [ha.1] at hstage
  rw [ListsStep, ha.1]
  simp only [scheduler, act, State.goTo, update_self] at hleaves ⊢
  rw [lists_nextReceiver hleaves fun task priority hsubmission => ?_, List.take_add_one, ha.2.1]
  · simp [Stage.Lists, Action.Registers, Action.Closes, eq_comm]
  · rw [hsubmission] at hstage
    exact hstage.elim

end Steps

/-- **What an action does to what a call still has in the table.** -/
theorem lists_effect (ht : IsTask submissions t task) (hs : Reachable config submissions s)
    (ha : enabled config submissions s a)
    (hleaves : ¬ (submissions t.1).Leaves
      (((scheduler config submissions).effect s a).calls t.1).stage) :
    (((scheduler config submissions).effect s a).calls t.1).stage.Lists
        (((scheduler config submissions).effect s a).calls t.1).receivers t.2 ↔
      ((s.calls t.1).stage.Lists (s.calls t.1).receivers t.2 ∨ a.Registers t) ∧
        ¬ a.Closes submissions t := by
  by_cases hc : a.caller = some t.1
  swap
  · exact lists_of_ne hc
  obtain ⟨c, j⟩ := t
  have hj : j < (submissions c).tasks.length := (List.getElem?_eq_some_iff.1 ht).1
  have hstage := hs.atStage c
  dsimp only at hleaves ⊢
  cases a with
  | begin c =>
    cases hc
    exact lists_begin hj ha
  | register c =>
    cases hc
    exact lists_register ha
  | isFull c =>
    cases hc
    exact lists_isFull hj ha hleaves
  | enqueue c =>
    cases hc
    exact lists_enqueue hj ha
  | ensure c =>
    cases hc
    exact lists_ensure hstage ha hleaves
  | store c =>
    cases hc
    exact lists_store hstage ha hleaves
  | receive c =>
    cases hc
    exact lists_receive hstage ha
  | cleanup c =>
    cases hc
    exact lists_cleanup hstage ha hleaves
  -- none of these changes what is listed
  | hasRoom c | poll c | evict c | evictNone c =>
    cases hc
    rw [ha.1]
    simp [scheduler, act, Stage.Lists, Action.Registers, Action.Closes]
  | clear c | spawn c =>
    cases hc
    rw [show (s.calls c).stage = _ from ha]
    simp [scheduler, act, Stage.Lists, Action.Registers, Action.Closes]
  -- a call that is given up lists nothing any more
  | dropGuard c | cancel c =>
    cases hc
    simp only [scheduler, act, State.goTo, update_self] at hleaves ⊢
    cases hsubmission : submissions c with
    | single task' priority => simp [Stage.Lists, Action.Closes, hsubmission]
    | batch tasks =>
      rw [hsubmission] at hleaves
      exact absurd trivial hleaves
  | _ => cases hc

/-! ## The table -/

theorem ActiveTasks.nodup_remove {active : ActiveTasks} (h : active.taskIds.Nodup) :
    (active.remove id).taskIds.Nodup := by
  have hsub : (active.remove id).Sublist active := List.filter_sublist
  exact h.sublist (hsub.map TaskInfo.taskId)

theorem ActiveTasks.nodup_insert {active : ActiveTasks} {info : TaskInfo}
    (h : active.taskIds.Nodup) : (active.insert info).taskIds.Nodup :=
  List.nodup_cons.2
    ⟨fun hmem => (ActiveTasks.mem_taskIds_remove.1 hmem).2 rfl, ActiveTasks.nodup_remove h⟩

/-- A task has one entry at most. -/
theorem Reachable.nodup_taskIds (hs : Reachable config submissions s) :
    s.active.taskIds.Nodup := by
  refine hs.invariant (P := fun s => s.active.taskIds.Nodup) List.nodup_nil fun s a _ _ h => ?_
  cases a with
  | register c => exact ActiveTasks.nodup_insert h
  | clear c | cleanup c => exact ActiveTasks.nodup_remove h
  | dropGuard c | cancel c =>
    simp only [scheduler, act]
    cases submissions c with
    | single task priority => exact ActiveTasks.nodup_remove h
    | batch tasks => exact h
  | start l | report k =>
    simp only [scheduler, act, ActiveTasks.taskIds_setStatus]
    exact h
  | _ => exact h

/-- And it is the entry of a task that has been submitted. -/
theorem Reachable.exists_isTask (hs : Reachable config submissions s) :
    ∀ id ∈ s.active.taskIds, ∃ t task, IsTask submissions t task ∧ id = task.taskId := by
  refine hs.invariant (P := fun s => ∀ id ∈ s.active.taskIds, ∃ t task,
    IsTask submissions t task ∧ id = task.taskId) (fun _ hid => absurd hid List.not_mem_nil)
    fun s a _ ha h id hid => ?_
  rcases mem_taskIds_of_effect hid with hid | ⟨c, i, task, rfl, rfl⟩
  · exact h id hid
  · exact ⟨(c, i), task, ha.2, rfl⟩

/-- The task has been registered, its call has not taken its entry out, and it has not
been evicted and cleared. -/
def State.Tracks (t : Token ι) (task : BoxedTask) (s : State ι) : Prop :=
  (s.calls t.1).stage.Lists (s.calls t.1).receivers t.2 ∧ ¬ s.Cleared t task

/-- **Which tasks have an entry.** -/
theorem Reachable.mem_taskIds_iff (hs : Reachable config submissions s)
    (hids : UniqueIds submissions) (ht : IsTask submissions t task) :
    ¬ (submissions t.1).Leaves (s.calls t.1).stage →
      (task.taskId ∈ s.active.taskIds ↔ s.Tracks t task) := by
  refine hs.invariant (P := fun s => ¬ (submissions t.1).Leaves (s.calls t.1).stage →
    (task.taskId ∈ s.active.taskIds ↔ s.Tracks t task)) (fun _ => ?_) fun s a hs ha h hleaves => ?_
  · exact iff_of_false List.not_mem_nil fun htracks => htracks.1
  -- a call that looks after its entries now has done so before
  have hleaves' : ¬ (submissions t.1).Leaves (s.calls t.1).stage := by
    intro hleft
    by_cases hc : a.caller = some t.1
    · have hover : ∀ stage : Stage, (submissions t.1).Leaves stage →
          (∃ reply, stage = .returned reply) ∨ stage = .cancelled := by
        intro stage hstage
        unfold Submission.Leaves at hstage
        split at hstage
        · exact .inl ⟨_, rfl⟩
        · exact .inr rfl
        · exact hstage.elim
      have hat := hover _ hleft
      cases a with
      | begin c' | clear c' | ensure c' | spawn c' | store c' | dropGuard c' =>
        cases hc
        rw [show (s.calls t.1).stage = _ from ha] at hat
        rcases hat with ⟨_, heq⟩ | heq <;> cases heq
      | cancel c' =>
        cases hc
        have hwaiting : (s.calls t.1).stage.IsWaiting := ha
        rcases hat with ⟨_, heq⟩ | heq <;> rw [heq] at hwaiting <;> exact hwaiting
      | register c' | hasRoom c' | isFull c' | poll c' | evict c' | evictNone c' | enqueue c'
      | receive c' | cleanup c' =>
        cases hc
        rw [ha.1] at hat
        rcases hat with ⟨_, heq⟩ | heq <;> cases heq
      | _ => cases hc
    · rw [calls_effect_of_ne hc] at hleaves
      exact hleaves hleft
  have hregisters : a.Registers t → ¬ s.Cleared t task := by
    intro hregisters hcleared
    cases a with
    | register c i task' =>
      obtain rfl : (c, i) = t := hregisters
      have hahead : (s.calls c).stage.Ahead i := by
        rw [ha.1]
        exact le_refl i
      have hqueued := (hs.tally (c, i)).queued
      have hzero := (hs.enqueuedOnce (c, i)).2 hahead
      have hevicted := List.count_pos_iff.2 hcleared.1
      omega
    | _ => exact hregisters.elim
  rw [mem_taskIds_effect hids ht ha, State.Tracks, lists_effect ht hs ha hleaves,
    cleared_effect hids ht hs ha, h hleaves', State.Tracks]
  constructor
  · rintro ⟨⟨hlists, hcleared⟩ | hregister, hcloses, hclears⟩
    · exact ⟨⟨.inl hlists, hcloses⟩, fun h => h.elim hcleared hclears⟩
    · exact ⟨⟨.inr hregister, hcloses⟩, fun h => h.elim (hregisters hregister) hclears⟩
  · rintro ⟨⟨hlists | hregister, hcloses⟩, hnot⟩
    · exact ⟨.inl ⟨hlists, fun h => hnot (.inl h)⟩, hcloses, fun h => hnot (.inr h)⟩
    · exact ⟨.inr hregister, hcloses, fun h => hnot (.inr h)⟩

/-- **The table says what goes on.** In every interleaving of the calls, the loops and
the executions, `list_active_tasks` has one entry at most for a task, each entry has
the type of its task and says what the task has come to so far, and, unless it is one of a
batch that has returned or was cancelled, `get_task_status` finds a task exactly from when
it is registered until its call has its result, or until it is evicted. -/
theorem task_table (hs : Reachable config submissions s) (hids : UniqueIds submissions) :
    s.active.taskIds.Nodup ∧
    (∀ info ∈ s.active, ∃ t task, IsTask submissions t task ∧
      info = ⟨task.taskId, task.taskType, s.statusOf t⟩) ∧
    ∀ t task, IsTask submissions t task → ¬ (submissions t.1).Leaves (s.calls t.1).stage →
      (s.Tracks t task →
        s.active.getTaskStatus task.taskId = some ⟨task.taskId, task.taskType, s.statusOf t⟩) ∧
      (¬ s.Tracks t task → s.active.getTaskStatus task.taskId = none) := by
  refine ⟨hs.nodup_taskIds, fun info hinfo => ?_, fun t task ht hleaves => ⟨fun htracks => ?_,
    fun htracks => ?_⟩⟩
  · obtain ⟨t, task, ht, hid⟩ := hs.exists_isTask info.taskId (List.mem_map_of_mem hinfo)
    exact ⟨t, task, ht, hs.shown hids ht info hinfo hid⟩
  · have hmem := (hs.mem_taskIds_iff hids ht hleaves).2 htracks
    obtain ⟨info, hinfo⟩ := Option.isSome_iff_exists.1 (ActiveTasks.isSome_getTaskStatus.2 hmem)
    have hid : info.taskId = task.taskId := by simpa using List.find?_some hinfo
    rw [hinfo, hs.shown hids ht info (List.mem_of_find?_eq_some hinfo) hid]
  · have hmem := mt (hs.mem_taskIds_iff hids ht hleaves).1 htracks
    exact Option.not_isSome_iff_eq_none.1 (mt ActiveTasks.isSome_getTaskStatus.1 hmem)

/-- A task that is executed while its call waits is shown as running. -/
theorem task_table_validation :
    ∃ s : State Unit, s.active.getTaskStatus validation.taskId =
      some ⟨validation.taskId, validation.taskType, .running⟩ := by
  let submissions : Unit → Submission := fun _ => .single validation .high
  have hids : UniqueIds submissions := by
    intro c i task ht c' i' task' ht' _
    have hindex : ∀ t task, IsTask submissions t task → t.2 = 0 := fun t task ht =>
      (IsTask.of_single ht rfl).1
    have hi : i = 0 := hindex (c, i) task ht
    have hi' : i' = 0 := hindex (c', i') task' ht'
    rw [hi, hi']
  obtain ⟨s, hs, hstate⟩ := Machine.exists_reaches_of_run
    (by decide : ((scheduler (smallConfig .block) submissions).run
      (init Unit (smallConfig .block)) (validationRun.take 10)).any
        (fun s => decide (s.statusOf ((), 0) = .running ∧ (s.calls ()).stage = .await 0 ∧
          Event.evicted ((), 0) ∉ s.log)) = true)
  obtain ⟨hstatus, hstage, hevicted⟩ := of_decide_eq_true hstate
  have htracks : s.Tracks ((), 0) validation :=
    ⟨by rw [hstage]; exact List.not_mem_nil, fun hcleared => hevicted hcleared.1⟩
  refine ⟨s, ?_⟩
  rw [((task_table hs hids).2.2 ((), 0) validation rfl id).1 htracks, hstatus]

end Scheduler

end SubxCore
