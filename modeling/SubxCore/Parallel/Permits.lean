import SubxCore.Parallel.Handout
/-!
# Permits

The semaphore of the scheduler. A loop takes a permit before it looks into the
queue and hands it to the execution it starts, which gives it back when it ends,
by a panic as well; so the permits that are out are those of loops between the
two and of executions that have not ended (`Reachable.permits_add`). This is what
`get_active_workers` counts, and it never exceeds the configured number of jobs,
however often a loop is restarted beside one that is still leaving.
-/

namespace SubxCore

namespace Scheduler

variable {ι : Type} [DecidableEq ι] {config : ParallelConfig} {submissions : ι → Submission}
variable {s : State ι} {a : Action ι}

/-- `get_active_workers`. -/
def State.getActiveWorkers (config : ParallelConfig) (s : State ι) : ℕ :=
  config.maxConcurrentJobs - s.permits

/-- The loop has a permit that no execution has yet. -/
def LoopStage.hasPermit : LoopStage ι → Bool
  | .take | .mark _ => true
  | _ => false

/-- The execution has its permit. -/
def Execution.hasPermit (e : Execution ι) : Bool := e.phase ≠ .ended

/-- The task is being executed. -/
def Execution.isRunning (e : Execution ι) : Bool := e.phase = .running

/-- The permits that are out. -/
def State.permitsOut (s : State ι) : ℕ :=
  s.loops.countP LoopStage.hasPermit + s.executions.countP Execution.hasPermit

omit [DecidableEq ι] in
/-- A step of a loop that neither takes a permit nor gives one away. -/
theorem permitsOut_loopTo {l : ℕ} {stage stage' : LoopStage ι} (h : s.loops[l]? = some stage)
    (hsame : stage'.hasPermit = stage.hasPermit) : (s.loopTo l stage').permitsOut = s.permitsOut := by
  dsimp only [State.permitsOut, State.loopTo]
  rw [Slots.countP_set_of_eq h hsame]

omit [DecidableEq ι] in
/-- A step of an execution that keeps its permit. -/
theorem permitsOut_executionTo {k : ℕ} {p : PendingTask (Token ι)} {phase phase' : Phase}
    (h : s.executions[k]? = some ⟨p, phase⟩)
    (hsame : Execution.hasPermit ⟨p, phase'⟩ = Execution.hasPermit ⟨p, phase⟩) :
    (s.executionTo k p phase').permitsOut = s.permitsOut := by
  dsimp only [State.permitsOut, State.executionTo]
  rw [Slots.countP_set_of_eq h hsame]

/-- **No permit is lost, and none is made**, by any action. -/
theorem permits_effect (ha : enabled config submissions s a) :
    ((scheduler config submissions).effect s a).permits +
        ((scheduler config submissions).effect s a).permitsOut =
      s.permits + s.permitsOut := by
  cases a with
  | spawn c =>
    simp [scheduler, act, State.permitsOut, LoopStage.hasPermit]
  | readQueue l => exact congrArg _ (permitsOut_loopTo ha rfl)
  | goOn l => exact congrArg _ (permitsOut_loopTo ha rfl)
  | leave l => exact congrArg _ (permitsOut_loopTo ha rfl)
  | giveUp l => exact congrArg _ (permitsOut_loopTo ha.1 rfl)
  | noPermit l => exact congrArg _ (permitsOut_loopTo ha.1 rfl)
  | dequeue l p rest => exact congrArg _ (permitsOut_loopTo ha.1 rfl)
  | acquire l =>
    have hset := Slots.countP_set_add (b := .take) LoopStage.hasPermit ha.1
    have hpos := Nat.pos_of_ne_zero ha.2
    simp [scheduler, act, State.permitsOut, LoopStage.hasPermit] at hset ⊢
    omega
  | dequeueNone l =>
    have hset := Slots.countP_set_add (b := .start) LoopStage.hasPermit ha.1
    simp [scheduler, act, State.permitsOut, LoopStage.hasPermit] at hset ⊢
    omega
  | start l p =>
    -- the loop's permit goes to the execution
    have hset := Slots.countP_set_add (b := .start) LoopStage.hasPermit ha
    simp [scheduler, act, State.permitsOut, LoopStage.hasPermit, Execution.hasPermit] at hset ⊢
    omega
  | finish k p outcome => exact congrArg _ (permitsOut_executionTo ha rfl)
  | report k p result => exact congrArg _ (permitsOut_executionTo ha rfl)
  | send k p result => exact congrArg _ (permitsOut_executionTo ha rfl)
  | panic k p =>
    have hset := Slots.countP_set_add (b := ⟨p, .ended⟩) Execution.hasPermit ha
    simp [scheduler, act, State.permitsOut, Execution.hasPermit] at hset ⊢
    omega
  | release k p =>
    have hset := Slots.countP_set_add (b := ⟨p, .ended⟩) Execution.hasPermit ha
    simp [scheduler, act, State.permitsOut, Execution.hasPermit] at hset ⊢
    omega
  | _ => rfl

/-- Every permit is either free or out. -/
theorem Reachable.permits_add (hs : Reachable config submissions s) :
    s.permits + s.permitsOut = config.maxConcurrentJobs :=
  hs.invariant (P := fun s => s.permits + s.permitsOut = config.maxConcurrentJobs) rfl
    fun _ _ _ ha h => (permits_effect ha).trans h

/-- **What the active workers are.** In every interleaving of the calls, the loops
and the executions, `get_active_workers` is the number of loops that hold a permit
and of executions that have not ended, and no more tasks run at a time than
`max_concurrent_jobs`; once every execution has ended and no loop is at a task, all
permits are free again. -/
theorem active_workers (hs : Reachable config submissions s) :
    s.getActiveWorkers config = s.permitsOut ∧
    s.permitsOut ≤ config.maxConcurrentJobs ∧
    s.executions.countP Execution.isRunning ≤ config.maxConcurrentJobs ∧
    ((∀ stage ∈ s.loops, stage.hasPermit = false) → (∀ e ∈ s.executions, e.phase = .ended) →
      s.permits = config.maxConcurrentJobs) := by
  have hadd := hs.permits_add
  have hrunning : s.executions.countP Execution.isRunning ≤
      s.executions.countP Execution.hasPermit := by
    refine List.countP_mono_left fun e _ he => ?_
    rw [Execution.isRunning, decide_eq_true_eq] at he
    rw [Execution.hasPermit, he]
    rfl
  refine ⟨by rw [State.getActiveWorkers]; omega, by omega, ?_, fun hloops hended => ?_⟩
  · unfold State.permitsOut at hadd
    omega
  · have hloop : s.loops.countP LoopStage.hasPermit = 0 :=
      List.countP_eq_zero.2 fun stage hstage => by rw [hloops stage hstage]; exact Bool.false_ne_true
    have hexecution : s.executions.countP Execution.hasPermit = 0 :=
      List.countP_eq_zero.2 fun e he => by rw [Execution.hasPermit, hended e he]; decide
    unfold State.permitsOut at hadd
    omega

/-- A task that is executed is the one active worker there is. -/
theorem active_workers_validation :
    ∃ s : State Unit, s.getActiveWorkers (smallConfig .block) = s.permitsOut ∧
      s.executions.countP Execution.isRunning = 1 := by
  obtain ⟨s, hs, hrunning⟩ := Machine.exists_reaches_of_run
    (by decide : ((scheduler (smallConfig .block) fun _ => .single validation .high).run
      (init Unit (smallConfig .block)) (validationRun.take 10)).any
        (fun s => s.executions.countP Execution.isRunning == 1) = true)
  exact ⟨s, (active_workers hs).1, beq_iff_eq.1 hrunning⟩

end Scheduler

end SubxCore
