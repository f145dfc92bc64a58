import SubxCore.Common.Machine
import SubxCore.Error
import SubxCore.Parallel.Queue
import Mathlib.Logic.Function.Basic
/-!
# The task scheduler

`TaskScheduler` as a machine. The parties are the calls that submit tasks,
as many as there are, the scheduler loops, and the executions of tasks; an
action is what one party does under one lock, or between two of them where
others can see it. Time does not run: whatever a clock decides, whether a loop
has been idle for too long or an execution has timed out, can go either way.
The log is no part of the code. It says what has happened, in that order.
-/

namespace SubxCore

namespace Scheduler

open Function PendingTask

/-! ## Active tasks -/

/-- What is known of an active task, its start time and progress aside. -/
structure TaskInfo where
  taskId : Text
  taskType : Text
  status : TaskStatus
  deriving DecidableEq, Repr

/-- The map of the active tasks, as its values; each has its key in it. -/
abbrev ActiveTasks := List TaskInfo

namespace ActiveTasks

/-- An entry taken out. -/
def remove (active : ActiveTasks) (taskId : Text) : ActiveTasks :=
  active.filter fun info => info.taskId ≠ taskId

/-- An entry put in, in the place of one with its key. -/
def insert (active : ActiveTasks) (info : TaskInfo) : ActiveTasks :=
  info :: active.remove info.taskId

/-- The status of an entry changed, if it is there. -/
def setStatus (active : ActiveTasks) (taskId : Text) (status : TaskStatus) : ActiveTasks :=
  active.map fun info => if info.taskId = taskId then { info with status := status } else info

/-- The keys of the map. -/
def taskIds (active : ActiveTasks) : List Text := active.map TaskInfo.taskId

variable {active : ActiveTasks} {info : TaskInfo} {taskId taskId' : Text} {status : TaskStatus}

@[simp] theorem mem_taskIds_remove :
    taskId ∈ (active.remove taskId').taskIds ↔ taskId ∈ active.taskIds ∧ taskId ≠ taskId' := by
  simp only [taskIds, remove, List.mem_map, List.mem_filter, decide_eq_true_eq]
  constructor
  · rintro ⟨info, ⟨hinfo, hne⟩, rfl⟩
    exact ⟨⟨info, hinfo, rfl⟩, hne⟩
  · rintro ⟨⟨info, hinfo, rfl⟩, hne⟩
    exact ⟨info, ⟨hinfo, hne⟩, rfl⟩

@[simp] theorem mem_taskIds_insert :
    taskId ∈ (active.insert info).taskIds ↔ taskId = info.taskId ∨ taskId ∈ active.taskIds := by
  rw [insert, taskIds, List.map_cons, List.mem_cons]
  change _ ∨ taskId ∈ (active.remove info.taskId).taskIds ↔ _
  rw [mem_taskIds_remove]
  by_cases h : taskId = info.taskId
  · simp [h]
  · simp [h]

@[simp] theorem taskIds_setStatus : (active.setStatus taskId status).taskIds = active.taskIds := by
  rw [taskIds, setStatus, List.map_map, taskIds]
  congr 1
  funext info
  by_cases h : info.taskId = taskId
  · rw [comp_apply, if_pos h]
  · rw [comp_apply, if_neg h]

end ActiveTasks

/-! ## The calls -/

/-- A call of `submit_task_with_priority` or of `submit_batch_tasks`. -/
inductive Submission
  | single (task : BoxedTask) (priority : TaskPriority)
  | batch (tasks : List BoxedTask)
  deriving DecidableEq, Repr

/-- The tasks of a call. -/
def Submission.tasks : Submission → List BoxedTask
  | .single task _ => [task]
  | .batch tasks => tasks

/-- The priority they are submitted with. -/
def Submission.priority : Submission → TaskPriority
  | .single _ priority => priority
  | .batch _ => .normal

/-- What a call returns. -/
inductive Reply
  | single (result : Except SubXError TaskResult)
  | batch (results : List TaskResult)
  deriving DecidableEq

/-- How far a call is. A number is that of the task it is at, or of the receiver
it waits for. -/
inductive Stage
  | idle
  | register (i : ℕ)
  | check (i : ℕ)
  | poll (i : ℕ)
  | evict (i : ℕ)
  | clear (i : ℕ) (evicted : Text)
  | enqueue (i : ℕ)
  | ensure
  | spawn
  | store (handle : ℕ)
  | await (k : ℕ)
  | cleanup (k : ℕ)
  | dropGuard (result : Except SubXError TaskResult)
  | returned (reply : Reply)
  | cancelled
  deriving DecidableEq

/-- A call: where it is, the receivers it has kept, each that of one of its
tasks, and the results it has gathered. -/
structure Call where
  stage : Stage
  receivers : List ℕ
  results : List TaskResult
  deriving DecidableEq

/-- The error of a single call. -/
def queueFull : SubXError := .parallelProcessing "Task queue is full".toList

/-- What a task that is dropped comes to. -/
def overflowDrop : TaskResult := .failed "Task dropped due to queue overflow".toList

/-- What a task that runs for too long comes to. -/
def executionTimeout : TaskResult := .failed "Task execution timeout".toList

/-- The text for a task whose sender is gone. -/
def interrupted : Text := "Task execution interrupted".toList

/-- After a task has been dealt with: the next one, or the liveness check. -/
def nextTask (submission : Submission) (i : ℕ) : Stage :=
  if i < submission.tasks.length then .register i else .ensure

/-- The guard of a single call takes its entry out; a batch has none. -/
def Submission.dropGuard (submission : Submission) (active : ActiveTasks) : ActiveTasks :=
  match submission with
  | .single task _ => active.remove task.taskId
  | .batch _ => active

/-- Before a result is awaited: the next one, or the end of a batch. -/
def nextReceiver (call : Call) (k : ℕ) : Stage :=
  if k < call.receivers.length then .await k else .returned (.batch call.results)

/-- After the size check that finds the queue full. -/
def overflow (strategy : OverflowStrategy) (submission : Submission) (i : ℕ) : Stage :=
  match strategy with
  | .block => .poll i
  | .dropOldest => .evict i
  | .reject =>
    match submission with
    | .single _ _ => .dropGuard (.error queueFull)
    | .batch _ => .returned (.batch [])
  | .drop =>
    match submission with
    | .single _ _ => .dropGuard (.ok overflowDrop)
    | .batch _ => nextTask submission (i + 1)
  | .expand => .enqueue i

/-- After the channel has given a result, or shown that its sender is gone. -/
def Call.receive (submission : Submission) (call : Call) (k : ℕ) (result : Option TaskResult) :
    Call :=
  match submission with
  | .single _ _ =>
    { call with stage := .dropGuard (match result with
        | some result => .ok result
        | none => .error (.parallelProcessing interrupted)) }
  | .batch _ =>
    { call with results := call.results ++ [result.getD (.failed interrupted)]
                stage := .cleanup k }

/-! ## The scheduler's state -/

/-- The channel of a task: what its receiver finds. -/
inductive Channel
  | empty
  | sent (result : TaskResult)
  | closed
  deriving DecidableEq, Repr

/-- What a receiver gets out of it, unless it has to wait. -/
def Channel.receive : Channel → Option (Option TaskResult)
  | .empty => none
  | .sent result => some (some result)
  | .closed => some none

/-- A channel is that of the task of a call. -/
abbrev Token (ι : Type) := ι × ℕ

/-- How far a scheduler loop is. One that is leaving has decided to exit; its
handle says so only when it has finished. -/
inductive LoopStage (ι : Type)
  | start
  | sawQueue (hasPending : Bool)
  | acquire
  | take
  | mark (p : PendingTask (Token ι))
  | leaving
  | finished
  deriving DecidableEq

/-- How an execution ends that does not panic. -/
inductive Outcome
  | completed (result : TaskResult)
  | timeout
  deriving DecidableEq, Repr

/-- The result there is to send then. -/
def Outcome.result : Outcome → TaskResult
  | .completed result => result
  | .timeout => executionTimeout

/-- How far an execution is. -/
inductive Phase
  | running
  | finished (result : TaskResult)
  | reported (result : TaskResult)
  | sent
  | ended
  deriving DecidableEq, Repr

/-- A task that is executed. -/
structure Execution (ι : Type) where
  pending : PendingTask (Token ι)
  phase : Phase
  deriving DecidableEq

/-- What happens. -/
inductive Event (ι : Type)
  | enqueued (t : Token ι)
  | full (t : Token ι)
  | evicted (t : Token ι)
  | dequeued (t : Token ι)
  | started (t : Token ι)
  | ended (t : Token ι) (outcome : Outcome)
  | panicked (t : Token ι)
  | sent (t : Token ι) (result : TaskResult)
  deriving DecidableEq

/-- The scheduler, its loops and executions, and the calls. -/
structure State (ι : Type) where
  queue : List (PendingTask (Token ι))
  active : ActiveTasks
  permits : ℕ
  handle : Option ℕ
  loops : List (LoopStage ι)
  executions : List (Execution ι)
  channels : Token ι → Channel
  calls : ι → Call
  log : List (Event ι)

/-- A new scheduler: its first loop has been started. -/
def init (ι : Type) (config : ParallelConfig) : State ι where
  queue := []
  active := []
  permits := config.maxConcurrentJobs
  handle := some 0
  loops := [.start]
  executions := []
  channels _ := .empty
  calls _ := ⟨.idle, [], []⟩
  log := []

/-- Whether there is no handle, or a handle that says its loop has finished. -/
def State.needsRestart {ι : Type} (s : State ι) : Bool :=
  match s.handle with
  | some l =>
    match s.loops[l]? with
    | some .finished => true
    | _ => false
  | none => true

variable {ι : Type} [DecidableEq ι]

namespace State

/-- A call at another stage. -/
@[simp] def goTo (s : State ι) (c : ι) (stage : Stage) : State ι :=
  { s with calls := update s.calls c { s.calls c with stage := stage } }

/-- A loop at another stage. -/
@[simp] def loopTo (s : State ι) (l : ℕ) (stage : LoopStage ι) : State ι :=
  { s with loops := s.loops.set l stage }

/-- An execution at another phase. -/
@[simp] def executionTo (s : State ι) (k : ℕ) (p : PendingTask (Token ι)) (phase : Phase) :
    State ι :=
  { s with executions := s.executions.set k ⟨p, phase⟩ }

end State

/-! ## Actions -/

/-- What a party does in one go, with what it finds. -/
inductive Action (ι : Type)
  | begin (c : ι)
  | register (c : ι) (i : ℕ) (task : BoxedTask)
  | hasRoom (c : ι) (i : ℕ)
  | isFull (c : ι) (i : ℕ)
  | poll (c : ι) (i : ℕ)
  | evict (c : ι) (i : ℕ) (p : PendingTask (Token ι)) (rest : List (PendingTask (Token ι)))
  | evictNone (c : ι) (i : ℕ)
  | clear (c : ι) (i : ℕ) (evicted : Text)
  | enqueue (c : ι) (i : ℕ) (task : BoxedTask)
  | ensure (c : ι)
  | spawn (c : ι)
  | store (c : ι) (handle : ℕ)
  | receive (c : ι) (k i : ℕ) (result : Option TaskResult)
  | cleanup (c : ι) (k i : ℕ) (task : BoxedTask)
  | dropGuard (c : ι) (result : Except SubXError TaskResult)
  | cancel (c : ι)
  | readQueue (l : ℕ)
  | goOn (l : ℕ) (hasPending : Bool)
  | giveUp (l : ℕ)
  | acquire (l : ℕ)
  | noPermit (l : ℕ)
  | dequeue (l : ℕ) (p : PendingTask (Token ι)) (rest : List (PendingTask (Token ι)))
  | dequeueNone (l : ℕ)
  | start (l : ℕ) (p : PendingTask (Token ι))
  | leave (l : ℕ)
  | finish (k : ℕ) (p : PendingTask (Token ι)) (outcome : Outcome)
  | panic (k : ℕ) (p : PendingTask (Token ι))
  | report (k : ℕ) (p : PendingTask (Token ι)) (result : TaskResult)
  | send (k : ℕ) (p : PendingTask (Token ι)) (result : TaskResult)
  | release (k : ℕ) (p : PendingTask (Token ι))

/-- A call waits: for room in the queue, or for a result. -/
def Stage.IsWaiting : Stage → Prop
  | .poll _ => True
  | .await _ => True
  | _ => False

instance : DecidablePred Stage.IsWaiting := fun stage => by
  cases stage <;> first | exact instDecidableTrue | exact instDecidableFalse

/-- When an action can be taken. -/
def enabled (config : ParallelConfig) (submissions : ι → Submission) (s : State ι) :
    Action ι → Prop
  | .begin c => (s.calls c).stage = .idle
  | .register c i task =>
    (s.calls c).stage = .register i ∧ (submissions c).tasks[i]? = some task
  | .hasRoom c i => (s.calls c).stage = .check i ∧ s.queue.length < config.taskQueueSize
  | .isFull c i => (s.calls c).stage = .check i ∧ config.taskQueueSize ≤ s.queue.length
  | .poll c i => (s.calls c).stage = .poll i ∧ s.queue.length < config.taskQueueSize
  | .evict c i p rest => (s.calls c).stage = .evict i ∧ s.queue = p :: rest
  | .evictNone c i => (s.calls c).stage = .evict i ∧ s.queue = []
  | .clear c i evicted => (s.calls c).stage = .clear i evicted
  | .enqueue c i task =>
    (s.calls c).stage = .enqueue i ∧ (submissions c).tasks[i]? = some task
  | .ensure c => (s.calls c).stage = .ensure
  | .spawn c => (s.calls c).stage = .spawn
  | .store c handle => (s.calls c).stage = .store handle
  | .receive c k i result =>
    (s.calls c).stage = .await k ∧ (s.calls c).receivers[k]? = some i ∧
      (s.channels (c, i)).receive = some result
  | .cleanup c k i task =>
    (s.calls c).stage = .cleanup k ∧ (s.calls c).receivers[k]? = some i ∧
      (submissions c).tasks[i]? = some task
  | .dropGuard c result => (s.calls c).stage = .dropGuard result
  | .cancel c => (s.calls c).stage.IsWaiting
  | .readQueue l => s.loops[l]? = some .start
  -- a loop that has seen nothing may go on all the same: its time may not be up
  | .goOn l hasPending => s.loops[l]? = some (.sawQueue hasPending)
  | .giveUp l => s.loops[l]? = some (.sawQueue false) ∧ s.active = []
  | .acquire l => s.loops[l]? = some .acquire ∧ s.permits ≠ 0
  | .noPermit l => s.loops[l]? = some .acquire ∧ s.permits = 0
  | .dequeue l p rest => s.loops[l]? = some .take ∧ takeNext config s.queue = some (p, rest)
  | .dequeueNone l => s.loops[l]? = some .take ∧ takeNext config s.queue = none
  | .start l p => s.loops[l]? = some (.mark p)
  | .leave l => s.loops[l]? = some .leaving
  | .finish k p _ => s.executions[k]? = some ⟨p, .running⟩
  | .panic k p => s.executions[k]? = some ⟨p, .running⟩
  | .report k p result => s.executions[k]? = some ⟨p, .finished result⟩
  | .send k p result => s.executions[k]? = some ⟨p, .reported result⟩
  | .release k p => s.executions[k]? = some ⟨p, .sent⟩

instance (config : ParallelConfig) (submissions : ι → Submission) (s : State ι) (a : Action ι) :
    Decidable (enabled config submissions s a) := by
  cases a <;> dsimp only [enabled] <;> infer_instance

/-- What it does. -/
def act (config : ParallelConfig) (submissions : ι → Submission) (s : State ι) :
    Action ι → State ι
  | .begin c => s.goTo c (nextTask (submissions c) 0)
  | .register c i task =>
    { s.goTo c (.check i) with
      active := s.active.insert ⟨task.taskId, task.taskType, .pending⟩ }
  | .hasRoom c i => s.goTo c (.enqueue i)
  | .isFull c i => s.goTo c (overflow config.queueOverflowStrategy (submissions c) i)
  | .poll c i => s.goTo c (.enqueue i)
  | .evict c i p rest =>
    { s.goTo c (.clear i p.taskId) with
      queue := rest
      channels := update s.channels p.resultSender (.sent overflowDrop) }
  | .evictNone c i => s.goTo c (.enqueue i)
  | .clear c i evicted => { s.goTo c (.enqueue i) with active := s.active.remove evicted }
  | .enqueue c i task =>
    { s with
      queue := insertPending config s.queue
        ⟨task, (c, i), task.taskId, (submissions c).priority⟩
      calls := update s.calls c
        { s.calls c with
          stage := nextTask (submissions c) (i + 1)
          receivers := (s.calls c).receivers ++ [i] } }
  | .ensure c => s.goTo c (if s.needsRestart then .spawn else nextReceiver (s.calls c) 0)
  | .spawn c => { s.goTo c (.store s.loops.length) with loops := s.loops ++ [.start] }
  | .store c handle => { s.goTo c (nextReceiver (s.calls c) 0) with handle := some handle }
  | .receive c k _ result =>
    { s with calls := update s.calls c ((s.calls c).receive (submissions c) k result) }
  | .cleanup c k _ task =>
    { s.goTo c (nextReceiver (s.calls c) (k + 1)) with active := s.active.remove task.taskId }
  | .dropGuard c result =>
    { s.goTo c (.returned (.single result)) with active := (submissions c).dropGuard s.active }
  | .cancel c => { s.goTo c .cancelled with active := (submissions c).dropGuard s.active }
  | .readQueue l => s.loopTo l (.sawQueue (!s.queue.isEmpty))
  | .goOn l _ => s.loopTo l .acquire
  | .giveUp l => s.loopTo l .leaving
  | .acquire l => { s.loopTo l .take with permits := s.permits - 1 }
  | .noPermit l => s.loopTo l .start
  | .dequeue l p rest => { s.loopTo l (.mark p) with queue := rest }
  | .dequeueNone l => { s.loopTo l .start with permits := s.permits + 1 }
  | .start l p =>
    { s.loopTo l .start with
      active := s.active.setStatus p.taskId .running
      executions := s.executions ++ [⟨p, .running⟩] }
  | .leave l => s.loopTo l .finished
  | .finish k p outcome => s.executionTo k p (.finished outcome.result)
  -- unwinding drops the sender and the permit
  | .panic k p =>
    { s.executionTo k p .ended with
      channels := update s.channels p.resultSender .closed
      permits := s.permits + 1 }
  | .report k p result =>
    { s.executionTo k p (.reported result) with
      active := s.active.setStatus p.taskId (.completed result) }
  | .send k p result =>
    { s.executionTo k p .sent with
      channels := update s.channels p.resultSender (.sent result) }
  | .release k p => { s.executionTo k p .ended with permits := s.permits + 1 }

/-- What happens by it. -/
def Action.events : Action ι → List (Event ι)
  | .isFull c i => [.full (c, i)]
  | .evict _ _ p _ => [.evicted p.resultSender, .sent p.resultSender overflowDrop]
  | .enqueue c i _ => [.enqueued (c, i)]
  | .dequeue _ p _ => [.dequeued p.resultSender]
  | .start _ p => [.started p.resultSender]
  | .finish _ p outcome => [.ended p.resultSender outcome]
  | .panic _ p => [.panicked p.resultSender]
  | .send _ p result => [.sent p.resultSender result]
  | _ => []

/-- The scheduler and the calls that are made of it. -/
def scheduler (config : ParallelConfig) (submissions : ι → Submission) :
    Machine (State ι) (Action ι) where
  enabled := enabled config submissions
  effect s a := { act config submissions s a with log := s.log ++ a.events }

instance (config : ParallelConfig) (submissions : ι → Submission) (s : State ι) (a : Action ι) :
    Decidable ((scheduler config submissions).enabled s a) :=
  inferInstanceAs (Decidable (enabled config submissions s a))

/-- The states a scheduler can be in. -/
def Reachable (config : ParallelConfig) (submissions : ι → Submission) (s : State ι) : Prop :=
  (scheduler config submissions).Reaches (init ι config) s

variable {config : ParallelConfig} {submissions : ι → Submission} {s : State ι} {a : Action ι}
variable {c : ι} {l k : ℕ}

/-- What holds of a new scheduler, and is kept by every action, holds in every
state it can be in. -/
theorem Reachable.invariant {P : State ι → Prop} (hs : Reachable config submissions s)
    (hinit : P (init ι config))
    (hstep : ∀ s a, Reachable config submissions s → enabled config submissions s a → P s →
      P ((scheduler config submissions).effect s a)) : P s :=
  Machine.Reaches.invariant hinit hstep hs

/-- The call an action is one of. -/
def Action.caller : Action ι → Option ι
  | .begin c | .register c _ _ | .hasRoom c _ | .isFull c _ | .poll c _ | .evict c _ _ _
  | .evictNone c _ | .clear c _ _ | .enqueue c _ _ | .ensure c | .spawn c | .store c _
  | .receive c _ _ _ | .cleanup c _ _ _ | .dropGuard c _ | .cancel c => some c
  | _ => none

/-- The calls that do nothing stay where they are. -/
theorem calls_effect_of_ne (h : a.caller ≠ some c) :
    ((scheduler config submissions).effect s a).calls c = s.calls c := by
  cases a with
  | begin c' | register c' | hasRoom c' | isFull c' | poll c' | evict c' | evictNone c' | clear c'
  | enqueue c' | ensure c' | spawn c' | store c' | receive c' | cleanup c' | dropGuard c'
  | cancel c' => exact update_of_ne (fun hc => h (congrArg some hc.symm)) ..
  | _ => rfl

/-- What one call does changes no other. -/
theorem calls_effect_of_caller {c' : ι} (h : a.caller = some c) (hne : c' ≠ c) :
    ((scheduler config submissions).effect s a).calls c' = s.calls c' :=
  calls_effect_of_ne fun heq => hne (Option.some.inj (heq.symm.trans h))

end Scheduler

end SubxCore
