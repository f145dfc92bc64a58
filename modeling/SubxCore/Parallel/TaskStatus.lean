import SubxCore.Parallel.BatchResults
/-!
# What the entries of active tasks say

An entry of the table of active tasks is written by the call that submits the task,
by the loop that starts it and by its execution, each of them by the task's id.
Where no two tasks share an id, an entry says where its task really is: pending
until a loop has started it, running until its execution reports, and completed with
its own result from then on (`Reachable.shown`).
-/

namespace SubxCore

namespace Scheduler

open Function PendingTask

variable {ι : Type} [DecidableEq ι] {config : ParallelConfig} {submissions : ι → Submission}
variable {s s' : State ι} {a : Action ι} {t : Token ι} {task : BoxedTask} {c : ι} {i j k : ℕ}
variable {p : PendingTask (Token ι)} {id : Text}

/-- `get_task_status`. -/
def ActiveTasks.getTaskStatus (active : ActiveTasks) (taskId : Text) : Option TaskInfo :=
  active.find? fun info => info.taskId = taskId

/-- No two tasks that are submitted have the same id. -/
def UniqueIds (submissions : ι → Submission) : Prop := ∀ c, DistinctIds submissions c

/-- A task of a call, by its channel. -/
def IsTask (submissions : ι → Submission) (t : Token ι) (task : BoxedTask) : Prop :=
  (submissions t.1).tasks[t.2]? = some task

omit [DecidableEq ι] in
theorem UniqueIds.eq {t' : Token ι} {task' : BoxedTask} (hids : UniqueIds submissions)
    (ht : IsTask submissions t task) (ht' : IsTask submissions t' task')
    (hid : task'.taskId = task.taskId) : t' = t :=
  hids t.1 t.2 task ht t'.1 t'.2 task' ht' hid

/-! ## What is queued and executed -/

/-- A pending task is that of its channel. -/
def Genuine (submissions : ι → Submission) (p : PendingTask (Token ι)) : Prop :=
  IsTask submissions p.resultSender p.task ∧ p.taskId = p.task.taskId

/-- Every pending task is. -/
structure AllGenuine (submissions : ι → Submission) (s : State ι) : Prop where
  queue : ∀ p ∈ s.queue, Genuine submissions p
  loops : ∀ p, .mark p ∈ s.loops → Genuine submissions p
  executions : ∀ e ∈ s.executions, Genuine submissions e.pending

omit [DecidableEq ι] in
theorem Genuine.taskId_eq (hp : Genuine submissions p) (ht : IsTask submissions t task)
    (hsender : p.resultSender = t) : p.taskId = task.taskId := by
  obtain ⟨htask, hid⟩ := hp
  subst hsender
  rw [hid, Option.some.inj (htask.symm.trans ht)]

omit [DecidableEq ι] in
theorem Genuine.taskId_ne (hp : Genuine submissions p) (hids : UniqueIds submissions)
    (ht : IsTask submissions t task) (hsender : p.resultSender ≠ t) : p.taskId ≠ task.taskId :=
  fun hid => hsender (hids.eq ht hp.1 (hp.2.symm.trans hid))

omit [DecidableEq ι] in
theorem AllGenuine.mark_of_set {l : ℕ} {stage : LoopStage ι} (h : AllGenuine submissions s)
    (hstage : ∀ p, stage = .mark p → Genuine submissions p) :
    ∀ p, .mark p ∈ s.loops.set l stage → Genuine submissions p := by
  intro p hp
  rcases List.mem_or_eq_of_mem_set hp with hp | heq
  · exact h.loops p hp
  · exact hstage p heq.symm

omit [DecidableEq ι] in
theorem AllGenuine.execution_of_set {phase phase' : Phase} (h : AllGenuine submissions s)
    (he : s.executions[k]? = some ⟨p, phase⟩) :
    ∀ e ∈ s.executions.set k ⟨p, phase'⟩, Genuine submissions e.pending := by
  intro e hmem
  rcases List.mem_or_eq_of_mem_set hmem with hmem | rfl
  · exact h.executions e hmem
  · exact h.executions ⟨p, phase⟩ (List.mem_of_getElem? he)

theorem AllGenuine.effect (h : AllGenuine submissions s) (ha : enabled config submissions s a) :
    AllGenuine submissions ((scheduler config submissions).effect s a) := by
  cases a with
  | enqueue c i task =>
    refine ⟨fun p hp => ?_, h.loops, h.executions⟩
    obtain ⟨before, after, hqueue, hinsert, -⟩ := insertPending_eq config s.queue
      ⟨task, (c, i), task.taskId, (submissions c).priority⟩
    have hp' : p ∈ before ++ ⟨task, (c, i), task.taskId, (submissions c).priority⟩ :: after :=
      hinsert ▸ hp
    rcases List.mem_append.1 hp' with hp | hp
    · exact h.queue p (hqueue ▸ List.mem_append_left _ hp)
    · rcases List.mem_cons.1 hp with rfl | hp
      · exact ⟨ha.2, rfl⟩
      · exact h.queue p (hqueue ▸ List.mem_append_right _ hp)
  | evict c i p rest =>
    exact ⟨fun p' hp' => h.queue p' (ha.2 ▸ List.mem_cons_of_mem p hp'), h.loops, h.executions⟩
  | dequeue l p rest =>
    obtain ⟨before, after, hqueue, hrest, -⟩ := takeNext_eq_some ha.2
    refine ⟨fun p' hp' => h.queue p' ?_, h.mark_of_set fun p' hp' => ?_, h.executions⟩
    · rw [hqueue]
      rcases List.mem_append.1 (hrest ▸ hp') with hp' | hp'
      · exact List.mem_append_left _ hp'
      · exact List.mem_append_right _ (List.mem_cons_of_mem p hp')
    · cases hp'
      exact h.queue p (hqueue ▸ List.mem_append_right _ List.mem_cons_self)
  | start l p =>
    refine ⟨h.queue, h.mark_of_set nofun, fun e he => ?_⟩
    rcases List.mem_append.1 he with he | he
    · exact h.executions e he
    · rw [List.mem_singleton.1 he]
      exact h.loops p (List.mem_of_getElem? ha)
  | spawn c =>
    refine ⟨h.queue, fun p hp => ?_, h.executions⟩
    rcases List.mem_append.1 hp with hp | hp
    · exact h.loops p hp
    · cases List.mem_singleton.1 hp
  | readQueue l | goOn l | giveUp l | acquire l | noPermit l | dequeueNone l | leave l =>
    exact ⟨h.queue, h.mark_of_set nofun, h.executions⟩
  | finish k p | panic k p | report k p | send k p | release k p =>
    exact ⟨h.queue, h.loops, h.execution_of_set ha⟩
  | _ => exact ⟨h.queue, h.loops, h.executions⟩

theorem Reachable.genuine (hs : Reachable config submissions s) : AllGenuine submissions s :=
  hs.invariant ⟨fun _ hp => absurd hp List.not_mem_nil,
    fun _ hp => (by cases List.mem_singleton.1 hp), fun _ he => absurd he List.not_mem_nil⟩
    fun _ _ _ ha h => h.effect ha

/-! ## Where a task is -/

/-- What an execution has come to, as far as it has said. One that panicked has said
nothing. -/
def Phase.status (channel : Channel) : Phase → TaskStatus
  | .running | .finished _ => .running
  | .reported result => .completed result
  | .sent | .ended =>
    match channel with
    | .sent result => .completed result
    | .empty | .closed => .running

/-- What a task has come to. -/
def State.statusOf (s : State ι) (t : Token ι) : TaskStatus :=
  match s.executions.find? (Execution.executes t) with
  | some e => e.phase.status (s.channels t)
  | none => .pending

theorem statusOf_of_some {e : Execution ι} (h : s.executions.find? (Execution.executes t) = some e) :
    s.statusOf t = e.phase.status (s.channels t) := by
  rw [State.statusOf, h]

theorem statusOf_of_none (h : s.executions.find? (Execution.executes t) = none) :
    s.statusOf t = .pending := by
  rw [State.statusOf, h]

theorem statusOf_congr
    (hexecutions : s'.executions.find? (Execution.executes t) =
      s.executions.find? (Execution.executes t))
    (hchannel : s'.channels t = s.channels t) : s'.statusOf t = s.statusOf t := by
  rw [State.statusOf, State.statusOf, hexecutions, hchannel]

theorem executes_eq_true {phase : Phase} (h : p.resultSender = t) :
    Execution.executes t ⟨p, phase⟩ = true :=
  decide_eq_true h

theorem executes_eq_false {phase : Phase} (h : p.resultSender ≠ t) :
    Execution.executes t ⟨p, phase⟩ = false :=
  decide_eq_false h

/-- A task that has not been started has no execution. -/
theorem find?_eq_none_of_count (h : s.log.count (.started t) = 0) (htally : Tally t s) :
    s.executions.find? (Execution.executes t) = none := by
  rw [List.find?_eq_none]
  exact List.countP_eq_zero.1 (htally.executed.trans h)

theorem not_started_of_ahead (hs : Reachable config submissions s)
    (h : (s.calls t.1).stage.Ahead t.2) : s.log.count (.started t) = 0 := by
  obtain ⟨hqueued, hheld, -, -⟩ := hs.tally t
  have hzero := (hs.enqueuedOnce t).2 h
  omega

theorem not_started_of_queued (hs : Reachable config submissions s) (hp : p ∈ s.queue)
    (hsender : p.resultSender = t) :
    s.log.count (.started t) = 0 ∧ s.log.count (.evicted t) = 0 := by
  obtain ⟨hqueued, hheld, -, -⟩ := hs.tally t
  have hone := (hs.enqueuedOnce t).1
  have hpos : 0 < s.queue.countP (sends t) :=
    List.countP_pos_iff.2 ⟨p, hp, decide_eq_true hsender⟩
  constructor <;> omega

theorem not_started_of_held {l : ℕ} (hs : Reachable config submissions s)
    (hl : s.loops[l]? = some (.mark p)) (hsender : p.resultSender = t) :
    s.log.count (.started t) = 0 := by
  obtain ⟨hqueued, hheld, -, -⟩ := hs.tally t
  have hone := (hs.enqueuedOnce t).1
  have hpos : 0 < s.loops.countP (LoopStage.holds t) :=
    List.countP_pos_iff.2 ⟨.mark p, List.mem_of_getElem? hl, decide_eq_true hsender⟩
  omega

theorem executed_once (hs : Reachable config submissions s) (t : Token ι) :
    s.executions.countP (Execution.executes t) ≤ 1 := by
  obtain ⟨hqueued, hheld, hexecuted, -⟩ := hs.tally t
  have hone := (hs.enqueuedOnce t).1
  omega

/-- The execution of a task goes on, from one phase to the next. -/
theorem statusOf_executionTo (t : Token ι) (s' : State ι) (phase' : Phase)
    (hs : Reachable config submissions s) {phase : Phase}
    (he : s.executions[k]? = some ⟨p, phase⟩)
    (hexecutions : s'.executions = s.executions.set k ⟨p, phase'⟩)
    (hchannels : p.resultSender ≠ t → s'.channels t = s.channels t) :
    (p.resultSender ≠ t → s'.statusOf t = s.statusOf t) ∧
      (p.resultSender = t → s.statusOf t = phase.status (s.channels t) ∧
        s'.statusOf t = phase'.status (s'.channels t)) := by
  refine ⟨fun hne => statusOf_congr ?_ (hchannels hne), fun heq => ⟨?_, ?_⟩⟩
  · rw [hexecutions]
    exact Slots.find?_set_of_neg he (executes_eq_false hne) (executes_eq_false hne)
  · exact statusOf_of_some (Slots.find?_eq_some_of_countP he (executes_eq_true heq)
      (executed_once hs t))
  · refine statusOf_of_some (e := ⟨p, phase'⟩) ?_
    rw [hexecutions]
    exact Slots.find?_set_of_countP he (executes_eq_true heq) (executes_eq_true heq)
      (executed_once hs t)

/-! ## What the entries say -/

namespace ActiveTasks

variable {active : ActiveTasks} {info : TaskInfo} {taskId : Text} {status : TaskStatus}

theorem mem_of_mem_remove (h : info ∈ active.remove taskId) : info ∈ active :=
  (List.mem_filter.1 h).1

/-- An entry after a change of status, and the one it was. -/
theorem mem_setStatus (h : info ∈ active.setStatus taskId status) :
    ∃ old ∈ active, info = if old.taskId = taskId then { old with status := status } else old := by
  obtain ⟨old, hold, rfl⟩ := List.mem_map.1 h
  exact ⟨old, hold, rfl⟩

theorem isSome_getTaskStatus :
    (active.getTaskStatus taskId).isSome ↔ taskId ∈ active.taskIds := by
  simp [getTaskStatus, taskIds]

end ActiveTasks

/-- Entries of this task say what it has come to. -/
def Shown (t : Token ι) (task : BoxedTask) (s : State ι) : Prop :=
  ∀ info ∈ s.active, info.taskId = task.taskId →
    info = ⟨task.taskId, task.taskType, s.statusOf t⟩

/-- Fewer entries, of tasks that have come to the same. -/
theorem Shown.of_subset (h : Shown t task s) (hactive : ∀ info ∈ s'.active, info ∈ s.active)
    (hstatus : s'.statusOf t = s.statusOf t) : Shown t task s' := by
  intro info hinfo hid
  rw [hstatus]
  exact h info (hactive info hinfo) hid

/-- One status changed along with what it says. -/
theorem Shown.of_setStatus {status : TaskStatus} (h : Shown t task s)
    (hactive : s'.active = s.active.setStatus id status)
    (hsame : id ≠ task.taskId → s'.statusOf t = s.statusOf t)
    (hnew : id = task.taskId → s'.statusOf t = status) : Shown t task s' := by
  intro info hinfo hid
  obtain ⟨old, hold, rfl⟩ := ActiveTasks.mem_setStatus (hactive ▸ hinfo)
  by_cases heq : old.taskId = id
  · rw [if_pos heq] at hid ⊢
    rw [h old hold hid, hnew (heq.symm.trans hid)]
  · rw [if_neg heq] at hid ⊢
    rw [h old hold hid, hsame fun hid' => heq (hid.trans hid'.symm)]

/-- An execution goes on without saying anything. -/
theorem Shown.of_executionTo {phase phase' : Phase} (h : Shown t task s)
    (hs : Reachable config submissions s) (he : s.executions[k]? = some ⟨p, phase⟩)
    (hactive : s'.active = s.active) (hexecutions : s'.executions = s.executions.set k ⟨p, phase'⟩)
    (hchannels : p.resultSender ≠ t → s'.channels t = s.channels t)
    (hstatus : p.resultSender = t →
      phase'.status (s'.channels t) = phase.status (s.channels t)) : Shown t task s' := by
  obtain ⟨hsame, hnew⟩ := statusOf_executionTo t s' phase' hs he hexecutions hchannels
  refine h.of_subset (fun info hinfo => hactive ▸ hinfo) ?_
  by_cases hsender : p.resultSender = t
  · exact (hnew hsender).2.trans ((hstatus hsender).trans (hnew hsender).1.symm)
  · exact hsame hsender

section Steps

variable (h : Shown t task s) (hs : Reachable config submissions s)

include h hs

/-- A task is registered before it has been put in the queue. -/
theorem Shown.register {task' : BoxedTask} (hids : UniqueIds submissions)
    (ht : IsTask submissions t task) (ha : enabled config submissions s (.register c i task')) :
    Shown t task ((scheduler config submissions).effect s (.register c i task')) := by
  intro info hinfo hid
  rcases List.mem_cons.1 hinfo with rfl | hinfo
  · have htask : IsTask submissions (c, i) task' := ha.2
    obtain rfl := hids.eq ht htask hid
    cases ha.2.symm.trans ht
    have hahead : (s.calls c).stage.Ahead i := by
      rw [ha.1]
      exact le_refl i
    have hnone := find?_eq_none_of_count (not_started_of_ahead hs hahead) (hs.tally (c, i))
    exact congrArg _ (statusOf_of_none (s := (scheduler config submissions).effect s _) hnone).symm
  · exact h info (ActiveTasks.mem_of_mem_remove hinfo) hid

/-- A task that is evicted has not been started, whatever its channel says. -/
theorem Shown.evict {rest : List (PendingTask (Token ι))}
    (ha : enabled config submissions s (.evict c i p rest)) :
    Shown t task ((scheduler config submissions).effect s (.evict c i p rest)) := by
  refine h.of_subset (fun _ => id) ?_
  by_cases hsender : p.resultSender = t
  · have hqueued : p ∈ s.queue := ha.2 ▸ List.mem_cons_self
    have hnone := find?_eq_none_of_count (not_started_of_queued hs hqueued hsender).1 (hs.tally t)
    exact (statusOf_of_none (s := (scheduler config submissions).effect s _) hnone).trans
      (statusOf_of_none hnone).symm
  · exact statusOf_congr rfl (update_of_ne (Ne.symm hsender) ..)

/-- A task that is started gets an execution, and an entry that says so. -/
theorem Shown.start {l : ℕ} (hids : UniqueIds submissions) (ht : IsTask submissions t task)
    (ha : enabled config submissions s (.start l p)) :
    Shown t task ((scheduler config submissions).effect s (.start l p)) := by
  have hp : Genuine submissions p := hs.genuine.loops p (List.mem_of_getElem? ha)
  have happend : (s.executions ++ [(⟨p, .running⟩ : Execution ι)]).find? (Execution.executes t) =
      (s.executions.find? (Execution.executes t)).or
        ([(⟨p, .running⟩ : Execution ι)].find? (Execution.executes t)) := List.find?_append
  refine h.of_setStatus rfl (fun hid => statusOf_congr ?_ rfl) fun hid => ?_
  · have hsender : p.resultSender ≠ t := fun hsender => hid (hp.taskId_eq ht hsender)
    refine happend.trans ?_
    rw [List.find?_singleton, executes_eq_false hsender]
    exact Option.or_none
  · have hsender : p.resultSender = t :=
      not_not.1 fun hsender => hp.taskId_ne hids ht hsender hid
    have hnone := find?_eq_none_of_count (not_started_of_held hs ha hsender) (hs.tally t)
    refine statusOf_of_some (e := ⟨p, .running⟩) (happend.trans ?_)
    rw [hnone, List.find?_singleton, executes_eq_true hsender]
    rfl

/-- A result is reported in the entry, and by the execution. -/
theorem Shown.report {result : TaskResult} (hids : UniqueIds submissions)
    (ht : IsTask submissions t task) (ha : enabled config submissions s (.report k p result)) :
    Shown t task ((scheduler config submissions).effect s (.report k p result)) := by
  have hp : Genuine submissions p := hs.genuine.executions _ (List.mem_of_getElem? ha)
  obtain ⟨hsame, hnew⟩ := statusOf_executionTo t
    ((scheduler config submissions).effect s (.report k p result)) (.reported result)
    hs ha rfl fun _ => rfl
  refine h.of_setStatus rfl (fun hid => hsame fun hsender => hid (hp.taskId_eq ht hsender))
    fun hid => (hnew (not_not.1 fun hsender => hp.taskId_ne hids ht hsender hid)).2

end Steps

theorem Shown.effect (h : Shown t task s) (hids : UniqueIds submissions)
    (ht : IsTask submissions t task) (hs : Reachable config submissions s)
    (ha : enabled config submissions s a) :
    Shown t task ((scheduler config submissions).effect s a) := by
  cases a with
  | register c i task' => exact h.register hs hids ht ha
  | clear c | cleanup c => exact h.of_subset (fun _ => ActiveTasks.mem_of_mem_remove) rfl
  | dropGuard c | cancel c =>
    refine h.of_subset (fun info hinfo => ?_) rfl
    simp only [scheduler, act] at hinfo
    cases hsubmission : submissions c with
    | single task' priority =>
      rw [hsubmission] at hinfo
      exact ActiveTasks.mem_of_mem_remove hinfo
    | batch tasks =>
      rw [hsubmission] at hinfo
      exact hinfo
  | evict c i p rest => exact h.evict hs ha
  | start l p => exact h.start hs hids ht ha
  | report k p result => exact h.report hs hids ht ha
  | finish k p outcome =>
    exact h.of_executionTo hs ha rfl rfl (fun _ => rfl) fun _ => rfl
  | release k p =>
    exact h.of_executionTo hs ha rfl rfl (fun _ => rfl) fun _ => rfl
  | panic k p | send k p result =>
    refine h.of_executionTo hs ha rfl rfl (fun hsender => update_of_ne (Ne.symm hsender) ..)
      fun hsender => ?_
    simp [scheduler, act, hsender, Phase.status]
  | _ => exact h

theorem Reachable.shown (hs : Reachable config submissions s) (hids : UniqueIds submissions)
    (ht : IsTask submissions t task) : Shown t task s :=
  hs.invariant (fun _ hinfo => absurd hinfo List.not_mem_nil)
    fun _ _ hs ha h => h.effect hids ht hs ha

end Scheduler

end SubxCore
