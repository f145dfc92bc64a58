import SubxCore.Common.Slots
import SubxCore.Parallel.Scheduler
/-!
# Each task is handed out once

A task that is put in the queue leaves it once, and then by one way only: it
is evicted, or a loop takes it, starts it, and its execution ends and sends.
Everything is counted: of each task, what has happened is at each point of
this way at most what has happened before (`Tally`). Whatever calls there are
and whichever way they interleave with the loops, no task is executed twice
or both evicted and executed, and one result at most is sent for it, its own
(`handed_out_once`).
-/

namespace SubxCore

namespace Scheduler

open Function PendingTask

variable {ι : Type} [DecidableEq ι] {config : ParallelConfig} {submissions : ι → Submission}
variable {s : State ι} {a : Action ι} {t : Token ι} {c : ι} {i j k : ℕ} {submission : Submission}
variable {call : Call} {result : TaskResult}

/-! ## Each task is put in once -/

/-- The task is still to be put in the queue. -/
def Stage.Ahead (j : ℕ) : Stage → Prop
  | .idle => True
  | .register i | .check i | .poll i | .evict i | .clear i _ | .enqueue i => i ≤ j
  | _ => False

theorem le_of_ahead_nextTask (h : (nextTask submission i).Ahead j) : i ≤ j := by
  unfold nextTask at h
  split at h
  · exact h
  · exact h.elim

theorem not_ahead_nextReceiver : ¬ (nextReceiver call k).Ahead j := by
  unfold nextReceiver
  split <;> exact id

theorem le_of_ahead_overflow {strategy : OverflowStrategy}
    (h : (overflow strategy submission i).Ahead j) : i ≤ j := by
  cases strategy with
  | block | dropOldest | expand => exact h
  | reject => cases submission <;> exact h.elim
  | drop =>
    cases submission with
    | single task priority => exact h.elim
    | batch tasks => exact (Nat.le_succ i).trans (le_of_ahead_nextTask h)

theorem not_ahead_receive {result : Option TaskResult} :
    ¬ (call.receive submission k result).stage.Ahead j := by
  cases submission <;> exact id

/-- Only what is ahead now can be ahead after an action. -/
theorem ahead_of_effect (ha : enabled config submissions s a)
    (h : (((scheduler config submissions).effect s a).calls c).stage.Ahead j) :
    (s.calls c).stage.Ahead j ∧ ∀ task, a ≠ .enqueue c j task := by
  by_cases hc : a.caller = some c
  swap
  · rw [calls_effect_of_ne hc] at h
    refine ⟨h, ?_⟩
    rintro task rfl
    exact hc rfl
  cases a with
  | begin c =>
    cases hc
    rw [show (s.calls c).stage = _ from ha]
    exact ⟨trivial, nofun⟩
  | register c i | hasRoom c i | poll c i | evict c i | evictNone c i =>
    cases hc
    simp only [scheduler, act, State.goTo, update_self] at h
    rw [ha.1]
    exact ⟨h, nofun⟩
  | clear c i =>
    cases hc
    simp only [scheduler, act, State.goTo, update_self] at h
    rw [show (s.calls c).stage = _ from ha]
    exact ⟨h, nofun⟩
  | isFull c i =>
    cases hc
    simp only [scheduler, act, State.goTo, update_self] at h
    rw [ha.1]
    exact ⟨le_of_ahead_overflow h, nofun⟩
  | enqueue c i task =>
    cases hc
    simp only [scheduler, act, update_self] at h
    have hlt : i < j := le_of_ahead_nextTask h
    rw [ha.1]
    refine ⟨hlt.le, ?_⟩
    rintro task' hcontra
    cases hcontra
    exact lt_irrefl _ hlt
  | receive c k i result =>
    cases hc
    simp only [scheduler, act, update_self] at h
    exact absurd h not_ahead_receive
  | ensure c =>
    cases hc
    simp only [scheduler, act, State.goTo, update_self] at h
    split at h
    · exact h.elim
    · exact absurd h not_ahead_nextReceiver
  | store c | cleanup c =>
    cases hc
    simp only [scheduler, act, State.goTo, update_self] at h
    exact absurd h not_ahead_nextReceiver
  | spawn c | dropGuard c | cancel c =>
    cases hc
    simp only [scheduler, act, State.goTo, update_self] at h
    exact h.elim
  | _ => cases hc

/-- A task is put in once, and not before its turn. -/
def EnqueuedOnce (t : Token ι) (s : State ι) : Prop :=
  s.log.count (.enqueued t) ≤ 1 ∧
    ((s.calls t.1).stage.Ahead t.2 → s.log.count (.enqueued t) = 0)

theorem EnqueuedOnce.effect (h : EnqueuedOnce t s) (ha : enabled config submissions s a) :
    EnqueuedOnce t ((scheduler config submissions).effect s a) := by
  have hcount : ((scheduler config submissions).effect s a).log.count (.enqueued t) =
      s.log.count (.enqueued t) + a.events.count (.enqueued t) := List.count_append
  by_cases hnow : ∃ task, a = .enqueue t.1 t.2 task
  · obtain ⟨task, rfl⟩ := hnow
    have hzero : s.log.count (.enqueued t) = 0 := by
      refine h.2 ?_
      rw [ha.1]
      exact le_refl t.2
    have hone : Action.events (.enqueue t.1 t.2 task) = [Event.enqueued t] := rfl
    rw [hzero, hone, List.count_singleton_self] at hcount
    exact ⟨hcount.le, fun hahead => absurd rfl ((ahead_of_effect ha hahead).2 task)⟩
  · have hzero : a.events.count (.enqueued t) = 0 := by
      cases a with
      | enqueue c i task =>
        refine List.count_eq_zero.2 fun hmem => ?_
        cases List.mem_singleton.1 hmem
        exact hnow ⟨task, rfl⟩
      | _ => rfl
    rw [hzero] at hcount
    refine ⟨hcount ▸ h.1, fun hahead => ?_⟩
    rw [hcount]
    exact h.2 (ahead_of_effect ha hahead).1

/-! ## The way of a task -/

/-- The task in the queue is this one. -/
def sends (t : Token ι) (p : PendingTask (Token ι)) : Bool := p.resultSender = t

/-- The loop holds this task. -/
def LoopStage.holds (t : Token ι) : LoopStage ι → Bool
  | .mark p => sends t p
  | _ => false

/-- The execution is one of this task. -/
def Execution.executes (t : Token ι) (e : Execution ι) : Bool := sends t e.pending

/-- It has nothing more to send. -/
def Execution.isDone (t : Token ι) (e : Execution ι) : Bool :=
  match e.phase with
  | .sent | .ended => e.executes t
  | _ => false

/-- A result is sent for this task. -/
def Event.isSent (t : Token ι) : Event ι → Bool
  | .sent t' _ => t' = t
  | _ => false

/-- **Where a task is.** What has left one point of its way has reached the
next. -/
structure Tally (t : Token ι) (s : State ι) : Prop where
  queued : s.queue.countP (sends t) + s.log.count (.evicted t) + s.log.count (.dequeued t) =
    s.log.count (.enqueued t)
  held : s.loops.countP (LoopStage.holds t) + s.log.count (.started t) = s.log.count (.dequeued t)
  executed : s.executions.countP (Execution.executes t) = s.log.count (.started t)
  sent : s.log.countP (Event.isSent t) ≤
    s.log.count (.evicted t) + s.executions.countP (Execution.isDone t)


/-- The log of an action follows the log before it. -/
theorem count_log_effect (e : Event ι) : ((scheduler config submissions).effect s a).log.count e =
    s.log.count e + a.events.count e :=
  List.count_append

theorem countP_log_effect (p : Event ι → Bool) :
    ((scheduler config submissions).effect s a).log.countP p = s.log.countP p + a.events.countP p :=
  List.countP_append

theorem Tally.effect_queued (h : Tally t s) (ha : enabled config submissions s a) :
    let s' := (scheduler config submissions).effect s a
    s'.queue.countP (sends t) + s'.log.count (.evicted t) + s'.log.count (.dequeued t) =
      s'.log.count (.enqueued t) := by
  have hqueued := h.queued
  dsimp only
  rw [count_log_effect, count_log_effect, count_log_effect]
  cases a with
  | evict c i p rest =>
    rw [ha.2] at hqueued
    simp [scheduler, act, Action.events, List.countP_cons, List.count_cons, sends] at hqueued ⊢
    omega
  | enqueue c i task =>
    simp [scheduler, act, Action.events, countP_insertPending, List.count_cons, sends] at hqueued ⊢
    omega
  | dequeue l p rest =>
    have htake := countP_of_takeNext (sends t) ha.2
    simp [scheduler, act, Action.events, List.count_cons, sends] at htake hqueued ⊢
    omega
  | _ => exact hqueued

theorem Tally.effect_held (h : Tally t s) (ha : enabled config submissions s a) :
    let s' := (scheduler config submissions).effect s a
    s'.loops.countP (LoopStage.holds t) + s'.log.count (.started t) =
      s'.log.count (.dequeued t) := by
  have hheld := h.held
  dsimp only
  rw [count_log_effect, count_log_effect]
  cases a with
  | spawn c => simpa [scheduler, act, Action.events, LoopStage.holds] using hheld
  | readQueue l | goOn l | leave l =>
    dsimp only [scheduler, act, State.loopTo]
    rw [Slots.countP_set_of_eq ha]
    · exact hheld
    · rfl
  | giveUp l | acquire l | noPermit l | dequeueNone l =>
    dsimp only [scheduler, act, State.loopTo]
    rw [Slots.countP_set_of_eq ha.1]
    · exact hheld
    · rfl
  | dequeue l p rest =>
    have hset := Slots.countP_set_add (b := .mark p) (LoopStage.holds t) ha.1
    simp [scheduler, act, Action.events, LoopStage.holds, List.count_cons, sends] at hset ⊢
    omega
  | start l p =>
    have hset := Slots.countP_set_add (b := .start) (LoopStage.holds t) ha
    simp [scheduler, act, Action.events, LoopStage.holds, List.count_cons, sends] at hset ⊢
    omega
  | _ => exact hheld

theorem Tally.effect_executed (h : Tally t s) (ha : enabled config submissions s a) :
    let s' := (scheduler config submissions).effect s a
    s'.executions.countP (Execution.executes t) = s'.log.count (.started t) := by
  have hexecuted := h.executed
  dsimp only
  rw [count_log_effect]
  cases a with
  | start l p =>
    simp [scheduler, act, Action.events, List.countP_cons, List.count_cons, Execution.executes,
      sends, hexecuted]
  | finish k p | panic k p | report k p | send k p | release k p =>
    dsimp only [scheduler, act, State.executionTo]
    rw [Slots.countP_set_of_eq ha]
    · exact hexecuted
    · rfl
  | _ => exact hexecuted

theorem Tally.effect_sent (h : Tally t s) (ha : enabled config submissions s a) :
    let s' := (scheduler config submissions).effect s a
    s'.log.countP (Event.isSent t) ≤
      s'.log.count (.evicted t) + s'.executions.countP (Execution.isDone t) := by
  have hsent := h.sent
  dsimp only
  rw [countP_log_effect, count_log_effect]
  cases a with
  | evict c i p rest =>
    simp [scheduler, act, Action.events, List.countP_cons, List.count_cons, Event.isSent]
    omega
  | start l p =>
    simpa [scheduler, act, Action.events, Event.isSent, Execution.isDone, List.count_cons]
      using hsent
  | finish k p outcome =>
    have hset := Slots.countP_set_of_eq (b := ⟨p, .finished outcome.result⟩)
      (p := Execution.isDone t) ha rfl
    simpa [scheduler, act, Action.events, hset, Event.isSent, List.count_cons] using hsent
  | report k p result =>
    have hset := Slots.countP_set_of_eq (b := ⟨p, .reported result⟩)
      (p := Execution.isDone t) ha rfl
    simpa [scheduler, act, Action.events, hset] using hsent
  | release k p =>
    have hset := Slots.countP_set_of_eq (b := ⟨p, .ended⟩) (p := Execution.isDone t) ha rfl
    simpa [scheduler, act, Action.events, hset] using hsent
  | panic k p =>
    have hset := Slots.countP_set_add (b := ⟨p, .ended⟩) (Execution.isDone t) ha
    simp [scheduler, act, Action.events, Event.isSent, Execution.isDone] at hset ⊢
    omega
  | send k p result =>
    have hset := Slots.countP_set_add (b := ⟨p, .sent⟩) (Execution.isDone t) ha
    simp [scheduler, act, Action.events, Event.isSent, Execution.isDone, Execution.executes, sends,
      List.countP_cons] at hset ⊢
    omega
  | _ => exact hsent

theorem Tally.effect (h : Tally t s) (ha : enabled config submissions s a) :
    Tally t ((scheduler config submissions).effect s a) :=
  ⟨h.effect_queued ha, h.effect_held ha, h.effect_executed ha, h.effect_sent ha⟩

theorem Reachable.enqueuedOnce (hs : Reachable config submissions s) (t : Token ι) :
    EnqueuedOnce t s :=
  hs.invariant ⟨Nat.zero_le 1, fun _ => rfl⟩ fun _ _ _ ha h => h.effect ha

theorem Reachable.tally (hs : Reachable config submissions s) (t : Token ι) : Tally t s :=
  hs.invariant ⟨rfl, rfl, rfl, le_refl 0⟩ fun _ _ _ ha h => h.effect ha

/-! ## What is sent -/

/-- The execution has this result to send. -/
def Execution.HasResult (t : Token ι) (result : TaskResult) (e : Execution ι) : Prop :=
  e.pending.resultSender = t ∧ (e.phase = .finished result ∨ e.phase = .reported result)

/-- The task's execution has ended with this result. -/
def Executed (t : Token ι) (result : TaskResult) (log : List (Event ι)) : Prop :=
  ∃ outcome : Outcome, outcome.result = result ∧ .ended t outcome ∈ log

/-- **What results come from.** -/
structure Sourced (t : Token ι) (s : State ι) : Prop where
  execution : ∀ e ∈ s.executions, ∀ result, e.HasResult t result → Executed t result s.log
  sent : ∀ result, .sent t result ∈ s.log →
    Executed t result s.log ∨ (result = overflowDrop ∧ .evicted t ∈ s.log)
  channel : ∀ result, s.channels t = .sent result → .sent t result ∈ s.log
  closed : s.channels t = .closed → .panicked t ∈ s.log

omit [DecidableEq ι] in
theorem Executed.append {log log' : List (Event ι)} (h : Executed t result log) :
    Executed t result (log ++ log') := by
  obtain ⟨outcome, hresult, hmem⟩ := h
  exact ⟨outcome, hresult, List.mem_append_left log' hmem⟩

omit [DecidableEq ι] in
/-- An execution that has been replaced by one with a result it had. -/
theorem Sourced.of_set (h : Sourced t s) {e : Execution ι} {log : List (Event ι)}
    (hnew : ∀ result, e.HasResult t result → Executed t result (s.log ++ log)) :
    ∀ e' ∈ s.executions.set k e, ∀ result, e'.HasResult t result →
      Executed t result (s.log ++ log) := by
  intro e' he' result hresult
  rcases List.mem_or_eq_of_mem_set he' with he' | rfl
  · exact (h.execution e' he' result hresult).append
  · exact hnew result hresult

theorem Sourced.effect_execution (h : Sourced t s) (ha : enabled config submissions s a) :
    ∀ e ∈ ((scheduler config submissions).effect s a).executions, ∀ result,
      e.HasResult t result → Executed t result (s.log ++ a.events) := by
  cases a with
  | start l p =>
    intro e he result hresult
    rcases List.mem_append.1 he with he | he
    · exact (h.execution e he result hresult).append
    · rw [List.mem_singleton.1 he] at hresult
      rcases hresult.2 with hphase | hphase <;> cases hphase
  | finish k p outcome =>
    refine h.of_set fun result hresult => ?_
    rcases hresult with ⟨rfl, hphase | hphase⟩
    · cases hphase
      exact ⟨outcome, rfl, List.mem_append_right _ (List.mem_singleton_self _)⟩
    · cases hphase
  | report k p result =>
    refine h.of_set fun result' hresult => ?_
    have hold : Executed t result s.log :=
      h.execution ⟨p, .finished result⟩ (List.mem_of_getElem? ha) result ⟨hresult.1, Or.inl rfl⟩
    rcases hresult.2 with hphase | hphase
    · cases hphase
    · cases hphase
      exact hold.append
  | panic k p | send k p | release k p =>
    refine h.of_set fun result hresult => ?_
    rcases hresult.2 with hphase | hphase <;> cases hphase
  | _ => exact fun e he result hresult => (h.execution e he result hresult).append

theorem Sourced.effect_sent (h : Sourced t s) (ha : enabled config submissions s a)
    (hsent : .sent t result ∈ s.log ++ a.events) :
    Executed t result (s.log ++ a.events) ∨
      (result = overflowDrop ∧ .evicted t ∈ s.log ++ a.events) := by
  rcases List.mem_append.1 hsent with hsent | hsent
  · rcases h.sent result hsent with hexecuted | ⟨hdrop, hevicted⟩
    · exact Or.inl hexecuted.append
    · exact Or.inr ⟨hdrop, List.mem_append_left _ hevicted⟩
  · cases a with
    | evict c i p rest =>
      simp only [Action.events, List.mem_cons, Event.sent.injEq, reduceCtorEq, false_or,
        List.not_mem_nil, or_false] at hsent
      obtain ⟨rfl, rfl⟩ := hsent
      exact Or.inr ⟨rfl, List.mem_append_right _ List.mem_cons_self⟩
    | send k p result' =>
      cases List.mem_singleton.1 hsent
      have hold := h.execution ⟨p, .reported result⟩ (List.mem_of_getElem? ha) result
        ⟨rfl, Or.inr rfl⟩
      exact Or.inl hold.append
    | _ => exact absurd hsent (List.count_eq_zero.1 rfl)

theorem Sourced.effect_channel (h : Sourced t s)
    (hchannel : ((scheduler config submissions).effect s a).channels t = .sent result) :
    .sent t result ∈ s.log ++ a.events := by
  cases a with
  | evict c i p rest | panic k p | send k p =>
    by_cases ht : t = p.resultSender
    · subst ht
      simp only [scheduler, act, update_self] at hchannel
      cases hchannel <;> simp [Action.events]
    · simp only [scheduler, act, State.executionTo, update_of_ne ht] at hchannel
      exact List.mem_append_left _ (h.channel result hchannel)
  | _ => exact List.mem_append_left _ (h.channel result hchannel)

theorem Sourced.effect_closed (h : Sourced t s)
    (hchannel : ((scheduler config submissions).effect s a).channels t = .closed) :
    .panicked t ∈ s.log ++ a.events := by
  cases a with
  | evict c i p rest | panic k p | send k p =>
    by_cases ht : t = p.resultSender
    · subst ht
      simp only [scheduler, act, update_self] at hchannel
      cases hchannel <;> simp [Action.events]
    · simp only [scheduler, act, State.executionTo, update_of_ne ht] at hchannel
      exact List.mem_append_left _ (h.closed hchannel)
  | _ => exact List.mem_append_left _ (h.closed hchannel)

theorem Reachable.sourced (hs : Reachable config submissions s) (t : Token ι) : Sourced t s := by
  refine hs.invariant ⟨nofun, nofun, nofun, nofun⟩ fun s a _ ha h => ?_
  exact ⟨h.effect_execution ha, fun _ => h.effect_sent ha, fun _ => h.effect_channel,
    h.effect_closed⟩

/-- **Each task is handed out once.** Whichever way the calls, the loops and the
executions interleave, a task is executed once at most, and never when it has
been evicted; one result at most is sent for it, and this is what its own
execution has come to, or its timeout, or, if it has been evicted, the failure
that says so. -/
theorem handed_out_once (hs : Reachable config submissions s) (t : Token ι) :
    s.executions.countP (Execution.executes t) ≤ 1 ∧
    ¬ (.evicted t ∈ s.log ∧ ∃ e ∈ s.executions, e.pending.resultSender = t) ∧
    s.log.countP (Event.isSent t) ≤ 1 ∧
    ∀ result, .sent t result ∈ s.log →
      .ended t (.completed result) ∈ s.log ∨
      (.ended t .timeout ∈ s.log ∧ result = executionTimeout) ∨
      (.evicted t ∈ s.log ∧ result = overflowDrop) := by
  obtain ⟨hqueued, hheld, hexecuted, hsent⟩ := hs.tally t
  have honce := (hs.enqueuedOnce t).1
  have hdone : s.executions.countP (Execution.isDone t) ≤
      s.executions.countP (Execution.executes t) := by
    refine List.countP_mono_left fun e _ he => ?_
    unfold Execution.isDone at he
    split at he
    · exact he
    · exact he
    · cases he
  refine ⟨by omega, ?_, by omega, ?_⟩
  · rintro ⟨hevicted, e, he, rfl⟩
    have hevicted' := List.count_pos_iff.2 hevicted
    have hexecuted' : 0 < s.executions.countP (Execution.executes e.pending.resultSender) :=
      List.countP_pos_iff.2 ⟨e, he, decide_eq_true rfl⟩
    omega
  · intro result hresult
    rcases (hs.sourced t).sent result hresult with ⟨outcome, rfl, hmem⟩ | ⟨hdrop, hevicted⟩
    · cases outcome with
      | completed result => exact Or.inl hmem
      | timeout => exact Or.inr (Or.inl ⟨hmem, rfl⟩)
    · exact Or.inr (Or.inr ⟨hevicted, hdrop⟩)

/-! ## A scheduler at work -/

/-- One job at a time, and a queue of one task. -/
def smallConfig (strategy : OverflowStrategy) : ParallelConfig := ⟨1, 1, false, strategy⟩

/-- A task. -/
def validation : BoxedTask := ⟨"validation".toList, "file".toList⟩

/-- Another one. -/
def conversion : BoxedTask := ⟨"conversion".toList, "file".toList⟩

/-- What they come to. -/
def validated : TaskResult := .success "valid".toList

/-- A call that submits it, from its first step to the result that is sent. -/
def validationRun : List (Action Unit) :=
  let pending := ⟨validation, ((), 0), validation.taskId, .high⟩
  [.begin (), .register () 0 validation, .hasRoom () 0, .enqueue () 0 validation, .ensure (),
    .readQueue 0, .goOn 0 true, .acquire 0, .dequeue 0 pending [], .start 0 pending,
    .finish 0 pending (.completed validated), .report 0 pending validated,
    .send 0 pending validated]

theorem handed_out_once_validation :
    ∃ s : State Unit, s.log.countP (Event.isSent ((), 0)) = 1 ∧
      s.executions.countP (Execution.executes ((), 0)) ≤ 1 := by
  obtain ⟨s, hs, hsent⟩ := Machine.exists_reaches_of_run
    (by decide : ((scheduler (smallConfig .block) fun _ => .single validation .high).run
      (init Unit (smallConfig .block)) validationRun).any
        (fun s => s.log.countP (Event.isSent ((), 0)) == 1) = true)
  exact ⟨s, beq_iff_eq.1 hsent, (handed_out_once hs ((), 0)).1⟩

end Scheduler

end SubxCore
