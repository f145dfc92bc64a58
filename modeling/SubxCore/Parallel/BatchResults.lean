import SubxCore.Parallel.Calls
import Mathlib.Data.List.Forall2
/-!
# The results of a batch

A batch that returns has gathered one result from each of the receivers it has
kept, and then taken the task's entry out of the map of active tasks. Under
`Reject` and `Drop` a task that meets a full queue leaves the batch by another
way, past its receiver and past its entry, so that there are too few results
and an entry too many. Where that has not happened, each task has its result,
in the order in which the tasks were submitted, and none has an entry
(`batch_answered_iff`).
-/

namespace SubxCore

namespace Scheduler

open Function PendingTask

variable {ι : Type} [DecidableEq ι] {config : ParallelConfig} {submissions : ι → Submission}
variable {s : State ι} {a : Action ι} {c : ι} {i j k : ℕ} {tasks : List BoxedTask}
variable {task : BoxedTask} {results : List TaskResult} {result : TaskResult}
variable {log log' : List (Event ι)} {t : Token ι}

/-! ## What a task has come to -/

/-- What a task has come to: the result of its execution, or the failure that says
that it was evicted, or that nobody could send a result. -/
def CameTo (log : List (Event ι)) (t : Token ι) (result : TaskResult) : Prop :=
  Executed t result log ∨ (.evicted t ∈ log ∧ result = overflowDrop) ∨
    (.panicked t ∈ log ∧ result = .failed interrupted)

omit [DecidableEq ι] in
theorem CameTo.append (h : CameTo log t result) : CameTo (log ++ log') t result := by
  rcases h with hexecuted | ⟨hevicted, hresult⟩ | ⟨hpanicked, hresult⟩
  · exact Or.inl hexecuted.append
  · exact Or.inr (Or.inl ⟨List.mem_append_left _ hevicted, hresult⟩)
  · exact Or.inr (Or.inr ⟨List.mem_append_left _ hpanicked, hresult⟩)

omit [DecidableEq ι] in
/-- A batch takes what the channel gives it for what the task has come to. -/
theorem Sourced.cameTo {received : Option TaskResult} (h : Sourced t s)
    (hreceive : (s.channels t).receive = some received) :
    CameTo s.log t (received.getD (.failed interrupted)) := by
  cases hchannel : s.channels t with
  | empty =>
    rw [hchannel] at hreceive
    cases hreceive
  | sent result =>
    rw [hchannel] at hreceive
    cases hreceive
    rcases h.sent result (h.channel result hchannel) with hexecuted | ⟨hdrop, hevicted⟩
    · exact Or.inl hexecuted
    · exact Or.inr (Or.inl ⟨hevicted, hdrop⟩)
  | closed =>
    rw [hchannel] at hreceive
    cases hreceive
    exact Or.inr (Or.inr ⟨h.closed hchannel, rfl⟩)

/-! ## The results of the receivers -/

/-- Each result is what the task of its receiver has come to. -/
def Answered (log : List (Event ι)) (c : ι) (call : Call) : Prop :=
  List.Forall₂ (fun i result => CameTo log (c, i) result)
    (call.receivers.take call.results.length) call.results

omit [DecidableEq ι] in
theorem Answered.append {call : Call} (h : Answered log c call) :
    Answered (log ++ log') c call := List.Forall₂.imp (fun _ _ => CameTo.append) h

omit [DecidableEq ι] in
/-- One more result, from the next receiver. -/
theorem Answered.receive {call : Call} (h : Answered log c call)
    (hreceiver : call.receivers[call.results.length]? = some i)
    (hresult : CameTo log (c, i) result) :
    List.Forall₂ (fun i result => CameTo log (c, i) result)
      (call.receivers.take (call.results ++ [result]).length) (call.results ++ [result]) := by
  have hlength : (call.results ++ [result]).length = call.results.length + 1 := by simp
  rw [hlength, List.take_add_one, hreceiver]
  exact List.rel_append h (List.Forall₂.cons hresult List.Forall₂.nil)

theorem answered_effect (h : Answered s.log c (s.calls c)) (hsourced : ∀ t, Sourced t s)
    (hprogress : Progress config submissions c s) (ha : enabled config submissions s a) :
    Answered (s.log ++ a.events) c (((scheduler config submissions).effect s a).calls c) := by
  by_cases hc : a.caller = some c
  swap
  · rw [calls_effect_of_ne hc]
    exact h.append
  unfold Progress Call.Accords at hprogress
  cases a with
  | enqueue c i task =>
    cases hc
    rw [ha.1] at hprogress
    simp only [scheduler, act, update_self]
    rw [Answered, hprogress.2.2]
    exact List.Forall₂.nil
  | receive c k i received =>
    cases hc
    obtain ⟨hstage, hreceiver, hreceive⟩ := ha
    rw [hstage] at hprogress
    simp only [scheduler, act, update_self, Action.events, List.append_nil]
    cases hsubmission : submissions c with
    | single task priority => exact h
    | batch tasks =>
      exact h.receive (hprogress.2.2 ▸ hreceiver) ((hsourced (c, i)).cameTo hreceive)
  | begin c | register c | hasRoom c | isFull c | poll c | evict c | evictNone c | clear c
  | ensure c | spawn c | store c | cleanup c | dropGuard c | cancel c =>
    cases hc
    simp only [scheduler, act, State.goTo, update_self]
    exact h.append
  | _ => cases hc

theorem Reachable.answered (hs : Reachable config submissions s) (c : ι) :
    Answered s.log c (s.calls c) :=
  hs.invariant List.Forall₂.nil fun _ _ hs ha h =>
    answered_effect h hs.sourced (hs.progress c) ha

/-! ## How a batch returns -/

/-- Only a task of the call meets a full queue. -/
theorem Reachable.full_lt (hs : Reachable config submissions s) :
    .full (c, i) ∈ s.log → i < (submissions c).tasks.length := by
  refine hs.invariant (P := fun s => .full (c, i) ∈ s.log → i < _) nofun
    fun s a hs ha h hfull => ?_
  rcases List.mem_append.1 hfull with hfull | hfull
  · exact h hfull
  · obtain rfl := eq_isFull_of_mem_events hfull
    have hprogress := hs.progress c
    unfold Progress Call.Accords at hprogress
    rw [ha.1] at hprogress
    exact hprogress.1

/-- The batch has been turned away as a whole. -/
def TurnedAway (config : ParallelConfig) (log : List (Event ι)) (c : ι) : Prop :=
  config.queueOverflowStrategy = .reject ∧ ∃ i, .full (c, i) ∈ log

omit [DecidableEq ι] in
theorem TurnedAway.append (h : TurnedAway config log c) : TurnedAway config (log ++ log') c :=
  ⟨h.1, h.2.imp fun _ => List.mem_append_left _⟩

/-- A batch that has been turned away has returned without results. -/
theorem Reachable.turnedAway (hs : Reachable config submissions s)
    (hbatch : submissions c = .batch tasks) :
    TurnedAway config s.log c → (s.calls c).stage = .returned (.batch []) := by
  refine hs.invariant
    (P := fun s => TurnedAway config s.log c → (s.calls c).stage = .returned (.batch []))
    (fun ⟨_, _, hmem⟩ => absurd hmem List.not_mem_nil) fun s a hs ha h => ?_
  rintro ⟨hreject, i, hfull⟩
  by_cases hnow : a = .isFull c i
  · subst hnow
    simp only [scheduler, act, State.goTo, update_self, hreject, hbatch, overflow]
  have hbefore : .full (c, i) ∈ s.log := by
    rcases List.mem_append.1 hfull with hfull | hfull
    · exact hfull
    · exact absurd (eq_isFull_of_mem_events hfull) hnow
  have hstage := h ⟨hreject, i, hbefore⟩
  by_cases hc : a.caller = some c
  swap
  · rw [calls_effect_of_ne hc, hstage]
  -- a call that has returned does nothing more
  exfalso
  cases a with
  | begin c | clear c | ensure c | spawn c | store c | dropGuard c =>
    cases hc
    cases hstage.symm.trans ha
  | register c | hasRoom c | isFull c | poll c | evict c | evictNone c | enqueue c | receive c
  | cleanup c =>
    cases hc
    cases hstage.symm.trans ha.1
  | cancel c =>
    cases hc
    rw [enabled, hstage] at ha
    exact ha
  | _ => cases hc

theorem nextTask_ne_returned {submission : Submission} {reply : Reply} :
    nextTask submission i ≠ .returned reply := by
  unfold nextTask
  split <;> nofun

/-- A batch returns when no receiver is left. -/
theorem nextReceiver_eq_returned {call : Call}
    (h : nextReceiver call k = .returned (.batch results)) :
    call.receivers.length ≤ k ∧ results = call.results := by
  unfold nextReceiver at h
  split at h
  · cases h
  · next hlt =>
    cases h
    exact ⟨not_lt.1 hlt, rfl⟩

/-- A batch that returns has been turned away, or has a result for every receiver. -/
def ReturnsAll (config : ParallelConfig) (submissions : ι → Submission) (c : ι) (s : State ι) :
    Prop :=
  ∀ results, (s.calls c).stage = .returned (.batch results) →
    TurnedAway config s.log c ∨
      ((s.calls c).receivers = keptBefore config s.log c (submissions c).tasks.length ∧
        results = (s.calls c).results ∧ results.length = (s.calls c).receivers.length)

/-- It returns after the last receiver with all the results. -/
theorem returnsAll_nextReceiver {call : Call} {kept : List ℕ} (hkept : call.receivers = kept)
    (hk : k ≤ call.receivers.length) (hresults : call.results.length = k)
    (h : nextReceiver call k = .returned (.batch results)) :
    call.receivers = kept ∧ results = call.results ∧ results.length = call.receivers.length := by
  obtain ⟨hge, rfl⟩ := nextReceiver_eq_returned h
  exact ⟨hkept, rfl, hresults.trans (le_antisymm hk hge)⟩

theorem ReturnsAll.effect (h : ReturnsAll config submissions c s)
    (hprogress : Progress config submissions c s) (ha : enabled config submissions s a) :
    ReturnsAll config submissions c ((scheduler config submissions).effect s a) := by
  intro results hreturned
  by_cases hc : a.caller = some c
  swap
  · rw [calls_effect_of_ne hc] at hreturned ⊢
    rcases h results hreturned with hturned | ⟨hreceivers, hresults⟩
    · exact Or.inl hturned.append
    · refine Or.inr ⟨hreceivers.trans ?_, hresults⟩
      exact (keptBefore_append fun j _ => full_notMem_events hc).symm
  unfold Progress Call.Accords at hprogress
  cases a with
  | isFull c i =>
    cases hc
    simp only [scheduler, act, State.goTo, update_self] at hreturned
    cases hstrategy : config.queueOverflowStrategy with
    | reject =>
      exact Or.inl ⟨hstrategy, i, List.mem_append_right _ (List.mem_singleton_self _)⟩
    | block | dropOldest | expand =>
      rw [hstrategy] at hreturned
      cases hreturned
    | drop =>
      rw [hstrategy] at hreturned
      cases hsubmission : submissions c with
      | single task priority =>
        rw [hsubmission] at hreturned
        cases hreturned
      | batch tasks =>
        rw [hsubmission] at hreturned
        exact absurd hreturned nextTask_ne_returned
  | begin c =>
    cases hc
    simp only [scheduler, act, State.goTo, update_self] at hreturned
    exact absurd hreturned nextTask_ne_returned
  | enqueue c i task =>
    cases hc
    simp only [scheduler, act, update_self] at hreturned
    exact absurd hreturned nextTask_ne_returned
  | ensure c =>
    cases hc
    rw [show (s.calls c).stage = _ from ha] at hprogress
    simp only [scheduler, act, State.goTo, update_self, Action.events, List.append_nil]
      at hreturned ⊢
    split at hreturned
    · cases hreturned
    · exact Or.inr (returnsAll_nextReceiver hprogress.1 (Nat.zero_le _) (hprogress.2 ▸ rfl)
        hreturned)
  | store c =>
    cases hc
    rw [show (s.calls c).stage = _ from ha] at hprogress
    simp only [scheduler, act, State.goTo, update_self, Action.events, List.append_nil]
      at hreturned ⊢
    exact Or.inr (returnsAll_nextReceiver hprogress.1 (Nat.zero_le _) (hprogress.2 ▸ rfl)
      hreturned)
  | cleanup c k i task =>
    cases hc
    rw [ha.1] at hprogress
    simp only [scheduler, act, State.goTo, update_self, Action.events, List.append_nil]
      at hreturned ⊢
    exact Or.inr (returnsAll_nextReceiver hprogress.1 hprogress.2.1 hprogress.2.2 hreturned)
  | receive c k i received =>
    cases hc
    simp only [scheduler, act, update_self] at hreturned
    cases hsubmission : submissions c <;> rw [hsubmission] at hreturned <;> cases hreturned
  | register c | hasRoom c | poll c | evict c | evictNone c | clear c | spawn c | dropGuard c
  | cancel c =>
    cases hc
    simp only [scheduler, act, State.goTo, update_self] at hreturned
    cases hreturned
  | _ => cases hc

theorem Reachable.returnsAll (hs : Reachable config submissions s) (c : ι) :
    ReturnsAll config submissions c s :=
  hs.invariant nofun fun _ _ hs ha h => h.effect (hs.progress c) ha

/-! ## The entries of a batch -/

/-- The ids of the tasks of a call: no two of its tasks have the same, and no other
task that is submitted has one of them. -/
def DistinctIds (submissions : ι → Submission) (c : ι) : Prop :=
  ∀ (i : ℕ) (task : BoxedTask), (submissions c).tasks[i]? = some task →
    ∀ (c' : ι) (i' : ℕ) (task' : BoxedTask), (submissions c').tasks[i']? = some task' →
      task'.taskId = task.taskId → (c', i') = (c, i)

/-- A task of a batch may still have its entry: it has been registered, and its
receiver's result has not been taken. -/
def Stage.MayHold (receivers : List ℕ) (i : ℕ) : Stage → Prop
  | .idle => False
  | .register j => i < j
  | .check j | .poll j | .evict j | .clear j _ | .enqueue j => i ≤ j
  | .await k | .cleanup k => i ∉ receivers.take k
  | .returned (.batch _) => i ∉ receivers
  | _ => True

theorem mayHold_nextTask {submission : Submission} {receivers : List ℕ} (h : i < j) :
    (nextTask submission j).MayHold receivers i := by
  unfold nextTask
  split
  · exact h
  · trivial

theorem mayHold_nextReceiver {call : Call} (h : i ∉ call.receivers.take k) :
    (nextReceiver call k).MayHold call.receivers i := by
  unfold nextReceiver
  split
  · exact h
  · next hlt => rwa [List.take_of_length_le (not_lt.1 hlt)] at h

/-- An entry has been there before, unless its task is registered just now. -/
theorem mem_taskIds_of_effect {taskId : Text}
    (h : taskId ∈ ((scheduler config submissions).effect s a).active.taskIds) :
    taskId ∈ s.active.taskIds ∨ ∃ c i task, a = .register c i task ∧ taskId = task.taskId := by
  cases a with
  | register c i task =>
    rcases ActiveTasks.mem_taskIds_insert.1 h with heq | hmem
    · exact Or.inr ⟨c, i, task, rfl, heq⟩
    · exact Or.inl hmem
  | clear c | cleanup c => exact Or.inl (ActiveTasks.mem_taskIds_remove.1 h).1
  | dropGuard c | cancel c =>
    refine Or.inl ?_
    simp only [scheduler, act] at h
    cases hsubmission : submissions c <;> rw [hsubmission] at h
    · exact (ActiveTasks.mem_taskIds_remove.1 h).1
    · exact h
  | start l | report k =>
    refine Or.inl ?_
    simpa [scheduler, act] using h
  | _ => exact Or.inl h

/-- A batch that has not been turned away leaves only entries it still knows of. -/
def HoldsOnly (config : ParallelConfig) (submissions : ι → Submission) (c : ι) (s : State ι) :
    Prop :=
  ¬ TurnedAway config s.log c → ∀ i task, (submissions c).tasks[i]? = some task →
    task.taskId ∈ s.active.taskIds → (s.calls c).stage.MayHold (s.calls c).receivers i

section Steps

variable (htask : (submissions c).tasks[i]? = some task)
  (hhold : task.taskId ∈ s.active.taskIds → (s.calls c).stage.MayHold (s.calls c).receivers i)

include htask hhold

/-- The action of another registers no task of this call. -/
theorem mayHold_of_ne (hids : DistinctIds submissions c) (ha : enabled config submissions s a)
    (hc : a.caller ≠ some c)
    (hmem : task.taskId ∈ ((scheduler config submissions).effect s a).active.taskIds) :
    (((scheduler config submissions).effect s a).calls c).stage.MayHold
      (((scheduler config submissions).effect s a).calls c).receivers i := by
  rw [calls_effect_of_ne hc]
  rcases mem_taskIds_of_effect hmem with hmem | ⟨c', i', task', rfl, heq⟩
  · exact hhold hmem
  · cases hids i task htask c' i' task' ha.2 heq.symm
    exact absurd rfl hc

/-- The call registers its tasks one after the other. -/
theorem mayHold_register {task' : BoxedTask} (hids : DistinctIds submissions c)
    (ha : enabled config submissions s (.register c j task'))
    (hmem : task.taskId ∈
      ((scheduler config submissions).effect s (.register c j task')).active.taskIds) :
    (((scheduler config submissions).effect s (.register c j task')).calls c).stage.MayHold
      (((scheduler config submissions).effect s (.register c j task')).calls c).receivers i := by
  rw [ha.1] at hhold
  simp only [scheduler, act, State.goTo, update_self]
  rcases mem_taskIds_of_effect hmem with hmem | ⟨c', i'', task'', heq, hid⟩
  · exact (hhold hmem).le
  · cases heq
    cases hids i task htask c j task' ha.2 hid.symm
    exact le_refl _

/-- The task of a receiver is removed with its result, those before it were before. -/
theorem mayHold_cleanup {task' : BoxedTask}
    (ha : enabled config submissions s (.cleanup c k j task'))
    (hmem : task.taskId ∈
      ((scheduler config submissions).effect s (.cleanup c k j task')).active.taskIds) :
    (((scheduler config submissions).effect s (.cleanup c k j task')).calls c).stage.MayHold
      (((scheduler config submissions).effect s (.cleanup c k j task')).calls c).receivers i := by
  obtain ⟨hstage, hreceiver, htask'⟩ := ha
  rw [hstage] at hhold
  obtain ⟨hmem, hne⟩ := ActiveTasks.mem_taskIds_remove.1 hmem
  simp only [scheduler, act, State.goTo, update_self]
  refine mayHold_nextReceiver fun htake => ?_
  rw [List.take_add_one, hreceiver] at htake
  rcases List.mem_append.1 htake with htake | htake
  · exact hhold hmem htake
  · cases List.mem_singleton.1 htake
    rw [htask] at htask'
    cases htask'
    exact hne rfl

omit htask hhold

/-- A batch that meets a full queue and is not turned away goes on to the next task. -/
theorem mayHold_isFull (hhold : (s.calls c).stage.MayHold (s.calls c).receivers i)
    (hbatch : submissions c = .batch tasks) (ha : enabled config submissions s (.isFull c j))
    (hnot : ¬ TurnedAway config ((scheduler config submissions).effect s (.isFull c j)).log c) :
    (((scheduler config submissions).effect s (.isFull c j)).calls c).stage.MayHold
      (((scheduler config submissions).effect s (.isFull c j)).calls c).receivers i := by
  rw [ha.1] at hhold
  simp only [scheduler, act, State.goTo, update_self]
  cases hstrategy : config.queueOverflowStrategy with
  | block | dropOldest | expand => exact hhold
  | drop =>
    rw [hbatch]
    exact mayHold_nextTask (Nat.lt_succ_of_le hhold)
  | reject =>
    exact absurd ⟨hstrategy, j, List.mem_append_right _ (List.mem_singleton_self _)⟩ hnot

end Steps

theorem HoldsOnly.effect (h : HoldsOnly config submissions c s) (hids : DistinctIds submissions c)
    (hbatch : submissions c = .batch tasks) (ha : enabled config submissions s a) :
    HoldsOnly config submissions c ((scheduler config submissions).effect s a) := by
  intro hnot i task htask hmem
  have hhold : task.taskId ∈ s.active.taskIds →
      (s.calls c).stage.MayHold (s.calls c).receivers i :=
    h (fun hturned => hnot hturned.append) i task htask
  by_cases hc : a.caller = some c
  swap
  · exact mayHold_of_ne htask hhold hids ha hc hmem
  cases a with
  | register c j task' =>
    cases hc
    exact mayHold_register htask hhold hids ha hmem
  | cleanup c k j task' =>
    cases hc
    exact mayHold_cleanup htask hhold ha hmem
  | isFull c j =>
    cases hc
    exact mayHold_isFull (hhold hmem) hbatch ha hnot
  | begin c =>
    cases hc
    rw [show (s.calls c).stage = _ from ha] at hhold
    exact (hhold hmem).elim
  | hasRoom c | poll c | evict c | evictNone c =>
    cases hc
    rw [ha.1] at hhold
    simp only [scheduler, act, State.goTo, update_self]
    exact hhold hmem
  | clear c j evicted =>
    cases hc
    rw [show (s.calls c).stage = _ from ha] at hhold
    simp only [scheduler, act, State.goTo, update_self]
    exact hhold (ActiveTasks.mem_taskIds_remove.1 hmem).1
  | enqueue c j =>
    cases hc
    rw [ha.1] at hhold
    simp only [scheduler, act, update_self]
    exact mayHold_nextTask (Nat.lt_succ_of_le (hhold hmem))
  | ensure c =>
    cases hc
    simp only [scheduler, act, State.goTo, update_self]
    split
    · trivial
    · exact mayHold_nextReceiver List.not_mem_nil
  | store c =>
    cases hc
    simp only [scheduler, act, State.goTo, update_self]
    exact mayHold_nextReceiver List.not_mem_nil
  | receive c k i' received =>
    cases hc
    rw [ha.1] at hhold
    simp only [scheduler, act, update_self, hbatch]
    exact hhold hmem
  | spawn c | dropGuard c | cancel c =>
    cases hc
    simp only [scheduler, act, State.goTo, update_self]
    trivial
  | _ => cases hc

theorem Reachable.holdsOnly (hs : Reachable config submissions s) (hids : DistinctIds submissions c)
    (hbatch : submissions c = .batch tasks) : HoldsOnly config submissions c s :=
  hs.invariant (fun _ _ _ _ hmem => absurd hmem List.not_mem_nil)
    fun _ _ _ ha h => h.effect hids hbatch ha

/-! ## What a batch returns -/

/-- **What a batch returns.** It has one result for each task, in the order of the
tasks, and no entry for any of them, if and only if none of its tasks has met a
full queue under `Reject` or `Drop`. -/
theorem batch_answered_iff (hs : Reachable config submissions s)
    (hbatch : submissions c = .batch tasks) (hids : DistinctIds submissions c)
    (hreturned : (s.calls c).stage = .returned (.batch results)) :
    (List.Forall₂ (fun i result => CameTo s.log (c, i) result) (List.range tasks.length) results ∧
      ∀ task ∈ tasks, task.taskId ∉ s.active.taskIds) ↔
    (config.queueOverflowStrategy = .reject ∨ config.queueOverflowStrategy = .drop →
      ∀ i, .full (c, i) ∉ s.log) := by
  have htasks : (submissions c).tasks = tasks := by rw [hbatch]; rfl
  constructor
  · rintro ⟨hanswered, -⟩ hstrategy i hfull
    have hlength := hanswered.length_eq
    have hi : i < tasks.length := htasks ▸ hs.full_lt hfull
    rw [List.length_range] at hlength
    rcases hs.returnsAll c results hreturned with hturned | ⟨hreceivers, -, hresults⟩
    · -- a batch that is turned away has no results at all
      rw [hs.turnedAway hbatch hturned] at hreturned
      cases hreturned
      rw [hlength] at hi
      exact absurd hi (Nat.not_lt_zero i)
    rcases hstrategy with hreject | hdrop
    · rw [hs.turnedAway hbatch ⟨hreject, i, hfull⟩] at hreturned
      cases hreturned
      rw [hlength] at hi
      exact absurd hi (Nat.not_lt_zero i)
    · -- a task that is dropped has no receiver
      rw [hreceivers, htasks, ← hlength] at hresults
      have hall := List.length_filter_eq_length_iff.1
        (hresults.symm.trans (List.length_range (n := tasks.length)).symm) i (List.mem_range.2 hi)
      exact of_decide_eq_true hall ⟨hdrop, hfull⟩
  · intro hnone
    have hnot : ¬ TurnedAway config s.log c := fun ⟨hreject, i, hfull⟩ =>
      hnone (Or.inl hreject) i hfull
    obtain ⟨hreceivers, hresults, hlength⟩ :=
      (hs.returnsAll c results hreturned).resolve_left hnot
    have hkept : (s.calls c).receivers = List.range tasks.length := by
      rw [hreceivers, htasks]
      refine List.filter_eq_self.2 fun i _ => decide_eq_true ?_
      exact fun ⟨hdrop, hfull⟩ => hnone (Or.inr hdrop) i hfull
    have hanswered := hs.answered c
    rw [Answered, ← hresults, hlength, List.take_length, hkept] at hanswered
    refine ⟨hanswered, fun task htask hactive => ?_⟩
    obtain ⟨i, hi⟩ := List.getElem?_of_mem htask
    have hholds := hs.holdsOnly hids hbatch hnot i task (by rw [htasks, hi]) hactive
    rw [hreturned, hkept] at hholds
    exact hholds (List.mem_range.2 (List.getElem?_eq_some_iff.1 hi).1)

/-- A batch of two tasks. -/
def twoTasks : Unit → Submission := fun _ => .batch [validation, conversion]

/-- One of its tasks in the queue. -/
def queuedTask (i : ℕ) (task : BoxedTask) : PendingTask (Token Unit) :=
  ⟨task, ((), i), task.taskId, .normal⟩

/-- The first loop takes a task and starts it. -/
def serve (p : PendingTask (Token Unit)) : List (Action Unit) :=
  [.readQueue 0, .goOn 0 true, .acquire 0, .dequeue 0 p [], .start 0 p]

/-- An execution is carried out. -/
def execute (k : ℕ) (p : PendingTask (Token Unit)) (outcome : Outcome) :
    List (Action Unit) :=
  [.finish k p outcome, .report k p outcome.result, .send k p outcome.result, .release k p]

/-- The batch puts its first task in the queue and finds this full. -/
def firstTask : List (Action Unit) :=
  [.begin (), .register () 0 validation, .hasRoom () 0, .enqueue () 0 validation,
    .register () 1 conversion, .isFull () 1]

/-- A batch that waits for room. -/
def blockingRun : List (Action Unit) :=
  let p := queuedTask 0 validation
  let q := queuedTask 1 conversion
  firstTask ++ serve p ++ [.poll () 1, .enqueue () 1 conversion, .ensure ()] ++
    execute 0 p (.completed validated) ++ serve q ++ execute 1 q .timeout ++
    [.receive () 0 0 (some validated), .cleanup () 0 0 validation,
      .receive () 1 1 (some executionTimeout), .cleanup () 1 1 conversion]

theorem getElem?_twoTasks {c : Unit} (h : (twoTasks c).tasks[i]? = some task) :
    (i = 0 ∧ task = validation) ∨ (i = 1 ∧ task = conversion) := by
  rcases i with - | - | i
  · exact Or.inl ⟨rfl, Option.some.inj h.symm⟩
  · exact Or.inr ⟨rfl, Option.some.inj h.symm⟩
  · cases h

theorem distinctIds_twoTasks : DistinctIds twoTasks () := by
  intro i task hi c' i' task' hi' heq
  have hne : validation.taskId ≠ conversion.taskId := by decide
  rw [Subsingleton.elim c' ()]
  rcases getElem?_twoTasks hi with ⟨rfl, rfl⟩ | ⟨rfl, rfl⟩ <;>
    rcases getElem?_twoTasks hi' with ⟨rfl, rfl⟩ | ⟨rfl, rfl⟩
  · rfl
  · exact absurd heq.symm hne
  · exact absurd heq hne
  · rfl

/-- A batch that waits for room has all its results. -/
theorem batch_answered_blocking :
    ∃ s, Reachable (smallConfig .block) twoTasks s ∧
      List.Forall₂ (fun i result => CameTo s.log ((), i) result) (List.range 2)
        [validated, executionTimeout] := by
  obtain ⟨s, hs, hreturned⟩ := Machine.exists_reaches_of_run
    (by decide +kernel : ((scheduler (smallConfig .block) twoTasks).run
      (init Unit (smallConfig .block)) blockingRun).any
        (fun s => decide ((s.calls ()).stage =
          .returned (.batch [validated, executionTimeout]))) = true)
  exact ⟨s, hs, ((batch_answered_iff hs rfl distinctIds_twoTasks
    (of_decide_eq_true hreturned)).2 (by rintro (h | h) <;> cases h)).1⟩

/-- A batch that drops the task for which there is no room. -/
def droppingRun : List (Action Unit) :=
  let p := queuedTask 0 validation
  firstTask ++ [.ensure ()] ++ serve p ++ execute 0 p (.completed validated) ++
    [.receive () 0 0 (some validated), .cleanup () 0 0 validation]

/-- **A batch can return too little**: one result for two tasks, and an entry for
the one it has dropped. -/
theorem batch_returns_short :
    ¬ ∀ s results, Reachable (smallConfig .drop) twoTasks s →
      (s.calls ()).stage = .returned (.batch results) →
      List.Forall₂ (fun i result => CameTo s.log ((), i) result) (List.range 2) results ∧
        ∀ task ∈ [validation, conversion], task.taskId ∉ s.active.taskIds := by
  intro hclaim
  obtain ⟨s, hs, hreturned⟩ := Machine.exists_reaches_of_run
    (by decide +kernel : ((scheduler (smallConfig .drop) twoTasks).run
      (init Unit (smallConfig .drop)) droppingRun).any
        (fun s => decide ((s.calls ()).stage = .returned (.batch [validated]) ∧
          conversion.taskId ∈ s.active.taskIds)) = true)
  obtain ⟨hstage, hactive⟩ := of_decide_eq_true hreturned
  exact (hclaim s _ hs hstage).2 conversion (List.mem_cons_of_mem _ List.mem_cons_self) hactive

end Scheduler

end SubxCore
