import SubxCore.Parallel.Handout
/-!
# How far a call is

What a call has in its hands at each of its stages: the receivers of the tasks
it has put in the queue, which are all those before the one it is at, less
those a full queue has made it drop; and as many results as it has awaited
receivers. Each result is what its receiver's task has come to.
-/

namespace SubxCore

namespace Scheduler

open Function PendingTask

variable {ι : Type} [DecidableEq ι] {config : ParallelConfig} {submissions : ι → Submission}
variable {s : State ι} {a : Action ι} {c : ι} {i j k n : ℕ} {submission : Submission}
variable {call : Call} {kept : ℕ → List ℕ} {log : List (Event ι)}

/-- The tasks before one that a call has put in the queue, unless it has dropped
them. -/
def keptBefore (config : ParallelConfig) (log : List (Event ι)) (c : ι) (i : ℕ) : List ℕ :=
  (List.range i).filter fun j => ¬ (config.queueOverflowStrategy = .drop ∧ .full (c, j) ∈ log)

/-- What a call has at a stage, of `n` tasks of which it keeps some. -/
def Stage.Accords (n : ℕ) (kept : ℕ → List ℕ) (receivers : List ℕ) (results : List TaskResult) :
    Stage → Prop
  | .idle => receivers = [] ∧ results = []
  | .register i | .check i | .poll i | .evict i | .clear i _ | .enqueue i =>
    i < n ∧ receivers = kept i ∧ results = []
  | .ensure | .spawn | .store _ => receivers = kept n ∧ results = []
  | .await k => receivers = kept n ∧ k < receivers.length ∧ results.length = k
  | .cleanup k => receivers = kept n ∧ k < receivers.length ∧ results.length = k + 1
  | _ => True

/-- A call has what it should. -/
def Call.Accords (submission : Submission) (kept : ℕ → List ℕ) (call : Call) : Prop :=
  call.stage.Accords submission.tasks.length kept call.receivers call.results

theorem accords_nextTask {receivers : List ℕ} (hi : i ≤ submission.tasks.length)
    (hreceivers : receivers = kept i) :
    (nextTask submission i).Accords submission.tasks.length kept receivers [] := by
  unfold nextTask
  split
  · next hlt => exact ⟨hlt, hreceivers, rfl⟩
  · next hge =>
    have hn : i = submission.tasks.length := le_antisymm hi (not_lt.1 hge)
    exact ⟨hn ▸ hreceivers, rfl⟩

theorem accords_nextReceiver (hreceivers : call.receivers = kept n)
    (hresults : call.results.length = k) :
    (nextReceiver call k).Accords n kept call.receivers call.results := by
  unfold nextReceiver
  split
  · next hlt => exact ⟨hreceivers, hlt, hresults⟩
  · trivial

/-! ## Tasks that meet a full queue -/

/-- Only a task that meets a full queue says so. -/
theorem eq_isFull_of_mem_events (h : .full (c, j) ∈ a.events) : a = .isFull c j := by
  cases a with
  | isFull c' i =>
    cases List.mem_singleton.1 h
    rfl
  | _ => exact absurd h (List.count_eq_zero.1 rfl)

/-- A task that is ahead of its call has not been dropped. -/
def NotDropped (config : ParallelConfig) (c : ι) (s : State ι) : Prop :=
  ∀ j, (s.calls c).stage.Ahead j → config.queueOverflowStrategy = .drop →
    .full (c, j) ∉ s.log

theorem NotDropped.effect (h : NotDropped config c s) (ha : enabled config submissions s a) :
    NotDropped config c ((scheduler config submissions).effect s a) := by
  intro j hahead hdrop hmem
  rcases List.mem_append.1 hmem with hmem | hmem
  · exact h j (ahead_of_effect ha hahead).1 hdrop hmem
  · obtain rfl := eq_isFull_of_mem_events hmem
    simp only [scheduler, act, State.goTo, update_self, hdrop, overflow] at hahead
    split at hahead
    · exact hahead.elim
    · exact absurd (le_of_ahead_nextTask hahead) (Nat.not_succ_le_self _)

theorem Reachable.notDropped (hs : Reachable config submissions s) (c : ι) :
    NotDropped config c s :=
  hs.invariant (fun _ _ _ => List.not_mem_nil) fun _ _ _ ha h => h.effect ha

/-- Only a task of the call that meets a full queue changes which are kept. -/
theorem keptBefore_append {log' : List (Event ι)} (h : ∀ j < i, .full (c, j) ∉ log') :
    keptBefore config (log ++ log') c i = keptBefore config log c i := by
  refine List.filter_congr fun j hj => ?_
  have hnot := h j (List.mem_range.1 hj)
  simp [hnot]

theorem keptBefore_succ_of_kept
    (h : ¬ (config.queueOverflowStrategy = .drop ∧ .full (c, i) ∈ log)) :
    keptBefore config log c (i + 1) = keptBefore config log c i ++ [i] := by
  rw [keptBefore, List.range_succ, List.filter_append, keptBefore]
  simpa using not_and_or.1 h

theorem keptBefore_succ_of_dropped
    (h : config.queueOverflowStrategy = .drop ∧ .full (c, i) ∈ log) :
    keptBefore config log c (i + 1) = keptBefore config log c i := by
  rw [keptBefore, List.range_succ, List.filter_append, keptBefore]
  simp [h]

/-! ## One action -/

/-- The call has what it should at the stage it is at. -/
def Progress (config : ParallelConfig) (submissions : ι → Submission) (c : ι) (s : State ι) : Prop :=
  (s.calls c).Accords (submissions c) (keptBefore config s.log c)

/-- What the other parties do is not a task of the call that meets a full queue. -/
theorem full_notMem_events (h : a.caller ≠ some c) : .full (c, j) ∉ a.events := by
  intro hmem
  obtain rfl := eq_isFull_of_mem_events hmem
  exact h rfl

/-- What another party does changes nothing for a call, not even what it keeps. -/
theorem Stage.Accords.append {stage : Stage} {receivers : List ℕ} {results : List TaskResult}
    {log' : List (Event ι)} (h : stage.Accords n (keptBefore config log c) receivers results)
    (hfull : ∀ j, .full (c, j) ∉ log') :
    stage.Accords n (keptBefore config (log ++ log') c) receivers results := by
  have hkept : keptBefore config (log ++ log') c = keptBefore config log c :=
    funext fun i => keptBefore_append fun j _ => hfull j
  rwa [hkept]

theorem Progress.effect_isFull (h : Progress config submissions c s)
    (ha : enabled config submissions s (.isFull c i)) :
    Progress config submissions c ((scheduler config submissions).effect s (.isFull c i)) := by
  unfold Progress Call.Accords at h ⊢
  rw [ha.1] at h
  obtain ⟨hi, hreceivers, hresults⟩ := h
  have hkept : keptBefore config (s.log ++ [.full (c, i)]) c i = keptBefore config s.log c i := by
    refine keptBefore_append fun j hj hmem => ?_
    cases List.mem_singleton.1 hmem
    exact lt_irrefl _ hj
  simp only [scheduler, act, State.goTo, update_self, Action.events]
  rw [hresults]
  cases hstrategy : config.queueOverflowStrategy with
  | block | dropOldest | expand => exact ⟨hi, hreceivers.trans hkept.symm, rfl⟩
  | reject => cases hsubmission : submissions c <;> trivial
  | drop =>
    cases hsubmission : submissions c with
    | single task priority => trivial
    | batch tasks =>
      rw [hsubmission] at hi
      refine accords_nextTask hi ?_
      rw [keptBefore_succ_of_dropped ⟨hstrategy, List.mem_append_right _ (List.mem_singleton_self _)⟩,
        hkept, hreceivers]

theorem Progress.effect_enqueue {task : BoxedTask} (h : Progress config submissions c s)
    (hdropped : NotDropped config c s) (ha : enabled config submissions s (.enqueue c i task)) :
    Progress config submissions c ((scheduler config submissions).effect s (.enqueue c i task)) := by
  unfold Progress Call.Accords at h ⊢
  rw [ha.1] at h
  obtain ⟨hi, hreceivers, hresults⟩ := h
  have hnot := hdropped i (by rw [ha.1]; exact le_refl i)
  simp only [scheduler, act, update_self]
  refine Stage.Accords.append ?_ (by simp [Action.events])
  rw [hresults]
  refine accords_nextTask hi ?_
  rw [keptBefore_succ_of_kept (fun hd => hnot hd.1 hd.2), hreceivers]

theorem Progress.effect_receive {result : Option TaskResult} (h : Progress config submissions c s)
    (ha : enabled config submissions s (.receive c k i result)) :
    Progress config submissions c
      ((scheduler config submissions).effect s (.receive c k i result)) := by
  unfold Progress Call.Accords at h ⊢
  rw [ha.1] at h
  simp only [scheduler, act, update_self, Action.events, List.append_nil]
  cases hsubmission : submissions c with
  | single task priority => trivial
  | batch tasks =>
    rw [hsubmission] at h
    refine ⟨h.1, h.2.1, ?_⟩
    rw [Call.receive, List.length_append, h.2.2]
    rfl

/-- What another party does changes nothing for the call. -/
theorem Progress.effect_of_ne (h : Progress config submissions c s) (hc : a.caller ≠ some c) :
    Progress config submissions c ((scheduler config submissions).effect s a) := by
  unfold Progress at h ⊢
  rw [calls_effect_of_ne hc]
  exact h.append fun j => full_notMem_events hc

theorem Progress.effect (h : Progress config submissions c s) (hdropped : NotDropped config c s)
    (ha : enabled config submissions s a) :
    Progress config submissions c ((scheduler config submissions).effect s a) := by
  by_cases hc : a.caller = some c
  swap
  · exact h.effect_of_ne hc
  cases a with
  | isFull c i =>
    cases hc
    exact Progress.effect_isFull h ha
  | enqueue c i task =>
    cases hc
    exact Progress.effect_enqueue h hdropped ha
  | receive c k i result =>
    cases hc
    exact Progress.effect_receive h ha
  | begin c =>
    cases hc
    unfold Progress Call.Accords at h ⊢
    rw [show (s.calls c).stage = _ from ha] at h
    simp only [scheduler, act, State.goTo, update_self, Action.events, List.append_nil]
    rw [h.2]
    exact accords_nextTask (Nat.zero_le _) h.1
  | register c i | hasRoom c i | poll c i | evictNone c i =>
    cases hc
    unfold Progress Call.Accords at h ⊢
    rw [ha.1] at h
    simp only [scheduler, act, State.goTo, update_self, Action.events, List.append_nil]
    exact h
  | clear c i | spawn c =>
    cases hc
    unfold Progress Call.Accords at h ⊢
    rw [show (s.calls c).stage = _ from ha] at h
    simp only [scheduler, act, State.goTo, update_self, Action.events, List.append_nil]
    exact h
  | evict c i p rest =>
    cases hc
    unfold Progress Call.Accords at h ⊢
    rw [ha.1] at h
    simp only [scheduler, act, State.goTo, update_self]
    refine Stage.Accords.append ?_ (by simp [Action.events])
    exact h
  | ensure c =>
    cases hc
    unfold Progress Call.Accords at h ⊢
    rw [show (s.calls c).stage = _ from ha] at h
    simp only [scheduler, act, State.goTo, update_self, Action.events, List.append_nil]
    split
    · exact h
    · exact accords_nextReceiver h.1 (h.2 ▸ rfl)
  | store c =>
    cases hc
    unfold Progress Call.Accords at h ⊢
    rw [show (s.calls c).stage = _ from ha] at h
    simp only [scheduler, act, State.goTo, update_self, Action.events, List.append_nil]
    exact accords_nextReceiver h.1 (h.2 ▸ rfl)
  | cleanup c k i task =>
    cases hc
    unfold Progress Call.Accords at h ⊢
    rw [ha.1] at h
    simp only [scheduler, act, State.goTo, update_self, Action.events, List.append_nil]
    exact accords_nextReceiver h.1 h.2.2
  | dropGuard c | cancel c =>
    cases hc
    unfold Progress Call.Accords at h ⊢
    simp only [scheduler, act, State.goTo, update_self]
    trivial
  | _ => cases hc

/-- **A call has what it should**, at every stage it comes to. -/
theorem Reachable.progress (hs : Reachable config submissions s) (c : ι) :
    Progress config submissions c s :=
  hs.invariant ⟨rfl, rfl⟩ fun _ _ hs ha h => h.effect (hs.notDropped c) ha

end Scheduler

end SubxCore
