import SubxCore.Parallel.DispatchOrder
/-!
# The order of evictions

A task that meets a full queue may drop the first of it. Without priorities
that is the task submitted earliest; with them it is the most urgent one,
and the earliest only where no other pending task is more urgent
(`evicts_oldest_iff`).
-/

namespace SubxCore

namespace Scheduler

open Function PendingTask

variable {ι : Type} [DecidableEq ι] {config : ParallelConfig} {submissions : ι → Submission}
variable {s : State ι} {c : ι} {i : ℕ} {p : PendingTask (Token ι)}
variable {queue rest : List (PendingTask (Token ι))} {log : List (Event ι)}

/-! ## One eviction -/

/-- The task was submitted before all others that are pending. -/
def IsOldest (log : List (Event ι)) (queue : List (PendingTask (Token ι)))
    (p : PendingTask (Token ι)) : Prop :=
  ∀ q ∈ queue, submittedAt log p ≤ submittedAt log q

instance : Decidable (IsOldest log queue p) := by
  unfold IsOldest
  infer_instance

/-- A task of lower priority takes the place of this one, while an older one that
is no more urgent is pending. -/
def Supplants (log : List (Event ι)) (queue : List (PendingTask (Token ι)))
    (p : PendingTask (Token ι)) (priority : TaskPriority) : Prop :=
  priority < p.priority ∧
    ∃ q ∈ queue, q.priority ≤ p.priority ∧ submittedAt log q < submittedAt log p

/-- **The documented eviction**: of the oldest pending task, and never for a less
urgent one while an older task that is no more urgent is pending. -/
def EvictsOldest (log : List (Event ι)) (queue : List (PendingTask (Token ι)))
    (p : PendingTask (Token ι)) (priority : TaskPriority) : Prop :=
  IsOldest log queue p ∧ ¬ Supplants log queue p priority

/-- No pending task is more urgent than the oldest one. -/
def OldestMostUrgent (log : List (Event ι)) (queue : List (PendingTask (Token ι))) : Prop :=
  ∃ p ∈ queue, IsOldest log queue p ∧ ∀ q ∈ queue, q.priority ≤ p.priority

/-- For the oldest task nothing older is pending. -/
theorem IsOldest.not_supplants (h : IsOldest log queue p) (priority : TaskPriority) :
    ¬ Supplants log queue p priority := by
  rintro ⟨-, q, hq, -, hage⟩
  exact (h q hq).not_gt hage

/-- **Which first task is the oldest**: that of a queue without priorities, and
otherwise one of a queue in which no task is more urgent than the oldest. -/
theorem isOldest_head_iff (h : (p :: rest).Pairwise (Precedes config log)) :
    IsOldest log (p :: rest) p ↔
      config.enableTaskPriorities = false ∨ OldestMostUrgent log (p :: rest) := by
  obtain ⟨hfirst, -⟩ := List.pairwise_cons.1 h
  cases hon : config.enableTaskPriorities with
  | false =>
    refine iff_of_true (fun q hq => ?_) (Or.inl rfl)
    rcases List.mem_cons.1 hq with rfl | hq
    · exact le_rfl
    · have hprecedes := hfirst q hq
      rw [Precedes, hon, if_neg Bool.false_ne_true] at hprecedes
      exact hprecedes.le
  | true =>
    have hurgent : ∀ q ∈ p :: rest, q.priority ≤ p.priority := by
      intro q hq
      rcases List.mem_cons.1 hq with rfl | hq
      · exact le_rfl
      · have hprecedes := hfirst q hq
        rw [Precedes, if_pos hon] at hprecedes
        rcases hprecedes with hlt | ⟨heq, -⟩
        · exact hlt.le
        · exact heq.le
    constructor
    · intro hold
      exact Or.inr ⟨p, List.mem_cons_self, hold, hurgent⟩
    · rintro (hoff | ⟨q, hq, hold, hmost⟩)
      · cases hoff
      rcases List.mem_cons.1 hq with rfl | hq
      · exact hold
      -- behind the first task stands an oldest one, as urgent: it would be younger
      have hprecedes := hfirst q hq
      rw [Precedes, if_pos hon] at hprecedes
      rcases hprecedes with hlt | ⟨-, hage⟩
      · exact absurd (hmost p List.mem_cons_self) hlt.not_ge
      · exact absurd (hold p List.mem_cons_self) hage.not_ge

/-- **What an eviction drops.** -/
theorem evicts_oldest_iff (hs : Reachable config submissions s)
    (ha : enabled config submissions s (.evict c i p rest)) (priority : TaskPriority) :
    EvictsOldest s.log s.queue p priority ↔
      config.enableTaskPriorities = false ∨ OldestMostUrgent s.log s.queue := by
  have hordered := hs.ordered.ordered
  rw [ha.2] at hordered ⊢
  rw [← isOldest_head_iff hordered]
  exact ⟨And.left, fun hold => ⟨hold, hold.not_supplants priority⟩⟩

/-! ## The evictions of a run -/

/-- An eviction of a run: this task is dropped, in this state, for one of the tasks
of a call. -/
def IsEviction (config : ParallelConfig) (submissions : ι → Submission) (as : List (Action ι))
    (s : State ι) (c : ι) (p : PendingTask (Token ι)) : Prop :=
  ∃ before i rest after, as = before ++ .evict c i p rest :: after ∧
    (scheduler config submissions).run (init ι config) before = some s

/-- It happens in a state the scheduler can be in, where it can happen. -/
theorem IsEviction.enabled {as : List (Action ι)} {t : State ι}
    (hrun : (scheduler config submissions).run (init ι config) as = some t)
    (h : IsEviction config submissions as s c p) :
    Reachable config submissions s ∧
      ∃ i rest, enabled config submissions s (.evict c i p rest) := by
  obtain ⟨before, i, rest, after, rfl, hbefore⟩ := h
  obtain ⟨u, hu, hrest⟩ := Machine.run_append_eq_some.1 hrun
  rw [hbefore] at hu
  cases hu
  exact ⟨Machine.Reaches.refl.run hbefore, i, rest, (Machine.run_cons_eq_some.1 hrest).1⟩

/-- **A run evicts the oldest** if and only if priorities are off or each of its
evictions finds no task more urgent than the oldest one. -/
theorem evictions_oldest_iff {as : List (Action ι)}
    (hrun : ((scheduler config submissions).run (init ι config) as).isSome) :
    (∀ s c p, IsEviction config submissions as s c p →
        EvictsOldest s.log s.queue p (submissions c).priority) ↔
      config.enableTaskPriorities = false ∨
        ∀ s c p, IsEviction config submissions as s c p → OldestMostUrgent s.log s.queue := by
  have hiff : ∀ s c p, IsEviction config submissions as s c p →
      (EvictsOldest s.log s.queue p (submissions c).priority ↔
        config.enableTaskPriorities = false ∨ OldestMostUrgent s.log s.queue) := by
    intro s c p heviction
    obtain ⟨t, ht⟩ := Option.isSome_iff_exists.1 hrun
    obtain ⟨hs, i, rest, ha⟩ := heviction.enabled ht
    exact evicts_oldest_iff hs ha _
  constructor
  · intro hold
    by_cases hoff : config.enableTaskPriorities = false
    · exact Or.inl hoff
    · exact Or.inr fun s c p he => ((hiff s c p he).1 (hold s c p he)).resolve_left hoff
  · rintro (hoff | hmost) s c p he
    · exact (hiff s c p he).2 (Or.inl hoff)
    · exact (hiff s c p he).2 (Or.inr (hmost s c p he))

/-- Two places, one job at a time, and priorities; a full queue drops a task. -/
def droppingConfig : ParallelConfig := ⟨1, 2, true, .dropOldest⟩

/-- A task of one of many calls, which submit the same at some priority. -/
def taskOfCall (c : ℕ) (priority : TaskPriority) : PendingTask (Token ℕ) :=
  ⟨validation, (c, 0), validation.taskId, priority⟩

/-- Two calls submit their tasks, and a third meets a full queue. -/
def thirdMeetsFull : List (Action ℕ) :=
  [.begin 0, .register 0 0 validation, .hasRoom 0 0, .enqueue 0 0 validation, .begin 1,
    .register 1 0 validation, .hasRoom 1 0, .enqueue 1 0 validation, .begin 2,
    .register 2 0 validation, .isFull 2 0]

/-- The first of two equally urgent tasks is dropped. -/
theorem evictions_oldest_normal :
    let submissions : ℕ → Submission := fun _ => .single validation .normal
    let as := thirdMeetsFull ++ [.evict 2 0 (taskOfCall 0 .normal) [taskOfCall 1 .normal]]
    (∀ s c p, IsEviction droppingConfig submissions as s c p →
        EvictsOldest s.log s.queue p (submissions c).priority) ↔
      droppingConfig.enableTaskPriorities = false ∨
        ∀ s c p, IsEviction droppingConfig submissions as s c p → OldestMostUrgent s.log s.queue :=
  evictions_oldest_iff (by decide)

/-- **Not every run evicts the oldest**: of two tasks the second, more urgent one is
dropped for a third that is less urgent. -/
theorem evicts_most_urgent :
    let submissions : ℕ → Submission := fun c => .single validation (if c = 1 then .high else .low)
    ¬ ∀ as, ((scheduler droppingConfig submissions).run (init ℕ droppingConfig) as).isSome →
      ∀ s c p, IsEviction droppingConfig submissions as s c p →
        droppingConfig.taskQueueSize ≤ s.queue.length →
        IsOldest s.log s.queue p ∨ ¬ Supplants s.log s.queue p (submissions c).priority := by
  intro submissions hclaim
  have hrun : ((scheduler droppingConfig submissions).run (init ℕ droppingConfig)
      thirdMeetsFull).any (fun s => decide (s.queue = [taskOfCall 1 .high, taskOfCall 0 .low] ∧
        submittedAt s.log (taskOfCall 0 .low) < submittedAt s.log (taskOfCall 1 .high))) = true := by
    decide
  obtain ⟨s, hs, hqueue⟩ := (Option.any_eq_true _ _).1 hrun
  obtain ⟨hqueue, hage⟩ := of_decide_eq_true hqueue
  have holder : taskOfCall 0 .low ∈ s.queue := by
    rw [hqueue]
    exact List.mem_cons_of_mem _ List.mem_cons_self
  rcases hclaim (thirdMeetsFull ++ [.evict 2 0 (taskOfCall 1 .high) [taskOfCall 0 .low]])
    (by decide) s 2 (taskOfCall 1 .high) ⟨thirdMeetsFull, 0, _, [], rfl, hs⟩
    (by rw [hqueue]; exact le_rfl) with hold | hnot
  · exact (hold _ holder).not_gt hage
  · exact hnot ⟨by decide, _, holder, by decide, hage⟩

end Scheduler

end SubxCore
