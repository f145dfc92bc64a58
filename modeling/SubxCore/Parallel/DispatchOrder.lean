import SubxCore.Parallel.Handout
/-!
# The order of dispatch

Tasks are put in the queue behind all that are as urgent, so the queue is
ordered: by priority and then by age where priorities are on, by age where they
are off (`Reachable.ordered`). The next task is the last of the most urgent
ones. With priorities on that is the newest of them, where it should be the
oldest; a dispatch is in order if and only if there is no other
(`dispatch_in_order_iff`).
-/

namespace SubxCore

namespace Scheduler

open Function PendingTask

variable {ι : Type} [DecidableEq ι] {config : ParallelConfig} {submissions : ι → Submission}
variable {s : State ι} {a : Action ι} {l : ℕ} {p pending : PendingTask (Token ι)}
variable {queue rest : List (PendingTask (Token ι))} {log log' : List (Event ι)}

/-! ## The order of the queue -/

/-- When a task was submitted: where the log says that it was put in. -/
def submittedAt (log : List (Event ι)) (p : PendingTask (Token ι)) : ℕ :=
  log.idxOf (.enqueued p.resultSender)

/-- The first of two tasks is to come before the second. -/
def Precedes (config : ParallelConfig) (log : List (Event ι)) (p q : PendingTask (Token ι)) :
    Prop :=
  if config.enableTaskPriorities then
    q.priority < p.priority ∨
      (q.priority = p.priority ∧ submittedAt log p < submittedAt log q)
  else submittedAt log p < submittedAt log q

/-- A queue whose tasks have been put in, and are in order. -/
structure Ordered (config : ParallelConfig) (s : State ι) : Prop where
  submitted : ∀ p ∈ s.queue, .enqueued p.resultSender ∈ s.log
  ordered : s.queue.Pairwise (Precedes config s.log)

theorem submittedAt_append (h : .enqueued p.resultSender ∈ log) :
    submittedAt (log ++ log') p = submittedAt log p := List.idxOf_append_of_mem h

/-- What happens later does not change the order. -/
theorem pairwise_append (log' : List (Event ι))
    (hsubmitted : ∀ p ∈ queue, .enqueued p.resultSender ∈ log)
    (h : queue.Pairwise (Precedes config log)) :
    queue.Pairwise (Precedes config (log ++ log')) := by
  refine List.Pairwise.imp_of_mem (fun {p q} hp hq hprecedes => ?_) h
  unfold Precedes at hprecedes ⊢
  rwa [submittedAt_append (hsubmitted p hp), submittedAt_append (hsubmitted q hq)]

/-- A part of the queue is in order. -/
theorem Ordered.of_sublist (h : Ordered config s) (hrest : rest.Sublist s.queue) :
    (∀ p ∈ rest, .enqueued p.resultSender ∈ s.log ++ log') ∧
      rest.Pairwise (Precedes config (s.log ++ log')) := by
  have hsubmitted : ∀ p ∈ rest, .enqueued p.resultSender ∈ s.log :=
    fun p hp => h.submitted p (hrest.subset hp)
  exact ⟨fun p hp => List.mem_append_left _ (hsubmitted p hp),
    pairwise_append log' hsubmitted (h.ordered.sublist hrest)⟩

/-- **A task put in the queue** goes behind all that are to come before it, and
in front of the others. -/
theorem pairwise_insertPending (hsubmitted : ∀ p ∈ queue, .enqueued p.resultSender ∈ log)
    (h : queue.Pairwise (Precedes config log))
    (hnew : .enqueued pending.resultSender ∉ log)
    (hlog : log' = [.enqueued pending.resultSender]) :
    (insertPending config queue pending).Pairwise (Precedes config (log ++ log')) := by
  have hage : ∀ p ∈ queue, submittedAt (log ++ log') p < submittedAt (log ++ log') pending := by
    intro p hp
    rw [submittedAt_append (hsubmitted p hp), submittedAt, submittedAt,
      List.idxOf_append_of_notMem hnew, hlog, List.idxOf_cons_self]
    exact List.idxOf_lt_length_of_mem (hsubmitted p hp)
  have hqueue := pairwise_append log' hsubmitted h
  obtain ⟨before, after, hcut, hinsert, hpriorities, hfifo⟩ :=
    insertPending_eq config queue pending
  rw [hinsert]
  rw [hcut] at hqueue hage
  obtain ⟨hbefore, hafter, hacross⟩ := List.pairwise_append.1 hqueue
  cases hon : config.enableTaskPriorities with
  | false =>
    rw [hfifo hon, List.pairwise_append]
    refine ⟨hbefore, List.pairwise_singleton _ _, fun q hq q' hq' => ?_⟩
    rw [List.mem_singleton.1 hq', Precedes, hon, if_neg Bool.false_ne_true]
    exact hage q (List.mem_append_left _ hq)
  | true =>
    obtain ⟨hhigher, hlower⟩ := hpriorities hon
    have hfirst : ∀ q ∈ before, Precedes config (log ++ log') q pending := by
      intro q hq
      rw [Precedes, if_pos hon]
      rcases (hhigher q hq).lt_or_eq with hlt | heq
      · exact Or.inl hlt
      · exact Or.inr ⟨heq, hage q (List.mem_append_left _ hq)⟩
    have hlast : ∀ q ∈ after, Precedes config (log ++ log') pending q := by
      intro q hq
      rw [Precedes, if_pos hon]
      refine Or.inl ?_
      -- what comes after the first lower task is lower still
      cases after with
      | nil => exact absurd hq List.not_mem_nil
      | cons q' after =>
        have hq' : q'.priority < pending.priority := hlower q' rfl
        rcases List.mem_cons.1 hq with rfl | hq
        · exact hq'
        · have hprecedes := List.rel_of_pairwise_cons hafter hq
          rw [Precedes, if_pos hon] at hprecedes
          rcases hprecedes with hlt | ⟨heq, -⟩
          · exact hlt.trans hq'
          · exact heq ▸ hq'
    rw [List.pairwise_append]
    refine ⟨hbefore, List.pairwise_cons.2 ⟨hlast, hafter⟩, fun q hq q' hq' => ?_⟩
    rcases List.mem_cons.1 hq' with rfl | hq'
    · exact hfirst q hq
    · exact hacross q hq q' hq'

theorem Ordered.effect (h : Ordered config s) (honce : ∀ t, EnqueuedOnce t s)
    (ha : enabled config submissions s a) :
    Ordered config ((scheduler config submissions).effect s a) := by
  cases a with
  | enqueue c i task =>
    have hnew : .enqueued (c, i) ∉ s.log := by
      refine List.count_eq_zero.1 ((honce (c, i)).2 ?_)
      rw [ha.1]
      exact le_refl i
    refine ⟨fun p hp => ?_, pairwise_insertPending h.submitted h.ordered hnew rfl⟩
    obtain ⟨before, after, hcut, hinsert, -⟩ := insertPending_eq config s.queue
      ⟨task, (c, i), task.taskId, (submissions c).priority⟩
    have hp' : p ∈ before ++ ⟨task, (c, i), task.taskId, (submissions c).priority⟩ :: after :=
      hinsert ▸ hp
    rcases List.mem_append.1 hp' with hmem | hmem
    · exact List.mem_append_left _ (h.submitted p (hcut ▸ List.mem_append_left _ hmem))
    rcases List.mem_cons.1 hmem with rfl | hmem
    · exact List.mem_append_right _ (List.mem_singleton_self _)
    · exact List.mem_append_left _ (h.submitted p (hcut ▸ List.mem_append_right _ hmem))
  | evict c i p rest =>
    obtain ⟨hsubmitted, hordered⟩ := h.of_sublist (show rest.Sublist s.queue by
      rw [ha.2]
      exact List.sublist_cons_self p rest)
    exact ⟨hsubmitted, hordered⟩
  | dequeue l p rest =>
    obtain ⟨before, after, hcut, hrest, -⟩ := takeNext_eq_some ha.2
    obtain ⟨hsubmitted, hordered⟩ := h.of_sublist (show rest.Sublist s.queue by
      rw [hcut, hrest]
      exact (List.Sublist.refl before).append (List.sublist_cons_self p after))
    exact ⟨hsubmitted, hordered⟩
  | _ =>
    obtain ⟨hsubmitted, hordered⟩ := h.of_sublist (List.Sublist.refl s.queue)
    exact ⟨hsubmitted, hordered⟩

/-- The queue is in order, whatever has been submitted, taken and evicted. -/
theorem Reachable.ordered (hs : Reachable config submissions s) : Ordered config s :=
  hs.invariant ⟨nofun, List.Pairwise.nil⟩ fun _ _ hs ha h => h.effect hs.enqueuedOnce ha

/-! ## The order of dispatch -/

/-- **The documented order**: the task has the highest priority and is the first
submitted of those that have, or, without priorities, of all. -/
def InOrder (config : ParallelConfig) (log : List (Event ι)) (queue : List (PendingTask (Token ι)))
    (p : PendingTask (Token ι)) : Prop :=
  if config.enableTaskPriorities then
    ∀ q ∈ queue, q.priority ≤ p.priority ∧
      (q.priority = p.priority → submittedAt log p ≤ submittedAt log q)
  else ∀ q ∈ queue, submittedAt log p ≤ submittedAt log q

instance : Decidable (InOrder config log queue p) := by
  unfold InOrder
  infer_instance

/-- Only one task has the highest priority. -/
def OneHighest (queue : List (PendingTask (Token ι))) : Prop :=
  ∀ p ∈ queue, ∀ q ∈ queue, (∀ r ∈ queue, r.priority ≤ p.priority) →
    q.priority = p.priority → q = p

/-- **Which dispatches are in order**: without priorities all of them, and
otherwise those that find a single task of the highest priority. -/
theorem dispatch_in_order_iff (hs : Reachable config submissions s)
    (ha : enabled config submissions s (.dequeue l p rest)) :
    InOrder config s.log s.queue p ↔
      config.enableTaskPriorities = false ∨ OneHighest s.queue := by
  have hordered := hs.ordered.ordered
  obtain ⟨before, after, hcut, -, hpriorities, hfifo⟩ := takeNext_eq_some ha.2
  rw [hcut] at hordered ⊢
  obtain ⟨-, hafter, hacross⟩ := List.pairwise_append.1 hordered
  cases hon : config.enableTaskPriorities with
  | false =>
    rw [InOrder, hon, if_neg Bool.false_ne_true]
    refine iff_of_true (fun q hq => ?_) (Or.inl rfl)
    rw [hfifo hon, List.nil_append] at hq
    rcases List.mem_cons.1 hq with rfl | hq
    · exact le_refl _
    · have hprecedes := List.rel_of_pairwise_cons hafter hq
      rw [Precedes, hon, if_neg Bool.false_ne_true] at hprecedes
      exact hprecedes.le
  | true =>
    obtain ⟨hbefore, hlower⟩ := hpriorities hon
    have hhighest : ∀ q ∈ before ++ p :: after, q.priority ≤ p.priority := by
      intro q hq
      rcases List.mem_append.1 hq with hq | hq
      · exact hbefore q hq
      rcases List.mem_cons.1 hq with rfl | hq
      · exact le_refl _
      · exact (hlower q hq).le
    rw [InOrder, if_pos hon]
    constructor
    · intro horder
      -- a task of the same priority stands before this one, and is older
      have hsingle : ∀ q ∈ before ++ p :: after, q.priority = p.priority → q = p := by
        intro q hq heq
        rcases List.mem_append.1 hq with hmem | hmem
        · have hprecedes := hacross q hmem p List.mem_cons_self
          rw [Precedes, if_pos hon] at hprecedes
          rcases hprecedes with hlt | ⟨-, hage⟩
          · exact absurd hlt heq.not_gt
          · exact absurd ((horder q hq).2 heq) (not_le.2 hage)
        rcases List.mem_cons.1 hmem with rfl | hmem
        · rfl
        · exact absurd heq (hlower q hmem).ne
      refine Or.inr fun q hq r hr hmax heq => ?_
      have hqp : q.priority = p.priority :=
        le_antisymm (hhighest q hq) (hmax p (List.mem_append_right _ List.mem_cons_self))
      rw [hsingle q hq hqp, hsingle r hr (heq.trans hqp)]
    · rintro (hoff | hone) q hq
      · cases hoff
      refine ⟨hhighest q hq, fun heq => ?_⟩
      rw [hone p (List.mem_append_right _ List.mem_cons_self) q hq hhighest heq]

/-! ## The dispatches of a run -/

/-- A dispatch of a run: it takes this task, in this state. -/
def IsDispatch (config : ParallelConfig) (submissions : ι → Submission) (as : List (Action ι))
    (s : State ι) (p : PendingTask (Token ι)) : Prop :=
  ∃ before l rest after, as = before ++ .dequeue l p rest :: after ∧
    (scheduler config submissions).run (init ι config) before = some s

/-- It happens in a state the scheduler can be in, where it can happen. -/
theorem IsDispatch.enabled {as : List (Action ι)} {t : State ι}
    (hrun : (scheduler config submissions).run (init ι config) as = some t)
    (h : IsDispatch config submissions as s p) :
    Reachable config submissions s ∧
      ∃ l rest, enabled config submissions s (.dequeue l p rest) := by
  obtain ⟨before, l, rest, after, rfl, hbefore⟩ := h
  obtain ⟨u, hu, hrest⟩ := Machine.run_append_eq_some.1 hrun
  rw [hbefore] at hu
  cases hu
  exact ⟨Machine.Reaches.refl.run hbefore, l, rest, (Machine.run_cons_eq_some.1 hrest).1⟩

/-- **A run dispatches in order** if and only if priorities are off or each of its
dispatches finds a single task of the highest priority. -/
theorem dispatches_in_order_iff {as : List (Action ι)}
    (hrun : ((scheduler config submissions).run (init ι config) as).isSome) :
    (∀ s p, IsDispatch config submissions as s p → InOrder config s.log s.queue p) ↔
      config.enableTaskPriorities = false ∨
        ∀ s p, IsDispatch config submissions as s p → OneHighest s.queue := by
  have hiff : ∀ s p, IsDispatch config submissions as s p →
      (InOrder config s.log s.queue p ↔
        config.enableTaskPriorities = false ∨ OneHighest s.queue) := by
    intro s p hdispatch
    obtain ⟨t, ht⟩ := Option.isSome_iff_exists.1 hrun
    obtain ⟨hs, l, rest, ha⟩ := hdispatch.enabled ht
    exact dispatch_in_order_iff hs ha
  constructor
  · intro horder
    by_cases hoff : config.enableTaskPriorities = false
    · exact Or.inl hoff
    · exact Or.inr fun s p hd => ((hiff s p hd).1 (horder s p hd)).resolve_left hoff
  · rintro (hoff | hone) s p hd
    · exact (hiff s p hd).2 (Or.inl hoff)
    · exact (hiff s p hd).2 (Or.inr (hone s p hd))

/-- Two places, one job at a time, and priorities. -/
def priorityConfig : ParallelConfig := ⟨1, 2, true, .block⟩

/-- The task of one of two calls, which submit the same at some priority. -/
def taskOf (c : Bool) (priority : TaskPriority) : PendingTask (Token Bool) :=
  ⟨validation, (c, 0), validation.taskId, priority⟩

/-- Two calls submit their tasks, and a loop gets ready to take one. -/
def twoSubmitted : List (Action Bool) :=
  [.begin false, .begin true, .register false 0 validation, .register true 0 validation,
    .hasRoom false 0, .hasRoom true 0, .enqueue false 0 validation, .enqueue true 0 validation,
    .readQueue 0, .goOn 0 true, .acquire 0]

/-- The second of two tasks is the more urgent one, and is taken first. -/
theorem dispatches_in_order_urgent :
    let submissions : Bool → Submission := fun c =>
      .single validation (if c then .high else .low)
    let as := twoSubmitted ++ [.dequeue 0 (taskOf true .high) [taskOf false .low]]
    (∀ s p, IsDispatch priorityConfig submissions as s p → InOrder priorityConfig s.log s.queue p) ↔
      priorityConfig.enableTaskPriorities = false ∨
        ∀ s p, IsDispatch priorityConfig submissions as s p → OneHighest s.queue :=
  dispatches_in_order_iff (by decide)

/-- **Not every run dispatches in order**: the second of two equally urgent tasks is
taken first. -/
theorem dispatches_out_of_order :
    ¬ ∀ as, ((scheduler priorityConfig fun _ : Bool => .single validation .normal).run
        (init Bool priorityConfig) as).isSome →
      ∀ s p, IsDispatch priorityConfig (fun _ : Bool => .single validation .normal) as s p →
        InOrder priorityConfig s.log s.queue p := by
  intro hclaim
  have hrun : ((scheduler priorityConfig fun _ : Bool => .single validation .normal).run
      (init Bool priorityConfig) twoSubmitted).any
        (fun s => decide ¬ InOrder priorityConfig s.log s.queue (taskOf true .normal)) = true := by
    decide
  obtain ⟨s, hs, hnot⟩ := (Option.any_eq_true _ _).1 hrun
  exact of_decide_eq_true hnot (hclaim
    (twoSubmitted ++ [.dequeue 0 (taskOf true .normal) [taskOf false .normal]]) (by decide) s _
    ⟨twoSubmitted, 0, _, [], rfl, hs⟩)

end Scheduler

end SubxCore
