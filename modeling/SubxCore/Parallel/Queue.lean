import SubxCore.Common.Greatest
import SubxCore.Common.Text
/-!
# The task queue

What the scheduler keeps of a task it has been given, and the two places at
which the order of its queue is decided: where a task is put in when it is
submitted, and which one is taken out. What either does to a queue is said
once, by `insertPending_eq` and `takeNext_eq_some`.
-/

namespace SubxCore

/-- A boxed task, as far as the scheduler asks it about itself. -/
structure BoxedTask where
  taskId : Text
  taskType : Text
  deriving DecidableEq, Repr

/-- What a task comes to. -/
inductive TaskResult
  | success (message : Text)
  | failed (message : Text)
  | cancelled
  | partialSuccess (message failure : Text)
  deriving DecidableEq, Repr

/-- How far a task has come. -/
inductive TaskStatus
  | pending
  | running
  | completed (result : TaskResult)
  | failed (message : Text)
  | cancelled
  deriving DecidableEq, Repr

/-- How urgent a task is. -/
inductive TaskPriority
  | low
  | normal
  | high
  | critical
  deriving DecidableEq, Repr

/-- The discriminants of the priorities. -/
def TaskPriority.level : TaskPriority → ℕ
  | .low => 0
  | .normal => 1
  | .high => 2
  | .critical => 3

instance : LinearOrder TaskPriority :=
  LinearOrder.lift' TaskPriority.level (by intro p q h; cases p <;> cases q <;> first | rfl | cases h)

/-- What is done about a task that meets a full queue. -/
inductive OverflowStrategy
  | block
  | drop
  | expand
  | dropOldest
  | reject
  deriving DecidableEq, Repr

/-- The configuration of a scheduler. -/
structure ParallelConfig where
  maxConcurrentJobs : ℕ
  taskQueueSize : ℕ
  enableTaskPriorities : Bool
  queueOverflowStrategy : OverflowStrategy
  deriving DecidableEq, Repr

/-- A task in the queue. Its sender is the one end of a channel that nobody
else has. -/
structure PendingTask (τ : Type) where
  task : BoxedTask
  resultSender : τ
  taskId : Text
  priority : TaskPriority
  deriving DecidableEq, Repr

namespace PendingTask

open Greatest

variable {τ : Type} {config : ParallelConfig} {queue rest : List (PendingTask τ)}
variable {pending p : PendingTask τ}

/-- A task put in the queue. -/
def insertPending (config : ParallelConfig) (queue : List (PendingTask τ))
    (pending : PendingTask τ) : List (PendingTask τ) :=
  if config.enableTaskPriorities then
    queue.insertIdx (queue.findIdx fun t => t.priority < pending.priority) pending
  else queue ++ [pending]

/-- The next task, and the queue without it. -/
def takeNext (config : ParallelConfig) (queue : List (PendingTask τ)) :
    Option (PendingTask τ × List (PendingTask τ)) :=
  if config.enableTaskPriorities then
    match maxByKey (fun t => t.1.priority) queue.zipIdx with
    | some (_, idx) => queue[idx]?.map fun p => (p, queue.eraseIdx idx)
    | none => none
  else
    match queue with
    | [] => none
    | p :: rest => some (p, rest)

/-! ## Putting in -/

/-- The first task of a lower priority cuts the queue in two. -/
theorem insertIdx_findIdx (pending : PendingTask τ) (q : PendingTask τ → Bool) :
    ∀ queue : List (PendingTask τ),
    ∃ before after, queue = before ++ after ∧
      queue.insertIdx (queue.findIdx q) pending = before ++ pending :: after ∧
      (∀ t ∈ before, q t = false) ∧ ∀ t ∈ after.head?, q t = true
  | [] => ⟨[], [], rfl, rfl, by simp, by simp⟩
  | t :: queue => by
    cases ht : q t with
    | true => exact ⟨[], t :: queue, rfl, by simp [List.findIdx_cons, ht], by simp, by simpa using ht⟩
    | false =>
      obtain ⟨before, after, hqueue, hinsert, hbefore, hafter⟩ := insertIdx_findIdx pending q queue
      refine ⟨t :: before, after, by rw [hqueue, List.cons_append], ?_, ?_, hafter⟩
      · rw [List.findIdx_cons, ht, cond_false, List.insertIdx_succ_cons, hinsert, List.cons_append]
      · rintro t' ht'
        rcases List.mem_cons.1 ht' with rfl | ht'
        · exact ht
        · exact hbefore t' ht'

/-- **What putting in does.** The task goes somewhere into the queue: behind no
task of a lower priority and in front of one, or else to the end. -/
theorem insertPending_eq (config : ParallelConfig) (queue : List (PendingTask τ))
    (pending : PendingTask τ) : ∃ before after, queue = before ++ after ∧
      insertPending config queue pending = before ++ pending :: after ∧
      (config.enableTaskPriorities = true → (∀ t ∈ before, pending.priority ≤ t.priority) ∧
        ∀ t ∈ after.head?, t.priority < pending.priority) ∧
      (config.enableTaskPriorities = false → after = []) := by
  unfold insertPending
  cases hpriorities : config.enableTaskPriorities with
  | false => exact ⟨queue, [], by rw [List.append_nil], rfl, nofun, fun _ => rfl⟩
  | true =>
    obtain ⟨before, after, hqueue, hinsert, hbefore, hafter⟩ :=
      insertIdx_findIdx pending (fun t => t.priority < pending.priority) queue
    refine ⟨before, after, hqueue, hinsert, fun _ => ⟨?_, ?_⟩, nofun⟩
    · intro t ht
      exact not_lt.1 (of_decide_eq_false (hbefore t ht))
    · intro t ht
      exact of_decide_eq_true (hafter t ht)

theorem countP_insertPending (q : PendingTask τ → Bool) :
    (insertPending config queue pending).countP q = queue.countP q + if q pending then 1 else 0 := by
  obtain ⟨before, after, hqueue, hinsert, -⟩ := insertPending_eq config queue pending
  rw [hinsert, hqueue, List.countP_append, List.countP_cons, List.countP_append, Nat.add_assoc]

theorem length_insertPending : (insertPending config queue pending).length = queue.length + 1 := by
  obtain ⟨before, after, hqueue, hinsert, -⟩ := insertPending_eq config queue pending
  rw [hinsert, hqueue, List.length_append, List.length_cons, List.length_append, Nat.add_assoc]

/-! ## Taking out -/

/-- **What taking out does.** The task is cut out of the queue: it is the last
of the highest priority, or else the first of all. -/
theorem takeNext_eq_some (h : takeNext config queue = some (p, rest)) :
    ∃ before after, queue = before ++ p :: after ∧ rest = before ++ after ∧
      (config.enableTaskPriorities = true →
        (∀ t ∈ before, t.priority ≤ p.priority) ∧ ∀ t ∈ after, t.priority < p.priority) ∧
      (config.enableTaskPriorities = false → before = []) := by
  unfold takeNext at h
  cases hpriorities : config.enableTaskPriorities with
  | false =>
    rw [hpriorities, if_neg Bool.false_ne_true] at h
    cases queue with
    | nil => cases h
    | cons t queue =>
      cases h
      exact ⟨[], rest, rfl, rfl, nofun, fun _ => rfl⟩
  | true =>
    rw [hpriorities, if_pos rfl] at h
    split at h
    · next t idx hmax =>
      obtain ⟨before, after, hzip, hbefore, hafter⟩ := maxByKey_eq_some hmax
      -- the index that is found is that of the entry
      have hqueue : queue = before.map Prod.fst ++ t :: after.map Prod.fst := by
        rw [← List.zipIdx_map_fst 0 queue, hzip, List.map_append, List.map_cons]
      have hidx : idx = (before.map Prod.fst).length := by
        have hget := congrArg (·[before.length]?) hzip
        simp only [List.getElem?_zipIdx, List.getElem?_append_right (le_refl _), Nat.sub_self,
          List.getElem?_cons_zero, Option.map_eq_some_iff, Prod.mk.injEq] at hget
        obtain ⟨-, -, -, hidx⟩ := hget
        rw [← hidx, List.length_map, Nat.zero_add]
      rw [hidx, hqueue, List.getElem?_append_right (le_refl _), Nat.sub_self,
        List.getElem?_cons_zero, List.eraseIdx_append_of_length_le (le_refl _), Nat.sub_self,
        List.eraseIdx_cons_zero] at h
      cases h
      refine ⟨_, _, hqueue, rfl, fun _ => ⟨?_, ?_⟩, nofun⟩
      · intro t' ht'
        obtain ⟨x, hx, rfl⟩ := List.mem_map.1 ht'
        exact hbefore x hx
      · intro t' ht'
        obtain ⟨x, hx, rfl⟩ := List.mem_map.1 ht'
        exact hafter x hx
    · cases h

theorem countP_of_takeNext (q : PendingTask τ → Bool) (h : takeNext config queue = some (p, rest)) :
    queue.countP q = rest.countP q + if q p then 1 else 0 := by
  obtain ⟨before, after, hqueue, hrest, -⟩ := takeNext_eq_some h
  rw [hqueue, hrest, List.countP_append, List.countP_cons, List.countP_append, Nat.add_assoc]

theorem length_of_takeNext (h : takeNext config queue = some (p, rest)) :
    queue.length = rest.length + 1 := by
  obtain ⟨before, after, hqueue, hrest, -⟩ := takeNext_eq_some h
  rw [hqueue, hrest, List.length_append, List.length_cons, List.length_append, Nat.add_assoc]

end PendingTask

end SubxCore
