import SubxCore.Parallel.Handout
import Mathlib.Data.Finset.Card
/-!
# The size of the queue

A call that finds room in the queue puts its task in under another lock, and
one that makes room by evicting a task does that under a third. What others put
in meanwhile is not seen, so two calls can share the last free place
(`overfilled`). Where a call is let in only when there is a place for it beside
the tasks in the queue and those of the calls that have been let in before, the
queue never holds more than it should (`queue_within_size`).
-/

namespace SubxCore

namespace Scheduler

open Function PendingTask

variable {ι : Type} {config : ParallelConfig} {submissions : ι → Submission} {s s' : State ι}
variable {a : Action ι} {c : ι} {i n : ℕ} {submission : Submission}

/-- A call that has been let in, and has not put its task in the queue yet. -/
def Stage.IsLetIn : Stage → Prop
  | .clear _ _ | .enqueue _ => True
  | _ => False

/-- There is a place for the tasks in the queue, for those of the calls that have
been let in, and for `n` more. -/
def HasPlaces (config : ParallelConfig) (n : ℕ) (s : State ι) : Prop :=
  ∀ calls : Finset ι, (∀ c ∈ calls, (s.calls c).stage.IsLetIn) →
    s.queue.length + calls.card + n ≤ config.taskQueueSize

/-- **Nobody is let in without a place.** A call is let in when it finds room, at
once or when it has waited for it, or finds nothing to evict. -/
def HasPlaceFor (config : ParallelConfig) (s : State ι) : Action ι → Prop
  | .hasRoom _ _ | .poll _ _ | .evictNone _ _ => HasPlaces config 1 s
  | _ => True

/-! ## One action -/

theorem not_isLetIn_nextTask : ¬ (nextTask submission i).IsLetIn := by
  unfold nextTask
  split <;> exact id

theorem not_isLetIn_nextReceiver {call : Call} {k : ℕ} : ¬ (nextReceiver call k).IsLetIn := by
  unfold nextReceiver
  split <;> exact id

theorem not_isLetIn_receive {call : Call} {k : ℕ} {result : Option TaskResult} :
    ¬ (call.receive submission k result).stage.IsLetIn := by
  cases submission <;> exact id

/-- A full queue lets nobody in, unless it may grow. -/
theorem not_isLetIn_overflow {strategy : OverflowStrategy} (h : strategy ≠ .expand) :
    ¬ (overflow strategy submission i).IsLetIn := by
  cases strategy with
  | expand => exact absurd rfl h
  | block | dropOldest => exact id
  | reject => cases submission <;> exact id
  | drop =>
    cases submission with
    | single task priority => exact id
    | batch tasks => exact not_isLetIn_nextTask

/-- Where nobody is let in and the queue has not grown. -/
theorem HasPlaces.of_le (h : HasPlaces config n s) (hqueue : s'.queue.length ≤ s.queue.length)
    (hcalls : ∀ c, (s'.calls c).stage.IsLetIn → (s.calls c).stage.IsLetIn) :
    HasPlaces config n s' := by
  intro calls hin
  have hplaces := h calls fun c hc => hcalls c (hin c hc)
  omega

variable [DecidableEq ι]

/-- A call that is let in takes a place. -/
theorem HasPlaces.letIn (hcalls : ∀ c', c' ≠ c → s'.calls c' = s.calls c')
    (h : HasPlaces config n s) (hqueue : s'.queue.length + 1 ≤ s.queue.length + n) :
    HasPlaces config 0 s' := by
  intro calls hin
  have hplaces := h (calls.erase c) fun c' hc' => by
    rw [← hcalls c' (Finset.ne_of_mem_erase hc')]
    exact hin c' (Finset.mem_of_mem_erase hc')
  have hcard : calls.card - 1 ≤ (calls.erase c).card := Finset.pred_card_le_card_erase
  omega

/-- A call that puts its task in gives its place to it. -/
theorem HasPlaces.putIn (h : HasPlaces config 0 s) (hbefore : (s.calls c).stage.IsLetIn)
    (hcalls : ∀ c', c' ≠ c → s'.calls c' = s.calls c')
    (hafter : ¬ (s'.calls c).stage.IsLetIn) (hqueue : s'.queue.length = s.queue.length + 1) :
    HasPlaces config 0 s' := by
  intro calls hin
  have hnot : c ∉ calls := fun hc => hafter (hin c hc)
  have hplaces := h (insert c calls) fun c' hc' => by
    rcases Finset.mem_insert.1 hc' with rfl | hmem
    · exact hbefore
    · have hne : c' ≠ c := fun heq => hnot (heq ▸ hmem)
      rw [← hcalls c' hne]
      exact hin c' hmem
  rw [Finset.card_insert_of_notMem hnot] at hplaces
  omega

theorem HasPlaces.effect (hstrategy : config.queueOverflowStrategy ≠ .expand)
    (hstep : HasPlaceFor config s a) (ha : enabled config submissions s a)
    (h : HasPlaces config 0 s) :
    HasPlaces config 0 ((scheduler config submissions).effect s a) := by
  -- a call that is not let in by what it does
  have hout : ∀ c, a.caller = some c →
      ((((scheduler config submissions).effect s a).calls c).stage.IsLetIn →
        (s.calls c).stage.IsLetIn) →
      ((scheduler config submissions).effect s a).queue = s.queue →
      HasPlaces config 0 ((scheduler config submissions).effect s a) := by
    intro c hcaller hc hqueue
    refine h.of_le (hqueue ▸ le_refl _) fun c' hin => ?_
    by_cases heq : c' = c
    · subst heq
      exact hc hin
    · rwa [calls_effect_of_caller hcaller heq] at hin
  cases a with
  | hasRoom c | poll c | evictNone c =>
    exact HasPlaces.letIn (fun _ => calls_effect_of_caller (c := c) rfl) hstep (le_refl _)
  | evict c i p rest =>
    refine HasPlaces.letIn (fun _ => calls_effect_of_caller (c := c) rfl) h ?_
    rw [ha.2]
    exact le_refl _
  | enqueue c i task =>
    refine h.putIn (c := c) ?_ (fun _ => calls_effect_of_caller rfl) ?_ length_insertPending
    · rw [ha.1]
      trivial
    · simp only [scheduler, act, update_self]
      exact not_isLetIn_nextTask
  | clear c =>
    refine hout c rfl (fun _ => ?_) rfl
    rw [show (s.calls c).stage = _ from ha]
    trivial
  | isFull c i =>
    refine hout c rfl (fun hin => absurd hin ?_) rfl
    simp only [scheduler, act, State.goTo, update_self]
    exact not_isLetIn_overflow hstrategy
  | begin c =>
    refine hout c rfl (fun hin => absurd hin ?_) rfl
    simp only [scheduler, act, State.goTo, update_self]
    exact not_isLetIn_nextTask
  | ensure c =>
    refine hout c rfl (fun hin => absurd hin ?_) rfl
    simp only [scheduler, act, State.goTo, update_self]
    split
    · exact id
    · exact not_isLetIn_nextReceiver
  | store c | cleanup c =>
    refine hout c rfl (fun hin => absurd hin ?_) rfl
    simp only [scheduler, act, State.goTo, update_self]
    exact not_isLetIn_nextReceiver
  | receive c k i result =>
    refine hout c rfl (fun hin => absurd hin ?_) rfl
    simp only [scheduler, act, update_self]
    exact not_isLetIn_receive
  | register c | spawn c | dropGuard c | cancel c =>
    refine hout c rfl (fun hin => absurd hin ?_) rfl
    simp only [scheduler, act, State.goTo, update_self]
    exact id
  | dequeue l p rest =>
    refine h.of_le ?_ fun _ => id
    have hlength := length_of_takeNext ha.2
    change rest.length ≤ s.queue.length
    omega
  | _ => exact h.of_le (le_refl _) fun _ => id

/-! ## Every run -/

theorem hasPlaces_of_reaches (hstrategy : config.queueOverflowStrategy ≠ .expand)
    (hs : ((scheduler config submissions).restrict (HasPlaceFor config)).Reaches
      (init ι config) s) : HasPlaces config 0 s := by
  induction hs with
  | refl =>
    intro calls hin
    have hempty : calls = ∅ := Finset.eq_empty_of_forall_notMem hin
    rw [hempty]
    exact Nat.zero_le _
  | step _ ha ih => exact HasPlaces.effect hstrategy ha.2 ha.1 ih

/-- **The queue is never overfilled** as long as nobody is let in without a
place. -/
theorem queue_within_size (hstrategy : config.queueOverflowStrategy ≠ .expand)
    (hs : ((scheduler config submissions).restrict (HasPlaceFor config)).Reaches
      (init ι config) s) : s.queue.length ≤ config.taskQueueSize :=
  hasPlaces_of_reaches hstrategy hs ∅ fun _ hc => absurd hc (Finset.notMem_empty _)

/-- A single call that finds the queue empty. -/
theorem queue_within_size_validation :
    ∃ s : State Unit, s.queue.length = 1 ∧
      s.queue.length ≤ (smallConfig .reject).taskQueueSize := by
  let M := (scheduler (smallConfig .reject) fun _ : Unit => .single validation .high).restrict
    (HasPlaceFor (smallConfig .reject))
  have hbegin : M.Reaches (init Unit (smallConfig .reject)) _ :=
    Machine.Reaches.refl.step (a := Action.begin ()) ⟨rfl, trivial⟩
  have hregister := hbegin.step (a := Action.register () 0 validation) ⟨⟨rfl, rfl⟩, trivial⟩
  have hroom := hregister.step (a := Action.hasRoom () 0) ⟨⟨rfl, Nat.zero_lt_one⟩, by
    intro calls hin
    have hempty : calls = ∅ := Finset.eq_empty_of_forall_notMem fun c hc =>
      absurd (hin c hc) (by rw [Subsingleton.elim c ()]; exact id)
    rw [hempty]
    exact le_refl 1⟩
  have henqueue := hroom.step (a := Action.enqueue () 0 validation) ⟨⟨rfl, rfl⟩, trivial⟩
  exact ⟨_, rfl, queue_within_size (by decide) henqueue⟩

/-- Two calls that both find room before either has put its task in. -/
def overfillingRun : List (Action Bool) :=
  [.begin false, .begin true, .register false 0 validation, .register true 0 validation,
    .hasRoom false 0, .hasRoom true 0, .enqueue false 0 validation, .enqueue true 0 validation]

/-- **The queue can be overfilled**: it has room for one task and holds two. -/
theorem overfilled :
    ¬ ∀ s, Reachable (smallConfig .reject) (fun _ : Bool => .single validation .high) s →
      s.queue.length ≤ (smallConfig .reject).taskQueueSize := by
  intro hclaim
  obtain ⟨s, hs, hlong⟩ := Machine.exists_reaches_of_run
    (by decide : ((scheduler (smallConfig .reject) fun _ : Bool => .single validation .high).run
      (init Bool (smallConfig .reject)) overfillingRun).any
        (fun s => decide (s.queue.length = 2)) = true)
  have hbound := hclaim s hs
  rw [of_decide_eq_true hlong] at hbound
  exact absurd hbound (by decide)

end Scheduler

end SubxCore
