import SubxCore.Parallel.Calls
/-!
# Tasks left in the queue

A loop that has been idle for too long exits, and the next call that puts a
task in the queue starts another one, if it sees that there is none. It can
miss that: a loop that has decided to exit still has an unfinished handle, and
a batch looks only after its last task, which it may wait for room to put in.
Then a task stays in the queue, and calls wait for ever, with no loop left
(`stranded`). Where none of the three steps that let go of the queue is the
last to hold it, a loop is still there whenever all calls wait
(`loop_serves`).
-/

namespace SubxCore

namespace Scheduler

open Function PendingTask

variable {ι : Type} {config : ParallelConfig} {submissions : ι → Submission}
variable {s s' : State ι} {a : Action ι} {c : ι} {l i : ℕ}

/-! ## Who looks after the queue -/

/-- A loop that has not decided to exit. -/
def LoopStage.IsServing : LoopStage ι → Prop
  | .leaving | .finished => False
  | _ => True

instance : DecidablePred (LoopStage.IsServing (ι := ι)) := fun stage => by
  cases stage <;> first | exact instDecidableTrue | exact instDecidableFalse

/-- A call that has begun and not come to its end. -/
def Stage.IsLive : Stage → Prop
  | .idle | .returned _ | .cancelled => False
  | _ => True

/-- A call that has put a task in the queue and still has its liveness check
ahead, without a wait before it. -/
def Call.IsAttending (call : Call) : Prop :=
  match call.stage with
  | .ensure | .spawn => True
  | .register _ | .check _ | .evict _ | .clear _ _ | .enqueue _ => call.receivers ≠ []
  | _ => False

/-- It is on its way, and does not wait. -/
theorem Call.IsAttending.isLive {call : Call} (h : call.IsAttending) :
    call.stage.IsLive ∧ ¬ call.stage.IsWaiting := by
  unfold Call.IsAttending at h
  cases hstage : call.stage <;> rw [hstage] at h <;>
    first | exact False.elim h | exact ⟨trivial, id⟩

/-- Some loop or call looks after the queue, besides these. -/
def State.Attended (s : State ι) (loop : Option ℕ) (caller : Option ι) : Prop :=
  (∃ l stage, loop ≠ some l ∧ s.loops[l]? = some stage ∧ stage.IsServing) ∨
    ∃ c, caller ≠ some c ∧ (s.calls c).IsAttending

/-- **The steps that let go of the queue.** A loop decides to exit, a liveness
check takes an unfinished handle for a loop at work, and a batch with tasks in
the queue waits for room or is rejected. None is the last that looks after a
queue with tasks in it. -/
def KeepsAttended (config : ParallelConfig) (s : State ι) : Action ι → Prop
  | .giveUp l => s.queue ≠ [] → s.Attended (some l) none
  | .ensure c => s.queue ≠ [] → s.needsRestart = false → s.Attended none (some c)
  | .isFull c _ =>
    s.queue ≠ [] → (s.calls c).receivers ≠ [] →
      config.queueOverflowStrategy = .block ∨ config.queueOverflowStrategy = .reject →
      s.Attended none (some c)
  | _ => True

/-! ## One action -/

/-- Who looks after the queue still does when no loop has changed and the call
that acts is none of them, or still one. -/
theorem State.Attended.of_calls (h : s.Attended none (some c)) (hloops : s'.loops = s.loops)
    (hcalls : ∀ c', c' ≠ c → s'.calls c' = s.calls c') : s'.Attended none none := by
  rcases h with ⟨l, stage, -, hl, hserving⟩ | ⟨c', hne, hattending⟩
  · exact Or.inl ⟨l, stage, nofun, hloops ▸ hl, hserving⟩
  · have hne' : c' ≠ c := fun heq => hne (congrArg some heq.symm)
    exact Or.inr ⟨c', nofun, (hcalls c' hne').symm ▸ hattending⟩

/-- A call that does not look after the queue is not the one that does. -/
theorem State.Attended.except (h : s.Attended none none) (hc : ¬ (s.calls c).IsAttending) :
    s.Attended none (some c) := by
  rcases h with hloop | ⟨c', -, hattending⟩
  · exact Or.inl hloop
  · refine Or.inr ⟨c', ?_, hattending⟩
    rintro heq
    exact hc (Option.some.inj heq ▸ hattending)

/-- A call that goes on looking after the queue. -/
theorem State.Attended.of_attending (h : s.Attended none none) (hloops : s'.loops = s.loops)
    (hcalls : ∀ c', c' ≠ c → s'.calls c' = s.calls c')
    (hc : (s.calls c).IsAttending → (s'.calls c).IsAttending) : s'.Attended none none := by
  by_cases hattending : (s.calls c).IsAttending
  · exact Or.inr ⟨c, nofun, hc hattending⟩
  · exact (h.except hattending).of_calls hloops hcalls

/-- A loop that is set to work looks after the queue. -/
theorem attended_of_set {stage stage' : LoopStage ι} (h : s.loops[l]? = some stage)
    (hloops : s'.loops = s.loops.set l stage') (hserving : stage'.IsServing) :
    s'.Attended none none := by
  obtain ⟨hl, -⟩ := List.getElem?_eq_some_iff.1 h
  refine Or.inl ⟨l, stage', nofun, ?_, hserving⟩
  rw [hloops, List.getElem?_set_self hl]

/-- One that is none of those that do can change as it may. -/
theorem State.Attended.of_set {stage' : LoopStage ι} (h : s.Attended (some l) none)
    (hloops : s'.loops = s.loops.set l stage') (hcalls : s'.calls = s.calls) :
    s'.Attended none none := by
  rcases h with ⟨l', stage, hne, hl, hserving⟩ | ⟨c, -, hattending⟩
  · refine Or.inl ⟨l', stage, nofun, ?_, hserving⟩
    have hne' : l ≠ l' := fun heq => hne (congrArg some heq)
    rw [hloops, List.getElem?_set_ne hne', hl]
  · exact Or.inr ⟨c, nofun, hcalls ▸ hattending⟩

/-- After a task of a batch that keeps receivers the batch looks after the queue. -/
theorem isAttending_nextTask {submission : Submission} {receivers : List ℕ}
    {results : List TaskResult} (h : receivers ≠ []) :
    (Call.mk (nextTask submission i) receivers results).IsAttending := by
  unfold nextTask
  split
  · exact h
  · trivial

variable [DecidableEq ι]

theorem attended_isFull (hstep : KeepsAttended config s (.isFull c i))
    (hprogress : Progress config submissions c s)
    (ha : enabled config submissions s (.isFull c i)) (hqueue : s.queue ≠ [])
    (h : s.Attended none none) :
    ((scheduler config submissions).effect s (.isFull c i)).Attended none none := by
  have hcalls : ∀ c', c' ≠ c → ((scheduler config submissions).effect s (.isFull c i)).calls c' =
      s.calls c' := fun c' hne => update_of_ne hne ..
  unfold Progress Call.Accords at hprogress
  rw [ha.1] at hprogress
  by_cases hreceivers : (s.calls c).receivers = []
  · refine (h.except ?_).of_calls rfl hcalls
    rw [Call.IsAttending, ha.1]
    exact fun hne => hne hreceivers
  cases hstrategy : config.queueOverflowStrategy with
  | block => exact (hstep hqueue hreceivers (Or.inl hstrategy)).of_calls rfl hcalls
  | reject => exact (hstep hqueue hreceivers (Or.inr hstrategy)).of_calls rfl hcalls
  | dropOldest | expand =>
    refine Or.inr ⟨c, (Option.some_ne_none c).symm, ?_⟩
    simp only [scheduler, act, State.goTo, update_self, hstrategy]
    exact hreceivers
  | drop =>
    refine Or.inr ⟨c, (Option.some_ne_none c).symm, ?_⟩
    simp only [scheduler, act, State.goTo, update_self, hstrategy]
    cases hsubmission : submissions c with
    | single task priority =>
      -- a single call has nothing in the queue before its one task
      rw [hsubmission] at hprogress
      have hzero : i = 0 := Nat.lt_one_iff.1 hprogress.1
      rw [hzero] at hprogress
      exact absurd hprogress.2.1 hreceivers
    | batch tasks => exact isAttending_nextTask hreceivers

/-- **What an action leaves of those who look after the queue.** -/
theorem attended_effect (hstep : KeepsAttended config s a)
    (hprogress : ∀ c, Progress config submissions c s)
    (ha : enabled config submissions s a) (h : s.queue ≠ [] → s.Attended none none)
    (hqueue : ((scheduler config submissions).effect s a).queue ≠ []) :
    ((scheduler config submissions).effect s a).Attended none none := by
  -- a call that has not looked after the queue
  have hidle : ∀ c, a.caller = some c → s.queue ≠ [] → ¬ (s.calls c).IsAttending →
      ((scheduler config submissions).effect s a).loops = s.loops →
      ((scheduler config submissions).effect s a).Attended none none :=
    fun c hcaller hqueue hnot hloops =>
      ((h hqueue).except hnot).of_calls hloops fun _ => calls_effect_of_caller hcaller
  -- and one that still does
  have hgoes : ∀ c, a.caller = some c → s.queue ≠ [] →
      ((s.calls c).IsAttending →
        (((scheduler config submissions).effect s a).calls c).IsAttending) →
      ((scheduler config submissions).effect s a).loops = s.loops →
      ((scheduler config submissions).effect s a).Attended none none :=
    fun c hcaller hqueue hc hloops =>
      (h hqueue).of_attending hloops (fun _ => calls_effect_of_caller hcaller) hc
  cases a with
  | isFull c i => exact attended_isFull hstep (hprogress c) ha hqueue (h hqueue)
  | begin c | store c | dropGuard c =>
    refine hidle c rfl hqueue ?_ rfl
    rw [Call.IsAttending, show (s.calls c).stage = _ from ha]
    exact id
  | poll c | receive c | cleanup c =>
    refine hidle c rfl hqueue ?_ rfl
    rw [Call.IsAttending, ha.1]
    exact id
  | cancel c =>
    exact hidle c rfl hqueue (fun hattending => hattending.isLive.2 ha) rfl
  | register c | hasRoom c | evictNone c =>
    refine hgoes c rfl hqueue ?_ rfl
    simp only [scheduler, act, State.goTo, update_self, Call.IsAttending]
    rw [ha.1]
    exact id
  | evict c i p rest =>
    refine hgoes c rfl ?_ ?_ rfl
    · rw [ha.2]
      exact List.cons_ne_nil p rest
    · simp only [scheduler, act, State.goTo, update_self, Call.IsAttending]
      rw [ha.1]
      exact id
  | clear c =>
    refine hgoes c rfl hqueue ?_ rfl
    simp only [scheduler, act, State.goTo, update_self, Call.IsAttending]
    rw [show (s.calls c).stage = _ from ha]
    exact id
  | enqueue c i task =>
    refine Or.inr ⟨c, (Option.some_ne_none c).symm, ?_⟩
    simp only [scheduler, act, update_self]
    exact isAttending_nextTask (by simp)
  | ensure c =>
    cases hrestart : s.needsRestart with
    | true =>
      refine Or.inr ⟨c, (Option.some_ne_none c).symm, ?_⟩
      simp only [scheduler, act, State.goTo, update_self, hrestart]
      trivial
    | false => exact (hstep hqueue hrestart).of_calls rfl fun _ => calls_effect_of_caller rfl
  | spawn c =>
    exact Or.inl ⟨s.loops.length, .start, (Option.some_ne_none _).symm,
      List.getElem?_concat_length, trivial⟩
  | readQueue l | goOn l | start l => exact attended_of_set ha rfl trivial
  | acquire l | noPermit l | dequeue l | dequeueNone l => exact attended_of_set ha.1 rfl trivial
  | giveUp l => exact (hstep hqueue).of_set rfl rfl
  | leave l =>
    refine State.Attended.of_set (s := s) ?_ rfl rfl
    rcases h hqueue with ⟨l', stage, -, hl', hserving⟩ | ⟨c, -, hattending⟩
    · refine Or.inl ⟨l', stage, ?_, hl', hserving⟩
      rintro heq
      rw [← Option.some.inj heq, show s.loops[l]? = _ from ha] at hl'
      cases hl'
      exact hserving
    · exact Or.inr ⟨c, (Option.some_ne_none c).symm, hattending⟩
  | finish k p | panic k p | report k p | send k p | release k p => exact h hqueue

/-! ## Every run -/

theorem attended_of_reaches
    (hs : ((scheduler config submissions).restrict (KeepsAttended config)).Reaches
      (init ι config) s) (hqueue : s.queue ≠ []) : s.Attended none none := by
  induction hs with
  | refl => exact absurd rfl hqueue
  | step ht ha ih =>
    exact attended_effect ha.2 (Reachable.progress ht.of_restrict) ha.1 ih hqueue

/-- **No task is stranded** as long as no step that lets go of the queue is the
last to look after one with tasks in it: where a task is queued, and each live
call waits for its result or for room, a loop is there that goes on taking
tasks. -/
theorem loop_serves
    (hs : ((scheduler config submissions).restrict (KeepsAttended config)).Reaches
      (init ι config) s) (hqueue : s.queue ≠ [])
    (hcalls : ∀ c, (s.calls c).stage.IsLive → (s.calls c).stage.IsWaiting) :
    ∃ (l : ℕ) (stage : LoopStage ι), s.loops[l]? = some stage ∧ stage.IsServing := by
  rcases attended_of_reaches hs hqueue with ⟨l, stage, -, hl, hserving⟩ | ⟨c, -, hattending⟩
  · exact ⟨l, stage, hl, hserving⟩
  · obtain ⟨hlive, hnot⟩ := hattending.isLive
    exact absurd (hcalls c hlive) hnot

/-- A single call with a loop at work. -/
theorem loop_serves_validation :
    ∃ s : State Unit, s.queue.length = 1 ∧
      ∃ (l : ℕ) (stage : LoopStage Unit), s.loops[l]? = some stage ∧ stage.IsServing := by
  let M := (scheduler (smallConfig .block) fun _ : Unit => .single validation .high).restrict
    (KeepsAttended (smallConfig .block))
  have hbegin : M.Reaches (init Unit (smallConfig .block)) _ :=
    Machine.Reaches.refl.step (a := Action.begin ()) ⟨rfl, trivial⟩
  have hregister := hbegin.step (a := Action.register () 0 validation) ⟨⟨rfl, rfl⟩, trivial⟩
  have hroom := hregister.step (a := Action.hasRoom () 0) ⟨⟨rfl, Nat.zero_lt_one⟩, trivial⟩
  have henqueue := hroom.step (a := Action.enqueue () 0 validation) ⟨⟨rfl, rfl⟩, trivial⟩
  have hensure := henqueue.step (a := Action.ensure ())
    ⟨rfl, fun _ _ => Or.inl ⟨0, .start, (Option.some_ne_none 0).symm, rfl, trivial⟩⟩
  exact ⟨_, rfl, loop_serves hensure (List.cons_ne_nil _ _) fun c _ => by
    rw [Subsingleton.elim c ()]; trivial⟩

/-- The loop has exited, and a batch that finds the queue full after its first
task waits for room. -/
def strandingRun : List (Action Unit) :=
  [.readQueue 0, .giveUp 0, .leave 0, .begin (), .register () 0 validation, .hasRoom () 0,
    .enqueue () 0 validation, .register () 1 conversion, .isFull () 1]

/-- **Some tasks are stranded**: a task is queued and its call waits for room, and
every loop has finished. -/
theorem stranded :
    ¬ ∀ s, Reachable (smallConfig .block) (fun _ : Unit => .batch [validation, conversion]) s →
      s.queue ≠ [] → (∀ c, (s.calls c).stage.IsLive → (s.calls c).stage.IsWaiting) →
      ∃ (l : ℕ) (stage : LoopStage Unit), s.loops[l]? = some stage ∧ stage ≠ .finished := by
  intro hclaim
  obtain ⟨s, hs, hstranded⟩ := Machine.exists_reaches_of_run
    (by decide : ((scheduler (smallConfig .block)
      fun _ : Unit => .batch [validation, conversion]).run
        (init Unit (smallConfig .block)) strandingRun).any
          (fun s => decide (s.queue ≠ [] ∧ (s.calls ()).stage.IsWaiting ∧
            ∀ stage ∈ s.loops, stage = .finished)) = true)
  obtain ⟨hqueue, hwaiting, hfinished⟩ := of_decide_eq_true hstranded
  obtain ⟨l, stage, hl, hne⟩ := hclaim s hs hqueue fun c _ => Subsingleton.elim () c ▸ hwaiting
  exact hne (hfinished stage (List.mem_of_getElem? hl))

end Scheduler

end SubxCore
