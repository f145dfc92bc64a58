import SubxCore.Matcher.Frame
import SubxCore.Matcher.Panics
/-!
# The progress stream

The two loops once more, with the events they report. Reporting changes
nothing of a batch. Every way out of a loop closes the stream with the
count announced last, save one: a panic leaves it open. So the stream of a
batch is closed exactly when no operation that is begun panics.
-/

namespace SubxCore

open Text Function

/-- `ProgressEvent`, as far as the loops emit it. -/
inductive ProgressEvent
  | started (total : ℕ)
  | advanced (done total : ℕ) (item : Option Text)
  | finished (done total : ℕ)
  deriving DecidableEq, Repr

/-! ## The loops and their events -/

/-- The loop of `execute_operations`, with what it reports. -/
def reportFrom (config : MatchConfig) (hasJournal : Bool) (total : ℕ) :
    List MatchOperation → ℕ → List AppliedOperation → Disk → Batch Unit × List ProgressEvent
  | [], completed, applied, disk => (⟨.ok (), applied, disk⟩, [.finished completed total])
  | op :: ops, completed, applied, disk =>
    match (applyOperation config op).exec disk with
    | (.error (.failed err), disk) =>
      (⟨.error (.failed err), applied, disk⟩, [.finished completed total])
    | (.error (.panicked panic), disk) => (⟨.error (.panicked panic), applied, disk⟩, [])
    | (.ok done, disk) =>
      match (persist hasJournal (applied ++ [done])).exec disk with
      | (.error stop, disk) =>
        (⟨.error stop, applied ++ [done], disk⟩, [.finished completed total])
      | (.ok (), disk) =>
        let rest := reportFrom config hasJournal total ops (completed + 1) (applied ++ [done]) disk
        (rest.1, .advanced (completed + 1) total none :: rest.2)

/-- `execute_operations`, with what it reports. -/
def reportOperations (config : MatchConfig) (hasJournal : Bool) (ops : List MatchOperation)
    (dryRun : Bool) (disk : Disk) : Batch Unit × List ProgressEvent :=
  if dryRun then (⟨.ok (), [], disk⟩, [])
  else
    let run := reportFrom config hasJournal ops.length ops 0 [] disk
    (run.1, .started ops.length :: run.2)

/-- The loop of `execute_operations_audit`, with what it reports. -/
def reportAuditFrom (config : MatchConfig) (hasJournal : Bool) (cancelled : ℕ → Bool)
    (total : ℕ) : List MatchOperation → List OperationOutcome → List AppliedOperation → Disk →
      Batch (List OperationOutcome) × List ProgressEvent
  | [], outcomes, applied, disk =>
    (⟨.ok outcomes, applied, disk⟩, [.finished outcomes.length total])
  | op :: ops, outcomes, applied, disk =>
    if cancelled outcomes.length then
      (⟨.ok (outcomes ++ List.replicate (op :: ops).length ⟨false, none⟩), applied, disk⟩,
        [.finished outcomes.length total])
    else
      match (applyOperation config op).exec disk with
      | (.error (.failed err), disk) =>
        let rest := reportAuditFrom config hasJournal cancelled total ops
          (outcomes ++ [⟨false, some (operationErrorFrom err)⟩]) applied disk
        (rest.1, .advanced (outcomes.length + 1) total (some op.subtitleFile.name) :: rest.2)
      | (.error (.panicked panic), disk) => (⟨.error (.panicked panic), applied, disk⟩, [])
      | (.ok done, disk) =>
        match (persist hasJournal (applied ++ [done])).exec disk with
        | (.error stop, disk) =>
          (⟨.error stop, applied ++ [done], disk⟩, [.finished outcomes.length total])
        | (.ok (), disk) =>
          let rest := reportAuditFrom config hasJournal cancelled total ops
            (outcomes ++ [⟨true, none⟩]) (applied ++ [done]) disk
          (rest.1, .advanced (outcomes.length + 1) total (some op.subtitleFile.name) :: rest.2)

/-- `execute_operations_audit`, with what it reports. -/
def reportOperationsAudit (config : MatchConfig) (hasJournal : Bool) (cancelled : ℕ → Bool)
    (ops : List MatchOperation) (dryRun : Bool) (disk : Disk) :
    Batch (List OperationOutcome) × List ProgressEvent :=
  if dryRun then (⟨.ok (ops.map fun _ => ⟨false, none⟩), [], disk⟩, [])
  else
    let run := reportAuditFrom config hasJournal cancelled ops.length ops [] [] disk
    (run.1, .started ops.length :: run.2)

/-! ## Operations that are begun -/

/-- The loop of `execute_operations` begins an operation on a disk. -/
inductive Begins (config : MatchConfig) (hasJournal : Bool) :
    List MatchOperation → List AppliedOperation → Disk → MatchOperation → Disk → Prop
  /-- The first one. -/
  | first {op ops applied disk} : Begins config hasJournal (op :: ops) applied disk op disk
  /-- Those after one that is carried out and saved. -/
  | later {op ops applied disk done disk₁ disk₂ op' disk'} :
      (applyOperation config op).exec disk = (.ok done, disk₁) →
      (persist hasJournal (applied ++ [done])).exec disk₁ = (.ok (), disk₂) →
      Begins config hasJournal ops (applied ++ [done]) disk₂ op' disk' →
      Begins config hasJournal (op :: ops) applied disk op' disk'

/-- The loop of `execute_operations_audit` begins an operation on a disk. -/
inductive BeginsAudit (config : MatchConfig) (hasJournal : Bool) (cancelled : ℕ → Bool) :
    List MatchOperation → List OperationOutcome → List AppliedOperation → Disk →
      MatchOperation → Disk → Prop
  /-- The first one, unless the batch is cancelled. -/
  | first {op ops outcomes applied disk} : cancelled outcomes.length = false →
      BeginsAudit config hasJournal cancelled (op :: ops) outcomes applied disk op disk
  /-- Those after one that fails. -/
  | afterFailure {op ops outcomes applied disk err disk₁ op' disk'} :
      cancelled outcomes.length = false →
      (applyOperation config op).exec disk = (.error (.failed err), disk₁) →
      BeginsAudit config hasJournal cancelled ops
        (outcomes ++ [⟨false, some (operationErrorFrom err)⟩]) applied disk₁ op' disk' →
      BeginsAudit config hasJournal cancelled (op :: ops) outcomes applied disk op' disk'
  /-- Those after one that is carried out and saved. -/
  | later {op ops outcomes applied disk done disk₁ disk₂ op' disk'} :
      cancelled outcomes.length = false →
      (applyOperation config op).exec disk = (.ok done, disk₁) →
      (persist hasJournal (applied ++ [done])).exec disk₁ = (.ok (), disk₂) →
      BeginsAudit config hasJournal cancelled ops (outcomes ++ [⟨true, none⟩])
        (applied ++ [done]) disk₂ op' disk' →
      BeginsAudit config hasJournal cancelled (op :: ops) outcomes applied disk op' disk'

variable {config : MatchConfig} {hasJournal : Bool} {cancelled : ℕ → Bool} {total n : ℕ}
variable {ops : List MatchOperation} {op : MatchOperation} {applied : List AppliedOperation}
variable {outcomes : List OperationOutcome} {disk disk' : Disk} {events : List ProgressEvent}

/-! ## Reporting changes nothing -/

theorem reportFrom_fst : ∀ (ops : List MatchOperation) (completed : ℕ)
    (applied : List AppliedOperation) (disk : Disk),
    (reportFrom config hasJournal total ops completed applied disk).1 =
      executeFrom config hasJournal ops applied disk
  | [], _, _, _ => rfl
  | op :: ops, completed, applied, disk => by
    unfold reportFrom executeFrom
    rcases (applyOperation config op).exec disk with ⟨(err | panic) | done, disk₁⟩
    · rfl
    · rfl
    dsimp only
    rcases (persist hasJournal (applied ++ [done])).exec disk₁ with ⟨stop | u, disk₂⟩
    · rfl
    · exact reportFrom_fst ops (completed + 1) (applied ++ [done]) disk₂

/-- **The batch that is reported is the batch that is executed.** -/
theorem reportOperations_fst (ops : List MatchOperation) (dryRun : Bool) (disk : Disk) :
    (reportOperations config hasJournal ops dryRun disk).1 =
      executeOperations config hasJournal ops dryRun disk := by
  unfold reportOperations executeOperations
  split
  · rfl
  · exact reportFrom_fst ops 0 [] disk

theorem reportAuditFrom_fst : ∀ (ops : List MatchOperation) (outcomes : List OperationOutcome)
    (applied : List AppliedOperation) (disk : Disk),
    (reportAuditFrom config hasJournal cancelled total ops outcomes applied disk).1 =
      executeAuditFrom config hasJournal cancelled ops outcomes applied disk
  | [], _, _, _ => rfl
  | op :: ops, outcomes, applied, disk => by
    unfold reportAuditFrom executeAuditFrom
    split
    · rfl
    rcases (applyOperation config op).exec disk with ⟨(err | panic) | done, disk₁⟩
    · exact reportAuditFrom_fst ops _ applied disk₁
    · rfl
    dsimp only
    rcases (persist hasJournal (applied ++ [done])).exec disk₁ with ⟨stop | u, disk₂⟩
    · rfl
    · exact reportAuditFrom_fst ops _ (applied ++ [done]) disk₂

/-- And so of the audited batch. -/
theorem reportOperationsAudit_fst (ops : List MatchOperation) (dryRun : Bool) (disk : Disk) :
    (reportOperationsAudit config hasJournal cancelled ops dryRun disk).1 =
      executeOperationsAudit config hasJournal cancelled ops dryRun disk := by
  unfold reportOperationsAudit executeOperationsAudit
  split
  · rfl
  · exact reportAuditFrom_fst ops [] [] disk

/-! ## Panics -/

/-- A batch that ends in a panic. -/
def Panicked {α : Type} (batch : Batch α) : Prop := ∃ panic, batch.outcome = .error (.panicked panic)

theorem persist_eq_error {stop : Stop}
    (h : (persist hasJournal applied).exec disk = (.error stop, disk')) :
    ∃ err, stop = .failed err := by
  unfold persist at h
  split at h
  · unfold saveJournal at h
    rw [Program.exec_step] at h
    split at h
    · cases h
      exact ⟨_, rfl⟩
    · cases h
  · cases h

/-- The first operation is begun, or one after it. -/
theorem exists_begins_cons_iff {P : MatchOperation → Disk → Prop} :
    (∃ op' disk', Begins config hasJournal (op :: ops) applied disk op' disk' ∧ P op' disk') ↔
      P op disk ∨ ∃ done disk₁ disk₂, (applyOperation config op).exec disk = (.ok done, disk₁) ∧
        (persist hasJournal (applied ++ [done])).exec disk₁ = (.ok (), disk₂) ∧
        ∃ op' disk', Begins config hasJournal ops (applied ++ [done]) disk₂ op' disk' ∧
          P op' disk' := by
  constructor
  · rintro ⟨op', disk', hbegins, hP⟩
    cases hbegins with
    | first => exact .inl hP
    | later hok hsave hrest => exact .inr ⟨_, _, _, hok, hsave, op', disk', hrest, hP⟩
  · rintro (hP | ⟨done, disk₁, disk₂, hok, hsave, op', disk', hrest, hP⟩)
    · exact ⟨op, disk, .first, hP⟩
    · exact ⟨op', disk', .later hok hsave hrest, hP⟩

/-- **A batch panics where an operation does.** -/
theorem panicked_executeFrom_iff : ∀ (ops : List MatchOperation)
    (applied : List AppliedOperation) (disk : Disk),
    Panicked (executeFrom config hasJournal ops applied disk) ↔
      ∃ op disk', Begins config hasJournal ops applied disk op disk' ∧ ¬ Plannable config op disk'
  | [], applied, disk => by
    constructor
    · rintro ⟨panic, h⟩
      cases h
    · rintro ⟨op, disk', h, -⟩
      cases h
  | op :: ops, applied, disk => by
    rw [exists_begins_cons_iff]
    unfold executeFrom
    rcases happly : (applyOperation config op).exec disk with ⟨stop | done, disk₁⟩
    · rcases applyOperation_eq_error happly with ⟨message, rfl, hplan⟩ | ⟨panic, rfl, hplan⟩
      · simp [Panicked, hplan]
      · simp [Panicked, hplan]
    have hplan := plannable_of_applyOperation_eq_ok happly
    dsimp only
    rcases hpersist : (persist hasJournal (applied ++ [done])).exec disk₁ with ⟨stop | u, disk₂⟩
    · obtain ⟨err, rfl⟩ := persist_eq_error hpersist
      simp [Panicked, hplan, hpersist]
    · refine (panicked_executeFrom_iff ops (applied ++ [done]) disk₂).trans ?_
      simp [hplan, hpersist]

/-- Unless it is cancelled, the first operation is begun, or one after it. -/
theorem exists_beginsAudit_cons_iff {P : MatchOperation → Disk → Prop} :
    (∃ op' disk', BeginsAudit config hasJournal cancelled (op :: ops) outcomes applied disk
        op' disk' ∧ P op' disk') ↔
      cancelled outcomes.length = false ∧ (P op disk ∨
        (∃ err disk₁, (applyOperation config op).exec disk = (.error (.failed err), disk₁) ∧
          ∃ op' disk', BeginsAudit config hasJournal cancelled ops
            (outcomes ++ [⟨false, some (operationErrorFrom err)⟩]) applied disk₁ op' disk' ∧
              P op' disk') ∨
        ∃ done disk₁ disk₂, (applyOperation config op).exec disk = (.ok done, disk₁) ∧
          (persist hasJournal (applied ++ [done])).exec disk₁ = (.ok (), disk₂) ∧
          ∃ op' disk', BeginsAudit config hasJournal cancelled ops (outcomes ++ [⟨true, none⟩])
            (applied ++ [done]) disk₂ op' disk' ∧ P op' disk') := by
  constructor
  · rintro ⟨op', disk', hbegins, hP⟩
    cases hbegins with
    | first hgo => exact ⟨hgo, .inl hP⟩
    | afterFailure hgo herr hrest => exact ⟨hgo, .inr (.inl ⟨_, _, herr, op', disk', hrest, hP⟩)⟩
    | later hgo hok hsave hrest =>
      exact ⟨hgo, .inr (.inr ⟨_, _, _, hok, hsave, op', disk', hrest, hP⟩)⟩
  · rintro ⟨hgo, hP | ⟨err, disk₁, herr, op', disk', hrest, hP⟩ |
      ⟨done, disk₁, disk₂, hok, hsave, op', disk', hrest, hP⟩⟩
    · exact ⟨op, disk, .first hgo, hP⟩
    · exact ⟨op', disk', .afterFailure hgo herr hrest, hP⟩
    · exact ⟨op', disk', .later hgo hok hsave hrest, hP⟩

/-- And so does an audited one. -/
theorem panicked_executeAuditFrom_iff : ∀ (ops : List MatchOperation)
    (outcomes : List OperationOutcome) (applied : List AppliedOperation) (disk : Disk),
    Panicked (executeAuditFrom config hasJournal cancelled ops outcomes applied disk) ↔
      ∃ op disk', BeginsAudit config hasJournal cancelled ops outcomes applied disk op disk' ∧
        ¬ Plannable config op disk'
  | [], outcomes, applied, disk => by
    constructor
    · rintro ⟨panic, h⟩
      cases h
    · rintro ⟨op, disk', h, -⟩
      cases h
  | op :: ops, outcomes, applied, disk => by
    rw [exists_beginsAudit_cons_iff]
    unfold executeAuditFrom
    split
    · next hcancelled => simp [Panicked, hcancelled]
    next hgo =>
    rw [Bool.not_eq_true] at hgo
    rcases happly : (applyOperation config op).exec disk with ⟨stop | done, disk₁⟩
    · rcases applyOperation_eq_error happly with ⟨message, rfl, hplan⟩ | ⟨panic, rfl, hplan⟩
      · refine (panicked_executeAuditFrom_iff ops _ applied disk₁).trans ?_
        simp [hgo, hplan]
      · simp [Panicked, hgo, hplan]
    have hplan := plannable_of_applyOperation_eq_ok happly
    dsimp only
    rcases hpersist : (persist hasJournal (applied ++ [done])).exec disk₁ with ⟨stop | u, disk₂⟩
    · obtain ⟨err, rfl⟩ := persist_eq_error hpersist
      simp [Panicked, hplan, hpersist]
    · refine (panicked_executeAuditFrom_iff ops _ (applied ++ [done]) disk₂).trans ?_
      simp [hgo, hplan, hpersist]

/-! ## The stream -/

/-- Units announced as done, the first of them with the given number. -/
def announced (total first : ℕ) (items : List (Option Text)) : List ProgressEvent :=
  (items.zipIdx first).map fun (item, done) => .advanced done total item

/-- **A closed stream**: a start, the units done one by one, and the end with
the count announced last. -/
def IsProgressStream (total : ℕ) (events : List ProgressEvent) : Prop :=
  ∃ items : List (Option Text), items.length ≤ total ∧
    events = .started total :: (announced total 1 items ++ [.finished items.length total])

/-- What is left of a closed stream after `n` units. -/
def Closes (total n left : ℕ) (events : List ProgressEvent) : Prop :=
  ∃ items : List (Option Text), items.length ≤ left ∧
    events = announced total (n + 1) items ++ [.finished (n + items.length) total]

theorem closes_finished (left : ℕ) : Closes total n left [.finished n total] :=
  ⟨[], Nat.zero_le _, rfl⟩

theorem Closes.advanced {left : ℕ} (item : Option Text) (h : Closes total (n + 1) left events) :
    Closes total n (left + 1) (.advanced (n + 1) total item :: events) := by
  obtain ⟨items, hlength, rfl⟩ := h
  refine ⟨item :: items, Nat.succ_le_succ hlength, ?_⟩
  have hcount : n + (items.length + 1) = n + 1 + items.length := by omega
  rw [List.length_cons, hcount]
  rfl

/-- No end is among the events of a stream that is left open. -/
def IsOpen (total : ℕ) (events : List ProgressEvent) : Prop := ∀ k, .finished k total ∉ events

theorem IsOpen.advanced (item : Option Text) (h : IsOpen total events) (k : ℕ) :
    IsOpen total (.advanced k total item :: events) := by
  intro j hj
  rcases List.mem_cons.1 hj with hj | hj
  · cases hj
  · exact h j hj

/-- A stream cannot be both. -/
theorem isProgressStream_iff {batch : Prop} (hclosed : ¬ batch → Closes total 0 total events)
    (hopen : batch → IsOpen total events) :
    IsProgressStream total (.started total :: events) ↔ ¬ batch := by
  constructor
  · rintro ⟨items, -, heq⟩ hbatch
    obtain ⟨-, rfl⟩ := List.cons.inj heq
    exact hopen hbatch items.length (List.mem_append_right _ List.mem_cons_self)
  · intro hbatch
    obtain ⟨items, hlength, rfl⟩ := hclosed hbatch
    exact ⟨items, hlength, by rw [Nat.zero_add, Nat.zero_add]⟩

theorem reportFrom_stream (config : MatchConfig) (hasJournal : Bool) (total : ℕ) :
    ∀ (ops : List MatchOperation) (completed : ℕ)
    (applied : List AppliedOperation) (disk : Disk),
    (¬ Panicked (reportFrom config hasJournal total ops completed applied disk).1 →
      Closes total completed ops.length
        (reportFrom config hasJournal total ops completed applied disk).2) ∧
    (Panicked (reportFrom config hasJournal total ops completed applied disk).1 →
      IsOpen total (reportFrom config hasJournal total ops completed applied disk).2)
  | [], completed, applied, disk => by
    refine ⟨fun _ => closes_finished _, ?_⟩
    rintro ⟨panic, h⟩
    cases h
  | op :: ops, completed, applied, disk => by
    unfold reportFrom
    rcases (applyOperation config op).exec disk with ⟨(err | panic) | done, disk₁⟩
    · refine ⟨fun _ => closes_finished _, ?_⟩
      rintro ⟨panic, h⟩
      cases h
    · exact ⟨fun h => absurd ⟨panic, rfl⟩ h, fun _ k => List.not_mem_nil⟩
    dsimp only
    rcases hpersist : (persist hasJournal (applied ++ [done])).exec disk₁ with ⟨stop | u, disk₂⟩
    · obtain ⟨err, rfl⟩ := persist_eq_error hpersist
      refine ⟨fun _ => closes_finished _, ?_⟩
      rintro ⟨panic, h⟩
      cases h
    · obtain ⟨hclosed, hopen⟩ := reportFrom_stream config hasJournal total ops
        (completed + 1) (applied ++ [done]) disk₂
      exact ⟨fun h => (hclosed h).advanced none, fun h => (hopen h).advanced none _⟩

theorem reportAuditFrom_stream (config : MatchConfig) (hasJournal : Bool)
    (cancelled : ℕ → Bool) (total : ℕ) : ∀ (ops : List MatchOperation)
      (outcomes : List OperationOutcome) (applied : List AppliedOperation) (disk : Disk),
    (¬ Panicked (reportAuditFrom config hasJournal cancelled total ops outcomes applied disk).1 →
      Closes total outcomes.length ops.length
        (reportAuditFrom config hasJournal cancelled total ops outcomes applied disk).2) ∧
    (Panicked (reportAuditFrom config hasJournal cancelled total ops outcomes applied disk).1 →
      IsOpen total (reportAuditFrom config hasJournal cancelled total ops outcomes applied disk).2)
  | [], outcomes, applied, disk => by
    refine ⟨fun _ => closes_finished _, ?_⟩
    rintro ⟨panic, h⟩
    cases h
  | op :: ops, outcomes, applied, disk => by
    unfold reportAuditFrom
    split
    · refine ⟨fun _ => closes_finished _, ?_⟩
      rintro ⟨panic, h⟩
      cases h
    rcases (applyOperation config op).exec disk with ⟨(err | panic) | done, disk₁⟩
    · obtain ⟨hclosed, hopen⟩ := reportAuditFrom_stream config hasJournal cancelled
        total ops (outcomes ++ [⟨false, some (operationErrorFrom err)⟩]) applied disk₁
      rw [List.length_append, List.length_singleton] at hclosed
      exact ⟨fun h => (hclosed h).advanced _, fun h => (hopen h).advanced _ _⟩
    · exact ⟨fun h => absurd ⟨panic, rfl⟩ h, fun _ k => List.not_mem_nil⟩
    dsimp only
    rcases hpersist : (persist hasJournal (applied ++ [done])).exec disk₁ with ⟨stop | u, disk₂⟩
    · obtain ⟨err, rfl⟩ := persist_eq_error hpersist
      refine ⟨fun _ => closes_finished _, ?_⟩
      rintro ⟨panic, h⟩
      cases h
    · obtain ⟨hclosed, hopen⟩ := reportAuditFrom_stream config hasJournal cancelled
        total ops (outcomes ++ [⟨true, none⟩]) (applied ++ [done]) disk₂
      rw [List.length_append, List.length_singleton] at hclosed
      exact ⟨fun h => (hclosed h).advanced _, fun h => (hopen h).advanced _ _⟩

/-- **The stream of a batch is closed, once, with the count announced last**,
exactly when no operation that is begun panics: whichever tasks and saves
fail, and whenever the batch is cancelled. -/
theorem isProgressStream_report_iff (config : MatchConfig) (hasJournal : Bool)
    (cancelled : ℕ → Bool) (ops : List MatchOperation) (disk : Disk) :
    (IsProgressStream ops.length (reportOperations config hasJournal ops false disk).2 ↔
      ∀ op disk', Begins config hasJournal ops [] disk op disk' → Plannable config op disk') ∧
    (IsProgressStream ops.length
        (reportOperationsAudit config hasJournal cancelled ops false disk).2 ↔
      ∀ op disk', BeginsAudit config hasJournal cancelled ops [] [] disk op disk' →
        Plannable config op disk') := by
  constructor
  · obtain ⟨hclosed, hopen⟩ := reportFrom_stream config hasJournal ops.length ops 0 [] disk
    refine (isProgressStream_iff hclosed hopen).trans ?_
    rw [reportFrom_fst, panicked_executeFrom_iff]
    push Not
    rfl
  · obtain ⟨hclosed, hopen⟩ := reportAuditFrom_stream config hasJournal cancelled ops.length ops
      [] [] disk
    refine (isProgressStream_iff hclosed hopen).trans ?_
    rw [reportAuditFrom_fst, panicked_executeAuditFrom_iff]
    push Not
    rfl

/-- A copy of a subtitle that is next to its video already. -/
def copyInPlace : MatchOperation :=
  { copyOperation "/films/a.srt".toList "/films/movie.srt".toList with
    relocationTargetPath := none
    requiresRelocation := false }

/-- **A copy without a target leaves the stream open.** -/
theorem report_leaves_stream_open :
    ¬ ∀ (config : MatchConfig) (hasJournal : Bool) (cancelled : ℕ → Bool)
      (ops : List MatchOperation) (disk : Disk),
      IsProgressStream ops.length (reportOperations config hasJournal ops false disk).2 ∧
        IsProgressStream ops.length
          (reportOperationsAudit config hasJournal cancelled ops false disk).2 := by
  intro h
  obtain ⟨items, -, hevents⟩ := (h ⟨false, .copy, .skip⟩ true (fun _ => false) [copyInPlace]
    (.sound fun _ => none)).1
  have hrun : (reportOperations ⟨false, .copy, .skip⟩ true [copyInPlace] false
      (.sound fun _ => none)).2 = [.started 1] := rfl
  rw [hrun] at hevents
  have hlength := congrArg List.length hevents
  rw [List.length_cons, List.length_cons, List.length_append, List.length_singleton] at hlength
  simp at hlength

end SubxCore
