import SubxCore.Matcher.Progress
/-!
# The audited batch

The plain loop stops at the first failure, the audited one records it and
goes on. As long as no save fails, the two do the same up to and including
the first failure (`auditAgrees`), and what the audited batch returns is
true of it: an outcome for every operation, the applied ones in the
journal, and nothing done from the first cancellation on
(`auditReport_of_ok`).
-/

namespace SubxCore

open Text Function

variable {config : MatchConfig} {hasJournal : Bool} {cancelled : ℕ → Bool}
variable {ops : List MatchOperation} {op : MatchOperation} {applied : List AppliedOperation}
variable {outcomes : List OperationOutcome} {disk disk' : Disk} {p : Path}

/-! ## The two loops -/

/-- No save of the audited batch fails. -/
def SavesGoThrough (config : MatchConfig) (hasJournal : Bool) (ops : List MatchOperation)
    (outcomes : List OperationOutcome) (applied : List AppliedOperation) (disk : Disk) : Prop :=
  hasJournal = true → ∀ op d done d₁,
    BeginsAudit config hasJournal (fun _ => false) ops outcomes applied disk op d →
      (applyOperation config op).exec d = (.ok done, d₁) → d₁.faults 0 = none

/-- A save that does not fail. -/
theorem persist_eq_ok (h : hasJournal = true → disk.faults 0 = none) :
    ∃ disk', (persist hasJournal applied).exec disk = (.ok (), disk') := by
  unfold persist
  split
  · next hjournal =>
    unfold saveJournal
    rw [Program.exec_step, h hjournal]
    exact ⟨_, rfl⟩
  · exact ⟨disk, rfl⟩

theorem SavesGoThrough.persist {done : AppliedOperation} {disk₁ : Disk}
    (h : SavesGoThrough config hasJournal (op :: ops) outcomes applied disk)
    (happly : (applyOperation config op).exec disk = (.ok done, disk₁)) :
    ∃ disk₂, (persist hasJournal (applied ++ [done])).exec disk₁ = (.ok (), disk₂) :=
  persist_eq_ok fun hjournal => h hjournal op disk done disk₁ (.first rfl) happly

/-- What the plain batch comes to, and the audited one with it. -/
inductive Agree (config : MatchConfig) (hasJournal : Bool) (ops : List MatchOperation)
    (outcomes : List OperationOutcome) (applied : List AppliedOperation) :
    Batch Unit → Batch (List OperationOutcome) → Prop
  /-- Everything is applied. -/
  | ok (applied' : List AppliedOperation) (disk : Disk) :
      Agree config hasJournal ops outcomes applied ⟨.ok (), applied', disk⟩
        ⟨.ok (outcomes ++ ops.map fun _ => ⟨true, none⟩), applied', disk⟩
  /-- An operation fails, and the audited batch goes on from there. -/
  | failed (before : List MatchOperation) (op : MatchOperation) (after : List MatchOperation)
      (applied' : List AppliedOperation) (disk : Disk) (err : SubXError) :
      ops = before ++ op :: after →
      applied'.map AppliedOperation.operation =
        applied.map AppliedOperation.operation ++ before →
      Agree config hasJournal ops outcomes applied ⟨.error (.failed err), applied', disk⟩
        (executeAuditFrom config hasJournal (fun _ => false) after
          (outcomes ++ (before.map fun _ => ⟨true, none⟩) ++
            [⟨false, some (operationErrorFrom err)⟩]) applied' disk)
  /-- An operation panics. -/
  | panicked (applied' : List AppliedOperation) (disk : Disk) (panic : Panic) :
      Agree config hasJournal ops outcomes applied ⟨.error (.panicked panic), applied', disk⟩
        ⟨.error (.panicked panic), applied', disk⟩

/-- An operation that is applied by both. -/
theorem Agree.cons {plain : Batch Unit} {audit : Batch (List OperationOutcome)}
    {done : AppliedOperation} (hdone : done.operation = op)
    (h : Agree config hasJournal ops (outcomes ++ [⟨true, none⟩]) (applied ++ [done]) plain audit) :
    Agree config hasJournal (op :: ops) outcomes applied plain audit := by
  cases h with
  | ok applied' disk =>
    rw [List.append_assoc]
    exact .ok applied' disk
  | failed before op' after applied' disk err hops happlied =>
    rw [List.append_assoc outcomes]
    refine .failed (op :: before) op' after applied' disk err (by rw [hops]; rfl) ?_
    rw [happlied, List.map_append, List.append_assoc]
    simp [hdone]
  | panicked applied' disk panic => exact .panicked applied' disk panic

theorem operation_of_applyOperation_eq_ok {done : AppliedOperation}
    (h : (applyOperation config op).exec disk = (.ok done, disk')) : done.operation = op := by
  unfold applyOperation at h
  obtain ⟨before, disk₁, -, h⟩ := Program.bind_eq_ok.1 h
  obtain ⟨backup, disk₂, -, h⟩ := Program.bind_eq_ok.1 h
  obtain ⟨task, disk₃, -, h⟩ := Program.bind_eq_ok.1 h
  obtain ⟨planned, disk₄, -, h⟩ := Program.bind_eq_ok.1 h
  obtain ⟨u, disk₅, -, h⟩ := Program.bind_eq_ok.1 h
  obtain ⟨after, disk₆, -, h⟩ := Program.bind_eq_ok.1 h
  cases h
  rfl

/-- **The two loops agree** up to and including the first failure. -/
theorem agree_executeFrom : ∀ (ops : List MatchOperation) (outcomes : List OperationOutcome)
    (applied : List AppliedOperation) (disk : Disk),
    SavesGoThrough config hasJournal ops outcomes applied disk →
      Agree config hasJournal ops outcomes applied
        (executeFrom config hasJournal ops applied disk)
        (executeAuditFrom config hasJournal (fun _ => false) ops outcomes applied disk)
  | [], outcomes, applied, disk, _ => by
    have h : Agree config hasJournal [] outcomes applied _ _ := .ok applied disk
    rwa [List.map_nil, List.append_nil] at h
  | op :: ops, outcomes, applied, disk, hsaves => by
    unfold executeFrom executeAuditFrom
    rw [if_neg Bool.false_ne_true]
    rcases happly : (applyOperation config op).exec disk with ⟨(err | panic) | done, disk₁⟩
    · have h : Agree config hasJournal (op :: ops) outcomes applied _ _ :=
        .failed [] op ops applied disk₁ err rfl (List.append_nil _).symm
      rwa [List.map_nil, List.append_nil] at h
    · exact .panicked applied disk₁ panic
    dsimp only
    obtain ⟨disk₂, hpersist⟩ := hsaves.persist happly
    rw [hpersist]
    refine Agree.cons (operation_of_applyOperation_eq_ok happly)
      (agree_executeFrom ops (outcomes ++ [⟨true, none⟩]) (applied ++ [done]) disk₂ ?_)
    intro hjournal op' d done' d₁ hbegins
    exact hsaves hjournal op' d done' d₁ (.later rfl happly hpersist hbegins)

/-! ## Outcomes -/

/-- The operations whose outcome is that they were applied. -/
def appliedOf (ops : List MatchOperation) (outcomes : List OperationOutcome) :
    List MatchOperation :=
  ((ops.zip outcomes).filter fun p => p.2.applied).map Prod.fst

/-- **An outcome for every operation**, and the applied ones are those carried
out, in order. -/
theorem executeAuditFrom_outcomes : ∀ {ops : List MatchOperation}
    {outcomes : List OperationOutcome} {applied : List AppliedOperation} {disk : Disk}
    {result : List OperationOutcome},
    (executeAuditFrom config hasJournal cancelled ops outcomes applied disk).outcome = .ok result →
      ∃ more, result = outcomes ++ more ∧ more.length = ops.length ∧
        (executeAuditFrom config hasJournal cancelled ops outcomes applied disk).applied.map
            AppliedOperation.operation =
          applied.map AppliedOperation.operation ++ appliedOf ops more
  | [], outcomes, applied, disk, result, h => by
    cases h
    exact ⟨[], (List.append_nil _).symm, rfl, (List.append_nil _).symm⟩
  | op :: ops, outcomes, applied, disk, result, h => by
    unfold executeAuditFrom at h ⊢
    split at h
    · next hcancelled =>
      cases h
      rw [if_pos hcancelled]
      refine ⟨_, rfl, List.length_replicate, ?_⟩
      have hnone : appliedOf (op :: ops) (List.replicate (op :: ops).length ⟨false, none⟩) = [] := by
        rw [appliedOf, List.map_eq_nil_iff, List.filter_eq_nil_iff]
        intro pair hpair
        rw [List.eq_of_mem_replicate (List.of_mem_zip hpair).2]
        exact Bool.false_ne_true
      rw [hnone, List.append_nil]
    next hgo =>
    rw [if_neg hgo]
    rcases happly : (applyOperation config op).exec disk with ⟨(err | panic) | done, disk₁⟩
    · rw [happly] at h
      obtain ⟨more, rfl, hlength, happlied⟩ := executeAuditFrom_outcomes h
      refine ⟨⟨false, some (operationErrorFrom err)⟩ :: more, by simp, by simp [hlength], ?_⟩
      exact happlied
    · rw [happly] at h
      cases h
    rw [happly] at h
    dsimp only at h ⊢
    rcases hpersist : (persist hasJournal (applied ++ [done])).exec disk₁ with ⟨stop | u, disk₂⟩
    · rw [hpersist] at h
      cases h
    · rw [hpersist] at h
      obtain ⟨more, rfl, hlength, happlied⟩ := executeAuditFrom_outcomes h
      refine ⟨⟨true, none⟩ :: more, by simp, by simp [hlength], ?_⟩
      refine happlied.trans ?_
      rw [List.map_append, List.append_assoc]
      simp [appliedOf, operation_of_applyOperation_eq_ok happly]

/-- Where no save fails the audited batch returns or panics. -/
theorem executeAuditFrom_returns : ∀ (ops : List MatchOperation)
    (outcomes : List OperationOutcome) (applied : List AppliedOperation) (disk : Disk),
    SavesGoThrough config hasJournal ops outcomes applied disk → ∀ err,
      (executeAuditFrom config hasJournal (fun _ => false) ops outcomes applied disk).outcome ≠
        .error (.failed err)
  | [], _, _, _, _, err, h => by cases h
  | op :: ops, outcomes, applied, disk, hsaves, err, h => by
    unfold executeAuditFrom at h
    rw [if_neg Bool.false_ne_true] at h
    rcases happly : (applyOperation config op).exec disk with ⟨(err' | panic) | done, disk₁⟩
    · rw [happly] at h
      refine executeAuditFrom_returns ops _ applied disk₁ ?_ err h
      exact fun hjournal op' d done' d₁ hbegins =>
        hsaves hjournal op' d done' d₁ (.afterFailure rfl happly hbegins)
    · rw [happly] at h
      cases h
    · obtain ⟨disk₂, hpersist⟩ := hsaves.persist happly
      rw [happly] at h
      dsimp only at h
      rw [hpersist] at h
      refine executeAuditFrom_returns ops _ (applied ++ [done]) disk₂ ?_ err h
      exact fun hjournal op' d done' d₁ hbegins =>
        hsaves hjournal op' d done' d₁ (.later rfl happly hpersist hbegins)

/-! ## The plain and the audited batch -/

/-- **What the plain and the audited batch have in common.** -/
structure AuditAgrees (config : MatchConfig) (hasJournal : Bool) (ops : List MatchOperation)
    (plain : Batch Unit) (audit : Batch (List OperationOutcome)) : Prop where
  /-- The plain batch succeeds exactly when every outcome of the audited one
  is that the operation was applied. -/
  ok_iff : plain.outcome = .ok () ↔
    ∃ outcomes, audit.outcome = .ok outcomes ∧ ∀ o ∈ outcomes, o.applied = true
  /-- Unless an operation fails, both do the same altogether. -/
  same : (∀ err, plain.outcome ≠ .error (.failed err)) →
    audit.disk = plain.disk ∧ audit.applied = plain.applied
  /-- If one fails, the operations before it were carried out, and the audited
  batch goes on from what the plain one leaves, with those as applied and this
  one with its error. -/
  failed : ∀ err, plain.outcome = .error (.failed err) → ∃ before op after,
    ops = before ++ op :: after ∧ plain.applied.map AppliedOperation.operation = before ∧
      audit = executeAuditFrom config hasJournal (fun _ => false) after
        ((before.map fun _ => ⟨true, none⟩) ++ [⟨false, some (operationErrorFrom err)⟩])
        plain.applied plain.disk ∧
      ∀ outcomes, audit.outcome = .ok outcomes →
        outcomes.take before.length = (before.map fun _ => ⟨true, none⟩) ∧
          outcomes[before.length]? = some ⟨false, some (operationErrorFrom err)⟩
  /-- A panic of the plain batch is one of the audited batch. -/
  panicked : ∀ panic, plain.outcome = .error (.panicked panic) →
    audit.outcome = .error (.panicked panic)
  /-- The audited batch does not end with an error. -/
  returns : ∀ err, audit.outcome ≠ .error (.failed err)

/-- The outcomes of an audited batch begin with those it starts from. -/
theorem executeAuditFrom_outcome_at {before : List OperationOutcome} {outcome : OperationOutcome}
    {result : List OperationOutcome}
    (h : (executeAuditFrom config hasJournal cancelled ops (before ++ [outcome]) applied
      disk).outcome = .ok result) :
    result.take before.length = before ∧ result[before.length]? = some outcome := by
  obtain ⟨more, rfl, -, -⟩ := executeAuditFrom_outcomes h
  rw [List.append_assoc, List.take_left, List.getElem?_append_right le_rfl, Nat.sub_self]
  exact ⟨rfl, rfl⟩

/-- **The plain and the audited batch agree**, whatever the operations, the
disk and the calls that fail, as long as no save fails. -/
theorem executeOperations_agrees_audit (config : MatchConfig) (hasJournal : Bool)
    (ops : List MatchOperation) (disk : Disk)
    (hsaves : SavesGoThrough config hasJournal ops [] [] disk) :
    AuditAgrees config hasJournal ops (executeOperations config hasJournal ops false disk)
      (executeOperationsAudit config hasJournal (fun _ => false) ops false disk) := by
  have hreturns := executeAuditFrom_returns ops [] [] disk hsaves
  have hagree := agree_executeFrom ops [] [] disk hsaves
  unfold executeOperations executeOperationsAudit
  rw [if_neg Bool.false_ne_true, if_neg Bool.false_ne_true]
  revert hreturns
  generalize executeFrom config hasJournal ops [] disk = plain at hagree ⊢
  generalize executeAuditFrom config hasJournal (fun _ => false) ops [] [] disk = audit at hagree ⊢
  intro hreturns
  cases hagree with
  | ok applied' disk' =>
    refine ⟨⟨fun _ => ⟨_, rfl, fun o ho => ?_⟩, fun _ => rfl⟩, fun _ => ⟨rfl, rfl⟩, fun err h => ?_,
      fun panic h => ?_, hreturns⟩
    · obtain ⟨op, -, rfl⟩ := List.mem_map.1 ho
      rfl
    · cases h
    · cases h
  | failed before op after applied' disk' err hops happlied =>
    rw [List.nil_append] at hreturns ⊢
    refine ⟨⟨fun h => ?_, ?_⟩, fun h => absurd rfl (h err), fun err' h => ?_, fun panic h => ?_,
      hreturns⟩
    · cases h
    · rintro ⟨outcomes, houtcomes, hall⟩
      obtain ⟨-, hat⟩ := executeAuditFrom_outcome_at houtcomes
      exact absurd (hall _ (List.mem_of_getElem? hat)) Bool.false_ne_true
    · cases h
      refine ⟨before, op, after, hops, happlied, rfl, fun outcomes houtcomes => ?_⟩
      have hat := executeAuditFrom_outcome_at houtcomes
      rwa [List.length_map] at hat
    · cases h
  | panicked applied' disk' panic =>
    refine ⟨⟨fun h => ?_, ?_⟩, fun _ => ⟨rfl, rfl⟩, fun err h => ?_, fun panic' h => ?_, hreturns⟩
    · cases h
    · rintro ⟨outcomes, houtcomes, -⟩
      cases houtcomes
    · cases h
    · cases h
      rfl

theorem persist_sound (h : (persist hasJournal applied).exec disk = (.ok (), disk'))
    (hsound : ∀ n, disk.faults n = none) (n : ℕ) : disk'.faults n = none := by
  unfold persist at h
  split at h
  · unfold saveJournal at h
    rw [Program.exec_step] at h
    split at h
    · cases h
    · cases h
      exact hsound (n + 1)
  · cases h
    exact hsound n

/-- On a disk where no call fails for reasons of its own, no save does. -/
theorem savesGoThrough_of_sound (config : MatchConfig) (hasJournal : Bool)
    (ops : List MatchOperation) (outcomes : List OperationOutcome)
    (applied : List AppliedOperation) {disk : Disk} (h : ∀ n, disk.faults n = none) :
    SavesGoThrough config hasJournal ops outcomes applied disk := by
  intro _ op d done d₁ hbegins happly
  suffices hd : ∀ n, d.faults n = none by
    have hd₁ := applyOperation_sound config op hd 0
    rwa [happly] at hd₁
  induction hbegins with
  | first _ => exact h
  | @afterFailure op' _ _ _ disk _ _ _ _ _ herr _ ih =>
    refine ih (fun n => ?_) happly
    have hsound := applyOperation_sound config op' h n
    rwa [herr] at hsound
  | @later op' _ _ _ disk _ _ disk₂ _ _ _ hok hsave _ ih =>
    refine ih (fun n => ?_) happly
    have hsound := applyOperation_sound config op' h
    rw [hok] at hsound
    exact persist_sound hsave hsound n

/-- Two copies of one subtitle, and one of a file that is not there: the plain
batch stops at it, and the audited one goes on. -/
theorem executeOperations_agrees_audit_occupiedTarget :
    AuditAgrees ⟨false, .copy, .autoRename⟩ true
      [copyOperation "/subs/a.srt".toList "/films/movie.srt".toList,
        copyOperation "/subs/b.srt".toList "/films/movie.srt".toList,
        copyOperation "/subs/a.srt".toList "/films/other.srt".toList]
      (executeOperations ⟨false, .copy, .autoRename⟩ true
        [copyOperation "/subs/a.srt".toList "/films/movie.srt".toList,
          copyOperation "/subs/b.srt".toList "/films/movie.srt".toList,
          copyOperation "/subs/a.srt".toList "/films/other.srt".toList] false
        (.sound occupiedTarget))
      (executeOperationsAudit ⟨false, .copy, .autoRename⟩ true (fun _ => false)
        [copyOperation "/subs/a.srt".toList "/films/movie.srt".toList,
          copyOperation "/subs/b.srt".toList "/films/movie.srt".toList,
          copyOperation "/subs/a.srt".toList "/films/other.srt".toList] false
        (.sound occupiedTarget)) :=
  executeOperations_agrees_audit _ _ _ _ (savesGoThrough_of_sound _ _ _ _ _ fun _ => rfl)

/-! ## What the audited batch returns -/

/-- The saved journal is that of the operations carried out, once there is
one. -/
def Journaled (hasJournal : Bool) (saved : Option (List JournalEntry))
    (applied : List AppliedOperation) (disk : Disk) : Prop :=
  hasJournal = true → (applied = [] → disk.journal = saved) ∧
    (applied ≠ [] → disk.journal = some (applied.map AppliedOperation.entry))

theorem Journaled.applyOperation {saved : Option (List JournalEntry)} (config : MatchConfig)
    (op : MatchOperation) (h : Journaled hasJournal saved applied disk) :
    Journaled hasJournal saved applied ((applyOperation config op).exec disk).2 := by
  intro hjournal
  rw [applyOperation_journal]
  exact h hjournal

theorem journaled_of_persist {saved : Option (List JournalEntry)} {done : AppliedOperation}
    (h : (persist hasJournal (applied ++ [done])).exec disk = (.ok (), disk')) :
    Journaled hasJournal saved (applied ++ [done]) disk' := by
  intro hjournal
  unfold persist at h
  rw [if_pos hjournal] at h
  unfold saveJournal at h
  rw [Program.exec_step] at h
  split at h
  · cases h
  · cases h
    exact ⟨fun hnil => absurd hnil (by simp), fun _ => rfl⟩

theorem executeAuditFrom_journaled {saved : Option (List JournalEntry)} :
    ∀ {ops : List MatchOperation} {outcomes : List OperationOutcome}
      {applied : List AppliedOperation} {disk : Disk} {result : List OperationOutcome},
      Journaled hasJournal saved applied disk →
      (executeAuditFrom config hasJournal cancelled ops outcomes applied disk).outcome =
        .ok result →
      Journaled hasJournal saved
        (executeAuditFrom config hasJournal cancelled ops outcomes applied disk).applied
        (executeAuditFrom config hasJournal cancelled ops outcomes applied disk).disk
  | [], _, _, _, _, hj, _ => hj
  | op :: ops, outcomes, applied, disk, result, hj, h => by
    have happlied := hj.applyOperation config op
    unfold executeAuditFrom at h ⊢
    split at h
    · next hcancelled =>
      rw [if_pos hcancelled]
      exact hj
    next hgo =>
    rw [if_neg hgo]
    rcases happly : (applyOperation config op).exec disk with ⟨(err | panic) | done, disk₁⟩
    · rw [happly] at h happlied
      exact executeAuditFrom_journaled happlied h
    · rw [happly] at h
      cases h
    rw [happly] at h
    dsimp only at h ⊢
    rcases hpersist : (persist hasJournal (applied ++ [done])).exec disk₁ with ⟨stop | u, disk₂⟩
    · rw [hpersist] at h
      cases h
    · rw [hpersist] at h
      exact executeAuditFrom_journaled (journaled_of_persist hpersist) h

/-- A batch with its outcomes padded. -/
def Batch.pad (n : ℕ) (batch : Batch (List OperationOutcome)) : Batch (List OperationOutcome) :=
  { batch with outcome := batch.outcome.map (· ++ List.replicate n ⟨false, none⟩) }

/-- **A cancelled batch is the batch of the operations before**, with the
outcomes of the others padded. -/
theorem executeAuditFrom_cancelled (config : MatchConfig) (hasJournal : Bool) :
    ∀ (i : ℕ) (ops : List MatchOperation)
    (outcomes : List OperationOutcome) (applied : List AppliedOperation) (disk : Disk),
    i < ops.length → cancelled (outcomes.length + i) = true →
      (∀ j < i, cancelled (outcomes.length + j) = false) →
      executeAuditFrom config hasJournal cancelled ops outcomes applied disk =
        (executeAuditFrom config hasJournal cancelled (ops.take i) outcomes applied disk).pad
          (ops.length - i)
  | _, [], _, _, _, hi, _, _ => absurd hi (Nat.not_lt_zero _)
  | 0, op :: ops, outcomes, applied, disk, _, hcancelled, _ => by
    rw [Nat.add_zero] at hcancelled
    unfold executeAuditFrom
    rw [if_pos hcancelled]
    rfl
  | i + 1, op :: ops, outcomes, applied, disk, hi, hcancelled, hbefore => by
    have hgo : ¬ cancelled outcomes.length = true := by
      have hfirst := hbefore 0 (Nat.succ_pos i)
      rw [Nat.add_zero] at hfirst
      rw [hfirst]
      exact Bool.false_ne_true
    have hlength : ∀ o : OperationOutcome, (outcomes ++ [o]).length = outcomes.length + 1 :=
      fun o => List.length_append
    have hsub : (op :: ops).length - (i + 1) = ops.length - i := by
      rw [List.length_cons, Nat.add_sub_add_right]
    have hrest : ∀ (o : OperationOutcome) (applied : List AppliedOperation) (disk : Disk),
        executeAuditFrom config hasJournal cancelled ops (outcomes ++ [o]) applied disk = _ :=
      fun o applied disk => executeAuditFrom_cancelled config hasJournal i ops (outcomes ++ [o])
        applied disk
        (Nat.lt_of_succ_lt_succ hi)
        (by rw [hlength, Nat.add_assoc, Nat.add_comm 1]; exact hcancelled)
        fun j hj => by
          rw [hlength, Nat.add_assoc, Nat.add_comm 1]
          exact hbefore (j + 1) (Nat.succ_lt_succ hj)
    rw [hsub, List.take_succ_cons]
    unfold executeAuditFrom
    rw [if_neg hgo, if_neg hgo]
    rcases (applyOperation config op).exec disk with ⟨(err | panic) | done, disk₁⟩
    · exact hrest _ applied disk₁
    · rfl
    dsimp only
    rcases (persist hasJournal (applied ++ [done])).exec disk₁ with ⟨stop | u, disk₂⟩
    · rfl
    · exact hrest _ (applied ++ [done]) disk₂

/-- **What the outcomes of an audited batch say.** -/
structure AuditReport (config : MatchConfig) (hasJournal : Bool) (cancelled : ℕ → Bool)
    (ops : List MatchOperation) (dryRun : Bool) (disk : Disk)
    (batch : Batch (List OperationOutcome)) (outcomes : List OperationOutcome) : Prop where
  /-- There is one for every operation. -/
  length : outcomes.length = ops.length
  /-- The operations that are said to be applied are those carried out. -/
  applied : batch.applied.map AppliedOperation.operation = appliedOf ops outcomes
  /-- And those are the ones in the journal, which is saved with the first. -/
  journaled : Journaled hasJournal disk.journal batch.applied batch.disk
  /-- From the first cancellation on nothing is done, and nothing said. -/
  cancelled : ∀ i < ops.length, cancelled i = true → (∀ j < i, cancelled j = false) →
    outcomes.drop i = List.replicate (ops.length - i) ⟨false, none⟩ ∧
      batch.disk =
        (executeOperationsAudit config hasJournal cancelled (ops.take i) dryRun disk).disk

/-- **An audited batch that returns tells the truth**, whichever tasks fail and
whenever it is cancelled. -/
theorem executeOperationsAudit_report (config : MatchConfig) (hasJournal : Bool)
    (cancelled : ℕ → Bool) (ops : List MatchOperation) (dryRun : Bool) (disk : Disk)
    (outcomes : List OperationOutcome)
    (h : (executeOperationsAudit config hasJournal cancelled ops dryRun disk).outcome =
      .ok outcomes) :
    AuditReport config hasJournal cancelled ops dryRun disk
      (executeOperationsAudit config hasJournal cancelled ops dryRun disk) outcomes := by
  cases dryRun with
  | true =>
    cases h
    have hreplicate : (ops.map fun _ => (⟨false, none⟩ : OperationOutcome)) =
        List.replicate ops.length ⟨false, none⟩ := List.map_const' ..
    refine ⟨List.length_map .., ?_, fun _ => ⟨fun _ => rfl, fun hne => absurd rfl hne⟩,
      fun i _ _ _ => ⟨?_, rfl⟩⟩
    · refine (List.map_eq_nil_iff.2 (List.filter_eq_nil_iff.2 fun pair hpair => ?_)).symm
      rw [hreplicate] at hpair
      rw [List.eq_of_mem_replicate (List.of_mem_zip hpair).2]
      exact Bool.false_ne_true
    · rw [hreplicate, List.drop_replicate]
  | false =>
    unfold executeOperationsAudit at h ⊢
    rw [if_neg Bool.false_ne_true] at h ⊢
    obtain ⟨more, rfl, hlength, happlied⟩ := executeAuditFrom_outcomes h
    refine ⟨hlength, happlied, ?_, fun i hi hcancelled hbefore => ?_⟩
    · exact executeAuditFrom_journaled
        (fun _ => ⟨fun _ => rfl, fun hne => absurd rfl hne⟩) h
    · have hpad := executeAuditFrom_cancelled config hasJournal i ops [] [] disk hi
        (by rwa [List.length_nil, Nat.zero_add] : cancelled (_ + i) = true) fun j hj => by
          rw [List.length_nil, Nat.zero_add]
          exact hbefore j hj
      unfold executeOperationsAudit
      rw [if_neg Bool.false_ne_true]
      rw [hpad] at h ⊢
      refine ⟨?_, rfl⟩
      generalize hfirst : executeAuditFrom config hasJournal cancelled (ops.take i) [] [] disk =
        first at h
      rcases first with ⟨stop | result, applied', disk'⟩
      · cases h
      obtain ⟨done, rfl, hdone, -⟩ := executeAuditFrom_outcomes (congrArg Batch.outcome hfirst)
      rw [List.length_take_of_le (le_of_lt hi)] at hdone
      cases h
      exact List.drop_left' hdone

/-- A copy that is applied, one that fails, and one after the cancellation. -/
theorem executeOperationsAudit_report_occupiedTarget :
    AuditReport ⟨false, .copy, .autoRename⟩ true (fun i => decide (i = 2))
      [copyOperation "/subs/a.srt".toList "/films/movie.srt".toList,
        copyOperation "/subs/b.srt".toList "/films/movie.srt".toList,
        copyOperation "/subs/a.srt".toList "/films/other.srt".toList] false
      (.sound occupiedTarget)
      (executeOperationsAudit ⟨false, .copy, .autoRename⟩ true (fun i => decide (i = 2))
        [copyOperation "/subs/a.srt".toList "/films/movie.srt".toList,
          copyOperation "/subs/b.srt".toList "/films/movie.srt".toList,
          copyOperation "/subs/a.srt".toList "/films/other.srt".toList] false
        (.sound occupiedTarget))
      [⟨true, none⟩,
        ⟨false, some (operationErrorFrom (.fileOperationFailed
          "Copy failed: No such file or directory (os error 2)".toList))⟩, ⟨false, none⟩] :=
  executeOperationsAudit_report _ _ _ _ _ _ _ (by decide +kernel)

end SubxCore
