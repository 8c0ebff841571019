import Hpsvm.AccountsDb.Staging
import Hpsvm.Properties.Planning

/-!
# Runs of a batch

The merge sorts the finished workers by index, so a stage ends the same for every schedule. A batch
that fails returns from the stage it reached: what earlier stages committed stays.
-/

namespace Hpsvm

open Foundation (GreedyStages.plan GreedyStages.At GreedyStages.Planned GreedyStages.planned_plan)

/-! ### Stages of a plan -/

/-- The indexes of a stage ascend and name transactions. -/
structure TransactionBatchStage.Listed (stage : TransactionBatchStage)
    (transactions : List VersionedTransaction) : Prop where
  ascending : stage.transactionIndexes.Pairwise (· < ·)
  in_range : ∀ index ∈ stage.transactionIndexes, index < transactions.length

namespace Svm

variable (agave : Agave)

theorem listed_of_planned {vm : Svm} {txs : List VersionedTransaction}
    {plan : TransactionBatchPlan} (planned : vm.planTransactionBatch agave txs = .ok plan) :
    (∀ stage ∈ plan.stages, stage.Listed txs) ∧
      ∀ index < txs.length, ∃ stage ∈ plan.stages, index ∈ stage.transactionIndexes := by
  obtain ⟨locks, listed, -, same⟩ := planTransactionBatch_eq_ok agave planned
  have invariant := GreedyStages.planned_plan TransactionLockSet.locking locks
  have length : locks.length = txs.length := by
    have equal := congrArg List.length listed
    simpa using equal.symm
  refine ⟨?_, ?_⟩
  · intro stage member
    rw [same] at member
    obtain ⟨scheduled, present, rfl⟩ := List.mem_map.1 member
    refine ⟨invariant.ascending scheduled present, ?_⟩
    intro index inside
    obtain ⟨place, found⟩ := List.mem_iff_getElem?.1 present
    rw [← length]
    exact invariant.lt_length ⟨scheduled, found, inside⟩
  · intro index inside
    rw [← length] at inside
    obtain ⟨place, scheduled, found, member⟩ := (invariant.covered index).2 inside
    refine ⟨⟨scheduled.members⟩, ?_, member⟩
    rw [same]
    exact List.mem_map.2 ⟨scheduled, List.mem_of_getElem? found, rfl⟩

/-! ### The schedule does not matter -/

/-- What a worker makes of one transaction. -/
def workerResult (vm : Svm) (transactions : List VersionedTransaction) (index : Nat) :
    Option BatchStageResult :=
  transactions[index]?.map fun tx =>
    let outcome := detachedIntoResultAndDelta (vm.transactDetached agave tx) vm.history.isEnabled
    ⟨index, outcome.1, outcome.2⟩

/-- The results of a stage in the order of the indexes. -/
def stageResults (vm : Svm) (stage : TransactionBatchStage)
    (transactions : List VersionedTransaction) : List BatchStageResult :=
  stage.transactionIndexes.filterMap (vm.workerResult agave transactions)

theorem mapM_eq_some_filterMap {α β : Type} {f : α → Option β} {items : List α}
    (total : ∀ item ∈ items, (f item).isSome) : items.mapM f = some (items.filterMap f) := by
  induction items with
  | nil => rfl
  | cons item rest ih =>
    obtain ⟨value, found⟩ := Option.isSome_iff_exists.1 (total item List.mem_cons_self)
    have others := ih fun other member => total other (List.mem_cons_of_mem _ member)
    simp [List.mapM_cons, found, others]

theorem workerResult_isSome (vm : Svm) {transactions : List VersionedTransaction} {index : Nat}
    (inside : index < transactions.length) :
    (vm.workerResult agave transactions index).isSome := by
  simp [workerResult, inside]

theorem index_of_workerResult {vm : Svm} {transactions : List VersionedTransaction} {index : Nat}
    {stageResult : BatchStageResult}
    (done : vm.workerResult agave transactions index = some stageResult) :
    stageResult.index = index := by
  obtain ⟨tx, -, rfl⟩ := Option.map_eq_some_iff.1 done
  rfl

/-- Sorting undoes the schedule. -/
theorem executeTransactionBatchStage_sorted (vm : Svm) (schedule : Schedule)
    {stage : TransactionBatchStage} {transactions : List VersionedTransaction}
    (listed : stage.Listed transactions) :
    ∃ finished,
      vm.executeTransactionBatchStage agave schedule stage transactions = some finished ∧
      (finished.mergeSort fun first second => decide (first.index ≤ second.index)) =
        vm.stageResults agave stage transactions := by
  have perm := schedule.perm stage.transactionIndexes
  refine ⟨(schedule.order stage.transactionIndexes).filterMap (vm.workerResult agave transactions),
    ?_, ?_⟩
  · exact mapM_eq_some_filterMap fun index member =>
      workerResult_isSome agave vm (listed.in_range index (perm.mem_iff.1 member))
  · -- Both lists are sorted by index, and an index has one result.
    refine List.Perm.eq_of_pairwise ?_ (List.pairwise_mergeSort ?_ ?_ _) ?_
      ((List.mergeSort_perm _ _).trans (perm.filterMap _))
    · intro first second member member' below above
      rw [List.mem_mergeSort] at member
      obtain ⟨index, -, one⟩ := List.mem_filterMap.1 member
      obtain ⟨index', -, two⟩ := List.mem_filterMap.1 member'
      have equal : index = index' := by
        have left := index_of_workerResult agave one
        have right := index_of_workerResult agave two
        simp only [decide_eq_true_eq] at below above
        omega
      subst equal
      exact Option.some.inj (one.symm.trans two)
    · intro first second third below above
      simp only [decide_eq_true_eq] at below above ⊢
      omega
    · intro first second
      simp only [Bool.or_eq_true, decide_eq_true_eq]
      omega
    · unfold stageResults
      rw [List.pairwise_filterMap]
      refine listed.ascending.imp ?_
      intro index index' below first one second two
      rw [index_of_workerResult agave one, index_of_workerResult agave two]
      simp only [decide_eq_true_eq]
      omega

/-- A stage of several transactions ends the same for every schedule. -/
theorem runParallelStage_eq (vm : Svm) (schedule : Schedule) {stage : TransactionBatchStage}
    {transactions : List VersionedTransaction} (listed : stage.Listed transactions)
    (results : List (Option TransactionResult)) :
    vm.runParallelStage agave schedule stage transactions results =
      match vm.prewarmStage agave (stageReadSet stage transactions) with
      | (.error dbError, vm) =>
        vm.prewarmFailure agave stage (stageReadSet stage transactions) dbError
      | (.ok (), vm) =>
        (vm.mergeStageResults agave results (vm.stageResults agave stage transactions)).map
          fun (results, vm) => (.ok results, vm) := by
  unfold runParallelStage
  cases warmed : vm.prewarmStage agave (stageReadSet stage transactions) with
  | mk outcome warm =>
    cases outcome with
    | error dbError => simp only [warmed]
    | ok done =>
      obtain ⟨finished, executed, sorted⟩ :=
        executeTransactionBatchStage_sorted agave warm schedule listed
      simp only [warmed, executed, Option.bind_some, sorted]

/-! ### Failures of a stage -/

theorem prewarmStage_error {vm vm' : Svm} {readSet : List Address} {dbError : DbError}
    (failed : vm.prewarmStage agave readSet = (.error dbError, vm')) : readSet ≠ [] := by
  rintro rfl
  simp [prewarmStage, Accounts.prewarm, Accounts.missingAddresses, Accounts.prewarmPrograms,
    Accounts.programsToResolve, Accounts.resolvePrograms] at failed

theorem stageReadSet_of_nil {transactions : List VersionedTransaction} :
    stageReadSet ⟨[]⟩ transactions = [] := rfl

/-- A failed prewarm is reported, never a panic: it has an address and a transaction to blame. -/
theorem prewarmFailure_eq {vm warm : Svm} {stage : TransactionBatchStage}
    {transactions : List VersionedTransaction} {dbError : DbError}
    (failed : vm.prewarmStage agave (stageReadSet stage transactions) = (.error dbError, warm)) :
    ∃ error, warm.prewarmFailure agave stage (stageReadSet stage transactions) dbError =
      some (.error error, warm) := by
  have nonempty := prewarmStage_error agave failed
  obtain ⟨indexes⟩ := stage
  cases indexes with
  | nil => exact absurd stageReadSet_of_nil nonempty
  | cons index rest =>
    cases readSet : stageReadSet ⟨index :: rest⟩ transactions with
    | nil => exact absurd readSet nonempty
    | cons pubkey others => exact ⟨_, rfl⟩

end Svm

namespace Accounts

/-- Staging takes the results of the workers one after the other. -/
def AcceptsResults (agave : Agave) (accounts : Accounts) : List BatchStageResult → Prop
  | [] => True
  | stageResult :: rest =>
    accounts.AcceptsStaging agave stageResult.delta.postAccounts ∧
      AcceptsResults agave (accounts.syncAccounts agave stageResult.delta.postAccounts).2 rest

end Accounts

/-- The result slots after some transactions have finished. -/
def fillResults (results : List (Option TransactionResult))
    (outcomes : List (Nat × TransactionResult)) : List (Option TransactionResult) :=
  outcomes.foldl (fun results outcome => results.set outcome.1 (some outcome.2)) results

namespace Svm

variable (agave : Agave)

/-- The VM after the merge of some worker results. -/
def merged (vm : Svm) (stageResults : List BatchStageResult) : Svm :=
  stageResults.foldl (fun vm stageResult =>
    { vm with
      accounts := (vm.accounts.syncAccounts agave stageResult.delta.postAccounts).2
      history := vm.history.record stageResult.delta.historyEntry }) vm

/-- The merge panics exactly when staging refuses one of the results. -/
theorem mergeStageResults_cases (vm : Svm) (results : List (Option TransactionResult))
    (stageResults : List BatchStageResult) :
    (vm.accounts.AcceptsResults agave stageResults ∧
      vm.mergeStageResults agave results stageResults =
        some (fillResults results (stageResults.map fun done => (done.index, done.result)),
          vm.merged agave stageResults)) ∨
    (¬ vm.accounts.AcceptsResults agave stageResults ∧
      vm.mergeStageResults agave results stageResults = none) := by
  induction stageResults generalizing vm results with
  | nil => exact .inl ⟨trivial, rfl⟩
  | cons stageResult rest ih =>
    have accepts := vm.accounts.syncAccounts_ok_iff agave stageResult.delta.postAccounts
    unfold mergeStageResults applyCommitDelta
    cases synced : vm.accounts.syncAccounts agave stageResult.delta.postAccounts with
    | mk outcome accounts =>
      rw [synced] at accepts
      cases outcome with
      | error error =>
        refine .inr ⟨?_, rfl⟩
        rintro ⟨first, -⟩
        cases accepts.2 first
      | ok done =>
        have first := accepts.1 rfl
        have kept : (vm.accounts.syncAccounts agave stageResult.delta.postAccounts).2 = accounts := by
          rw [synced]
        rcases ih { vm with
            accounts := accounts, history := vm.history.record stageResult.delta.historyEntry }
            (results.set stageResult.index (some stageResult.result)) with
          ⟨others, done⟩ | ⟨refused, failed⟩
        · refine .inl ⟨⟨first, ?_⟩, ?_⟩
          · rwa [kept]
          · simp only [done, merged, fillResults, List.map_cons, List.foldl_cons, kept]
        · refine .inr ⟨?_, ?_⟩
          · rintro ⟨-, others⟩
            rw [kept] at others
            exact refused others
          · simp only [failed]

/-! ### Complete results -/

theorem length_fillResults (results : List (Option TransactionResult))
    (outcomes : List (Nat × TransactionResult)) :
    (fillResults results outcomes).length = results.length := by
  unfold fillResults
  induction outcomes generalizing results with
  | nil => rfl
  | cons outcome rest ih => rw [List.foldl_cons, ih, List.length_set]

/-- Slots are filled by the outcomes and never emptied. -/
theorem fillResults_filled {results : List (Option TransactionResult)}
    {outcomes : List (Nat × TransactionResult)} {index : Nat} (inside : index < results.length)
    (filled : (∃ result, results[index]? = some (some result)) ∨ index ∈ outcomes.map Prod.fst) :
    ∃ result, (fillResults results outcomes)[index]? = some (some result) := by
  unfold fillResults
  induction outcomes generalizing results with
  | nil => simpa using filled
  | cons outcome rest ih =>
    obtain ⟨place, result⟩ := outcome
    rw [List.foldl_cons]
    refine ih (by rwa [List.length_set]) ?_
    by_cases same : place = index
    · subst same
      exact .inl ⟨result, by simp [inside]⟩
    · rcases filled with ⟨earlier, found⟩ | later
      · exact .inl ⟨earlier, by simp [same, found]⟩
      · simp only [List.map_cons, List.mem_cons] at later
        rcases later with equal | later
        · exact absurd equal.symm same
        · exact .inr later

theorem map_fst_stageResults {vm : Svm} {stage : TransactionBatchStage}
    {transactions : List VersionedTransaction} (listed : stage.Listed transactions) :
    (vm.stageResults agave stage transactions).map (fun done => done.index) =
      stage.transactionIndexes := by
  obtain ⟨indexes⟩ := stage
  have in_range := listed.in_range
  clear listed
  unfold stageResults
  induction indexes with
  | nil => rfl
  | cons index rest ih =>
    obtain ⟨done, found⟩ := Option.isSome_iff_exists.1
      (workerResult_isSome agave vm (in_range index List.mem_cons_self))
    rw [List.filterMap_cons_some found, List.map_cons, index_of_workerResult agave found]
    exact congrArg _ (ih fun other member => in_range other (List.mem_cons_of_mem _ member))

/-! ### What a failed batch leaves -/

/-- A batch that fails leaves the VM as it was, and none panics. -/
structure AllOrNothing (vm : Svm) (schedule : Nat → Schedule)
    (transactions : List VersionedTransaction) : Prop where
  returns : vm.sendTransactionBatch agave schedule transactions ≠ none
  unchanged : ∀ error after,
    vm.sendTransactionBatch agave schedule transactions = some (.error error, after) → after = vm

/-- A stage of several transactions is prewarmed and its results are taken, or its prewarm fails with
the VM the batch started from. -/
def StageCleanly (start current : Svm) (stage : TransactionBatchStage)
    (transactions : List VersionedTransaction) : Prop :=
  stage.transactionIndexes.length ≠ 1 →
    match current.prewarmStage agave (stageReadSet stage transactions) with
    | (.error _, left) => left = start
    | (.ok (), warm) =>
      warm.accounts.AcceptsResults agave (warm.stageResults agave stage transactions)

/-- What one stage of a plan does. -/
inductive StageStep (current : Svm) (stage : TransactionBatchStage)
    (transactions : List VersionedTransaction) (results : List (Option TransactionResult)) :
    Option (Except TransactionBatchError (List (Option TransactionResult)) × Svm) → Prop
  | single (index : Nat) (tx : VersionedTransaction) (alone : stage.transactionIndexes = [index])
      (listed : transactions[index]? = some tx) :
      StageStep current stage transactions results
        (some (.ok (fillResults results [(index, (current.sendTransaction agave tx).1)]),
          (current.sendTransaction agave tx).2))
  | failed (error : TransactionBatchError) (dbError : DbError) (left : Svm)
      (several : stage.transactionIndexes.length ≠ 1)
      (prewarm : current.prewarmStage agave (stageReadSet stage transactions) =
        (.error dbError, left)) :
      StageStep current stage transactions results (some (.error error, left))
  | parallel (warm : Svm) (several : stage.transactionIndexes.length ≠ 1)
      (prewarm : current.prewarmStage agave (stageReadSet stage transactions) = (.ok (), warm))
      (accepts : warm.accounts.AcceptsResults agave (warm.stageResults agave stage transactions)) :
      StageStep current stage transactions results
        (some (.ok (fillResults results ((warm.stageResults agave stage transactions).map
          fun done => (done.index, done.result))),
          warm.merged agave (warm.stageResults agave stage transactions)))
  | panicked (warm : Svm) (several : stage.transactionIndexes.length ≠ 1)
      (prewarm : current.prewarmStage agave (stageReadSet stage transactions) = (.ok (), warm))
      (refuses : ¬ warm.accounts.AcceptsResults agave
        (warm.stageResults agave stage transactions)) :
      StageStep current stage transactions results none

theorem stageStep_runStage (current : Svm) (schedule : Schedule) {stage : TransactionBatchStage}
    {transactions : List VersionedTransaction} (listed : stage.Listed transactions)
    (results : List (Option TransactionResult)) :
    StageStep agave current stage transactions results
      (current.runStage agave schedule stage transactions results) := by
  unfold runStage
  split
  next index alone =>
    have inside : index < transactions.length := by
      refine listed.in_range index ?_
      rw [alone]
      exact List.mem_singleton_self index
    obtain ⟨tx, found⟩ : ∃ tx, transactions[index]? = some tx :=
      ⟨_, List.getElem?_eq_getElem inside⟩
    rw [found, Option.map_some]
    exact .single index tx alone found
  next many =>
    have several : stage.transactionIndexes.length ≠ 1 := by
      intro one
      obtain ⟨index, alone⟩ := List.length_eq_one_iff.1 one
      exact many index alone
    rw [runParallelStage_eq agave current schedule listed]
    cases warmed : current.prewarmStage agave (stageReadSet stage transactions) with
    | mk outcome warm =>
      cases outcome with
      | error dbError =>
        obtain ⟨error, reported⟩ := prewarmFailure_eq agave warmed
        simp only [reported]
        exact .failed error dbError warm several warmed
      | ok done =>
        rcases warm.mergeStageResults_cases agave results
            (warm.stageResults agave stage transactions) with ⟨accepts, done⟩ | ⟨refuses, failed⟩
        · simp only [done, Option.map_some]
          exact .parallel warm several warmed accepts
        · simp only [failed, Option.map_none]
          exact .panicked warm several warmed refuses

/-- One stage returns cleanly exactly when its condition holds. -/
theorem StageStep.clean_iff (start : Svm) {current : Svm} {stage : TransactionBatchStage}
    {transactions : List VersionedTransaction} {results : List (Option TransactionResult)}
    {outcome : Option (Except TransactionBatchError (List (Option TransactionResult)) × Svm)}
    (step : StageStep agave current stage transactions results outcome) :
    (outcome ≠ none ∧ ∀ error after, outcome = some (.error error, after) → after = start) ↔
      StageCleanly agave start current stage transactions := by
  unfold StageCleanly
  cases step with
  | single index tx alone listed => simp [alone]
  | failed error dbError left several prewarm =>
    rw [prewarm]
    simp [several]
  | parallel warm several prewarm accepts =>
    rw [prewarm]
    simp [several, accepts]
  | panicked warm several prewarm refuses =>
    rw [prewarm]
    simp [several, refuses]

/-- The stages that succeed fill the slots of their transactions. -/
theorem runStages_filled {current next : Svm} {schedule : Nat → Schedule}
    {transactions : List VersionedTransaction} {stageIndex : Nat}
    {stages : List TransactionBatchStage} {results results' : List (Option TransactionResult)}
    (listed : ∀ stage ∈ stages, stage.Listed transactions)
    (done : current.runStages agave schedule transactions stageIndex stages results =
      some (.ok results', next)) :
    ∃ outcomes, results' = fillResults results outcomes ∧
      outcomes.map Prod.fst = stages.flatMap fun stage => stage.transactionIndexes := by
  induction stages generalizing current stageIndex results with
  | nil =>
    cases done
    exact ⟨[], rfl, rfl⟩
  | cons stage rest ih =>
    have first := listed stage List.mem_cons_self
    have step := stageStep_runStage agave current (schedule stageIndex) first results
    unfold runStages at done
    -- Either way the stage fills its own slots, and the rest theirs.
    have finish : ∀ (outcomes : List (Nat × TransactionResult)) (after : Svm),
        outcomes.map Prod.fst = stage.transactionIndexes →
        after.runStages agave schedule transactions (stageIndex + 1) rest
          (fillResults results outcomes) = some (.ok results', next) →
        ∃ outcomes, results' = fillResults results outcomes ∧
          outcomes.map Prod.fst =
            (stage :: rest).flatMap fun stage => stage.transactionIndexes := by
      intro outcomes after indexes remaining
      obtain ⟨others, filled, indexes'⟩ :=
        ih (fun stage member => listed stage (List.mem_cons_of_mem _ member)) remaining
      refine ⟨outcomes ++ others, ?_, ?_⟩
      · rw [filled, fillResults, fillResults, fillResults, List.foldl_append]
      · rw [List.map_append, indexes, indexes', List.flatMap_cons]
    cases equal : current.runStage agave (schedule stageIndex) stage transactions results with
    | none =>
      rw [equal] at done
      cases done
    | some outcome =>
      rw [equal] at step done
      cases step with
      | single index tx alone present =>
        exact finish [(index, (current.sendTransaction agave tx).1)] _ (by simp [alone]) done
      | failed error dbError left several prewarm => cases done
      | parallel warm several prewarm accepts =>
        refine finish _ _ ?_ done
        rw [List.map_map]
        exact map_fst_stageResults agave first

/-- The batch up to some stage, and then that stage. -/
theorem runStages_clean_iff (start current : Svm) (schedule : Nat → Schedule)
    {transactions : List VersionedTransaction} (stageIndex : Nat)
    {stages : List TransactionBatchStage} (results : List (Option TransactionResult))
    (listed : ∀ stage ∈ stages, stage.Listed transactions) :
    (current.runStages agave schedule transactions stageIndex stages results ≠ none ∧
      ∀ error after, current.runStages agave schedule transactions stageIndex stages results =
        some (.error error, after) → after = start) ↔
    ∀ before stage rest results' next, stages = before ++ stage :: rest →
      current.runStages agave schedule transactions stageIndex before results =
        some (.ok results', next) →
      StageCleanly agave start next stage transactions := by
  -- The induction runs with the batch: `start` stays, while the VM the stages go on from changes.
  induction stages generalizing current stageIndex results with
  | nil =>
    constructor
    · intro _ before stage rest results' next split
      cases before <;> cases split
    · intro _
      simp [runStages]
  | cons stage rest ih =>
    have step := stageStep_runStage agave current (schedule stageIndex)
      (listed stage List.mem_cons_self) results
    have clean := step.clean_iff agave start
    have others : ∀ stage ∈ rest, stage.Listed transactions :=
      fun stage member => listed stage (List.mem_cons_of_mem _ member)
    cases equal : current.runStage agave (schedule stageIndex) stage transactions results with
    | none =>
      rw [equal] at clean
      have broken : current.runStages agave schedule transactions stageIndex (stage :: rest)
          results = none := by simp [runStages, equal]
      constructor
      · rintro ⟨returns, -⟩
        exact absurd broken returns
      · intro cleanly
        have first := cleanly [] stage rest results current rfl rfl
        exact absurd rfl (clean.2 first).1
    | some outcome =>
      obtain ⟨outcome, next⟩ := outcome
      rw [equal] at clean
      cases outcome with
      | error error =>
        -- No later stage is reached, so this one decides.
        have stopped : current.runStages agave schedule transactions stageIndex (stage :: rest)
            results = some (.error error, next) := by simp [runStages, equal]
        rw [stopped, clean]
        constructor
        · intro first before other rest' results' after split ran
          cases before with
          | nil =>
            cases split
            cases ran
            exact first
          | cons head before =>
            cases split
            simp [runStages, equal] at ran
        · intro cleanly
          exact cleanly [] stage rest results current rfl rfl
      | ok results' =>
        have goes : ∀ stages, current.runStages agave schedule transactions stageIndex
            (stage :: stages) results =
              next.runStages agave schedule transactions (stageIndex + 1) stages results' := by
          intro stages
          simp [runStages, equal]
        have first : StageCleanly agave start current stage transactions :=
          clean.1 ⟨by simp, by simp⟩
        rw [goes rest, ih next (stageIndex + 1) results' others]
        constructor
        · intro cleanly before other rest' results'' after split ran
          cases before with
          | nil =>
            cases split
            cases ran
            exact first
          | cons head before =>
            cases split
            rw [goes before] at ran
            exact cleanly before other rest' results'' after rfl ran
        · rintro cleanly before other rest' results'' after rfl ran
          exact cleanly (stage :: before) other rest' results'' after rfl (by rwa [goes before])

/-- Every stage of several transactions that the batch reaches is prewarmed and merged, or fails
its prewarm before anything changed. -/
def StagesCleanly (vm : Svm) (schedule : Nat → Schedule)
    (transactions : List VersionedTransaction) : Prop :=
  ∀ plan before stage rest results current,
    vm.planTransactionBatch agave transactions = .ok plan → plan.stages = before ++ stage :: rest →
    vm.runStages agave schedule transactions 0 before (transactions.map fun _ => none) =
      some (.ok results, current) →
    StageCleanly agave vm current stage transactions

theorem mapM_id_isSome {results : List (Option TransactionResult)}
    (filled : ∀ index < results.length, ∃ result, results[index]? = some (some result)) :
    (results.mapM id).isSome := by
  rw [mapM_eq_some_filterMap]
  · rfl
  · intro slot member
    obtain ⟨index, found⟩ := List.mem_iff_getElem?.1 member
    obtain ⟨result, equal⟩ := filled index (List.getElem?_eq_some_iff.1 found).1
    rw [found] at equal
    cases equal
    rfl

/-- The stages of a plan leave no slot open, so taking the results does not panic. -/
theorem exists_values_of_runStages {vm next : Svm} {schedule : Nat → Schedule}
    {transactions : List VersionedTransaction} {plan : TransactionBatchPlan}
    {results : List (Option TransactionResult)}
    (planned : vm.planTransactionBatch agave transactions = .ok plan)
    (ran : vm.runStages agave schedule transactions 0 plan.stages (transactions.map fun _ => none) =
      some (.ok results, next)) : ∃ values, results.mapM id = some values := by
  obtain ⟨listed, covered⟩ := listed_of_planned agave planned
  obtain ⟨outcomes, rfl, indexes⟩ := runStages_filled agave listed ran
  refine Option.isSome_iff_exists.1 (mapM_id_isSome ?_)
  intro index inside
  rw [length_fillResults] at inside
  refine fillResults_filled inside (.inr ?_)
  rw [List.length_map] at inside
  obtain ⟨stage, member, there⟩ := covered index inside
  rw [indexes]
  exact List.mem_flatMap.2 ⟨stage, member, there⟩

/-- A planned batch ends as its stages do. -/
theorem allOrNothing_iff_of_planned {vm : Svm} {schedule : Nat → Schedule}
    {transactions : List VersionedTransaction} {plan : TransactionBatchPlan}
    (planned : vm.planTransactionBatch agave transactions = .ok plan) :
    vm.AllOrNothing agave schedule transactions ↔
      vm.runStages agave schedule transactions 0 plan.stages (transactions.map fun _ => none) ≠
          none ∧
        ∀ error after, vm.runStages agave schedule transactions 0 plan.stages
          (transactions.map fun _ => none) = some (.error error, after) → after = vm := by
  cases ran : vm.runStages agave schedule transactions 0 plan.stages
      (transactions.map fun _ => none) with
  | none =>
    have sent : vm.sendTransactionBatch agave schedule transactions = none := by
      simp only [sendTransactionBatch, planned, ran, Option.bind_none]
    constructor
    · intro all
      exact absurd sent all.returns
    · rintro ⟨returns, -⟩
      exact absurd rfl returns
  | some outcome =>
    obtain ⟨outcome, next⟩ := outcome
    cases outcome with
    | error error =>
      have sent : vm.sendTransactionBatch agave schedule transactions =
          some (.error error, next) := by
        simp only [sendTransactionBatch, planned, ran, Option.bind_some]
      constructor
      · intro all
        refine ⟨by simp, ?_⟩
        intro error' after equal
        cases equal
        exact all.unchanged error next sent
      · rintro ⟨-, unchanged⟩
        refine ⟨by simp [sent], ?_⟩
        intro error' after equal
        rw [sent] at equal
        cases equal
        exact unchanged error next rfl
    | ok results =>
      obtain ⟨values, found⟩ := exists_values_of_runStages agave planned ran
      have sent : vm.sendTransactionBatch agave schedule transactions =
          some (.ok ⟨plan, values⟩, next) := by
        simp only [sendTransactionBatch, planned, ran, Option.bind_some, found, Option.map_some]
      exact iff_of_true ⟨by simp [sent], by simp [sent]⟩ ⟨by simp, by simp⟩

theorem stagesCleanly_iff_of_planned {vm : Svm} {schedule : Nat → Schedule}
    {transactions : List VersionedTransaction} {plan : TransactionBatchPlan}
    (planned : vm.planTransactionBatch agave transactions = .ok plan) :
    vm.StagesCleanly agave schedule transactions ↔
      ∀ before stage rest results' next, plan.stages = before ++ stage :: rest →
        vm.runStages agave schedule transactions 0 before (transactions.map fun _ => none) =
          some (.ok results', next) →
        StageCleanly agave vm next stage transactions := by
  unfold StagesCleanly
  rw [planned]
  constructor
  · intro cleanly before stage rest results' next
    exact cleanly plan before stage rest results' next rfl
  · intro cleanly plan' before stage rest results' next same
    cases same
    exact cleanly before stage rest results' next

/-- A failed batch leaves nothing behind and no batch panics exactly when every stage it reaches
goes through, or fails before anything changed. -/
theorem batch_all_or_nothing_iff (vm : Svm) (schedule : Nat → Schedule)
    (transactions : List VersionedTransaction) :
    vm.AllOrNothing agave schedule transactions ↔ vm.StagesCleanly agave schedule transactions := by
  cases planned : vm.planTransactionBatch agave transactions with
  | error error =>
    have refused : vm.sendTransactionBatch agave schedule transactions = some (.error error, vm) := by
      simp [sendTransactionBatch, planned]
    constructor
    · intro _ plan before stage rest results current impossible
      rw [planned] at impossible
      cases impossible
    · intro _
      refine ⟨by simp [refused], ?_⟩
      intro error' after sent
      rw [refused] at sent
      cases sent
      rfl
  | ok plan =>
    have listed := (listed_of_planned agave planned).1
    rw [allOrNothing_iff_of_planned agave planned, stagesCleanly_iff_of_planned agave planned]
    exact runStages_clean_iff agave vm vm schedule 0 (transactions.map fun _ => none) listed

end Svm

namespace Sample

/-- The workers finish in the order of their indexes. -/
def inOrder : Schedule := ⟨id, fun _ => .refl _⟩

/-- A source that cannot read 0x13. -/
def flakySource : AccountSource := .ofGetAccount fun key =>
  if key = 0x13 then .error (.new "connection reset") else .ok none

def flakyVm : Svm :=
  vm [(0x11, systemAccount 1_000_000), (0x12, systemAccount 1_000_000)] flakySource

/-- The first transfer conflicts with the two others, which share a stage. -/
def forkTxs : List VersionedTransaction :=
  [transferTx 1 0x11 [0xa, 0xb] [([0, 1], 64)], transferTx 2 0x12 [0xa] [([0, 1], 64)],
    transferTx 3 0x13 [0xb] [([0, 1], 64)]]

/-- The second stage cannot be prewarmed, and the first transfer stays committed. -/
theorem failed_batch_keeps_first_stage :
    ¬ flakyVm.AllOrNothing agave (fun _ => inOrder) forkTxs := by
  intro all
  have committed : (flakyVm.sendTransactionBatch agave (fun _ => inOrder) forkTxs).map
      (fun (result, after) => (result.toOption.isSome,
        (after.accounts.getAccount 0x11).map fun account => account.lamports)) =
        some (false, some 994_936) := by decide
  cases sent : flakyVm.sendTransactionBatch agave (fun _ => inOrder) forkTxs with
  | none => exact all.returns sent
  | some outcome =>
    obtain ⟨result, after⟩ := outcome
    rw [sent] at committed
    cases result with
    | ok _ => cases committed
    | error error =>
      cases all.unchanged error after sent
      have before : (flakyVm.accounts.getAccount 0x11).map (fun account => account.lamports) =
          some 1_000_000 := by decide
      simp only [Option.map_some, before] at committed
      cases committed

end Sample

end Hpsvm
