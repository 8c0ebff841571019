import Hpsvm.Properties.BatchSerial

/-!
# Replay protection

The history of a VM holds the signatures of the transactions it committed, up to its capacity. Over
any run of sends, staged transactions, batches and capacity changes it is exactly the list of the
most recent ones, and a transaction whose signature is on it is turned away without a trace.
-/

namespace Hpsvm

open Foundation (LruCache.recent LruCache.recent_append_recent LruCache.keys_put
  LruCache.keys_resize LruCache.recent_keys LruCache.isSome_peek_iff)

/-- What can change the history. -/
inductive HistoryEvent
  | committed (signature : Signature)
  | capacity (count : Nat)
deriving DecidableEq, Repr

namespace HistoryEvent

/-- The capacity in force after a log of events, newest first. -/
def inForce (initial : Nat) : List HistoryEvent → Nat
  | [] => initial
  | capacity count :: _ => count
  | committed _ :: earlier => inForce initial earlier

/-- The signatures retained after a log, given some that were committed later under the same
capacity: the most recent ones of those committed since the capacity last changed, followed by
those retained at the change. -/
def retainedFrom (initial : Nat) (newer : List Signature) : List HistoryEvent → List Signature
  | [] => LruCache.recent initial newer
  | committed signature :: earlier => retainedFrom initial (newer ++ [signature]) earlier
  | capacity count :: earlier => LruCache.recent count (newer ++ retainedFrom initial [] earlier)

/-- The signatures retained after a log of events, newest first. -/
def retained (initial : Nat) (log : List HistoryEvent) : List Signature :=
  retainedFrom initial [] log

theorem retainedFrom_append (initial : Nat) (newest newer : List Signature)
    (log : List HistoryEvent) :
    retainedFrom initial (newest ++ newer) log =
      LruCache.recent (inForce initial log) (newest ++ retainedFrom initial newer log) := by
  induction log generalizing newer with
  | nil => rw [retainedFrom, retainedFrom, inForce, LruCache.recent_append_recent]
  | cons event earlier ih =>
    cases event with
    | committed signature =>
      rw [retainedFrom, retainedFrom, inForce, List.append_assoc, ih]
    | capacity count =>
      rw [retainedFrom, retainedFrom, inForce, LruCache.recent_append_recent, List.append_assoc]

/-- Nothing is retained while the history is disabled. -/
theorem retained_of_disabled {initial : Nat} {log : List HistoryEvent}
    (disabled : inForce initial log = 0) : retained initial log = [] := by
  have same := retainedFrom_append initial [] [] log
  rw [disabled] at same
  exact same

end HistoryEvent

open HistoryEvent

/-! ### The history after a log of events -/

namespace TransactionHistory

/-- The history is what a log of events leaves of an empty one with an initial capacity. -/
structure Tracks (initial : Nat) (log : List HistoryEvent) (history : TransactionHistory) :
    Prop where
  keys : history.entries.keys = retained initial log
  maxEntries : history.maxEntries = inForce initial log
  cap : history.maxEntries ≠ 0 → history.entries.cap = history.maxEntries

theorem tracks_withCapacity (capacity : Nat) : Tracks capacity [] (withCapacity capacity) := by
  refine ⟨?_, rfl, ?_⟩
  · simp [withCapacity, Foundation.LruCache.keys, Foundation.LruCache.empty, retained, retainedFrom,
      LruCache.recent, Foundation.LruCache.distinct]
  · intro enabled
    change max capacity 1 = capacity
    have positive : capacity ≠ 0 := enabled
    omega

theorem Tracks.setCapacity {initial : Nat} {log : List HistoryEvent} {history : TransactionHistory}
    (tracks : Tracks initial log history) (count : Nat) :
    Tracks initial (.capacity count :: log) (history.setCapacity count) := by
  have resized : retained initial (.capacity count :: log) =
      LruCache.recent count history.entries.keys := by
    rw [tracks.keys]
    rfl
  unfold TransactionHistory.setCapacity
  by_cases disabled : count = 0
  · subst disabled
    simp only [dite_true]
    refine ⟨?_, rfl, fun enabled => absurd rfl enabled⟩
    rw [resized]
    rfl
  · simp only [disabled, dite_false]
    refine ⟨?_, rfl, fun _ => rfl⟩
    rw [resized, LruCache.recent_keys, LruCache.keys_resize]

theorem Tracks.addNewTransaction {initial : Nat} {log : List HistoryEvent}
    {history : TransactionHistory} (tracks : Tracks initial log history) (signature : Signature)
    (result : TransactionResult) :
    Tracks initial (.committed signature :: log) (history.addNewTransaction signature result) := by
  have added : retained initial (.committed signature :: log) =
      LruCache.recent history.maxEntries (signature :: history.entries.keys) := by
    rw [tracks.keys, tracks.maxEntries]
    exact retainedFrom_append initial [signature] [] log
  unfold TransactionHistory.addNewTransaction
  by_cases disabled : history.maxEntries = 0
  · -- A disabled history holds nothing, and nothing is retained.
    simp only [disabled, if_true]
    refine ⟨?_, tracks.maxEntries, tracks.cap⟩
    rw [tracks.keys, added, disabled, retained_of_disabled (tracks.maxEntries ▸ disabled)]
    rfl
  · simp only [disabled, if_false]
    refine ⟨?_, tracks.maxEntries, tracks.cap⟩
    rw [LruCache.keys_put, tracks.cap disabled, added]

/-- The check finds exactly the retained signatures. -/
theorem Tracks.checkTransaction_iff {initial : Nat} {log : List HistoryEvent}
    {history : TransactionHistory} (tracks : Tracks initial log history) (signature : Signature) :
    history.checkTransaction signature = true ↔ signature ∈ retained initial log := by
  unfold checkTransaction
  by_cases disabled : history.maxEntries = 0
  · rw [if_pos disabled, retained_of_disabled (tracks.maxEntries ▸ disabled)]
    simp
  · rw [if_neg disabled, LruCache.isSome_peek_iff, tracks.keys]

end TransactionHistory

/-- The commit of an outcome: only an included transaction is recorded. -/
def DetachedTx.commits (detached : DetachedTx) : List HistoryEvent :=
  if detached.included then [.committed detached.info.signature] else []

theorem TransactionHistory.Tracks.record {initial : Nat} {log : List HistoryEvent}
    {history : TransactionHistory} (tracks : Tracks initial log history) (detached : DetachedTx) :
    Tracks initial (detached.commits ++ log) (history.record
      (detachedIntoResultAndDelta detached history.isEnabled).2.historyEntry) := by
  unfold detachedIntoResultAndDelta DetachedTx.commits TransactionHistory.record
  cases included : detached.included with
  | false => simpa [included] using tracks
  | true =>
    have added := tracks.addNewTransaction detached.info.signature detached.result
    cases enabled : history.isEnabled with
    | true => simpa [included, enabled] using added
    | false =>
      have disabled : history.maxEntries = 0 := by simpa [isEnabled] using enabled
      have same : history.addNewTransaction detached.info.signature detached.result = history :=
        if_pos disabled
      rw [same] at added
      simpa [included, enabled] using added

namespace Svm

variable (agave : Agave)

/-! ### Runs -/

/-- The event of a sent transaction, which is committed once its staging is accepted. -/
def sendEvents (vm : Svm) (tx : VersionedTransaction) : List HistoryEvent :=
  match (vm.accounts.syncAccounts agave (vm.stagedDelta agave tx).postAccounts).1 with
  | .ok () => (vm.transactDetached agave tx).commits
  | .error _ => []

/-- The events of a stage whose workers ran on a snapshot, newest first. -/
def stageEvents (snapshot : Svm) (transactions : List VersionedTransaction)
    (stage : TransactionBatchStage) : List HistoryEvent :=
  (pickTransactions transactions stage.transactionIndexes).reverse.flatMap fun tx =>
    (snapshot.transactDetached agave tx).commits

/-- The states a run goes through, with what was committed so far, newest first. The stages of a
batch are steps of their own, and the snapshot that the workers of a stage get is a state too. -/
inductive Reached (start : Svm) : Svm → List HistoryEvent → Prop
  | start : Reached start start []
  | send {vm : Svm} {log : List HistoryEvent} (reached : Reached start vm log)
      (tx : VersionedTransaction) :
      Reached start (vm.sendTransaction agave tx).2 (vm.sendEvents agave tx ++ log)
  | refused {vm next : Svm} {log : List HistoryEvent} {tx : VersionedTransaction}
      {error : HpsvmError} (reached : Reached start vm log)
      (failed : vm.transact agave tx = .error (error, next)) : Reached start next log
  | commit {vm : Svm} {log : List HistoryEvent} {tx : VersionedTransaction} {executed : ExecutedTx}
      (reached : Reached start vm log) (staged : vm.transact agave tx = .ok executed) :
      Reached start executed.commit.2 ((vm.transactDetached agave tx).commits ++ log)
  | discard {vm next : Svm} {log : List HistoryEvent} {tx : VersionedTransaction}
      {executed : ExecutedTx} {result : TransactionResult} (reached : Reached start vm log)
      (staged : vm.transact agave tx = .ok executed)
      (discarded : executed.discard agave = some (result, next)) : Reached start next log
  | setTransactionHistory {vm : Svm} {log : List HistoryEvent} (reached : Reached start vm log)
      (capacity : Nat) :
      Reached start (vm.setTransactionHistory capacity) (.capacity capacity :: log)
  | snapshot {vm : Svm} {log : List HistoryEvent} (reached : Reached start vm log)
      (readSet : List Address) : Reached start (vm.prewarmStage agave readSet).2 log
  | merge {snapshot : Svm} {log : List HistoryEvent} {stage : TransactionBatchStage}
      {transactions : List VersionedTransaction} (reached : Reached start snapshot log)
      (listed : stage.Listed transactions) :
      Reached start (snapshot.merged agave (snapshot.stageResults agave stage transactions))
        (snapshot.stageEvents agave transactions stage ++ log)

/-- The history tracks the log, and signatures are verified. -/
structure Protected (initial : Nat) (vm : Svm) (log : List HistoryEvent) : Prop where
  tracks : vm.history.Tracks initial log
  verifies : vm.version.sigverify = true

theorem Protected.of_same {initial : Nat} {vm next : Svm} {log : List HistoryEvent}
    (protect : Protected initial vm log) (history : next.history = vm.history)
    (version : next.version = vm.version) : Protected initial next log := by
  refine ⟨?_, ?_⟩
  · rw [history]
    exact protect.tracks
  · rw [version]
    exact protect.verifies

/-- Committing an outcome, on a VM whose history is switched on as it was for the outcome. -/
theorem Protected.commits {initial : Nat} {vm next : Svm} {log : List HistoryEvent}
    (protect : Protected initial vm log) (detached : DetachedTx)
    (history : next.history = vm.history.record
      (detachedIntoResultAndDelta detached vm.history.isEnabled).2.historyEntry)
    (version : next.version = vm.version) :
    Protected initial next (detached.commits ++ log) := by
  refine ⟨?_, ?_⟩
  · rw [history]
    exact protect.tracks.record detached
  · rw [version]
    exact protect.verifies

theorem commits_of_fatalError {vm : Svm} {tx : VersionedTransaction} {error : ExecutionError}
    (fatal : (vm.transactDetached agave tx).fatalError = some error) :
    (vm.transactDetached agave tx).commits = [] := by
  simp [DetachedTx.commits, excluded_of_fatalError agave fatal]

theorem Protected.send {initial : Nat} {vm : Svm} {log : List HistoryEvent}
    (protect : Protected initial vm log) (tx : VersionedTransaction) :
    Protected initial (vm.sendTransaction agave tx).2 (vm.sendEvents agave tx ++ log) := by
  rw [sendTransaction_staged]
  unfold sendEvents
  cases fatal : (vm.transactDetached agave tx).fatalError with
  | some error =>
    rw [commits_of_fatalError agave fatal]
    cases (vm.accounts.syncAccounts agave (vm.stagedDelta agave tx).postAccounts).1 with
    | error error => exact protect
    | ok done => exact protect
  | none =>
    cases synced : vm.accounts.syncAccounts agave (vm.stagedDelta agave tx).postAccounts with
    | mk result accounts =>
      cases result with
      | error error => exact protect.of_same rfl rfl
      | ok done => exact protect.commits (vm.transactDetached agave tx) rfl rfl

/-- What `transact` answers has the history of before. -/
theorem transact_history (vm : Svm) (tx : VersionedTransaction) :
    (∀ error next, vm.transact agave tx = .error (error, next) →
      next.history = vm.history ∧ next.version = vm.version) ∧
    ∀ executed, vm.transact agave tx = .ok executed →
      executed.vm.history = vm.history ∧ executed.vm.version = vm.version ∧
        executed.historyEntry = (vm.stagedDelta agave tx).historyEntry := by
  refine ⟨?_, ?_⟩
  · intro error next failed
    rcases transact_eq_error agave failed with rfl | ⟨accounts, -, rfl⟩
    · exact ⟨rfl, rfl⟩
    · exact ⟨rfl, rfl⟩
  · intro executed staged
    obtain ⟨accounts, -, left, entry⟩ := transact_eq_ok agave staged
    exact ⟨by rw [left], by rw [left], entry⟩

theorem discard_history {executed : ExecutedTx} {result : TransactionResult} {next : Svm}
    (discarded : executed.discard agave = some (result, next)) :
    next.history = executed.vm.history ∧ next.version = executed.vm.version := by
  obtain ⟨left, unstaged, same⟩ := Option.map_eq_some_iff.1 discarded
  cases same
  unfold ExecutedTx.unstage at unstaged
  simp only at unstaged
  split at unstaged
  · split at unstaged
    · cases unstaged
    · cases unstaged
      exact ⟨rfl, rfl⟩
  · cases unstaged
    exact ⟨rfl, rfl⟩

theorem prewarmStage_history (vm : Svm) (readSet : List Address) :
    (vm.prewarmStage agave readSet).2.history = vm.history ∧
      (vm.prewarmStage agave readSet).2.version = vm.version := by
  unfold prewarmStage
  split
  · exact ⟨rfl, rfl⟩
  · split
    · exact ⟨rfl, rfl⟩
    · exact ⟨rfl, rfl⟩

/-- Merging the results of workers that ran on one snapshot, one after the other. -/
theorem Protected.merge {initial : Nat} {snapshot vm : Svm} {log : List HistoryEvent}
    (protect : Protected initial vm log) (txs : List VersionedTransaction) :
    Protected initial
      ((txs.map (snapshot.transactDetached agave)).foldl
        (fun vm detached => vm.committed agave detached) vm)
      ((txs.reverse.flatMap fun tx => (snapshot.transactDetached agave tx).commits) ++ log) := by
  induction txs generalizing vm log with
  | nil => exact protect
  | cons tx rest ih =>
    have first : Protected initial (vm.committed agave (snapshot.transactDetached agave tx))
        ((snapshot.transactDetached agave tx).commits ++ log) :=
      protect.commits (snapshot.transactDetached agave tx) rfl rfl
    have others := ih first
    simpa using others

/-- Every step keeps the history in line with the log. -/
theorem Reached.protected {initial : Nat} {start vm : Svm} {log : List HistoryEvent}
    (reached : Reached agave start vm log) (fresh : Protected initial start []) :
    Protected initial vm log := by
  induction reached with
  | start => exact fresh
  | send _ tx ih => exact ih.send agave tx
  | refused _ failed ih =>
    obtain ⟨history, version⟩ := (transact_history agave _ _).1 _ _ failed
    exact ih.of_same history version
  | @commit vm log tx executed _ staged ih =>
    obtain ⟨history, version, entry⟩ := (transact_history agave vm tx).2 executed staged
    refine ih.commits (vm.transactDetached agave tx) ?_ version
    change executed.vm.history.record executed.historyEntry = _
    rw [history, entry]
    rfl
  | @discard vm next log tx executed result _ staged discarded ih =>
    obtain ⟨history, version, -⟩ := (transact_history agave vm tx).2 executed staged
    obtain ⟨history', version'⟩ := discard_history agave discarded
    exact ih.of_same (history'.trans history) (version'.trans version)
  | setTransactionHistory _ capacity ih => exact ⟨ih.tracks.setCapacity capacity, ih.verifies⟩
  | snapshot _ readSet ih =>
    obtain ⟨history, version⟩ := prewarmStage_history agave _ readSet
    exact ih.of_same history version
  | merge _ listed ih =>
    rw [merged_stageResults agave listed]
    exact ih.merge agave _

/-! ### Batches go through reached states -/

theorem Reached.stage {start vm next : Svm} {log : List HistoryEvent} {schedule : Schedule}
    {stage : TransactionBatchStage} {transactions : List VersionedTransaction}
    {results : List (Option TransactionResult)}
    {outcome : Except TransactionBatchError (List (Option TransactionResult))}
    (reached : Reached agave start vm log) (listed : stage.Listed transactions)
    (ran : vm.runStage agave schedule stage transactions results = some (outcome, next)) :
    ∃ events, Reached agave start next (events ++ log) := by
  have step := stageStep_runStage agave vm schedule listed results
  rw [ran] at step
  cases step with
  | single index tx alone found => exact ⟨_, reached.send tx⟩
  | failed error dbError left several prewarm =>
    have warmed := reached.snapshot (stageReadSet stage transactions)
    rw [prewarm] at warmed
    exact ⟨[], warmed⟩
  | parallel warm several prewarm accepts =>
    have warmed := reached.snapshot (stageReadSet stage transactions)
    rw [prewarm] at warmed
    exact ⟨_, warmed.merge listed⟩

theorem Reached.stages {start vm next : Svm} {log : List HistoryEvent} {schedule : Nat → Schedule}
    {transactions : List VersionedTransaction} {stageIndex : Nat}
    {stages : List TransactionBatchStage} {results : List (Option TransactionResult)}
    {outcome : Except TransactionBatchError (List (Option TransactionResult))}
    (reached : Reached agave start vm log)
    (listed : ∀ stage ∈ stages, stage.Listed transactions)
    (ran : vm.runStages agave schedule transactions stageIndex stages results =
      some (outcome, next)) :
    ∃ events, Reached agave start next (events ++ log) := by
  induction stages generalizing vm log stageIndex results with
  | nil =>
    cases ran
    exact ⟨[], reached⟩
  | cons stage rest ih =>
    unfold runStages at ran
    cases one : vm.runStage agave (schedule stageIndex) stage transactions results with
    | none =>
      rw [one] at ran
      cases ran
    | some done =>
      obtain ⟨first, after⟩ := done
      obtain ⟨events, left⟩ := reached.stage agave (listed stage List.mem_cons_self) one
      rw [one] at ran
      cases first with
      | error error =>
        cases ran
        exact ⟨events, left⟩
      | ok filled =>
        obtain ⟨more, last⟩ := ih left
          (fun stage member => listed stage (List.mem_cons_of_mem _ member)) ran
        refine ⟨more ++ events, ?_⟩
        rwa [List.append_assoc]

/-- A batch ends in a reached state, whatever it answers. -/
theorem Reached.batch {start vm after : Svm} {log : List HistoryEvent} {schedule : Nat → Schedule}
    {transactions : List VersionedTransaction}
    {outcome : Except TransactionBatchError TransactionBatchExecutionResult}
    (reached : Reached agave start vm log)
    (sent : vm.sendTransactionBatch agave schedule transactions = some (outcome, after)) :
    ∃ events, Reached agave start after (events ++ log) := by
  unfold sendTransactionBatch at sent
  split at sent
  · cases sent
    exact ⟨[], reached⟩
  next plan made =>
    cases ran : vm.runStages agave schedule transactions 0 plan.stages
        (transactions.map fun _ => none) with
    | none =>
      rw [ran] at sent
      cases sent
    | some done =>
      obtain ⟨first, left⟩ := done
      have ended := reached.stages agave (listed_of_planned agave made).1 ran
      rw [ran] at sent
      cases first with
      | error error =>
        cases sent
        exact ended
      | ok slots =>
        obtain ⟨values, -, same⟩ := Option.map_eq_some_iff.1 sent
        cases same
        exact ended

/-! ### The check -/

/-- The checks before the one of the history pass. -/
structure ReachesHistoryCheck (vm : Svm) (tx : SanitizedTransaction)
    (limits : ComputeBudgetLimits) : Prop where
  sysvars : vm.materialized.sysvars = true
  age : vm.version.blockhashCheck = true → vm.checkTransactionAge agave tx.message = .ok ()
  budget : agave.processComputeBudgetInstructions tx.message vm.version.featureSet = .ok limits

theorem checkTransaction_of_reaches {vm : Svm} {tx : SanitizedTransaction}
    {limits : ComputeBudgetLimits} (reaches : vm.ReachesHistoryCheck agave tx limits) :
    vm.checkTransaction agave tx =
      if vm.version.sigverify && vm.history.checkTransaction tx.signature then
        .error (.rejected .alreadyProcessed 0)
      else .ok limits := by
  have age : (if vm.version.blockhashCheck then vm.checkTransactionAge agave tx.message
      else .ok ()) = .ok () := by
    split
    next checks => exact reaches.age checks
    · rfl
  unfold checkTransaction
  rw [age]
  simp [reaches.sysvars, reaches.budget]

/-- Whatever is done with the transaction leaves the VM as it is. -/
structure LeavesNoTrace (vm : Svm) (tx : VersionedTransaction) : Prop where
  status : (vm.transactDetached agave tx).status = .error .alreadyProcessed
  sent : (vm.sendTransaction agave tx).2 = vm
  committed : ∀ executed, vm.transact agave tx = .ok executed → executed.commit.2 = vm
  discarded : ∀ executed result next, vm.transact agave tx = .ok executed →
    executed.discard agave = some (result, next) → next = vm
  merged : ∀ other : Svm, other.committed agave (vm.transactDetached agave tx) = other

/-- Exactly the transactions with a retained signature are turned away by the check of the history,
and those without a trace. -/
structure RejectsReplays (vm : Svm) (retained : List Signature) : Prop where
  rejected_iff : ∀ tx sanitized limits, vm.sanitize agave tx = .ok sanitized →
    vm.ReachesHistoryCheck agave sanitized limits →
    (vm.checkTransaction agave sanitized = .error (.rejected .alreadyProcessed 0) ↔
      sanitized.signature ∈ retained)
  passes : ∀ tx sanitized limits, vm.sanitize agave tx = .ok sanitized →
    vm.ReachesHistoryCheck agave sanitized limits → sanitized.signature ∉ retained →
    vm.checkTransaction agave sanitized = .ok limits
  without_trace : ∀ tx sanitized limits, vm.sanitize agave tx = .ok sanitized →
    vm.ReachesHistoryCheck agave sanitized limits → sanitized.signature ∈ retained →
    vm.LeavesNoTrace agave tx

theorem leavesNoTrace_of_rejected {vm : Svm} {tx : VersionedTransaction}
    {sanitized : SanitizedTransaction} (done : vm.sanitize agave tx = .ok sanitized)
    (refused : vm.checkTransaction agave sanitized = .error (.rejected .alreadyProcessed 0)) :
    vm.LeavesNoTrace agave tx := by
  have detached : vm.transactDetached agave tx =
      vm.executionIntoDetached agave (.rejected .alreadyProcessed 0) [] := by
    simp only [transactDetached, executeReadonly, done, executeSanitizedTransaction, refused]
  have rejected := ExecutionResult.rejected_rejected .alreadyProcessed 0
  have excluded : (vm.transactDetached agave tx).included = false := by
    rw [detached]
    rfl
  -- A rejected transaction may be staged, but with no account and no entry for the history.
  have staged : ∀ executed, vm.transact agave tx = .ok executed → executed.vm = vm ∧
      executed.checkpoint = vm.accounts.checkpoint ∧ executed.historyEntry = none ∧
        executed.cacheDirty = false := by
    intro executed transacted
    have taken := (transact_eq_ok_iff agave).1 transacted
    rcases transactCore_of_rejected agave rejected detached with
      ⟨failure, core, -⟩ | ⟨staged, core, same, checkpoint, -, entry, clean, -⟩
    · rw [core] at taken
      cases taken
    · rw [core] at taken
      cases taken
      exact ⟨same, checkpoint, entry, clean⟩
  refine ⟨?_, ?_, ?_, ?_, ?_⟩
  · rw [detached]
    rfl
  · unfold sendTransaction
    rcases transactCore_of_rejected agave rejected detached with
      ⟨failure, core, -⟩ | ⟨staged, core, same, -, -, entry, -, -⟩
    · rw [core]
    · rw [core]
      simp only [ExecutedTx.commit, entry, TransactionHistory.record, same]
  · intro executed transacted
    obtain ⟨same, -, entry, -⟩ := staged executed transacted
    simp only [ExecutedTx.commit, entry, TransactionHistory.record, same]
  · intro executed result next transacted discarded
    obtain ⟨same, checkpoint, -, clean⟩ := staged executed transacted
    obtain ⟨left, unstaged, equal⟩ := Option.map_eq_some_iff.1 discarded
    cases equal
    have kept := Accounts.rollback_checkpoint (Accounts.Journaled.refl vm.accounts)
    simp only [ExecutedTx.unstage, same, checkpoint, clean, Bool.false_eq_true, if_false, kept,
      Option.some.injEq] at unstaged
    exact unstaged.symm
  · intro other
    simp [committed, detachedIntoResultAndDelta, excluded, Accounts.syncAccounts,
      partitionProgramdata, Accounts.addAccounts, TransactionHistory.record]

theorem Protected.rejectsReplays {initial : Nat} {vm : Svm} {log : List HistoryEvent}
    (protect : Protected initial vm log) : vm.RejectsReplays agave (retained initial log) := by
  have checks : ∀ sanitized limits, vm.ReachesHistoryCheck agave sanitized limits →
      vm.checkTransaction agave sanitized =
        if vm.history.checkTransaction sanitized.signature then
          .error (.rejected .alreadyProcessed 0)
        else .ok limits := by
    intro sanitized limits reaches
    rw [checkTransaction_of_reaches agave reaches, protect.verifies, Bool.true_and]
  have found := protect.tracks.checkTransaction_iff
  refine ⟨?_, ?_, ?_⟩
  · intro tx sanitized limits _ reaches
    rw [checks sanitized limits reaches, ← found]
    by_cases seen : vm.history.checkTransaction sanitized.signature = true
    · simp [seen]
    · simp [seen]
  · intro tx sanitized limits _ reaches fresh
    rw [checks sanitized limits reaches, if_neg]
    exact fun seen => fresh ((found _).1 seen)
  · intro tx sanitized limits done reaches known
    refine leavesNoTrace_of_rejected agave done ?_
    rw [checks sanitized limits reaches, if_pos ((found _).2 known)]

/-- Over every run from a VM with an empty history, replays are rejected exactly, in every state and
on every snapshot of a batch; and batches stay within the runs. -/
theorem replay_protection_exact {start vm : Svm} {log : List HistoryEvent} {capacity : Nat}
    (fresh : start.history = .withCapacity capacity) (verifies : start.version.sigverify = true)
    (reached : Reached agave start vm log) :
    vm.RejectsReplays agave (retained capacity log) ∧
      ∀ schedule transactions outcome after,
        vm.sendTransactionBatch agave schedule transactions = some (outcome, after) →
        ∃ events, Reached agave start after (events ++ log) := by
  have initial : Protected capacity start [] := by
    refine ⟨?_, verifies⟩
    rw [fresh]
    exact TransactionHistory.tracks_withCapacity capacity
  refine ⟨?_, ?_⟩
  · exact (reached.protected agave initial).rejectsReplays agave
  · intro schedule transactions outcome after sent
    exact reached.batch agave sent

end Svm

namespace Sample

/-- A transfer that is sent twice, with a smaller history in between. -/
theorem replayed_transfer_rejected :
    (pairVm.sendEvents agave (transferTx 1 0x11 [0xa] [([0, 1], 64)]) = [.committed 1]) ∧
      ((pairVm.sendTransaction agave (transferTx 1 0x11 [0xa] [([0, 1], 64)])).2.setTransactionHistory
        1).RejectsReplays agave [1] := by
  have sent : pairVm.sendEvents agave (transferTx 1 0x11 [0xa] [([0, 1], 64)]) =
      [.committed 1] := by decide +kernel
  refine ⟨sent, ?_⟩
  have began : Svm.Reached agave pairVm pairVm [] := .start
  have reached := (began.send (transferTx 1 0x11 [0xa] [([0, 1], 64)])).setTransactionHistory 1
  have fresh : pairVm.history = .withCapacity 32 := rfl
  rw [sent] at reached
  exact (Svm.replay_protection_exact agave fresh rfl reached).1

end Sample

end Hpsvm
