import Hpsvm.AccountsDb.Staging
import Hpsvm.Properties.Included
import Hpsvm.SampleRuntime

/-!
# Simulating and sending

`simulate_transaction` and `send_transaction` run the same execution and part ways at staging. The
result of a send is built before its accounts are staged, so the two agree exactly when staging
accepts what a successful simulation reports.
-/

namespace Hpsvm

namespace Svm

variable (agave : Agave)

/-- The history entry a committed execution leaves. -/
def Execution.historyEntry {agave : Agave} {vm : Svm} {tx : VersionedTransaction}
    (run : Execution agave vm tx) : Option (Signature × TransactionResult) :=
  if vm.history.isEnabled then some (run.sanitized.signature, run.detached.result) else none

theorem transactCore_eq {vm : Svm} {tx : VersionedTransaction} (run : Execution agave vm tx)
    (detached : vm.transactDetached agave tx = run.detached) :
    vm.transactCore agave tx =
      match vm.accounts.syncAccounts agave run.postAccounts with
      | (.error error, accounts) =>
        .error (⟨error, run.detached.result⟩,
          { vm with accounts := accounts.rollback vm.accounts.checkpoint })
      | (.ok (), accounts) =>
        .ok
          { vm := { vm with accounts := accounts }
            checkpoint := vm.accounts.checkpoint
            result := run.detached.result
            historyEntry := run.historyEntry
            cacheDirty := stagingTouchesCaches run.postAccounts vm.accounts
            changes := run.postAccounts.map fun (address, after) =>
              ⟨address, vm.accounts.getAccount address, after.visible⟩ } := by
  unfold transactCore
  rw [detached]
  rfl

theorem transactCore_eq_ok {vm : Svm} {tx : VersionedTransaction} {staged : ExecutedTx}
    (core : vm.transactCore agave tx = .ok staged) :
    ∃ accounts,
      vm.accounts.syncAccounts agave (detachedIntoResultAndDelta (vm.transactDetached agave tx)
        vm.history.isEnabled).2.postAccounts = (.ok (), accounts) ∧
      staged.vm = { vm with accounts := accounts } ∧
      staged.historyEntry = (detachedIntoResultAndDelta (vm.transactDetached agave tx)
        vm.history.isEnabled).2.historyEntry := by
  unfold transactCore at core
  simp only at core
  split at core
  · cases core
  · split at core
    · cases core
    next accounts synced =>
      cases core
      exact ⟨accounts, synced, rfl, rfl⟩

/-- Execution failed and nothing was staged, or staging failed and was rolled back. -/
theorem transactCore_eq_error {vm next : Svm} {tx : VersionedTransaction}
    {failure : StagedFailure} (core : vm.transactCore agave tx = .error (failure, next)) :
    next = vm ∨ ∃ accounts,
      vm.accounts.syncAccounts agave (detachedIntoResultAndDelta (vm.transactDetached agave tx)
        vm.history.isEnabled).2.postAccounts = (.error failure.error, accounts) ∧
      next = { vm with accounts := accounts.rollback vm.accounts.checkpoint } := by
  unfold transactCore at core
  simp only at core
  split at core
  · cases core
    exact .inl rfl
  · split at core
    next error accounts refused =>
      cases core
      exact .inr ⟨accounts, refused, rfl⟩
    · cases core

theorem transact_eq_ok_iff {vm : Svm} {tx : VersionedTransaction} {staged : ExecutedTx} :
    vm.transact agave tx = .ok staged ↔ vm.transactCore agave tx = .ok staged := by
  unfold transact
  cases vm.transactCore agave tx with
  | ok other => simp
  | error failure => simp

theorem transact_eq_error_iff {vm next : Svm} {tx : VersionedTransaction} {error : HpsvmError} :
    vm.transact agave tx = .error (error, next) ↔
      ∃ failure, vm.transactCore agave tx = .error (failure, next) ∧ failure.error = error := by
  unfold transact
  cases vm.transactCore agave tx with
  | ok staged => simp
  | error failed =>
    obtain ⟨failure, left⟩ := failed
    simp [and_comm]

/-- Staging what a rejected execution left changes nothing. -/
theorem transactCore_of_rejected {vm : Svm} {tx : VersionedTransaction} {result : ExecutionResult}
    (rejected : result.Rejected)
    (detached : vm.transactDetached agave tx = vm.executionIntoDetached agave result []) :
    (∃ failure, vm.transactCore agave tx = .error (failure, vm) ∧
      failure.result = (vm.transactDetached agave tx).result) ∨
    ∃ staged, vm.transactCore agave tx = .ok staged ∧ staged.vm = vm ∧
      staged.checkpoint = vm.accounts.checkpoint ∧
      staged.result = (vm.transactDetached agave tx).result ∧ staged.historyEntry = none ∧
      staged.cacheDirty = false ∧ staged.changes = [] := by
  have excluded : (vm.transactDetached agave tx).included = false := by
    rw [detached]
    exact rejected.not_included
  have nothing := postAccounts_of_rejected agave rejected detached
  unfold transactCore
  simp only
  split
  · exact .inl ⟨_, rfl, rfl⟩
  · right
    simp [detachedIntoResultAndDelta, excluded, Accounts.syncAccounts, partitionProgramdata,
      Accounts.addAccounts, stagingTouchesCaches, nothing]

/-- Sending reports the outcome of the execution, also when staging then fails. -/
theorem sendTransaction_result (vm : Svm) (tx : VersionedTransaction) :
    (vm.sendTransaction agave tx).1 = (vm.transactDetached agave tx).result := by
  unfold sendTransaction
  rcases vm.transactDetached_cases agave tx with ⟨result, rejected, detached⟩ | ⟨run, detached⟩
  · rcases transactCore_of_rejected agave rejected detached with
      ⟨failure, core, same⟩ | ⟨staged, core, -, -, same, -⟩
    · simp only [core, same]
    · simp only [core, ExecutedTx.commit, same]
  · rw [transactCore_eq agave run detached, detached]
    split
    next staged core =>
      split at core
      · cases core
      · cases core
        rfl
    next failure left core =>
      split at core
      · cases core
        rfl
      · cases core

/-- `simulate_transaction` agrees with the `send_transaction` that follows it on the same VM. -/
structure SimulationAgrees (vm : Svm) (tx : VersionedTransaction) : Prop where
  same_result : match vm.simulateTransaction agave tx, (vm.sendTransaction agave tx).1 with
    | .ok simulated, .ok info => simulated.info = info
    | .error simulated, .error sent => simulated = sent
    | _, _ => False
  committed : ∀ simulated info, vm.simulateTransaction agave tx = .ok simulated →
    (vm.sendTransaction agave tx).1 = .ok info →
    ∀ pair ∈ simulated.postAccounts,
      (vm.sendTransaction agave tx).2.getAccount pair.1 = pair.2.visible
  recorded : ∀ info, (vm.sendTransaction agave tx).1 = .ok info → vm.history.isEnabled = true →
    (vm.sendTransaction agave tx).2.history.checkTransaction info.signature = true
  never_rolled_back : ∀ failure left info, vm.transactCore agave tx = .error (failure, left) →
    (vm.sendTransaction agave tx).1 ≠ .ok info

/-- Staging takes the accounts of a successful execution, and a key they list twice ends the same
both times. -/
def StagesWhenOk (vm : Svm) (tx : VersionedTransaction) : Prop :=
  let detached := vm.transactDetached agave tx
  detached.status = .ok () →
    vm.accounts.AcceptsStaging agave detached.postAccounts ∧
    ∀ key first second, (key, first) ∈ detached.postAccounts →
      (key, second) ∈ detached.postAccounts → first.visible = second.visible

theorem sendTransaction_eq {vm : Svm} {tx : VersionedTransaction} (run : Execution agave vm tx)
    (detached : vm.transactDetached agave tx = run.detached) {accounts : Accounts}
    (synced : vm.accounts.syncAccounts agave run.postAccounts = (.ok (), accounts)) :
    vm.sendTransaction agave tx =
      (run.detached.result,
        { vm with accounts := accounts, history := vm.history.record run.historyEntry }) := by
  simp only [sendTransaction, transactCore_eq agave run detached, synced, ExecutedTx.commit]

theorem simulateTransaction_eq_ok {vm : Svm} {tx : VersionedTransaction}
    {simulated : SimulatedTransactionInfo}
    (succeeded : vm.simulateTransaction agave tx = .ok simulated) :
    ∃ run : Execution agave vm tx, vm.transactDetached agave tx = run.detached ∧
      run.detached.status = .ok () ∧ simulated = ⟨run.detached.info, run.postAccounts⟩ := by
  simp only [simulateTransaction] at succeeded
  split at succeeded
  · cases succeeded
  next status =>
    cases succeeded
    obtain ⟨run, detached⟩ := exists_execution_of_ok agave status
    refine ⟨run, detached, ?_, ?_⟩
    · rw [← detached]
      exact status
    · simp only [detached, Execution.detached_postAccounts]

theorem same_result (vm : Svm) (tx : VersionedTransaction) :
    match vm.simulateTransaction agave tx, (vm.sendTransaction agave tx).1 with
    | .ok simulated, .ok info => simulated.info = info
    | .error simulated, .error sent => simulated = sent
    | _, _ => False := by
  rw [sendTransaction_result]
  simp only [simulateTransaction, DetachedTx.result]
  cases (vm.transactDetached agave tx).status with
  | ok done => rfl
  | error error => rfl

theorem checkTransaction_record {vm : Svm} {tx : VersionedTransaction}
    (run : Execution agave vm tx) (enabled : vm.history.isEnabled = true) :
    (vm.history.record run.historyEntry).checkTransaction run.sanitized.signature = true := by
  have active : vm.history.maxEntries ≠ 0 := by simpa [TransactionHistory.isEnabled] using enabled
  simp [Execution.historyEntry, enabled, TransactionHistory.record,
    TransactionHistory.addNewTransaction, TransactionHistory.checkTransaction, active,
    Foundation.LruCache.peek_put_self vm.history.cap_pos]

theorem StagesWhenOk.of_execution {vm : Svm} {tx : VersionedTransaction}
    (stages : vm.StagesWhenOk agave tx) {run : Execution agave vm tx}
    (detached : vm.transactDetached agave tx = run.detached)
    (status : run.detached.status = .ok ()) :
    (vm.accounts.syncAccounts agave run.postAccounts).1 = .ok () ∧
      ∀ key first second, (key, first) ∈ run.postAccounts → (key, second) ∈ run.postAccounts →
        first.visible = second.visible := by
  unfold StagesWhenOk at stages
  simp only [detached] at stages
  rw [Accounts.syncAccounts_ok_iff]
  exact stages status

theorem simulationAgrees_of_stages {vm : Svm} {tx : VersionedTransaction}
    (stages : vm.StagesWhenOk agave tx) : vm.SimulationAgrees agave tx := by
  -- Each of the three later fields concerns a successful send, which has an accepted simulation.
  have accepted : ∀ info, (vm.sendTransaction agave tx).1 = .ok info →
      ∃ (run : Execution agave vm tx) (accounts : Accounts),
        vm.transactDetached agave tx = run.detached ∧ run.detached.info = info ∧
        run.detached.status = .ok () ∧
        vm.simulateTransaction agave tx = .ok ⟨run.detached.info, run.postAccounts⟩ ∧
        vm.accounts.syncAccounts agave run.postAccounts = (.ok (), accounts) := by
    intro info sent
    have agree := vm.same_result agave tx
    rw [sent] at agree
    cases simulation : vm.simulateTransaction agave tx with
    | error failure => simp [simulation] at agree
    | ok simulated =>
      simp only [simulation] at agree
      obtain ⟨run, detached, status, rfl⟩ := simulateTransaction_eq_ok agave simulation
      obtain ⟨synced, -⟩ := stages.of_execution agave detached status
      exact ⟨run, _, detached, agree, status, rfl, Prod.ext synced rfl⟩
  refine ⟨vm.same_result agave tx, ?_, ?_, ?_⟩
  · intro simulated info simulation sent pair member
    obtain ⟨run, accounts, detached, -, status, simulation', synced⟩ := accepted info sent
    obtain rfl : simulated = ⟨run.detached.info, run.postAccounts⟩ :=
      Except.ok.inj (simulation.symm.trans simulation')
    obtain ⟨-, agree⟩ := stages.of_execution agave detached status
    rw [sendTransaction_eq agave run detached synced]
    obtain ⟨key, account⟩ := pair
    have last := Foundation.Writes.view_last AccountSharedData.visible
      (fun first second left right => agree key first second
        (Accounts.mem_partitionProgramdata.1 left) (Accounts.mem_partitionProgramdata.1 right))
      (Accounts.mem_partitionProgramdata.2 member)
    obtain ⟨copy, staged, same⟩ := Option.map_eq_some_iff.1 last
    change accounts.getAccount key = account.visible
    rw [Accounts.getAccount_syncAccounts agave synced key, Accounts.stagedCopy, staged]
    exact same
  · intro info sent enabled
    obtain ⟨run, accounts, detached, rfl, -, -, synced⟩ := accepted info sent
    rw [sendTransaction_eq agave run detached synced]
    exact checkTransaction_record agave run enabled
  · intro failure left info core sent
    obtain ⟨run, accounts, detached, -, -, -, synced⟩ := accepted info sent
    rw [transactCore_eq agave run detached, synced] at core
    cases core

/-- A simulation agrees with the send after it exactly when staging takes what it reports. -/
theorem simulation_agrees_with_send_iff (vm : Svm) (tx : VersionedTransaction) :
    vm.SimulationAgrees agave tx ↔ vm.StagesWhenOk agave tx := by
  constructor
  · intro agrees
    unfold StagesWhenOk
    intro outcome succeeded
    obtain ⟨run, detached⟩ := exists_execution_of_ok agave succeeded
    have status : run.detached.status = .ok () := by
      rw [← detached]
      exact succeeded
    have simulation : vm.simulateTransaction agave tx =
        .ok ⟨run.detached.info, run.postAccounts⟩ := by
      simp only [simulateTransaction, detached, status, Execution.detached_postAccounts]
    have reported : outcome.postAccounts = run.postAccounts := by
      simp only [outcome, detached, Execution.detached_postAccounts]
    rw [reported]
    have sent : (vm.sendTransaction agave tx).1 = .ok run.detached.info := by
      rw [sendTransaction_result, detached, DetachedTx.result, status]
    have synced : (vm.accounts.syncAccounts agave run.postAccounts).1 = .ok () := by
      cases staged : vm.accounts.syncAccounts agave run.postAccounts with
      | mk outcome accounts =>
        cases outcome with
        | ok done => rfl
        | error error =>
          have core := transactCore_eq agave run detached
          rw [staged] at core
          exact absurd sent (agrees.never_rolled_back _ _ _ core)
    refine ⟨(vm.accounts.syncAccounts_ok_iff agave _).1 synced, ?_⟩
    intro key first second left right
    have reads := agrees.committed _ _ simulation sent
    exact (reads _ left).symm.trans (reads _ right)
  · exact simulationAgrees_of_stages agave

end Svm

namespace Sample

/-- A source with one account, executable but owned by no loader. -/
def straySource : AccountSource := .ofGetAccount fun key =>
  if key = 0x33 then .ok (some ⟨7, [], 0x44, true, 0⟩) else .ok none

def strayVm : Svm := vm [(0x11, systemAccount 1_000_000)] straySource

/-- A transfer that also lists the stray account as writable. -/
def strayTx : VersionedTransaction := transferTx 1 0x11 [0x22, 0x33] [([0, 1, 2], 64)]

/-- The transfer succeeds, staging refuses the stray account, and the send still reports success
for the state it rolled back. -/
theorem send_reports_rolled_back_success : ¬ strayVm.SimulationAgrees agave strayTx := by
  intro agrees
  have rolledBack : (strayVm.transactCore agave strayTx).isOk = false := by decide
  have succeeded : (strayVm.sendTransaction agave strayTx).1.isOk = true := by decide
  cases core : strayVm.transactCore agave strayTx with
  | ok staged =>
    rw [core] at rolledBack
    cases rolledBack
  | error failure =>
    cases sent : (strayVm.sendTransaction agave strayTx).1 with
    | ok info => exact agrees.never_rolled_back failure.1 failure.2 info core sent
    | error failed =>
      rw [sent] at succeeded
      cases succeeded

end Sample

end Hpsvm
