import Hpsvm.Transact

/-!
# Included and rejected executions

Every execution either is rejected before its instructions run, with nothing to stage, or reaches
the instruction loop and is included. The properties of committed transactions start from the
stages named here.
-/

namespace Hpsvm

/-- An execution that ended before the instruction loop. -/
structure ExecutionResult.Rejected (result : ExecutionResult) : Prop where
  failed : ∃ error, result.txResult = .error error
  nothing_staged : result.postAccounts = []
  not_included : result.included = false

namespace ExecutionResult

theorem rejected_rejected (error : TransactionError) (fee : Nat) :
    (ExecutionResult.rejected error fee).Rejected :=
  ⟨⟨error, rfl⟩, rfl, rfl⟩

theorem rejected_accountSourceError (pubkey : Address) (source : AccountSourceError)
    (error : TransactionError) (fee : Nat) :
    (executionResultWithAccountSourceError pubkey source error fee).Rejected :=
  ⟨⟨error, rfl⟩, rfl, rfl⟩

end ExecutionResult

namespace Svm

variable (agave : Agave)

open ExecutionResult (rejected_rejected rejected_accountSourceError)

theorem rejected_of_sanitizeTransactionNoVerify {vm : Svm} {tx : VersionedTransaction}
    {result : ExecutionResult}
    (failed : vm.sanitizeTransactionNoVerify agave tx = .error result) : result.Rejected := by
  unfold sanitizeTransactionNoVerify at failed
  split at failed
  · cases failed
    exact rejected_rejected _ _
  · split at failed
    · cases failed
      exact rejected_accountSourceError _ _ _ _
    · cases failed
      exact rejected_rejected _ _
    · split at failed
      · cases failed
        exact rejected_rejected _ _
      · cases failed

theorem rejected_of_sanitize {vm : Svm} {tx : VersionedTransaction} {result : ExecutionResult}
    (failed : vm.sanitize agave tx = .error result) : result.Rejected := by
  unfold sanitize at failed
  split at failed
  · unfold sanitizeTransaction at failed
    split at failed
    next unverified =>
      cases failed
      exact rejected_of_sanitizeTransactionNoVerify agave unverified
    · split at failed
      · cases failed
        exact rejected_rejected _ _
      · split at failed
        · cases failed
          exact rejected_rejected _ _
        · cases failed
  · exact rejected_of_sanitizeTransactionNoVerify agave failed

/-- A sanitized transaction was built from its lookup tables under the VM's reserved keys. -/
theorem built_of_sanitize {vm : Svm} {tx : VersionedTransaction} {sanitized : SanitizedTransaction}
    (done : vm.sanitize agave tx = .ok sanitized) :
    ∃ loaded, vm.accounts.loadAddresses agave (lookupsOf tx) = .ok loaded ∧
      agave.buildSanitized tx loaded vm.reservedAccountKeys = .ok sanitized := by
  have unverified : vm.sanitizeTransactionNoVerify agave tx = .ok sanitized := by
    unfold sanitize sanitizeTransaction at done
    split at done
    · split at done
      · cases done
      next other equal =>
        rw [equal]
        split at done
        · cases done
        · split at done
          · cases done
          · exact done
    · exact done
  unfold sanitizeTransactionNoVerify at unverified
  split at unverified
  · cases unverified
  · split at unverified
    · cases unverified
    · cases unverified
    next loaded loads =>
      refine ⟨loaded, loads, ?_⟩
      split at unverified
      · cases unverified
      next other built =>
        cases unverified
        exact built

theorem rejected_of_checkTransaction {vm : Svm} {tx : SanitizedTransaction}
    {result : ExecutionResult} (failed : vm.checkTransaction agave tx = .error result) :
    result.Rejected := by
  unfold checkTransaction at failed
  split at failed
  · cases failed
    exact rejected_rejected _ _
  · split at failed
    · cases failed
      exact rejected_rejected _ _
    · split at failed
      · cases failed
        exact rejected_rejected _ _
      · split at failed
        · cases failed
          exact rejected_rejected _ _
        · cases failed

theorem rejected_of_loadAccounts {vm : Svm} {message : SanitizedMessage} {rent : Rent} {fee : Nat}
    {index : Nat} {keys : List Address} {payer : Option Address} {result : ExecutionResult}
    (failed : vm.loadAccounts agave message rent fee index keys payer = .error result) :
    result.Rejected := by
  induction keys generalizing index payer with
  | nil => cases failed
  | cons key keys ih =>
    unfold loadAccounts at failed
    split at failed
    · split at failed
      next inner =>
        cases failed
        exact ih inner
      · cases failed
    · split at failed
      · cases failed
        exact rejected_accountSourceError _ _ _ _
      · simp only at failed
        split at failed
        · split at failed
          · cases failed
            exact rejected_rejected _ _
          · split at failed
            next inner =>
              cases failed
              exact ih inner
            · cases failed
        · split at failed
          next inner =>
            cases failed
            exact ih inner
          · cases failed

/-- What `resolve_program_indices` makes of the later programs once the first is resolved. -/
def prependIndex (index : Nat) : Except ExecutionResult (List Nat × List AccountSourceFailure) →
    Except ExecutionResult (List Nat × List AccountSourceFailure)
  | .error result => .error result
  | .ok (indices, failures) => .ok (index :: indices, failures)

theorem eq_error_of_prependIndex {index : Nat} {result : ExecutionResult}
    {outcome : Except ExecutionResult (List Nat × List AccountSourceFailure)}
    (failed : prependIndex index outcome = .error result) : outcome = .error result := by
  cases outcome with
  | error error => exact failed
  | ok resolved => cases failed

theorem rejected_of_resolveProgramIndices {vm : Svm}
    {accounts : List (Address × AccountSharedData)} {fee : Nat}
    {instructions : List CompiledInstruction} {failures : List AccountSourceFailure}
    {result : ExecutionResult}
    (failed : vm.resolveProgramIndices accounts fee instructions failures = .error result) :
    result.Rejected := by
  induction instructions generalizing failures with
  | nil => cases failed
  | cons instruction rest ih =>
    unfold resolveProgramIndices at failed
    have deeper : ∀ found : List AccountSourceFailure,
        prependIndex instruction.programIdIndex
          (vm.resolveProgramIndices accounts fee rest found) = .error result → result.Rejected :=
      fun found inner => ih (eq_error_of_prependIndex inner)
    simp only at failed
    split at failed
    · cases failed
      exact rejected_rejected _ _
    · split at failed
      · exact deeper _ failed
      · split at failed
        · cases failed
          exact rejected_rejected _ _
        · split at failed
          · exact deeper _ failed
          · split at failed
            · cases failed
              exact rejected_rejected _ _
            · split at failed
              · cases failed
                exact ⟨⟨_, rfl⟩, rfl, rfl⟩
              · exact deeper _ failed
            · cases failed
              exact ⟨⟨_, rfl⟩, rfl, rfl⟩

/-- The stages of an execution that reached the instruction loop. -/
structure Execution (vm : Svm) (tx : VersionedTransaction) where
  sanitized : SanitizedTransaction
  limits : ComputeBudgetLimits
  rent : Rent
  loaded : List (Address × AccountSharedData)
  payer : Address
  indices : List Nat
  failures : List AccountSourceFailure
  sanitize_eq : vm.sanitize agave tx = .ok sanitized
  check_eq : vm.checkTransaction agave sanitized = .ok limits
  rent_eq : vm.accounts.rent? agave = some rent
  load_eq : vm.loadAccounts agave sanitized.message rent
    (vm.transactionFee agave sanitized.message limits) 0 sanitized.message.accountKeys none =
      .ok (loaded, some payer)
  resolve_eq : vm.resolveProgramIndices loaded
    (vm.transactionFee agave sanitized.message limits) sanitized.message.instructions [] =
      .ok (indices, failures)

namespace Execution

variable {agave} {vm : Svm} {tx : VersionedTransaction} (run : Execution agave vm tx)

def message : SanitizedMessage := run.sanitized.message

def fee : Nat := vm.transactionFee agave run.message run.limits

def config : EnvironmentConfig := vm.environmentConfig agave run.message run.limits run.rent

/-- The context the instruction loop starts from. -/
def initial : InvokeContext (run.loaded.map Prod.fst) :=
  createTransactionContext run.loaded run.config.computeBudget

def outcome : MessageOutcome (run.loaded.map Prod.fst) :=
  vm.processMessage agave run.config run.message run.initial

def processed : ProcessedTransaction := ⟨_, run.outcome, run.fee, some run.payer, run.failures⟩

/-- The accounts the execution hands to staging. -/
def postAccounts : List (Address × AccountSharedData) :=
  writableAccounts run.message run.outcome.context.pairs

def detached : DetachedTx :=
  vm.executionIntoDetached agave (executionResultIfContext run.sanitized run.processed)
    run.outcome.context.logs

@[simp] theorem detached_status : run.detached.status = run.outcome.result := rfl

@[simp] theorem detached_included : run.detached.included = true := rfl

@[simp] theorem detached_postAccounts : run.detached.postAccounts = run.postAccounts := rfl

@[simp] theorem detached_feePayer : run.detached.feePayer = some run.payer := rfl

@[simp] theorem detached_fatalError : run.detached.fatalError = none := rfl

@[simp] theorem detached_fee : run.detached.info.fee = run.fee := rfl

@[simp] theorem detached_signature : run.detached.info.signature = run.sanitized.signature := rfl

end Execution

theorem processTransaction_eq_ok {vm : Svm} {message : SanitizedMessage}
    {limits : ComputeBudgetLimits} {processed : ProcessedTransaction}
    (done : vm.processTransaction agave message limits = .ok processed) :
    ∃ rent loaded payer indices failures, vm.accounts.rent? agave = some rent ∧
      vm.loadAccounts agave message rent (vm.transactionFee agave message limits) 0
        message.accountKeys none = .ok (loaded, some payer) ∧
      vm.resolveProgramIndices loaded (vm.transactionFee agave message limits)
        message.instructions [] = .ok (indices, failures) ∧
      processed = ⟨_, vm.processMessage agave (vm.environmentConfig agave message limits rent)
        message (createTransactionContext loaded
          (vm.environmentConfig agave message limits rent).computeBudget),
        vm.transactionFee agave message limits, some payer, failures⟩ := by
  unfold processTransaction at done
  split at done
  · cases done
  next rent rent_eq =>
    simp only at done
    split at done
    · cases done
    · cases done
    next loaded payer load_eq =>
      split at done
      · cases done
      next indices failures resolve_eq =>
        cases done
        exact ⟨rent, loaded, payer, indices, failures, rent_eq, load_eq, resolve_eq, rfl⟩

theorem rejected_of_processTransaction {vm : Svm} {message : SanitizedMessage}
    {limits : ComputeBudgetLimits} {result : ExecutionResult}
    (failed : vm.processTransaction agave message limits = .error result) : result.Rejected := by
  unfold processTransaction at failed
  split at failed
  · cases failed
    exact rejected_rejected _ _
  · simp only at failed
    split at failed
    next load_eq =>
      cases failed
      exact rejected_of_loadAccounts agave load_eq
    · cases failed
      exact rejected_rejected _ _
    · split at failed
      next resolve_eq =>
        cases failed
        exact rejected_of_resolveProgramIndices resolve_eq
      · cases failed

/-- A detached execution staged nothing and failed, or ran through all its stages. -/
theorem transactDetached_cases (vm : Svm) (tx : VersionedTransaction) :
    (∃ result : ExecutionResult, result.Rejected ∧
      vm.transactDetached agave tx = vm.executionIntoDetached agave result []) ∨
    ∃ run : Execution agave vm tx, vm.transactDetached agave tx = run.detached := by
  unfold transactDetached executeReadonly
  cases sanitized : vm.sanitize agave tx with
  | error result => exact .inl ⟨result, rejected_of_sanitize agave sanitized, rfl⟩
  | ok sanitizedTx =>
    simp only [executeSanitizedTransaction]
    cases checked : vm.checkTransaction agave sanitizedTx with
    | error result => exact .inl ⟨result, rejected_of_checkTransaction agave checked, rfl⟩
    | ok limits =>
      cases processed : vm.processTransaction agave sanitizedTx.message limits with
      | error result =>
        refine .inl ⟨result, rejected_of_processTransaction agave processed, ?_⟩
        simp only [processed]
      | ok done =>
        obtain ⟨rent, loaded, payer, indices, failures, rent_eq, load_eq, resolve_eq, rfl⟩ :=
          processTransaction_eq_ok agave processed
        refine .inr ⟨⟨sanitizedTx, limits, rent, loaded, payer, indices, failures, sanitized,
          checked, rent_eq, load_eq, resolve_eq⟩, ?_⟩
        simp only [processed]
        rfl

theorem postAccounts_of_rejected {vm : Svm} {tx : VersionedTransaction} {result : ExecutionResult}
    (rejected : result.Rejected)
    (detached : vm.transactDetached agave tx = vm.executionIntoDetached agave result []) :
    (vm.transactDetached agave tx).postAccounts = [] := by
  rw [detached]
  exact rejected.nothing_staged

/-- There is one way through the stages. -/
theorem Execution.transactDetached_eq {agave : Agave} {vm : Svm} {tx : VersionedTransaction}
    (run : Execution agave vm tx) : vm.transactDetached agave tx = run.detached := by
  simp only [transactDetached, executeReadonly, run.sanitize_eq, executeSanitizedTransaction,
    run.check_eq, processTransaction, run.rent_eq, run.load_eq, run.resolve_eq]
  rfl

/-- An included execution ran through all its stages. -/
theorem exists_execution_of_included {vm : Svm} {tx : VersionedTransaction}
    (included : (vm.transactDetached agave tx).included = true) :
    ∃ run : Execution agave vm tx, vm.transactDetached agave tx = run.detached := by
  rcases vm.transactDetached_cases agave tx with ⟨result, rejected, detached⟩ | run
  · rw [detached] at included
    exact absurd included (by simp [executionIntoDetached, rejected.not_included])
  · exact run

/-- Only a rejected execution has a fatal error. -/
theorem excluded_of_fatalError {vm : Svm} {tx : VersionedTransaction} {error : ExecutionError}
    (fatal : (vm.transactDetached agave tx).fatalError = some error) :
    (vm.transactDetached agave tx).included = false := by
  rcases vm.transactDetached_cases agave tx with ⟨result, rejected, detached⟩ | ⟨run, detached⟩
  · rw [detached]
    exact rejected.not_included
  · rw [detached] at fatal
    cases fatal

/-- A successful execution ran through all its stages. -/
theorem exists_execution_of_ok {vm : Svm} {tx : VersionedTransaction}
    (succeeded : (vm.transactDetached agave tx).status = .ok ()) :
    ∃ run : Execution agave vm tx, vm.transactDetached agave tx = run.detached := by
  rcases vm.transactDetached_cases agave tx with ⟨result, rejected, detached⟩ | run
  · obtain ⟨error, failed⟩ := rejected.failed
    rw [detached] at succeeded
    exact absurd succeeded (by simp [executionIntoDetached, failed])
  · exact run

end Svm

end Hpsvm
