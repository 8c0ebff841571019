import Hpsvm.Svm

/-!
# Executing one transaction

The read-only execution path: sanitizing, the checks before execution, loading the accounts and
charging the fee, the instruction loop of `message_processor.rs`, and the extraction of the
accounts afterwards. Source: `execution.rs`, `helpers.rs` and `utils/rent.rs`.
-/

namespace Hpsvm

/-- `u64::saturating_add`. -/
def saturatingAdd (first second : Nat) : Nat := min (first + second) (2 ^ 64 - 1)

/-! ### Rent states -/

inductive RentState
  | uninitialized
  | rentPaying (lamports dataSize : Nat)
  | rentExempt
deriving DecidableEq, Repr

def getAccountRentState (rent : Rent) (lamports size : Nat) : RentState :=
  if lamports = 0 then .uninitialized
  else if rent.isExempt lamports size then .rentExempt
  else .rentPaying lamports size

def transitionAllowed (pre post : RentState) : Bool :=
  match post with
  | .uninitialized => true
  | .rentExempt => true
  | .rentPaying postLamports postDataSize =>
    match pre with
    | .uninitialized => false
    | .rentExempt => false
    | .rentPaying preLamports preDataSize =>
      postDataSize == preDataSize && decide (postLamports ≤ preLamports)

def checkRentStateWithAccount (pre post : RentState) (address : Address) (accountIndex : Nat) :
    Except TransactionError Unit :=
  if address != Ids.incinerator && !transitionAllowed pre post then
    .error (.insufficientFundsForRent (accountIndex % 256))
  else .ok ()

/-! ### The fee payer -/

/-- `solana_nonce::state::State::size()`. -/
def nonceStateSize : Nat := 80

/-- The balance a fee payer has to keep. -/
def minBalance (rent : Rent) : SystemAccountKind → Nat
  | .system => 0
  | .nonce => rent.minimumBalance nonceStateSize

/-- `validate_fee_payer`, answering the account with the fee subtracted. -/
def validateFeePayer (agave : Agave) (payerAddress : Address) (payerAccount : AccountSharedData)
    (payerIndex : Nat) (rent : Rent) (fee : Nat) : Except TransactionError AccountSharedData :=
  if payerAccount.lamports = 0 then .error .accountNotFound
  else match agave.systemAccountKind payerAccount with
    | none => .error .invalidAccountForFee
    | some kind =>
      -- Both checked subtractions succeed exactly when the sum is covered.
      if payerAccount.lamports < minBalance rent kind + fee then .error .insufficientFundsForFee
      else
        let charged := { payerAccount with lamports := payerAccount.lamports - fee }
        let size := payerAccount.data.length
        match checkRentStateWithAccount
            (getAccountRentState rent payerAccount.lamports size)
            (getAccountRentState rent charged.lamports size) payerAddress payerIndex with
        | .error error => .error error
        | .ok () => .ok charged

/-- `construct_instructions_account`. -/
def constructInstructionsAccount (agave : Agave) (message : SanitizedMessage) :
    AccountSharedData :=
  { AccountSharedData.default with
    data := agave.instructionsData message, owner := Ids.sysvar }

/-- `execution_result_with_account_source_error`. -/
def executionResultWithAccountSourceError (pubkey : Address) (source : AccountSourceError)
    (txError : TransactionError) (fee : Nat) : ExecutionResult where
  txResult := .error txError
  fee := fee
  accountSourceFailures := [⟨pubkey, source.toText⟩]
  fatalError := some (.accountSource pubkey source)

/-- An execution that ends before the instructions run. -/
def ExecutionResult.rejected (error : TransactionError) (fee : Nat) : ExecutionResult where
  txResult := .error error
  fee := fee

/-! ### Address lookup tables -/

/-- `into_address_loader_error`, and agave's conversion into a `TransactionError`. -/
def AddressLookupError.toTransactionError : AddressLookupError → TransactionError
  | .lookupTableAccountNotFound => .addressLookupTableNotFound
  | .invalidAccountOwner => .invalidAddressLookupTableOwner
  | .invalidAccountData => .invalidAddressLookupTableData
  | .invalidLookupIndex => .invalidAddressLookupTableIndex

inductive LookupTableLoadError
  | addressLookup (error : AddressLookupError)
  | accountSource (pubkey : Address) (source : AccountSourceError)
deriving DecidableEq, Repr

namespace Accounts

variable (agave : Agave)

def tryLoadLookupTableAddresses (db : Accounts) (lookup : MessageAddressTableLookup) :
    Except LookupTableLoadError LoadedAddresses :=
  match db.tryGetAccount lookup.accountKey with
  | .error source => .error (.accountSource lookup.accountKey source)
  | .ok none => .error (.addressLookup .lookupTableAccountNotFound)
  | .ok (some table) =>
    if table.owner = Ids.addressLookupTable then
      match db.sysvarCache .slotHashes, db.clockSlot? agave with
      | some slotHashes, some slot =>
        match agave.lookupAddresses table.data slot slotHashes lookup.writableIndexes with
        | .error error => .error (.addressLookup error)
        | .ok writable =>
          match agave.lookupAddresses table.data slot slotHashes lookup.readonlyIndexes with
          | .error error => .error (.addressLookup error)
          | .ok readonly => .ok ⟨writable, readonly⟩
      | _, _ => .error (.addressLookup .invalidAccountData)
    else .error (.addressLookup .invalidAccountOwner)

/-- `load_addresses`: the first table that fails decides. -/
def loadAddresses (db : Accounts) :
    List MessageAddressTableLookup → Except LookupTableLoadError LoadedAddresses
  | [] => .ok ⟨[], []⟩
  | lookup :: rest =>
    match db.tryLoadLookupTableAddresses agave lookup with
    | .error error => .error error
    | .ok first =>
      match loadAddresses db rest with
      | .error error => .error error
      | .ok others => .ok ⟨first.writable ++ others.writable, first.readonly ++ others.readonly⟩

end Accounts

namespace Svm

variable (agave : Agave)

/-! ### Sanitizing -/

/-- The addresses `try_create` asks the loader for; a legacy message has no lookups. -/
def lookupsOf (tx : VersionedTransaction) : List MessageAddressTableLookup :=
  match tx.version with
  | .legacy => []
  | .v0 => tx.addressTableLookups
  | .v1 => []

def sanitizeTransactionNoVerify (vm : Svm) (tx : VersionedTransaction) :
    Except ExecutionResult SanitizedTransaction :=
  match agave.sanitizeEnvelope tx with
  | .error error => .error (.rejected error 0)
  | .ok () =>
    match vm.accounts.loadAddresses agave (lookupsOf tx) with
    -- The loader records a source failure and reports the table as missing.
    | .error (.accountSource pubkey source) =>
      .error (executionResultWithAccountSourceError pubkey source
        AddressLookupError.lookupTableAccountNotFound.toTransactionError 0)
    | .error (.addressLookup error) => .error (.rejected error.toTransactionError 0)
    | .ok loaded =>
      match agave.buildSanitized tx loaded vm.reservedAccountKeys with
      | .error error => .error (.rejected error 0)
      | .ok sanitized => .ok sanitized

/-- `get_transaction_account_lock_limit`. -/
def transactionAccountLockLimit (vm : Svm) (version : TransactionVersion) : Nat :=
  match version with
  | .v1 => if vm.version.featureSet.isActive agave.increaseTxV1AccountLockLimit then 96 else 64
  | .legacy => 64
  | .v0 => 64

/-- `SanitizedTransaction::validate_account_locks`. -/
def validateAccountLocks (message : SanitizedMessage) (limit : Nat) :
    Except TransactionError Unit :=
  if ¬ message.accountKeys.Nodup then .error .accountLoadedTwice
  else if limit < message.accountKeys.length then .error .tooManyAccountLocks
  else .ok ()

def sanitizeTransaction (vm : Svm) (tx : VersionedTransaction) :
    Except ExecutionResult SanitizedTransaction :=
  match vm.sanitizeTransactionNoVerify agave tx with
  | .error result => .error result
  | .ok sanitized =>
    match agave.verify sanitized with
    | .error error => .error (.rejected error 0)
    | .ok () =>
      match validateAccountLocks sanitized.message
          (vm.transactionAccountLockLimit agave tx.version) with
      | .error error => .error (.rejected error 0)
      | .ok () => .ok sanitized

/-! ### Checks before execution -/

def checkMessageForNonce (vm : Svm) (message : SanitizedMessage) : Bool :=
  match agave.getDurableNonce message with
  | none => false
  | some nonceAddress =>
    match vm.accounts.getAccount nonceAddress with
    | none => false
    | some nonceAccount =>
      match agave.verifyNonceAccount nonceAccount message.recentBlockhash with
      | none => false
      | some authority => (agave.getIxSigners message 0).contains authority

def checkTransactionForNonce (vm : Svm) (message : SanitizedMessage) (nextDurableNonce : Hash) :
    Bool :=
  message.recentBlockhash != nextDurableNonce && vm.checkMessageForNonce agave message

def checkTransactionAge (vm : Svm) (message : SanitizedMessage) : Except TransactionError Unit :=
  if message.recentBlockhash == vm.blockEnv.latestBlockhash ||
      vm.checkTransactionForNonce agave message
        (agave.durableNonce vm.blockEnv.latestBlockhash) then .ok ()
  else .error .blockhashNotFound

/-- The part of `check_and_process_transaction` before `process_transaction`. -/
def checkTransaction (vm : Svm) (tx : SanitizedTransaction) :
    Except ExecutionResult ComputeBudgetLimits :=
  if !vm.materialized.sysvars then .error (.rejected .sanitizeFailure 0)
  else match (if vm.version.blockhashCheck then vm.checkTransactionAge agave tx.message
      else .ok ()) with
    | .error error => .error (.rejected error 0)
    | .ok () =>
      match agave.processComputeBudgetInstructions tx.message vm.version.featureSet with
      | .error error => .error (.rejected error 0)
      | .ok limits =>
        if vm.version.sigverify && vm.history.checkTransaction tx.signature then
          .error (.rejected .alreadyProcessed 0)
        else .ok limits

/-! ### Loading the accounts -/

/-- The loading loop of `process_transaction` from a key index on. The first key that is not only
invoked pays the fee; `payer` is the payer found so far. -/
def loadAccounts (vm : Svm) (message : SanitizedMessage) (rent : Rent) (fee : Nat) :
    Nat → List Address → Option Address →
      Except ExecutionResult (List (Address × AccountSharedData) × Option Address)
  | _, [], payer => .ok ([], payer)
  | index, key :: keys, payer =>
    if key = Ids.instructions then
      match loadAccounts vm message rent fee (index + 1) keys payer with
      | .error result => .error result
      | .ok (others, payer) =>
        .ok ((key, constructInstructionsAccount agave message) :: others, payer)
    else match vm.accounts.tryGetAccount key with
      | .error source =>
        .error (executionResultWithAccountSourceError key source .accountNotFound fee)
      | .ok found =>
        let account := found.getD .default
        if payer.isNone && (!message.isInvoked index || message.isInstructionAccount index) then
          match validateFeePayer agave key account index rent fee with
          | .error error => .error (.rejected error fee)
          | .ok charged =>
            match loadAccounts vm message rent fee (index + 1) keys (some key) with
            | .error result => .error result
            | .ok (others, payer) => .ok ((key, charged) :: others, payer)
        else match loadAccounts vm message rent fee (index + 1) keys payer with
          | .error result => .error result
          | .ok (others, payer) => .ok ((key, account) :: others, payer)

/-- `resolve_program_indices`: every program must be executable, and its owner an executable
account of the native loader. -/
def resolveProgramIndices (vm : Svm) (accounts : List (Address × AccountSharedData)) (fee : Nat) :
    List CompiledInstruction → List AccountSourceFailure →
      Except ExecutionResult (List Nat × List AccountSourceFailure)
  | [], failures => .ok ([], failures)
  | instruction :: rest, failures =>
    let resolved (failures : List AccountSourceFailure) :=
      match resolveProgramIndices vm accounts fee rest failures with
      | .error result => .error result
      | .ok (indices, failures) => .ok (instruction.programIdIndex :: indices, failures)
    match accounts[instruction.programIdIndex]? with
    | none => .error (.rejected .invalidProgramForExecution fee)
    | some (programId, programAccount) =>
      if programId = Ids.nativeLoader then resolved failures
      else if !programAccount.executable then
        .error (.rejected .invalidProgramForExecution fee)
      else if programAccount.owner = Ids.nativeLoader then resolved failures
      else
        match vm.accounts.tryGetAccount programAccount.owner with
        | .ok none => .error (.rejected .programAccountNotFound fee)
        | .ok (some owner) =>
          if owner.owner ≠ Ids.nativeLoader ∨ !owner.executable then
            .error { ExecutionResult.rejected .invalidProgramForExecution fee with
              accountSourceFailures := failures }
          else resolved failures
        | .error source =>
          -- The failure is recorded and the owner read as a default account, which the native
          -- loader does not own.
          .error { ExecutionResult.rejected .invalidProgramForExecution fee with
            accountSourceFailures := failures ++ [⟨programAccount.owner, source.toText⟩] }

/-! ### The instruction loop -/

/-- `is_precompile` of the invoke-context callback, with the precompile it finds. -/
def findPrecompile (vm : Svm) (programId : Address) : Option Precompile :=
  match vm.precompiles.find? fun precompile => precompile.programId == programId with
  | none => none
  | some precompile =>
    match precompile.feature with
    | none => some precompile
    | some feature => if vm.version.featureSet.isActive feature then some precompile else none

variable {keys : List Address}

/-- One round of the loop in `process_message`. -/
def processTopLevelInstruction (vm : Svm) (config : EnvironmentConfig) (message : SanitizedMessage)
    (index : Nat) (instruction : CompiledInstruction) (context : InvokeContext keys) :
    InstructionOutcome keys :=
  match vm.findPrecompile (message.accountKeys.getD instruction.programIdIndex 0) with
  | some precompile =>
    let verified := precompile.verify instruction.data
      (message.instructions.map fun instruction => instruction.data)
    { agave.processPrecompile message index verified context with computeUnitsConsumed := 0 }
  | none => agave.processInstruction config vm.accounts.programsCache message index context

/-- The outcome of `process_message`: its result, the context and the consumed units. -/
structure MessageOutcome (keys : List Address) where
  result : Except TransactionError Unit
  context : InvokeContext keys
  computeUnitsConsumed : Nat

/-- The loop of `process_message`. It stops at the first failing instruction and leaves the
context as that instruction left it. -/
def processInstructions (vm : Svm) (config : EnvironmentConfig) (message : SanitizedMessage) :
    Nat → List CompiledInstruction → InvokeContext keys → Nat → MessageOutcome keys
  | _, [], context, consumed => ⟨.ok (), context, consumed⟩
  | index, instruction :: rest, context, consumed =>
    let outcome := vm.processTopLevelInstruction agave config message index instruction context
    let consumed := saturatingAdd consumed outcome.computeUnitsConsumed
    match outcome.result with
    | .error error => ⟨.error (.instructionError (index % 256) error), outcome.context, consumed⟩
    | .ok () => processInstructions vm config message (index + 1) rest outcome.context consumed

def processMessage (vm : Svm) (config : EnvironmentConfig) (message : SanitizedMessage)
    (context : InvokeContext keys) : MessageOutcome keys :=
  match agave.prepareTopLevelInstructions config message context with
  | .error (index, error) => ⟨.error (.instructionError index error), context, 0⟩
  | .ok context => vm.processInstructions agave config message 0 message.instructions context 0

/-! ### Processing a transaction -/

/-- `CheckAndProcessTransactionSuccess`. -/
structure ProcessedTransaction where
  keys : List Address
  outcome : MessageOutcome keys
  fee : Nat
  payerKey : Option Address
  accountSourceFailures : List AccountSourceFailure

def computeBudgetFor (vm : Svm) (limits : ComputeBudgetLimits) : ComputeBudget :=
  vm.version.computeBudget.getD
    { agave.defaultComputeBudget (vm.version.featureSet.isActive agave.raiseCpiNestingLimitTo8) with
      computeUnitLimit := limits.computeUnitLimit, heapSize := limits.updatedHeapBytes }

def environmentConfig (vm : Svm) (message : SanitizedMessage) (limits : ComputeBudgetLimits)
    (rent : Rent) : EnvironmentConfig where
  blockhash := message.recentBlockhash
  lamportsPerSignature := vm.version.lamportsPerSignature
  features := vm.version.featureSet
  environments := vm.accounts.environments
  sysvarCache := vm.accounts.sysvarCache
  computeBudget := vm.computeBudgetFor agave limits
  rent := rent
  logBytesLimit := vm.version.logBytesLimit

/-- The context an execution starts from. -/
def createTransactionContext (accounts : List (Address × AccountSharedData))
    (computeBudget : ComputeBudget) : InvokeContext (accounts.map Prod.fst) where
  accounts := fun index => (accounts.get (index.cast (List.length_map _))).2
  returnData := ⟨0, []⟩
  trace := []
  logs := []
  modifiedEntries := ∅
  computeMeter := computeBudget.computeUnitLimit

def transactionFee (vm : Svm) (message : SanitizedMessage) (limits : ComputeBudgetLimits) : Nat :=
  agave.calculateFee message vm.version.lamportsPerSignature limits.prioritizationFee

def processTransaction (vm : Svm) (message : SanitizedMessage) (limits : ComputeBudgetLimits) :
    Except ExecutionResult ProcessedTransaction :=
  match vm.accounts.rent? agave with
  | none => .error (.rejected .sanitizeFailure 0)
  | some rent =>
    let fee := vm.transactionFee agave message limits
    match vm.loadAccounts agave message rent fee 0 message.accountKeys none with
    | .error result => .error result
    | .ok (_, none) => .error (.rejected .accountNotFound fee)
    | .ok (accounts, some payer) =>
      match vm.resolveProgramIndices accounts fee message.instructions [] with
      | .error result => .error result
      | .ok (_, failures) =>
        let config := vm.environmentConfig agave message limits rent
        let context := createTransactionContext accounts config.computeBudget
        .ok ⟨_, vm.processMessage agave config message context, fee, some payer, failures⟩

/-- The account extraction of `execute_tx_helper`: the writable accounts, as the context holds
them, whether or not the transaction succeeded. -/
def writableAccounts (message : SanitizedMessage)
    (accounts : List (Address × AccountSharedData)) : List (Address × AccountSharedData) :=
  (accounts.zipIdx.filter fun (_, index) => message.isWritable index).map Prod.fst

/-- `execution_result_if_context`. -/
def executionResultIfContext (tx : SanitizedTransaction) (processed : ProcessedTransaction) :
    ExecutionResult :=
  let context := processed.outcome.context
  let traced := extractInstructionTraceData processed.keys context.trace
  { postAccounts := writableAccounts tx.message context.pairs
    txResult := processed.outcome.result
    signature := tx.signature
    computeUnitsConsumed := processed.outcome.computeUnitsConsumed
    innerInstructions := traced.1
    returnData := context.returnData
    executionTrace := traced.2
    included := true
    fee := processed.fee
    feePayer := processed.payerKey
    accountSourceFailures := processed.accountSourceFailures }

/-- `execute_sanitized_transaction`, with the log messages the collector ends with. -/
def executeSanitizedTransaction (vm : Svm) (tx : SanitizedTransaction) :
    ExecutionResult × List String :=
  match vm.checkTransaction agave tx with
  | .error result => (result, [])
  | .ok limits =>
    match vm.processTransaction agave tx.message limits with
    | .error result => (result, [])
    | .ok processed => (executionResultIfContext tx processed, processed.outcome.context.logs)

/-- The sanitizing step of the entry point, under the current `sigverify` setting. -/
def sanitize (vm : Svm) (tx : VersionedTransaction) :
    Except ExecutionResult SanitizedTransaction :=
  if vm.version.sigverify then vm.sanitizeTransaction agave tx
  else vm.sanitizeTransactionNoVerify agave tx

def executeReadonly (vm : Svm) (tx : VersionedTransaction) : ExecutionResult × List String :=
  match vm.sanitize agave tx with
  | .error result => (result, [])
  | .ok sanitized => vm.executeSanitizedTransaction agave sanitized

end Svm

end Hpsvm
