import Hpsvm.Properties.Charging

/-!
# What an execution reads

A detached execution depends on the VM through the sysvar and program caches, the history entry of
its own signature, and the accounts it reads. Most of those it locks; the accounts of a nonce, of
the owners of its programs and of token mints it reads without a lock.
-/

namespace Hpsvm

namespace Accounts

variable (agave : Agave)

theorem loadAddresses_congr {db db' : Accounts} {lookups : List MessageAddressTableLookup}
    (tables : ∀ lookup ∈ lookups,
      db'.tryGetAccount lookup.accountKey = db.tryGetAccount lookup.accountKey)
    (sysvars : db'.sysvarCache = db.sysvarCache) :
    db'.loadAddresses agave lookups = db.loadAddresses agave lookups := by
  have slot : db'.clockSlot? agave = db.clockSlot? agave := by simp only [clockSlot?, sysvars]
  induction lookups with
  | nil => rfl
  | cons lookup rest ih =>
    have table := tables lookup List.mem_cons_self
    have others := ih fun other member => tables other (List.mem_cons_of_mem _ member)
    simp only [loadAddresses, tryLoadLookupTableAddresses, table, sysvars, slot, others]

end Accounts

/-- The mints of the token accounts among some accounts. -/
def tokenMints (agave : Agave) (accounts : List (Address × AccountSharedData)) : List Address :=
  accounts.filterMap fun (_, account) =>
    if account.data.length = tokenAccountLen then
      (agave.unpackTokenAccount account.data).map fun token => token.mint
    else none

theorem tokenBalances_congr (agave : Agave) {db db' : Accounts}
    {accounts : List (Address × AccountSharedData)}
    (mints : ∀ mint ∈ tokenMints agave accounts, db'.getAccount mint = db.getAccount mint) :
    tokenBalances agave db' accounts = tokenBalances agave db accounts := by
  unfold tokenBalances
  refine List.filterMap_congr ?_
  rintro ⟨⟨address, account⟩, index⟩ member
  have listed : (address, account) ∈ accounts := List.fst_mem_of_mem_zipIdx member
  simp only
  split
  next token =>
    cases unpacked : agave.unpackTokenAccount account.data with
    | none => rfl
    | some value =>
      have mint : value.mint ∈ tokenMints agave accounts := by
        refine List.mem_filterMap.2 ⟨(address, account), listed, ?_⟩
        simp [token, unpacked]
      simp only [Option.map_some, mints value.mint mint]
  · rfl

namespace Svm

variable (agave : Agave)

/-- The VMs differ in their accounts, history and airdrop key only, and execute under the same
caches. -/
structure SameRuntime (vm vm' : Svm) : Prop where
  rest : vm' = { vm with
    accounts := vm'.accounts, history := vm'.history, airdropPubkey := vm'.airdropPubkey }
  programs : vm'.accounts.programsCache = vm.accounts.programsCache
  sysvars : vm'.accounts.sysvarCache = vm.accounts.sysvarCache
  environments : vm'.accounts.environments = vm.accounts.environments

/-- The owners of the programs that a message calls. -/
def programOwners (vm : Svm) (message : SanitizedMessage) : List Address :=
  message.instructions.filterMap fun instruction =>
    (message.accountKeys[instruction.programIdIndex]?.bind vm.getAccount).map
      fun account => account.owner

/-- The mints that the diagnostics of an outcome look up. -/
def diagnosedMints (vm : Svm) (postAccounts : List (Address × AccountSharedData)) :
    List Address :=
  if vm.version.computeDiagnostics then
    tokenMints agave (vm.preAccounts postAccounts) ++ tokenMints agave postAccounts
  else []

/-- The accounts that an execution reads without a lock on them. -/
def unlockedReads (vm : Svm) (tx : VersionedTransaction) : List Address :=
  match vm.sanitize agave tx with
  | .error _ => []
  | .ok sanitized =>
    (agave.getDurableNonce sanitized.message).toList ++ vm.programOwners sanitized.message ++
      vm.diagnosedMints agave (vm.transactDetached agave tx).postAccounts

/-- Everything an execution of the transaction depends on is the same. -/
structure ReadsAlike (vm vm' : Svm) (tx : VersionedTransaction) : Prop where
  runtime : SameRuntime vm vm'
  tables : ∀ lookup ∈ lookupsOf tx,
    vm'.accounts.tryGetAccount lookup.accountKey = vm.accounts.tryGetAccount lookup.accountKey
  keys : ∀ sanitized, vm.sanitize agave tx = .ok sanitized →
    ∀ key ∈ sanitized.message.accountKeys,
      vm'.accounts.tryGetAccount key = vm.accounts.tryGetAccount key
  unlocked : ∀ key ∈ vm.unlockedReads agave tx,
    vm'.accounts.tryGetAccount key = vm.accounts.tryGetAccount key
  signature : ∀ sanitized, vm.sanitize agave tx = .ok sanitized → vm.version.sigverify = true →
    vm'.history.checkTransaction sanitized.signature =
      vm.history.checkTransaction sanitized.signature

theorem sanitize_congr {vm vm' : Svm} {tx : VersionedTransaction} (runtime : SameRuntime vm vm')
    (tables : ∀ lookup ∈ lookupsOf tx,
      vm'.accounts.tryGetAccount lookup.accountKey = vm.accounts.tryGetAccount lookup.accountKey) :
    vm'.sanitize agave tx = vm.sanitize agave tx := by
  have loads := Accounts.loadAddresses_congr agave tables runtime.sysvars
  have version : vm'.version = vm.version := by rw [runtime.rest]
  have reserved : vm'.reservedAccountKeys = vm.reservedAccountKeys := by rw [runtime.rest]
  have unverified : vm'.sanitizeTransactionNoVerify agave tx =
      vm.sanitizeTransactionNoVerify agave tx := by
    simp only [sanitizeTransactionNoVerify, loads, reserved]
  simp only [sanitize, sanitizeTransaction, unverified, version, transactionAccountLockLimit]

theorem checkTransaction_congr {vm vm' : Svm} {tx : SanitizedTransaction}
    (runtime : SameRuntime vm vm')
    (nonce : ∀ address, agave.getDurableNonce tx.message = some address →
      vm'.accounts.getAccount address = vm.accounts.getAccount address)
    (signature : vm.version.sigverify = true → vm'.history.checkTransaction tx.signature =
      vm.history.checkTransaction tx.signature) :
    vm'.checkTransaction agave tx = vm.checkTransaction agave tx := by
  have version : vm'.version = vm.version := by rw [runtime.rest]
  have materialized : vm'.materialized = vm.materialized := by rw [runtime.rest]
  have block : vm'.blockEnv = vm.blockEnv := by rw [runtime.rest]
  have message : vm'.checkMessageForNonce agave tx.message =
      vm.checkMessageForNonce agave tx.message := by
    unfold checkMessageForNonce
    cases durable : agave.getDurableNonce tx.message with
    | none => rfl
    | some address => simp only [nonce address durable]
  have seen : (vm.version.sigverify && vm'.history.checkTransaction tx.signature) =
      (vm.version.sigverify && vm.history.checkTransaction tx.signature) := by
    cases verify : vm.version.sigverify with
    | false => rfl
    | true => rw [signature verify]
  simp only [checkTransaction, checkTransactionAge, checkTransactionForNonce, message, version,
    materialized, block, seen]
  rfl

theorem loadAccounts_congr {vm vm' : Svm} {message : SanitizedMessage} {rent : Rent} {fee : Nat}
    {index : Nat} {keys : List Address} {payer : Option Address}
    (reads : ∀ key ∈ keys, vm'.accounts.tryGetAccount key = vm.accounts.tryGetAccount key) :
    vm'.loadAccounts agave message rent fee index keys payer =
      vm.loadAccounts agave message rent fee index keys payer := by
  induction keys generalizing index payer with
  | nil => rfl
  | cons key keys ih =>
    have first := reads key List.mem_cons_self
    have others : ∀ index payer, vm'.loadAccounts agave message rent fee index keys payer =
        vm.loadAccounts agave message rent fee index keys payer := fun index payer =>
      ih fun other member => reads other (List.mem_cons_of_mem _ member)
    simp only [loadAccounts, first, others]

/-- A program that was loaded executable has the owner its account has in the database. -/
theorem owner_of_loaded {vm : Svm} {message : SanitizedMessage} {rent : Rent} {fee index : Nat}
    {loaded : List (Address × AccountSharedData)} {payer key : Address}
    {account : AccountSharedData}
    (done : vm.loadAccounts agave message rent fee 0 message.accountKeys none =
      .ok (loaded, some payer))
    (listed : loaded[index]? = some (key, account)) (executable : account.executable = true) :
    ∃ found, message.accountKeys[index]? = some key ∧ vm.getAccount key = some found ∧
      found.owner = account.owner := by
  have named : message.accountKeys[index]? = some key := by
    rw [← map_fst_of_loadAccounts agave done, List.getElem?_map, listed]
    rfl
  obtain ⟨before, after, paid, -, read, -, -, -, rfl⟩ := loadAccounts_eq_ok agave done
  -- Neither a missing account nor the instructions sysvar is loaded executable.
  have others : ∀ keys : List Address,
      (key, account) ∈ (keys.map fun key => (key, vm.loadedAccount agave message key)) →
      ∃ found, vm.getAccount key = some found ∧ found.owner = account.owner := by
    intro keys member
    obtain ⟨other, -, equal⟩ := List.mem_map.1 member
    cases equal
    unfold loadedAccount at executable ⊢
    split at executable
    · cases executable
    next stored =>
      rw [if_neg stored]
      cases found : vm.getAccount key with
      | none =>
        rw [found] at executable
        cases executable
      | some value => exact ⟨value, rfl, rfl⟩
  rcases List.mem_append.1 (List.mem_of_getElem? listed) with early | late
  · obtain ⟨found, reads, same⟩ := others before early
    exact ⟨found, named, reads, same⟩
  · rcases List.mem_cons.1 late with pays | later
    · cases pays
      exact ⟨paid, named, read, rfl⟩
    · obtain ⟨found, reads, same⟩ := others after later
      exact ⟨found, named, reads, same⟩

theorem resolveProgramIndices_congr {vm vm' : Svm}
    {accounts : List (Address × AccountSharedData)} {fee : Nat}
    {instructions : List CompiledInstruction} {failures : List AccountSourceFailure}
    (owners : ∀ instruction ∈ instructions, ∀ programId account,
      accounts[instruction.programIdIndex]? = some (programId, account) →
      account.executable = true →
      vm'.accounts.tryGetAccount account.owner = vm.accounts.tryGetAccount account.owner) :
    vm'.resolveProgramIndices accounts fee instructions failures =
      vm.resolveProgramIndices accounts fee instructions failures := by
  induction instructions generalizing failures with
  | nil => rfl
  | cons instruction rest ih =>
    have others : ∀ failures, vm'.resolveProgramIndices accounts fee rest failures =
        vm.resolveProgramIndices accounts fee rest failures := fun failures =>
      ih fun other member => owners other (List.mem_cons_of_mem _ member)
    simp only [resolveProgramIndices, others]
    cases listed : accounts[instruction.programIdIndex]? with
    | none => rfl
    | some pair =>
      obtain ⟨programId, account⟩ := pair
      cases executable : account.executable with
      | false => simp only [executable, Bool.not_false, if_true]
      | true =>
        have owner := owners instruction List.mem_cons_self programId account listed executable
        simp only [owner]

section Processing

variable {keys : List Address}

theorem processInstructions_congr {vm vm' : Svm} {config : EnvironmentConfig}
    {message : SanitizedMessage} {index : Nat} {instructions : List CompiledInstruction}
    {context : InvokeContext keys} {consumed : Nat} (runtime : SameRuntime vm vm') :
    vm'.processInstructions agave config message index instructions context consumed =
      vm.processInstructions agave config message index instructions context consumed := by
  have version : vm'.version = vm.version := by rw [runtime.rest]
  have precompiles : vm'.precompiles = vm.precompiles := by rw [runtime.rest]
  induction instructions generalizing index context consumed with
  | nil => rfl
  | cons instruction rest ih =>
    simp only [processInstructions, processTopLevelInstruction, findPrecompile, version,
      precompiles, runtime.programs, ih]

theorem processMessage_congr {vm vm' : Svm} {config : EnvironmentConfig}
    {message : SanitizedMessage} {context : InvokeContext keys} (runtime : SameRuntime vm vm') :
    vm'.processMessage agave config message context =
      vm.processMessage agave config message context := by
  simp only [processMessage, processInstructions_congr agave runtime]

end Processing

theorem processTransaction_congr {vm vm' : Svm} {message : SanitizedMessage}
    {limits : ComputeBudgetLimits} (runtime : SameRuntime vm vm')
    (reads : ∀ key ∈ message.accountKeys,
      vm'.accounts.tryGetAccount key = vm.accounts.tryGetAccount key)
    (owners : ∀ key ∈ vm.programOwners message,
      vm'.accounts.tryGetAccount key = vm.accounts.tryGetAccount key) :
    vm'.processTransaction agave message limits = vm.processTransaction agave message limits := by
  have version : vm'.version = vm.version := by rw [runtime.rest]
  have rent : vm'.accounts.rent? agave = vm.accounts.rent? agave := by
    simp only [Accounts.rent?, runtime.sysvars]
  have fee : vm'.transactionFee agave message limits = vm.transactionFee agave message limits := by
    simp only [transactionFee, version]
  have config : ∀ rent, vm'.environmentConfig agave message limits rent =
      vm.environmentConfig agave message limits rent := by
    intro rent
    simp only [environmentConfig, computeBudgetFor, version, runtime.sysvars, runtime.environments]
  have loads : ∀ rent, vm'.loadAccounts agave message rent (vm.transactionFee agave message limits)
      0 message.accountKeys none = vm.loadAccounts agave message rent
        (vm.transactionFee agave message limits) 0 message.accountKeys none :=
    fun rent => loadAccounts_congr agave reads
  -- The owners are known only once the accounts are loaded; the rest of the two runs is the same.
  simp only [processTransaction, rent, fee, loads, config, processMessage_congr agave runtime]
  cases vm.accounts.rent? agave with
  | none => rfl
  | some rent =>
    simp only
    cases loaded : vm.loadAccounts agave message rent (vm.transactionFee agave message limits) 0
        message.accountKeys none with
    | error result => rfl
    | ok outcome =>
      obtain ⟨accounts, payer⟩ := outcome
      cases payer with
      | none => rfl
      | some payer =>
        have same : vm'.resolveProgramIndices accounts (vm.transactionFee agave message limits)
            message.instructions [] =
              vm.resolveProgramIndices accounts (vm.transactionFee agave message limits)
                message.instructions [] := by
          refine resolveProgramIndices_congr ?_
          intro instruction member programId account listed executable
          obtain ⟨found, named, read, owner⟩ := owner_of_loaded agave loaded listed executable
          rw [← owner]
          refine owners _ (List.mem_filterMap.2 ⟨instruction, member, ?_⟩)
          simp [named, read]
        simp only [same]

theorem preAccounts_congr {vm vm' : Svm} {postAccounts : List (Address × AccountSharedData)}
    (reads : ∀ pair ∈ postAccounts,
      vm'.accounts.getAccount pair.1 = vm.accounts.getAccount pair.1) :
    vm'.preAccounts postAccounts = vm.preAccounts postAccounts := by
  unfold preAccounts
  refine List.map_congr_left ?_
  rintro ⟨address, account⟩ member
  simp only [reads _ member]

theorem executionIntoDetached_congr {vm vm' : Svm} {execution : ExecutionResult}
    {logs : List String} (runtime : SameRuntime vm vm')
    (reads : ∀ pair ∈ execution.postAccounts,
      vm'.accounts.getAccount pair.1 = vm.accounts.getAccount pair.1)
    (mints : ∀ mint ∈ vm.diagnosedMints agave execution.postAccounts,
      vm'.accounts.getAccount mint = vm.accounts.getAccount mint) :
    vm'.executionIntoDetached agave execution logs =
      vm.executionIntoDetached agave execution logs := by
  have version : vm'.version = vm.version := by rw [runtime.rest]
  have pre := preAccounts_congr reads
  unfold executionIntoDetached
  rw [version]
  cases diagnostics : vm.version.computeDiagnostics with
  | false => rfl
  | true =>
    simp only [diagnosedMints, diagnostics, if_true, List.mem_append] at mints
    have before := tokenBalances_congr agave fun mint member => mints mint (.inl member)
    have after := tokenBalances_congr agave fun mint member => mints mint (.inr member)
    simp only [executionDiagnostics, pre, before, after]

/-- The accounts an execution hands to staging are among the writable keys of its message. -/
theorem writable_of_postAccounts {vm : Svm} {tx : VersionedTransaction}
    {pair : Address × AccountSharedData}
    (member : pair ∈ (vm.transactDetached agave tx).postAccounts) :
    ∃ sanitized, vm.sanitize agave tx = .ok sanitized ∧ ∃ index,
      sanitized.message.accountKeys[index]? = some pair.1 ∧
        sanitized.message.isWritable index = true := by
  rcases vm.transactDetached_cases agave tx with ⟨result, rejected, detached⟩ | ⟨run, detached⟩
  · rw [postAccounts_of_rejected agave rejected detached] at member
    cases member
  · rw [detached, Execution.detached_postAccounts] at member
    obtain ⟨⟨indexed, index⟩, kept, rfl⟩ := List.mem_map.1 member
    obtain ⟨listed, writable⟩ := List.mem_filter.1 kept
    refine ⟨run.sanitized, run.sanitize_eq, index, ?_, writable⟩
    have there := List.mem_zipIdx_iff_getElem?.1 listed
    have keys : (run.outcome.context.pairs.map Prod.fst)[index]? = some indexed.1 := by
      rw [List.getElem?_map, there]
      rfl
    rw [map_fst_pairs, run.map_fst_loaded] at keys
    exact keys

/-- The accounts that an execution looks at. -/
def executionReads (vm : Svm) (tx : VersionedTransaction) : List Address :=
  (lookupsOf tx).map MessageAddressTableLookup.accountKey ++
    match vm.sanitize agave tx with
    | .error _ => []
    | .ok sanitized =>
      sanitized.message.accountKeys ++ (agave.getDurableNonce sanitized.message).toList ++
        vm.programOwners sanitized.message

/-- An execution depends on the accounts it looks at and on the runtime. -/
theorem executeReadonly_congr {vm vm' : Svm} {tx : VersionedTransaction}
    (runtime : SameRuntime vm vm')
    (reads : ∀ key ∈ vm.executionReads agave tx,
      vm'.accounts.tryGetAccount key = vm.accounts.tryGetAccount key)
    (signature : ∀ sanitized, vm.sanitize agave tx = .ok sanitized →
      vm.version.sigverify = true → vm'.history.checkTransaction sanitized.signature =
        vm.history.checkTransaction sanitized.signature) :
    vm'.executeReadonly agave tx = vm.executeReadonly agave tx := by
  have sanitizes : vm'.sanitize agave tx = vm.sanitize agave tx := by
    apply sanitize_congr agave runtime
    intro lookup listed
    exact reads _ (List.mem_append_left _ (List.mem_map_of_mem listed))
  unfold executeReadonly
  rw [sanitizes]
  cases sanitized : vm.sanitize agave tx with
  | error result => rfl
  | ok sanitizedTx =>
    simp only [executionReads, sanitized, List.mem_append, Option.mem_toList] at reads
    have checks : vm'.checkTransaction agave sanitizedTx = vm.checkTransaction agave sanitizedTx := by
      apply checkTransaction_congr agave runtime
      · intro address durable
        exact Accounts.getAccount_congr (reads address (.inr (.inl (.inr durable))))
      · exact signature sanitizedTx sanitized
    have processes : ∀ limits, vm'.processTransaction agave sanitizedTx.message limits =
        vm.processTransaction agave sanitizedTx.message limits := by
      intro limits
      apply processTransaction_congr agave runtime
      · exact fun key listed => reads key (.inr (.inl (.inl listed)))
      · exact fun key owner => reads key (.inr (.inr owner))
    simp only [executeSanitizedTransaction, checks, processes]

/-- What an execution looks at is among what its whole outcome depends on. -/
theorem ReadsAlike.reads {vm vm' : Svm} {tx : VersionedTransaction}
    (alike : ReadsAlike agave vm vm' tx) :
    ∀ key ∈ vm.executionReads agave tx,
      vm'.accounts.tryGetAccount key = vm.accounts.tryGetAccount key := by
  intro key member
  rcases List.mem_append.1 member with table | further
  · obtain ⟨lookup, listed, rfl⟩ := List.mem_map.1 table
    exact alike.tables lookup listed
  · cases sanitized : vm.sanitize agave tx with
    | error result =>
      rw [sanitized] at further
      cases further
    | ok sanitizedTx =>
      simp only [sanitized, List.mem_append] at further
      have unlocked := alike.unlocked key
      simp only [unlockedReads, sanitized, List.mem_append] at unlocked
      rcases further with (listed | nonce) | owner
      · exact alike.keys sanitizedTx sanitized key listed
      · exact unlocked (.inl (.inl nonce))
      · exact unlocked (.inl (.inr owner))

/-- The footprint of an execution: where everything it depends on is the same, so is its outcome. -/
theorem transactDetached_congr {vm vm' : Svm} {tx : VersionedTransaction}
    (alike : ReadsAlike agave vm vm' tx) :
    vm'.transactDetached agave tx = vm.transactDetached agave tx := by
  unfold transactDetached
  rw [executeReadonly_congr agave alike.runtime alike.reads alike.signature]
  -- What is left are the diagnostics, which read the accounts of the outcome and its mints.
  apply executionIntoDetached_congr agave alike.runtime
  · intro pair member
    obtain ⟨sanitized, done, index, listed, -⟩ := writable_of_postAccounts agave member
    exact Accounts.getAccount_congr
      (alike.keys sanitized done pair.1 (List.mem_of_getElem? listed))
  · intro mint member
    apply Accounts.getAccount_congr
    apply alike.unlocked
    unfold unlockedReads
    cases sanitized : vm.sanitize agave tx with
    | error result =>
      have nothing := (rejected_of_sanitize agave sanitized).nothing_staged
      simp [sanitized, diagnosedMints, nothing, preAccounts, tokenMints] at member
    | ok sanitizedTx => exact List.mem_append_right _ member

/-- The unlocked reads are themselves determined by what the execution reads. -/
theorem unlockedReads_congr {vm vm' : Svm} {tx : VersionedTransaction}
    (alike : ReadsAlike agave vm vm' tx) :
    vm'.unlockedReads agave tx = vm.unlockedReads agave tx := by
  have version : vm'.version = vm.version := by rw [alike.runtime.rest]
  have sanitizes := sanitize_congr agave alike.runtime alike.tables
  unfold unlockedReads
  rw [sanitizes, transactDetached_congr agave alike]
  cases sanitized : vm.sanitize agave tx with
  | error result => rfl
  | ok sanitizedTx =>
    have keys := alike.keys sanitizedTx sanitized
    have owners : vm'.programOwners sanitizedTx.message = vm.programOwners sanitizedTx.message := by
      unfold programOwners
      refine List.filterMap_congr ?_
      intro instruction member
      cases named : sanitizedTx.message.accountKeys[instruction.programIdIndex]? with
      | none => rfl
      | some key =>
        have same : vm'.getAccount key = vm.getAccount key :=
          Accounts.getAccount_congr (keys key (List.mem_of_getElem? named))
        simp only [Option.bind_some, same]
    have pre : vm'.preAccounts (vm.transactDetached agave tx).postAccounts =
        vm.preAccounts (vm.transactDetached agave tx).postAccounts := by
      refine preAccounts_congr ?_
      intro pair member
      obtain ⟨sanitizedTx', equal, index, listed, -⟩ := writable_of_postAccounts agave member
      rw [sanitized] at equal
      cases equal
      exact Accounts.getAccount_congr (keys pair.1 (List.mem_of_getElem? listed))
    simp only [owners, diagnosedMints, version, pre]

end Svm

end Hpsvm
