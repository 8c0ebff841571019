import Hpsvm.Properties.BatchSerial

/-!
# Durable nonces

A durable-nonce transaction names the nonce of its nonce account as recent blockhash and advances
the nonce with its first instruction. The age check compares with the latest blockhash of the VM.
The runtime, however, is given the recent blockhash of the message, so the instruction stores the
nonce derived from the nonce it replaces, which is the one derived from the latest blockhash only if
the two are equal.
-/

namespace Hpsvm

open Foundation

/-- What is assumed of the nonces of agave's system program. `stored` reads the durable nonce out of
the state of an account. -/
structure Agave.NonceRules (agave : Agave) (stored : AccountSharedData → Option Hash) : Prop where
  fresh : stored .default = none
  balance : ∀ account lamports, stored { account with lamports := lamports } = stored account
  -- `verify_nonce_account` accepts the stored nonce only.
  verify : ∀ account hash authority,
    agave.verifyNonceAccount account hash = some authority → stored account = some hash
  -- `get_durable_nonce` answers a writable key, which the instructions sysvar never is.
  named : ∀ message address, agave.getDurableNonce message = some address →
    address ≠ Ids.instructions ∧ ∃ index : Nat, message.accountKeys[index]? = some address ∧
      message.isWritable index = true
  prepare : ∀ {keys : List Address} (config : EnvironmentConfig) (message : SanitizedMessage)
    (context context' : InvokeContext keys),
    agave.prepareTopLevelInstructions config message context = .ok context' →
    context'.accounts = context.accounts
  precompile : ∀ {keys : List Address} (message : SanitizedMessage) (index : Nat) (verified : Bool)
    (context : InvokeContext keys),
    (agave.processPrecompile message index verified context).context.accounts = context.accounts
  -- A nonce that an instruction leaves was there before, or is the one of the environment.
  written : ∀ {keys : List Address} (config : EnvironmentConfig) (cache : ProgramCache)
    (message : SanitizedMessage) (index : Nat) (context : InvokeContext keys) account hash,
    stored ((agave.processInstruction config cache message index context).context.accounts account) =
      some hash →
    stored (context.accounts account) = some hash ∨ hash = agave.durableNonce config.blockhash
  -- The nonce of the environment is neither advanced nor withdrawn.
  settled : ∀ {keys : List Address} (config : EnvironmentConfig) (cache : ProgramCache)
    (message : SanitizedMessage) (index : Nat) (context : InvokeContext keys) account,
    stored (context.accounts account) = some (agave.durableNonce config.blockhash) →
    stored ((agave.processInstruction config cache message index context).context.accounts account) =
      some (agave.durableNonce config.blockhash)
  -- `AdvanceNonceAccount`, the first instruction of a durable-nonce transaction.
  advance : ∀ {keys : List Address} (config : EnvironmentConfig) (cache : ProgramCache)
    (message : SanitizedMessage) (context : InvokeContext keys) (account : Fin keys.length),
    keys = message.accountKeys → keys.Nodup →
    agave.getDurableNonce message = some (keys.get account) →
    (agave.processInstruction config cache message 0 context).result = .ok () →
    stored ((agave.processInstruction config cache message 0 context).context.accounts account) =
      some (agave.durableNonce config.blockhash)

/-! ### What the overlay holds at an address -/

namespace Accounts

variable (agave : Agave) {holds : AccountSharedData → Prop} {address : Address}

/-- The overlay decides about the address, and an account it has there holds what is asked. -/
structure HoldsAt (holds : AccountSharedData → Prop) (address : Address) (db : Accounts) :
    Prop where
  overlaid : db.cache.inner[address]?.isSome = true ∨ address ∈ db.cache.removed
  account : ∀ account, db.cache.inner[address]? = some account → holds account

theorem HoldsAt.getAccount_eq {db : Accounts} (held : db.HoldsAt holds address) :
    db.getAccount address = db.cache.inner[address]? := by
  unfold getAccount tryGetAccount getAccountRef
  cases found : db.cache.inner[address]? with
  | some account => rfl
  | none =>
    rcases held.overlaid with there | removed
    · rw [found] at there
      cases there
    · simp [removed]

theorem HoldsAt.of_cache {db db' : Accounts} (held : db.HoldsAt holds address)
    (same : db'.cache = db.cache) : db'.HoldsAt holds address := by
  refine ⟨?_, ?_⟩
  · rw [same]
    exact held.overlaid
  · rw [same]
    exact held.account

theorem holdsAt_wrote {db db' : Accounts} {pubkey : Address} {account : AccountSharedData}
    (wrote : db.Wrote pubkey account db') (fits : pubkey = address → holds account)
    (before : pubkey = address ∨ db.HoldsAt holds address) :
    db'.HoldsAt holds address := by
  by_cases here : pubkey = address
  · subst here
    refine ⟨?_, ?_⟩
    · rw [wrote.cache]
      unfold CacheDb.store
      split
      · exact .inr (Finset.mem_insert_self _ _)
      · exact .inl (by simp)
    · intro other found
      rw [wrote.cache, CacheDb.store_inner_getElem?, if_pos rfl] at found
      obtain ⟨-, rfl⟩ := AccountSharedData.visible_eq_some found
      exact fits rfl
  · have held := before.resolve_left here
    refine ⟨?_, ?_⟩
    · rw [wrote.cache, CacheDb.store_inner_getElem?, if_neg here]
      refine held.overlaid.imp_right fun removed => ?_
      unfold CacheDb.store
      split
      · exact Finset.mem_insert_of_mem removed
      · exact Finset.mem_erase.2 ⟨Ne.symm here, removed⟩
    · intro other found
      rw [wrote.cache, CacheDb.store_inner_getElem?, if_neg here] at found
      exact held.account other found

/-- Accepted writes leave what they hold, if the address is among them or was decided before. -/
theorem holdsAt_addAccounts {db db' : Accounts} {accounts : List (Address × AccountSharedData)}
    (fits : ∀ pair ∈ accounts, pair.1 = address → holds pair.2)
    (before : address ∈ accounts.map Prod.fst ∨ db.HoldsAt holds address)
    (added : db.addAccounts agave accounts = (.ok (), db')) :
    db'.HoldsAt holds address := by
  induction accounts generalizing db with
  | nil =>
    cases added
    rcases before with none_written | held
    · cases none_written
    · exact held
  | cons pair rest ih =>
    obtain ⟨pubkey, account⟩ := pair
    obtain ⟨next, first, remaining⟩ := addAccounts_cons_ok agave added
    have others := fun pair member => fits pair (List.mem_cons_of_mem _ member)
    refine ih others ?_ remaining
    by_cases later : address ∈ rest.map Prod.fst
    · exact .inl later
    · right
      refine holdsAt_wrote (wrote_of_addAccount agave first) (fits _ List.mem_cons_self) ?_
      rcases before with listed | held
      · rw [List.map_cons, List.mem_cons] at listed
        exact .inl (listed.resolve_right later).symm
      · exact .inr held

theorem holdsAt_syncAccounts {db db' : Accounts} {accounts : List (Address × AccountSharedData)}
    (fits : ∀ pair ∈ accounts, pair.1 = address → holds pair.2)
    (before : address ∈ accounts.map Prod.fst ∨ db.HoldsAt holds address)
    (synced : db.syncAccounts agave accounts = (.ok (), db')) :
    db'.HoldsAt holds address := by
  refine holdsAt_addAccounts agave (fun pair member => fits pair
    (mem_partitionProgramdata.1 member)) ?_ synced
  refine before.imp_left fun listed => ?_
  obtain ⟨pair, member, rfl⟩ := List.mem_map.1 listed
  exact List.mem_map_of_mem (mem_partitionProgramdata.2 member)

/-- Writes that fit keep it so, accepted or not. -/
theorem HoldsAt.syncAccounts {db : Accounts} (held : db.HoldsAt holds address)
    {accounts : List (Address × AccountSharedData)}
    (fits : ∀ pair ∈ accounts, pair.1 = address → holds pair.2) :
    (db.syncAccounts agave accounts).2.HoldsAt holds address := by
  have added : ∀ (accounts : List (Address × AccountSharedData)) (db : Accounts),
      (∀ pair ∈ accounts, pair.1 = address → holds pair.2) → db.HoldsAt holds address →
      (db.addAccounts agave accounts).2.HoldsAt holds address := by
    intro accounts
    induction accounts with
    | nil => exact fun db _ held => held
    | cons pair rest ih =>
      obtain ⟨pubkey, account⟩ := pair
      intro db fits held
      have first : (db.addAccount agave pubkey account).2.HoldsAt holds address := by
        rcases db.addAccount_unchanged_or_wrote agave pubkey account with ⟨error, refused⟩ | wrote
        · rw [refused]
          exact held
        · exact holdsAt_wrote wrote (fits _ List.mem_cons_self) (.inr held)
      unfold addAccounts
      split
      next error left refused => rwa [refused] at first
      next taken equal =>
        rw [equal] at first
        exact ih taken (fun pair member => fits pair (List.mem_cons_of_mem _ member)) first
  exact added _ db (fun pair member => fits pair (mem_partitionProgramdata.1 member)) held

/-- Prewarming leaves alone what the overlay decides about. -/
theorem HoldsAt.prewarm {db : Accounts} (held : db.HoldsAt holds address)
    (addresses : List Address) : (db.prewarm addresses).2.HoldsAt holds address := by
  refine prewarm_induct ?_ held
  intro current pubkey account answered kept
  -- The source was asked only for what the overlay does not decide.
  have differ : pubkey ≠ address := by
    rintro rfl
    obtain ⟨-, absent, present⟩ := answered.unknown
    rcases held.overlaid with there | removed
    · rw [absent] at there
      cases there
    · exact present removed
  refine ⟨?_, ?_⟩
  · refine kept.overlaid.imp (fun there => ?_) fun removed => ?_
    · simpa [addAccountNoChecks, differ] using there
    · exact Finset.mem_erase.2 ⟨Ne.symm differ, removed⟩
  · intro other found
    simp only [addAccountNoChecks, CacheDb.put_inner, AddressMap.getElem?_insert, differ,
      if_false] at found
    exact kept.account other found

end Accounts

namespace Svm

variable {agave : Agave} {stored : AccountSharedData → Option Hash}

/-! ### The instruction loop -/

section Loop

variable {vm : Svm} {config : EnvironmentConfig} {message : SanitizedMessage} {keys : List Address}

/-- What every round keeps holds where the loop stops. -/
theorem processInstructions_invariant (invariant : InvokeContext keys → Prop)
    (round : ∀ index instruction context, invariant context →
      invariant (vm.processTopLevelInstruction agave config message index instruction context).context)
    {index consumed : Nat} {instructions : List CompiledInstruction} {context : InvokeContext keys}
    (initial : invariant context) :
    invariant (vm.processInstructions agave config message index instructions context
      consumed).context := by
  induction instructions generalizing index context consumed with
  | nil => exact initial
  | cons instruction rest ih =>
    have next := round index instruction context initial
    unfold processInstructions
    simp only
    split
    · exact next
    · exact ih next

/-- A nonce that the rounds leave was there before, or is the one of the environment. -/
theorem written_of_round (rules : agave.NonceRules stored) (index : Nat)
    (instruction : CompiledInstruction) (context : InvokeContext keys) (account : Fin keys.length)
    {hash : Hash}
    (left : stored ((vm.processTopLevelInstruction agave config message index instruction
      context).context.accounts account) = some hash) :
    stored (context.accounts account) = some hash ∨ hash = agave.durableNonce config.blockhash := by
  unfold processTopLevelInstruction at left
  split at left
  · rw [rules.precompile] at left
    exact .inl left
  · exact rules.written _ _ _ _ _ _ _ left

theorem settled_of_round (rules : agave.NonceRules stored) (index : Nat)
    (instruction : CompiledInstruction) (context : InvokeContext keys) (account : Fin keys.length)
    (settled : stored (context.accounts account) = some (agave.durableNonce config.blockhash)) :
    stored ((vm.processTopLevelInstruction agave config message index instruction
      context).context.accounts account) = some (agave.durableNonce config.blockhash) := by
  unfold processTopLevelInstruction
  split
  · rw [rules.precompile]
    exact settled
  · exact rules.settled _ _ _ _ _ _ settled

theorem written_of_message (rules : agave.NonceRules stored) {context : InvokeContext keys}
    (account : Fin keys.length) {hash : Hash}
    (left : stored ((vm.processMessage agave config message context).context.accounts account) =
      some hash) :
    stored (context.accounts account) = some hash ∨ hash = agave.durableNonce config.blockhash := by
  unfold processMessage at left
  split at left
  · exact .inl left
  next prepared equal =>
    have same := rules.prepare config message context prepared equal
    refine processInstructions_invariant (fun current => ∀ hash,
      stored (current.accounts account) = some hash → stored (context.accounts account) = some hash ∨
        hash = agave.durableNonce config.blockhash) ?_ ?_ hash left
    · intro index instruction current earlier hash found
      rcases written_of_round rules index instruction current account found with before | fresh
      · exact earlier hash before
      · exact .inr fresh
    · intro hash found
      rw [same] at found
      exact .inl found

end Loop

/-! ### One execution -/

namespace Execution

variable {vm : Svm} {tx : VersionedTransaction} (run : Execution agave vm tx)

theorem mem_postAccounts {pair : Address × AccountSharedData} (member : pair ∈ run.postAccounts) :
    ∃ index : Fin (run.loaded.map Prod.fst).length,
      pair = ((run.loaded.map Prod.fst).get index, run.outcome.context.accounts index) := by
  obtain ⟨⟨kept, index⟩, listed, rfl⟩ := List.mem_map.1 member
  have there := List.mem_zipIdx_iff_getElem?.1 (List.mem_of_mem_filter listed)
  obtain ⟨position, equal⟩ := List.mem_ofFn.1 (List.mem_of_getElem? there)
  exact ⟨position, equal.symm⟩

/-- A writable key of the message is among the accounts that are staged. -/
theorem mem_map_postAccounts {index : Nat} {address : Address}
    (listed : run.message.accountKeys[index]? = some address)
    (writable : run.message.isWritable index = true) : address ∈ run.postAccounts.map Prod.fst := by
  have keys : (run.outcome.context.pairs.map Prod.fst)[index]? = some address := by
    rw [map_fst_pairs, run.map_fst_loaded]
    exact listed
  rw [List.getElem?_map] at keys
  obtain ⟨pair, there, rfl⟩ := Option.map_eq_some_iff.1 keys
  refine List.mem_map_of_mem (List.mem_map.2 ⟨(pair, index), List.mem_filter.2 ⟨?_, writable⟩, rfl⟩)
  exact List.mem_zipIdx_iff_getElem?.2 there

/-- A nonce the execution starts with is one that the VM reads; charging the fee changes none. -/
theorem initial_nonce (rules : agave.NonceRules stored)
    (index : Fin (run.loaded.map Prod.fst).length) {hash : Hash}
    (plain : (run.loaded.map Prod.fst).get index ≠ Ids.instructions)
    (found : stored (run.initial.accounts index) = some hash) :
    ∃ account, vm.getAccount ((run.loaded.map Prod.fst).get index) = some account ∧
      stored account = some hash := by
  have loaded : ∀ pair ∈ run.loaded, pair.1 ≠ Ids.instructions → stored pair.2 = some hash →
      ∃ account, vm.getAccount pair.1 = some account ∧ stored account = some hash := by
    have read : ∀ key, key ≠ Ids.instructions →
        stored (vm.loadedAccount agave run.sanitized.message key) = some hash →
        ∃ account, vm.getAccount key = some account ∧ stored account = some hash := by
      intro key plain holds
      rw [loadedAccount, if_neg plain] at holds
      cases present : vm.getAccount key with
      | none =>
        rw [present, Option.getD_none, rules.fresh] at holds
        cases holds
      | some account =>
        rw [present, Option.getD_some] at holds
        exact ⟨account, rfl, holds⟩
    obtain ⟨before, after, account, -, payer, -, -, -, split⟩ := loadAccounts_eq_ok agave run.load_eq
    intro pair member plain holds
    rw [split, List.mem_append, List.mem_cons] at member
    rcases member with earlier | rfl | later
    · obtain ⟨key, -, rfl⟩ := List.mem_map.1 earlier
      exact read key plain holds
    · refine ⟨account, payer, ?_⟩
      rwa [AccountSharedData.charged, rules.balance] at holds
    · obtain ⟨key, -, rfl⟩ := List.mem_map.1 later
      exact read key plain holds
  have position := List.getElem_mem (l := run.loaded) (index.cast (List.length_map _)).isLt
  have key : (run.loaded.map Prod.fst).get index =
      (run.loaded.get (index.cast (List.length_map _))).1 := by simp
  rw [key] at plain ⊢
  exact loaded _ position plain found

end Execution

/-! ### Runs on one blockhash -/

/-- The account stores no other nonce. -/
def OnlyNonce (stored : AccountSharedData → Option Hash) (nonce : Hash)
    (account : AccountSharedData) : Prop :=
  ∀ hash, stored account = some hash → hash = nonce

variable (agave stored) in
/-- The VM checks blockhashes, and the only nonce at the address is the one derived from the latest
of them. -/
structure NonceSettled (blockhash : Hash) (address : Address) (vm : Svm) : Prop where
  checks : vm.version.blockhashCheck = true
  latest : vm.blockEnv.latestBlockhash = blockhash
  accounts : vm.accounts.HoldsAt (OnlyNonce stored (agave.durableNonce blockhash)) address

variable (agave) in
/-- A transaction that names a durable nonce has the latest blockhash as its recent blockhash, which
is what the runtime derives the next nonce from. -/
def NamesLatest (vm : Svm) (tx : VersionedTransaction) : Prop :=
  ∀ sanitized address, vm.sanitize agave tx = .ok sanitized →
    agave.getDurableNonce sanitized.message = some address →
    sanitized.message.recentBlockhash = vm.blockEnv.latestBlockhash

variable (agave) in
/-- The age check accepts no durable-nonce transaction on the address. -/
def RejectsNonce (vm : Svm) (address : Address) : Prop :=
  ∀ message, agave.getDurableNonce message = some address →
    vm.checkTransactionForNonce agave message
      (agave.durableNonce vm.blockEnv.latestBlockhash) = false

variable (agave) in
/-- The states that transactions lead to; the two halves of a batch stage are steps of their own. -/
inductive NonceRun (start : Svm) : Svm → Prop
  | start : NonceRun start start
  | send {vm : Svm} (reached : NonceRun start vm) (tx : VersionedTransaction)
      (latest : vm.NamesLatest agave tx) : NonceRun start (vm.sendTransaction agave tx).2
  | refused {vm next : Svm} {tx : VersionedTransaction} {error : HpsvmError}
      (reached : NonceRun start vm) (failed : vm.transact agave tx = .error (error, next)) :
      NonceRun start next
  | commit {vm : Svm} {tx : VersionedTransaction} {executed : ExecutedTx}
      (reached : NonceRun start vm) (latest : vm.NamesLatest agave tx)
      (staged : vm.transact agave tx = .ok executed) : NonceRun start executed.commit.2
  | discard {vm next : Svm} {tx : VersionedTransaction} {executed : ExecutedTx}
      {result : TransactionResult} (reached : NonceRun start vm)
      (staged : vm.transact agave tx = .ok executed)
      (discarded : executed.discard agave = some (result, next)) : NonceRun start next
  | snapshot {vm : Svm} (reached : NonceRun start vm) (readSet : List Address) :
      NonceRun start (vm.prewarmStage agave readSet).2
  | merge {snapshot : Svm} {stage : TransactionBatchStage}
      {transactions : List VersionedTransaction} (reached : NonceRun start snapshot)
      (listed : stage.Listed transactions)
      (latest : ∀ tx ∈ pickTransactions transactions stage.transactionIndexes,
        snapshot.NamesLatest agave tx) :
      NonceRun start (snapshot.merged agave (snapshot.stageResults agave stage transactions))

/-- The age check accepts the latest blockhash, or a durable nonce. -/
theorem Execution.recent_eq_latest {vm : Svm} {tx : VersionedTransaction}
    (run : Execution agave vm tx) (checks : vm.version.blockhashCheck = true)
    (latest : vm.NamesLatest agave tx) :
    run.message.recentBlockhash = vm.blockEnv.latestBlockhash := by
  by_cases recent : run.message.recentBlockhash = vm.blockEnv.latestBlockhash
  · exact recent
  · -- Then the check went through the nonce, and the message names one.
    cases named : agave.getDurableNonce run.message with
    | some address => exact latest run.sanitized address run.sanitize_eq named
    | none =>
      have stale : vm.checkTransactionAge agave run.sanitized.message = .error .blockhashNotFound := by
        have named : agave.getDurableNonce run.sanitized.message = none := named
        have recent : ¬ run.sanitized.message.recentBlockhash = vm.blockEnv.latestBlockhash := recent
        simp [checkTransactionAge, checkTransactionForNonce, checkMessageForNonce, named, recent]
      have checked := run.check_eq
      unfold checkTransaction at checked
      split at checked
      · cases checked
      · simp [stale] at checked

/-- What an execution on the latest blockhash stages keeps the nonce settled. -/
theorem NonceSettled.settles {vm : Svm} {tx : VersionedTransaction} {blockhash : Hash}
    {address : Address} (rules : agave.NonceRules stored) (plain : address ≠ Ids.instructions)
    (settled : vm.NonceSettled agave stored blockhash address) (latest : vm.NamesLatest agave tx) :
    ∀ pair ∈ (vm.transactDetached agave tx).postAccounts,
      pair.1 = address → OnlyNonce stored (agave.durableNonce blockhash) pair.2 := by
  rcases vm.transactDetached_cases agave tx with ⟨result, rejected, detached⟩ | ⟨run, detached⟩
  · intro pair member
    rw [postAccounts_of_rejected agave rejected detached] at member
    cases member
  · intro pair member here hash holds
    rw [detached, Execution.detached_postAccounts] at member
    obtain ⟨index, rfl⟩ := run.mem_postAccounts member
    simp only at here holds
    rcases written_of_message rules index holds with before | fresh
    · rw [← here] at plain
      obtain ⟨account, read, nonce⟩ := run.initial_nonce rules index plain before
      rw [here, getAccount, settled.accounts.getAccount_eq] at read
      exact settled.accounts.account account read hash nonce
    · have same : run.config.blockhash = blockhash :=
        (run.recent_eq_latest settled.checks latest).trans settled.latest
      rw [fresh, same]

/-- The same, for what a commit of the transaction stages. -/
theorem NonceSettled.delta_settles {vm : Svm} {tx : VersionedTransaction} {blockhash : Hash}
    {address : Address} (rules : agave.NonceRules stored) (plain : address ≠ Ids.instructions)
    (settled : vm.NonceSettled agave stored blockhash address) (latest : vm.NamesLatest agave tx)
    (enabled : Bool) :
    ∀ pair ∈ (detachedIntoResultAndDelta (vm.transactDetached agave tx) enabled).2.postAccounts,
      pair.1 = address → OnlyNonce stored (agave.durableNonce blockhash) pair.2 :=
  fun pair member => settled.settles rules plain latest pair (mem_delta_postAccounts member)

theorem NonceSettled.withAccounts {vm : Svm} {blockhash : Hash} {address : Address}
    (settled : vm.NonceSettled agave stored blockhash address) {accounts : Accounts}
    (kept : accounts.HoldsAt (OnlyNonce stored (agave.durableNonce blockhash)) address) :
    ({ vm with accounts := accounts } : Svm).NonceSettled agave stored blockhash address :=
  ⟨settled.checks, settled.latest, kept⟩

theorem NonceSettled.withHistory {vm : Svm} {blockhash : Hash} {address : Address}
    (settled : vm.NonceSettled agave stored blockhash address) (history : TransactionHistory) :
    ({ vm with history := history } : Svm).NonceSettled agave stored blockhash address :=
  ⟨settled.checks, settled.latest, settled.accounts⟩

/-- A rollback of staged accounts goes back to the overlay before. -/
theorem NonceSettled.rolledBack {vm : Svm} {blockhash : Hash} {address : Address}
    (settled : vm.NonceSettled agave stored blockhash address)
    (accounts : List (Address × AccountSharedData)) :
    ({ vm with
      accounts := (vm.accounts.syncAccounts agave accounts).2.rollback
        vm.accounts.checkpoint } : Svm).NonceSettled agave stored blockhash address := by
  refine settled.withAccounts (settled.accounts.of_cache ?_)
  rw [Accounts.rollback_checkpoint (vm.accounts.journaled_syncAccounts agave accounts)]

theorem NonceSettled.send {vm : Svm} {tx : VersionedTransaction} {blockhash : Hash}
    {address : Address} (rules : agave.NonceRules stored) (plain : address ≠ Ids.instructions)
    (settled : vm.NonceSettled agave stored blockhash address) (latest : vm.NamesLatest agave tx) :
    (vm.sendTransaction agave tx).2.NonceSettled agave stored blockhash address := by
  have staged := settled.accounts.syncAccounts agave
    (settled.delta_settles rules plain latest vm.history.isEnabled)
  have back := settled.rolledBack (vm.stagedDelta agave tx).postAccounts
  rw [sendTransaction_staged]
  split
  · exact settled
  · split
    next error accounts refused => rwa [refused] at back
    next accounts synced =>
      unfold stagedDelta at synced
      rw [synced] at staged
      exact (settled.withAccounts staged).withHistory _

theorem NonceSettled.prewarmStage {vm : Svm} {blockhash : Hash} {address : Address}
    (settled : vm.NonceSettled agave stored blockhash address) (readSet : List Address) :
    (vm.prewarmStage agave readSet).2.NonceSettled agave stored blockhash address := by
  have warmed := settled.accounts.prewarm readSet
  unfold Svm.prewarmStage
  split
  next dbError accounts failed =>
    rw [failed] at warmed
    exact settled.withAccounts warmed
  next accounts done =>
    rw [done] at warmed
    have programs : (accounts.prewarmPrograms agave readSet).2.cache = accounts.cache := by
      obtain ⟨programsCache, _, equal⟩ := accounts.prewarmPrograms_keeps agave readSet
      rw [equal]
    split
    next dbError last failed =>
      rw [failed] at programs
      exact settled.withAccounts (warmed.of_cache programs)
    next last ready =>
      rw [ready] at programs
      exact settled.withAccounts (warmed.of_cache programs)

/-- Transactions that name the latest blockhash keep a settled nonce settled. -/
theorem NonceRun.settled {start reached : Svm} {blockhash : Hash} {address : Address}
    (rules : agave.NonceRules stored) (plain : address ≠ Ids.instructions)
    (initial : start.NonceSettled agave stored blockhash address)
    (run : NonceRun agave start reached) :
    reached.NonceSettled agave stored blockhash address := by
  induction run with
  | start => exact initial
  | send _ tx latest ih => exact ih.send rules plain latest
  | @refused vm next tx error _ failed ih =>
    rcases transact_eq_error agave failed with rfl | ⟨accounts, synced, rfl⟩
    · exact ih
    · have back := ih.rolledBack (vm.stagedDelta agave tx).postAccounts
      rw [synced] at back
      exact back
  | @commit vm tx executed _ latest staged ih =>
    obtain ⟨accounts, synced, left, -⟩ := transact_eq_ok agave staged
    have written := ih.accounts.syncAccounts agave
      (ih.delta_settles rules plain latest vm.history.isEnabled)
    unfold stagedDelta at synced
    rw [synced] at written
    have kept := ih.withAccounts written
    rw [← left] at kept
    exact kept.withHistory _
  | @discard vm next tx executed result _ staged discarded ih =>
    obtain ⟨after, unstaged, same⟩ := Option.map_eq_some_iff.1 discarded
    cases same
    rw [(stagedOn_of_transact agave staged).eq_of_unstage agave unstaged]
    exact ih.withAccounts (ih.accounts.of_cache rfl)
  | snapshot _ readSet ih => exact ih.prewarmStage readSet
  | @merge snapshot stage transactions _ listed latest ih =>
    rw [merged_stageResults agave listed]
    -- Every worker ran on the snapshot, and the merge writes its outcome.
    have merged : ∀ (txs : List VersionedTransaction) (vm : Svm),
        (∀ tx ∈ txs, snapshot.NamesLatest agave tx) →
        vm.NonceSettled agave stored blockhash address →
        ((txs.map (snapshot.transactDetached agave)).foldl
          (fun vm detached => vm.committed agave detached) vm).NonceSettled agave stored blockhash
            address := by
      intro txs
      induction txs with
      | nil => exact fun vm _ settled => settled
      | cons tx rest others =>
        intro vm latest settled
        refine others _ (fun tx member => latest tx (List.mem_cons_of_mem _ member)) ?_
        have written := settled.accounts.syncAccounts agave
          (ih.delta_settles rules plain (latest tx List.mem_cons_self) vm.history.isEnabled)
        exact (settled.withAccounts written).withHistory _
    exact merged _ snapshot latest ih

/-- Where the nonce of the latest blockhash is the only one, the age check takes none. -/
theorem NonceSettled.rejectsNonce {vm : Svm} {blockhash : Hash} {address : Address}
    (rules : agave.NonceRules stored) (settled : vm.NonceSettled agave stored blockhash address) :
    vm.RejectsNonce agave address := by
  intro message named
  unfold checkTransactionForNonce checkMessageForNonce
  rw [named]
  simp only [settled.accounts.getAccount_eq]
  cases found : vm.accounts.cache.inner[address]? with
  | none => simp
  | some account =>
    cases verified : agave.verifyNonceAccount account message.recentBlockhash with
    | none => simp [verified]
    | some authority =>
      have holds := rules.verify account _ authority verified
      have nonce := settled.accounts.account account found _ holds
      simp [nonce, settled.latest]

/-! ### The transaction that advances the nonce -/

namespace Execution

variable {vm : Svm} {tx : VersionedTransaction}

theorem stagedDelta_postAccounts (run : Execution agave vm tx) :
    (vm.stagedDelta agave tx).postAccounts = run.postAccounts := by
  rw [stagedDelta, run.transactDetached_eq]
  rfl

/-- The execution of a durable-nonce transaction: the age check takes it for its nonce, and its first
instruction, which is `AdvanceNonceAccount`, succeeds. -/
structure AdvancesNonce (run : Execution agave vm tx) (address : Address) : Prop where
  checks : vm.version.blockhashCheck = true
  named : agave.getDurableNonce run.message = some address
  accepted : vm.checkTransactionForNonce agave run.message
    (agave.durableNonce vm.blockEnv.latestBlockhash) = true
  distinct : run.message.accountKeys.Nodup
  advanced : ∃ first rest prepared,
    run.message.instructions = first :: rest ∧
    vm.findPrecompile (run.message.accountKeys.getD first.programIdIndex 0) = none ∧
    agave.prepareTopLevelInstructions run.config run.message run.initial = .ok prepared ∧
    (agave.processInstruction run.config vm.accounts.programsCache run.message 0 prepared).result =
      .ok ()

/-- The VMs after a commit of the execution. In a batch, earlier merges of its stage come before. -/
inductive Commits (run : Execution agave vm tx) : Svm → Prop
  | send {accounts : Accounts}
      (synced : vm.accounts.syncAccounts agave run.postAccounts = (.ok (), accounts)) :
      Commits run (vm.sendTransaction agave tx).2
  | transact {executed : ExecutedTx} (staged : vm.transact agave tx = .ok executed) :
      Commits run executed.commit.2
  | merge {base : Svm} {accounts : Accounts} (version : base.version = vm.version)
      (blockEnv : base.blockEnv = vm.blockEnv)
      (synced : base.accounts.syncAccounts agave run.postAccounts = (.ok (), accounts)) :
      Commits run (base.committed agave run.detached)

theorem Commits.staged {run : Execution agave vm tx} {after : Svm} (commits : run.Commits after) :
    (∃ db : Accounts, db.syncAccounts agave run.postAccounts = (.ok (), after.accounts)) ∧
      after.version = vm.version ∧ after.blockEnv = vm.blockEnv := by
  cases commits with
  | send synced =>
    refine ⟨⟨vm.accounts, ?_⟩, ?_⟩
    all_goals rw [sendTransaction_staged, run.stagedDelta_postAccounts, synced,
      run.transactDetached_eq]
    · rfl
    · exact ⟨rfl, rfl⟩
  | @transact executed staged =>
    obtain ⟨accounts, synced, left, -⟩ := transact_eq_ok agave staged
    rw [run.stagedDelta_postAccounts] at synced
    unfold ExecutedTx.commit
    rw [left]
    exact ⟨⟨vm.accounts, synced⟩, rfl, rfl⟩
  | @merge base accounts version blockEnv synced =>
    refine ⟨⟨base.accounts, ?_⟩, version, blockEnv⟩
    change _ = (_, (base.accounts.syncAccounts agave run.postAccounts).2)
    rw [synced]

/-- The advanced nonce is the one derived from the recent blockhash of the message. -/
theorem AdvancesNonce.stored_eq {run : Execution agave vm tx} {address : Address}
    (rules : agave.NonceRules stored) (advances : run.AdvancesNonce address)
    (index : Fin (run.loaded.map Prod.fst).length)
    (here : (run.loaded.map Prod.fst).get index = address) :
    stored (run.outcome.context.accounts index) =
      some (agave.durableNonce run.message.recentBlockhash) := by
  obtain ⟨first, rest, prepared, instructions, plain, ready, succeeded⟩ := advances.advanced
  have keys : run.loaded.map Prod.fst = run.message.accountKeys := run.map_fst_loaded
  have named := advances.named
  rw [← here] at named
  have advanced := rules.advance run.config vm.accounts.programsCache run.message prepared index keys
    (keys ▸ advances.distinct) named succeeded
  -- The first instruction stores the nonce, and no later one changes it.
  unfold outcome processMessage
  simp only [ready, instructions, processInstructions, processTopLevelInstruction, plain, succeeded]
  exact processInstructions_invariant (fun context => stored (context.accounts index) =
    some (agave.durableNonce run.config.blockhash))
    (fun position instruction context settled => settled_of_round rules position instruction context
      index settled) advanced

/-- After the commit the overlay decides about the nonce account, which holds that nonce. -/
theorem AdvancesNonce.holdsAt {run : Execution agave vm tx} {address : Address} {after : Svm}
    (rules : agave.NonceRules stored) (advances : run.AdvancesNonce address)
    (commits : run.Commits after) :
    after.accounts.HoldsAt (fun account =>
      stored account = some (agave.durableNonce run.message.recentBlockhash)) address := by
  obtain ⟨⟨db, synced⟩, -, -⟩ := commits.staged
  obtain ⟨-, index, listed, writable⟩ := rules.named run.message address advances.named
  refine Accounts.holdsAt_syncAccounts agave ?_ (.inl (run.mem_map_postAccounts listed writable))
    synced
  intro pair member here
  obtain ⟨position, rfl⟩ := run.mem_postAccounts member
  exact advances.stored_eq rules position here

end Execution

end Svm

namespace Sample

variable {keys : List Address}

/-! ### Nonces in the sample runtime -/

/-- The state of a nonce account is its durable nonce alone. -/
def storedNonce (account : AccountSharedData) : Option Hash :=
  if account.data.length = 32 then some (Address.ofBytes account.data) else none

def advanceNonce (config : EnvironmentConfig) (context : InvokeContext keys)
    (nonce : Fin keys.length) : InstructionOutcome keys :=
  let next := agave.durableNonce config.blockhash
  match storedNonce (context.accounts nonce) with
  | none => ⟨.error .invalidAccountData, transferUnits, context⟩
  | some current =>
    if current = next then ⟨.error (.custom 7), transferUnits, context⟩
    else
      ⟨.ok (), transferUnits,
        { context with
          accounts := Function.update context.accounts nonce
            { context.accounts nonce with data := Address.toBytes next } }⟩

/-- The index of the nonce account that an instruction advances. -/
def advancedIndex (message : SanitizedMessage) (index : Nat) : Option Nat :=
  match message.instructions[index]? with
  | some ⟨_, nonce :: _, [4]⟩ => some nonce
  | _ => none

def processNonceInstruction (config : EnvironmentConfig) (cache : ProgramCache)
    (message : SanitizedMessage) (index : Nat) (context : InvokeContext keys) :
    InstructionOutcome keys :=
  match advancedIndex message index with
  | none => processInstruction config cache message index context
  | some nonce =>
    if bound : nonce < keys.length then advanceNonce config context ⟨nonce, bound⟩
    else ⟨.error .invalidAccountData, 0, context⟩

/-- The nonce account is the writable one that the first instruction advances. -/
def durableNonceOf (message : SanitizedMessage) : Option Address :=
  match advancedIndex message 0 with
  | none => none
  | some nonce =>
    match message.accountKeys[nonce]? with
    | none => none
    | some address =>
      if message.isWritable nonce && address != Ids.instructions then some address else none

/-- The sample runtime with nonces, whose authority is the account `0x11`. -/
def nonceAgave : Agave :=
  { agave with
    getDurableNonce := durableNonceOf
    verifyNonceAccount := fun account hash =>
      if storedNonce account = some hash then some 0x11 else none
    getIxSigners := fun message _ => message.accountKeys.take 1
    processInstruction := processNonceInstruction }

theorem durableNonceOf_eq_some {message : SanitizedMessage} {address : Address}
    (named : durableNonceOf message = some address) :
    ∃ nonce : Nat, advancedIndex message 0 = some nonce ∧
      message.accountKeys[nonce]? = some address ∧ message.isWritable nonce = true ∧
      address ≠ Ids.instructions := by
  unfold durableNonceOf at named
  split at named
  · cases named
  next nonce advanced =>
    split at named
    · cases named
    next key listed =>
      split at named
      next allowed =>
        cases named
        obtain ⟨writable, plain⟩ := Bool.and_eq_true_iff.1 allowed
        exact ⟨nonce, advanced, listed, writable, by simpa using plain⟩
      · cases named

theorem storedNonce_setLamports (context : InvokeContext keys) (index account : Fin keys.length)
    (lamports : Nat) :
    storedNonce ((setLamports context index lamports).accounts account) =
      storedNonce (context.accounts account) := by
  unfold setLamports
  by_cases same : account = index
  · subst same
    simp [storedNonce]
  · simp [same]

/-- The other instructions move lamports only. -/
theorem storedNonce_processInstruction (config : EnvironmentConfig) (cache : ProgramCache)
    (message : SanitizedMessage) (index : Nat) (context : InvokeContext keys)
    (account : Fin keys.length) :
    storedNonce ((processInstruction config cache message index context).context.accounts account) =
      storedNonce (context.accounts account) := by
  have transferred : ∀ (source target : Fin keys.length) (amount : Nat),
      storedNonce ((transfer context source target amount).context.accounts account) =
        storedNonce (context.accounts account) := by
    intro source target amount
    unfold transfer
    split
    · rfl
    · simp only
      split
      · exact storedNonce_setLamports _ _ _ _
      · simp only [storedNonce_setLamports]
  unfold processInstruction
  split
  · rfl
  · split
    · split
      · unfold processSystem
        split
        · split
          · split
            · exact transferred _ _ _
            · rfl
          · rfl
        · rfl
      · rfl
    · rfl
    · rfl
    · rfl

theorem storedNonce_toBytes (account : AccountSharedData) (nonce : Hash) :
    storedNonce { account with data := Address.toBytes nonce } = some nonce := by
  simp [storedNonce, Address.length_toBytes, Address.ofBytes_toBytes]

/-- An instruction leaves every nonce, or replaces one by the nonce of the environment. -/
theorem storedNonce_processNonceInstruction (config : EnvironmentConfig) (cache : ProgramCache)
    (message : SanitizedMessage) (index : Nat) (context : InvokeContext keys)
    (account : Fin keys.length) :
    storedNonce ((processNonceInstruction config cache message index context).context.accounts
        account) = storedNonce (context.accounts account) ∨
      storedNonce ((processNonceInstruction config cache message index context).context.accounts
        account) = some (agave.durableNonce config.blockhash) := by
  unfold processNonceInstruction
  split
  · exact .inl (storedNonce_processInstruction config cache message index context account)
  next nonce _ =>
    split
    next bound =>
      unfold advanceNonce
      simp only
      split
      · exact .inl rfl
      · split
        · exact .inl rfl
        · by_cases same : account = ⟨nonce, bound⟩
          · subst same
            simp only [Function.update_self]
            exact .inr (storedNonce_toBytes _ _)
          · left
            simp [same]
    · exact .inl rfl

theorem nonceRules : nonceAgave.NonceRules storedNonce where
  fresh := rfl
  balance _ _ := rfl
  verify account hash authority verified := by
    by_contra differs
    simp [nonceAgave, differs] at verified
  named message address found := by
    obtain ⟨nonce, -, listed, writable, plain⟩ := durableNonceOf_eq_some found
    exact ⟨plain, nonce, listed, writable⟩
  prepare _ _ _ _ done := by
    cases done
    rfl
  precompile _ _ _ _ := rfl
  written config cache message index context account hash left := by
    rcases storedNonce_processNonceInstruction config cache message index context account with
      same | fresh
    · exact .inl (same.symm.trans left)
    · exact .inr (Option.some.inj (left.symm.trans fresh))
  settled config cache message index context account settled := by
    rcases storedNonce_processNonceInstruction config cache message index context account with
      same | fresh
    · exact same.trans settled
    · exact fresh
  advance config cache message context account keys_eq distinct named succeeded := by
    subst keys_eq
    obtain ⟨nonce, advanced, listed, -, -⟩ := durableNonceOf_eq_some named
    obtain ⟨bound, key⟩ := List.getElem?_eq_some_iff.1 listed
    have here : account = ⟨nonce, bound⟩ := List.nodup_iff_injective_get.1 distinct key.symm
    change (processNonceInstruction config cache message 0 context).result = _ at succeeded
    change storedNonce ((processNonceInstruction config cache message 0 context).context.accounts
      account) = some (agave.durableNonce config.blockhash)
    subst here
    unfold processNonceInstruction at succeeded ⊢
    simp only [advanced, bound, dif_pos] at succeeded ⊢
    unfold advanceNonce at succeeded ⊢
    simp only at succeeded ⊢
    split at succeeded
    · cases succeeded
    next current found =>
      split at succeeded
      · cases succeeded
      next differs =>
        simp only [differs, if_false, Function.update_self]
        exact storedNonce_toBytes _ _

/-- A VM with a funded account and a nonce account that stores the nonce. -/
def nonceVm (nonce : Hash) : Svm :=
  vm [(0x11, systemAccount 1_000_000),
    (0x4e, { systemAccount 5_000 with data := Address.toBytes nonce })] .empty

/-- Advances the nonce at `0x4e`, which is the recent blockhash. -/
def nonceTx (signature : Signature) (nonce : Hash) : VersionedTransaction :=
  { transferTx signature 0x11 [0x4e] [] with
    recentBlockhash := nonce
    instructions := [⟨2, [1], [4]⟩] }

/-- The execution of a durable-nonce transaction whose nonce is the latest blockhash. -/
def nonceRun : Svm.Execution nonceAgave (nonceVm 0xb10c) (nonceTx 1 0xb10c) where
  sanitized :=
    { message :=
        { accountKeys := [0x11, 0x4e, Ids.systemProgram]
          writable := [true, true, false]
          recentBlockhash := 0xb10c
          instructions := [⟨2, [1], [4]⟩]
          addressTableLookups := [] }
      signature := 1 }
  limits := ⟨200_000, 32_768, 0⟩
  rent := ⟨fun _ => 0⟩
  loaded := [(0x11, systemAccount 995_000),
    (0x4e, { systemAccount 5_000 with data := Address.toBytes 0xb10c }),
    (Ids.systemProgram, builtinAccount)]
  payer := 0x11
  indices := [2]
  failures := []
  sanitize_eq := by rfl
  check_eq := by rfl
  rent_eq := by rfl
  load_eq := by rfl
  resolve_eq := by rfl

theorem nonceRun_advances : nonceRun.AdvancesNonce 0x4e where
  checks := rfl
  named := rfl
  accepted := by decide +kernel
  distinct := by decide
  advanced := ⟨_, _, _, rfl, rfl, rfl, by rfl⟩

end Sample

end Hpsvm
