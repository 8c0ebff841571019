import Hpsvm.Foundation.Snapshot
import Hpsvm.Properties.BatchRuns
import Hpsvm.Properties.Prewarm

/-!
# Batches and serial execution

A stage of several transactions executes them on one prewarmed snapshot and merges what they leave.
That is serial execution where the prewarm adds nothing the caches look at, no staging touches a
cache, and no transaction reads, locked or not, what another one of the stage writes.
-/

namespace Hpsvm

open Foundation (Snapshot.serial Snapshot.snapshot Snapshot.Independent
  Snapshot.snapshot_of_independent GreedyStages.plan GreedyStages.At GreedyStages.planned_plan)

/-! ### Room in the history -/

namespace TransactionHistory

/-- Recording some more transactions does not exceed the capacity. -/
def HasRoom (history : TransactionHistory) (count : Nat) : Prop :=
  history.isEnabled = true → history.entries.entries.length + count ≤ history.entries.cap

theorem isEnabled_record (history : TransactionHistory)
    (entry : Option (Signature × TransactionResult)) :
    (history.record entry).isEnabled = history.isEnabled := by
  unfold record
  split
  · unfold addNewTransaction
    split <;> rfl
  · rfl

theorem HasRoom.record {history : TransactionHistory} {count : Nat}
    (room : history.HasRoom (count + 1)) (entry : Option (Signature × TransactionResult)) :
    (history.record entry).HasRoom count := by
  intro enabled
  rw [isEnabled_record] at enabled
  have fits := room enabled
  unfold TransactionHistory.record
  split
  next signature result =>
    unfold addNewTransaction
    split
    · omega
    · have longer := history.entries.length_put_le signature result
      simp only [Foundation.LruCache.put_cap]
      omega
  · omega

/-- With room for one more, a record is seen by no other signature. -/
theorem checkTransaction_record_of_ne {history : TransactionHistory} (room : history.HasRoom 1)
    {entry : Option (Signature × TransactionResult)} {signature : Signature}
    (differ : ∀ recorded result, entry = some (recorded, result) → signature ≠ recorded) :
    (history.record entry).checkTransaction signature = history.checkTransaction signature := by
  unfold record
  split
  next recorded result =>
    unfold addNewTransaction
    split
    · rfl
    next enabled =>
      have fits := room (by simpa [isEnabled] using enabled)
      have free : history.entries.entries.length < history.entries.cap := by omega
      have same := Foundation.LruCache.peek_put_of_ne free (differ recorded result rfl) result
      simp only [checkTransaction, enabled, if_false, same]
  · rfl

end TransactionHistory

/-! ### Calm staging -/

namespace Accounts

variable (agave : Agave)

theorem untouched_iff_quiet {db : Accounts} {accounts : List (Address × AccountSharedData)} :
    stagingTouchesCaches accounts db = false ↔ ∀ pair ∈ accounts, Quiet db pair.1 pair.2 := by
  constructor
  · exact quiet_of_untouched
  · intro quiet
    refine List.any_eq_false.2 ?_
    intro pair member
    have calm := quiet pair member
    simp only [calm.plain, calm.unmanaged, Bool.false_or, Bool.not_eq_true, getAccountRef]
    cases found : db.cache.inner[pair.1]? with
    | none => rfl
    | some existing => exact calm.overlaid existing found

/-- Quiet writes leave other writes quiet. -/
theorem Quiet.after_addAccounts {db : Accounts} {accounts : List (Address × AccountSharedData)}
    (quiet : ∀ pair ∈ accounts, Quiet db pair.1 pair.2) {pubkey : Address}
    {account : AccountSharedData} (other : Quiet db pubkey account) :
    Quiet (db.addAccounts agave accounts).2 pubkey account := by
  induction accounts generalizing db with
  | nil => exact other
  | cons pair rest ih =>
    obtain ⟨address, first⟩ := pair
    have head : Quiet db address first := quiet _ List.mem_cons_self
    simp only [addAccounts, addAccount_of_quiet agave head]
    refine ih ?_ (other.after_write head.plain)
    intro pair member
    exact (quiet pair (List.mem_cons_of_mem _ member)).after_write head.plain

end Accounts

/-! ### Lock sets and orders -/

namespace TransactionLockSet

/-- Every key of a message is locked. -/
theorem mem_of_key (message : SanitizedMessage)
    (lookups : List MessageAddressTableLookup) {key : Address} (member : key ∈ message.accountKeys) :
    key ∈ (fromTransaction message lookups).writable ∪
      (fromTransaction message lookups).readonly := by
  obtain ⟨index, listed⟩ := List.mem_iff_getElem?.1 member
  have indexed := List.mem_zipIdx_iff_getElem?.2 (show message.accountKeys[(key, index).2]? =
    some (key, index).1 from listed)
  simp only [fromTransaction, Finset.mem_union, List.mem_toFinset, List.mem_map,
    List.mem_filter]
  cases writable : message.isWritable index with
  | true => exact .inl ⟨(key, index), ⟨indexed, by simp [writable]⟩, rfl⟩
  | false => exact .inr (.inl ⟨(key, index), ⟨indexed, by simp [writable]⟩, rfl⟩)

/-- Without a conflict, nothing that the first writes is locked by the second. -/
theorem notMem_of_no_conflict {first second : TransactionLockSet}
    (free : first.conflictsWith second = false) {key : Address} (written : key ∈ first.writable) :
    key ∉ second.writable ∪ second.readonly := by
  intro locked
  simp only [conflictsWith, Bool.or_eq_false_iff, decide_eq_false_iff_not,
    not_not] at free
  have both := Finset.mem_inter.2 ⟨written, locked⟩
  rw [free.1] at both
  exact absurd both (Finset.notMem_empty key)

end TransactionLockSet

/-- The stages of a plan, one after the other. -/
def TransactionBatchPlan.order (plan : TransactionBatchPlan) : List Nat :=
  plan.stages.flatMap fun stage => stage.transactionIndexes

namespace Svm

variable (agave : Agave)

/-- The VM once an outcome is merged into it. -/
def committed (vm : Svm) (detached : DetachedTx) : Svm :=
  let delta := (detachedIntoResultAndDelta detached vm.history.isEnabled).2
  { vm with
    accounts := (vm.accounts.syncAccounts agave delta.postAccounts).2
    history := vm.history.record delta.historyEntry }

/-- Staging the outcome of the transaction touches no cache. -/
def Calm (vm : Svm) (tx : VersionedTransaction) : Prop :=
  stagingTouchesCaches (vm.transactDetached agave tx).postAccounts vm.accounts = false

/-- The addresses that the outcome of a transaction writes. -/
def writes (vm : Svm) (tx : VersionedTransaction) : List Address :=
  (vm.transactDetached agave tx).postAccounts.map Prod.fst

/-- The second transaction reads nothing that the first one writes, and is not known by the
signature that the first one records. -/
structure Apart (vm : Svm) (first second : VersionedTransaction) : Prop where
  tables : ∀ lookup ∈ lookupsOf second, lookup.accountKey ∉ vm.writes agave first
  keys : ∀ sanitized, vm.sanitize agave second = .ok sanitized →
    ∀ key ∈ sanitized.message.accountKeys, key ∉ vm.writes agave first
  unlocked : ∀ key ∈ vm.unlockedReads agave second, key ∉ vm.writes agave first
  signature : ∀ sanitized, vm.sanitize agave second = .ok sanitized →
    vm.version.sigverify = true → (vm.transactDetached agave first).included = true →
      sanitized.signature ≠ (vm.transactDetached agave first).info.signature

/-- What a delta stages is what the outcome holds, or nothing. -/
theorem mem_delta_postAccounts {detached : DetachedTx} {enabled : Bool}
    {pair : Address × AccountSharedData}
    (member : pair ∈ (detachedIntoResultAndDelta detached enabled).2.postAccounts) :
    pair ∈ detached.postAccounts := by
  unfold detachedIntoResultAndDelta at member
  simp only at member
  split at member
  · exact member
  · cases member

theorem historyEntry_of_delta {detached : DetachedTx} {enabled : Bool} {signature : Signature}
    {result : TransactionResult}
    (recorded : (detachedIntoResultAndDelta detached enabled).2.historyEntry =
      some (signature, result)) :
    detached.included = true ∧ signature = detached.info.signature := by
  unfold detachedIntoResultAndDelta at recorded
  simp only at recorded
  split at recorded
  next included =>
    split at recorded
    · cases recorded
      exact ⟨included, rfl⟩
    · cases recorded
  · cases recorded

/-- The writes of a calm transaction, in the order they are staged. -/
theorem Calm.quiet {vm : Svm} {tx : VersionedTransaction} (calm : vm.Calm agave tx) :
    ∀ pair ∈ partitionProgramdata [] [] (detachedIntoResultAndDelta (vm.transactDetached agave tx)
      vm.history.isEnabled).2.postAccounts, Accounts.Quiet vm.accounts pair.1 pair.2 := by
  intro pair member
  exact Accounts.quiet_of_untouched calm pair
    (mem_delta_postAccounts (Accounts.mem_partitionProgramdata.1 member))

/-- Merging a calm outcome is accepted and leaves the caches alone. -/
theorem Calm.synced {vm : Svm} {tx : VersionedTransaction} (calm : vm.Calm agave tx) :
    ∃ accounts, vm.accounts.syncAccounts agave (detachedIntoResultAndDelta
        (vm.transactDetached agave tx) vm.history.isEnabled).2.postAccounts = (.ok (), accounts) ∧
      accounts.programsCache = vm.accounts.programsCache ∧
      accounts.sysvarCache = vm.accounts.sysvarCache :=
  Accounts.addAccounts_of_quiet agave (calm.quiet agave)

theorem Calm.sameRuntime {vm : Svm} {tx : VersionedTransaction} (calm : vm.Calm agave tx) :
    SameRuntime vm (vm.committed agave (vm.transactDetached agave tx)) := by
  obtain ⟨accounts, synced, programs, sysvars⟩ := calm.synced agave
  have keeps := vm.accounts.syncAccounts_keeps agave (detachedIntoResultAndDelta
    (vm.transactDetached agave tx) vm.history.isEnabled).2.postAccounts
  rw [synced] at keeps
  have merged : (vm.committed agave (vm.transactDetached agave tx)).accounts = accounts := by
    simp only [committed, synced]
  refine ⟨rfl, ?_, ?_, ?_⟩
  · rw [merged, programs]
  · rw [merged, sysvars]
  · rw [merged]
    exact keeps.2

theorem Calm.tryGetAccount {vm : Svm} {tx : VersionedTransaction} (calm : vm.Calm agave tx)
    {key : Address} (unwritten : key ∉ vm.writes agave tx) :
    (vm.committed agave (vm.transactDetached agave tx)).accounts.tryGetAccount key =
      vm.accounts.tryGetAccount key := by
  obtain ⟨accounts, synced, -, -⟩ := calm.synced agave
  have read := Accounts.tryGetAccount_addAccounts agave synced key
  have unstaged : Accounts.stagedCopy (detachedIntoResultAndDelta (vm.transactDetached agave tx)
      vm.history.isEnabled).2.postAccounts key = none := by
    refine Accounts.stagedCopy_eq_none_iff.2 ?_
    intro staged
    obtain ⟨pair, member, rfl⟩ := List.mem_map.1 staged
    exact unwritten (List.mem_map_of_mem (mem_delta_postAccounts member))
  unfold Accounts.stagedCopy at unstaged
  rw [unstaged] at read
  simpa only [committed, synced] using read

theorem Calm.quiet_committed {vm : Svm} {tx : VersionedTransaction} (calm : vm.Calm agave tx)
    {key : Address} {account : AccountSharedData} (quiet : Accounts.Quiet vm.accounts key account) :
    Accounts.Quiet (vm.committed agave (vm.transactDetached agave tx)).accounts key account :=
  quiet.after_addAccounts agave (calm.quiet agave)

/-- A calm transaction is sent by merging its outcome. -/
theorem Calm.sendTransaction {vm : Svm} {tx : VersionedTransaction} (calm : vm.Calm agave tx) :
    vm.sendTransaction agave tx = ((vm.transactDetached agave tx).result,
      vm.committed agave (vm.transactDetached agave tx)) := by
  obtain ⟨accounts, synced, -, -⟩ := calm.synced agave
  rw [sendTransaction_staged]
  cases fatal : (vm.transactDetached agave tx).fatalError with
  | none => simp only [stagedDelta, synced, committed]
  | some error =>
    have excluded := excluded_of_fatalError agave fatal
    simp only [committed, detachedIntoResultAndDelta, excluded, Bool.false_eq_true, if_false,
      Accounts.syncAccounts, partitionProgramdata, List.append_nil, Accounts.addAccounts,
      TransactionHistory.record]

/-! ### Independent transactions -/

/-- Committing the first transaction is not seen by the second. -/
theorem Apart.readsAlike {vm : Svm} {first second : VersionedTransaction}
    (apart : vm.Apart agave first second) (calm : vm.Calm agave first)
    (room : vm.history.HasRoom 1) :
    ReadsAlike agave vm (vm.committed agave (vm.transactDetached agave first)) second := by
  refine ⟨calm.sameRuntime agave, ?_, ?_, ?_, ?_⟩
  · intro lookup member
    exact calm.tryGetAccount agave (apart.tables lookup member)
  · intro sanitized equal key member
    exact calm.tryGetAccount agave (apart.keys sanitized equal key member)
  · intro key member
    exact calm.tryGetAccount agave (apart.unlocked key member)
  · intro sanitized equal verify
    refine TransactionHistory.checkTransaction_record_of_ne room ?_
    intro recorded result entry
    obtain ⟨included, rfl⟩ := historyEntry_of_delta entry
    exact apart.signature sanitized equal verify included

theorem Calm.after {vm : Svm} {first second : VersionedTransaction}
    (apart : vm.Apart agave first second) (calm : vm.Calm agave first)
    (calm' : vm.Calm agave second) (room : vm.history.HasRoom 1) :
    (vm.committed agave (vm.transactDetached agave first)).Calm agave second := by
  unfold Calm
  rw [transactDetached_congr agave (apart.readsAlike agave calm room)]
  refine Accounts.untouched_iff_quiet.2 ?_
  intro pair member
  exact calm.quiet_committed agave (Accounts.quiet_of_untouched calm' pair member)

/-- Two later transactions stay apart. -/
theorem Apart.after {vm : Svm} {first second third : VersionedTransaction}
    (apart : vm.Apart agave second third) (calm : vm.Calm agave first)
    (before : vm.Apart agave first second) (before' : vm.Apart agave first third)
    (room : vm.history.HasRoom 1) :
    (vm.committed agave (vm.transactDetached agave first)).Apart agave second third := by
  have alike := before.readsAlike agave calm room
  have alike' := before'.readsAlike agave calm room
  have version : (vm.committed agave (vm.transactDetached agave first)).version = vm.version := rfl
  have sanitizes := sanitize_congr agave alike'.runtime alike'.tables
  have same : (vm.committed agave (vm.transactDetached agave first)).writes agave second =
      vm.writes agave second := by
    unfold writes
    rw [transactDetached_congr agave alike]
  refine ⟨?_, ?_, ?_, ?_⟩
  · rw [same]
    exact apart.tables
  · rw [same, sanitizes]
    exact apart.keys
  · rw [same, unlockedReads_congr agave alike']
    exact apart.unlocked
  · rw [sanitizes, version, transactDetached_congr agave alike]
    exact apart.signature

/-- Every transaction is calm at its turn. -/
def CalmAlong (vm : Svm) : List VersionedTransaction → Prop
  | [] => True
  | tx :: rest =>
    vm.Calm agave tx ∧ CalmAlong (vm.committed agave (vm.transactDetached agave tx)) rest

/-- Pairwise apart and calm at the start, transactions are independent and calm throughout. -/
theorem independent_of_apart {vm : Svm} {txs : List VersionedTransaction}
    (room : vm.history.HasRoom txs.length) (calm : ∀ tx ∈ txs, vm.Calm agave tx)
    (apart : txs.Pairwise (vm.Apart agave)) :
    Snapshot.Independent (fun vm tx => vm.transactDetached agave tx)
        (fun vm detached => vm.committed agave detached) vm txs ∧ vm.CalmAlong agave txs := by
  induction txs generalizing vm with
  | nil => exact ⟨trivial, trivial⟩
  | cons tx rest ih =>
    obtain ⟨later, others⟩ := List.pairwise_cons.1 apart
    have first := calm tx List.mem_cons_self
    have one : vm.history.HasRoom 1 := by
      intro enabled
      have fits := room enabled
      simp only [List.length_cons] at fits
      omega
    have calm' : ∀ other ∈ rest, vm.Calm agave other :=
      fun other member => calm other (List.mem_cons_of_mem _ member)
    have next := @ih (vm.committed agave (vm.transactDetached agave tx)) (room.record _) ?_ ?_
    · refine ⟨⟨?_, next.1⟩, first, next.2⟩
      intro other member
      exact transactDetached_congr agave ((later other member).readsAlike agave first one)
    · intro other member
      exact Calm.after agave (later other member) first (calm' other member) one
    · refine others.imp_of_mem ?_
      intro second third member member' apart
      exact apart.after agave first (later second member) (later third member') one

/-! ### Serial execution in a given order -/

/-- The transactions at some indexes. -/
def pickTransactions (transactions : List VersionedTransaction) (indexes : List Nat) :
    List VersionedTransaction :=
  indexes.filterMap fun index => transactions[index]?

/-- `send_transaction` on the transactions at some indexes, one by one. -/
def sendInOrder (transactions : List VersionedTransaction) (vm : Svm) :
    List Nat → List (Nat × TransactionResult) × Svm
  | [] => ([], vm)
  | index :: rest =>
    match transactions[index]? with
    | none => sendInOrder transactions vm rest
    | some tx =>
      let (result, vm) := vm.sendTransaction agave tx
      let (outcomes, vm) := sendInOrder transactions vm rest
      ((index, result) :: outcomes, vm)

theorem sendInOrder_append (transactions : List VersionedTransaction) (vm : Svm)
    (before after : List Nat) :
    vm.sendInOrder agave transactions (before ++ after) =
      ((vm.sendInOrder agave transactions before).1 ++
          ((vm.sendInOrder agave transactions before).2.sendInOrder agave transactions after).1,
        ((vm.sendInOrder agave transactions before).2.sendInOrder agave transactions after).2) := by
  induction before generalizing vm with
  | nil => rfl
  | cons index rest ih =>
    cases found : transactions[index]? with
    | none => simp only [List.cons_append, sendInOrder, found, ih]
    | some tx => simp only [List.cons_append, sendInOrder, found, ih]

/-- Sending keeps the source, and leaves at most one more entry in the history. -/
theorem sendTransaction_keeps (vm : Svm) (tx : VersionedTransaction) :
    (vm.sendTransaction agave tx).2.accounts.source = vm.accounts.source ∧
      ∃ entry, (vm.sendTransaction agave tx).2.history = vm.history.record entry := by
  have keeps := vm.accounts.syncAccounts_keeps agave (vm.stagedDelta agave tx).postAccounts
  rw [sendTransaction_staged]
  split
  · exact ⟨rfl, none, rfl⟩
  · split
    next equal =>
      rw [equal] at keeps
      exact ⟨keeps.1, none, rfl⟩
    next equal =>
      rw [equal] at keeps
      exact ⟨keeps.1, _, rfl⟩

theorem sendInOrder_keeps {transactions : List VersionedTransaction} {vm : Svm}
    {indexes : List Nat} {count : Nat} (room : vm.history.HasRoom (indexes.length + count)) :
    (vm.sendInOrder agave transactions indexes).2.accounts.source = vm.accounts.source ∧
      (vm.sendInOrder agave transactions indexes).2.history.HasRoom count := by
  induction indexes generalizing vm with
  | nil => exact ⟨rfl, by simpa [sendInOrder] using room⟩
  | cons index rest ih =>
    have more : vm.history.HasRoom (rest.length + count + 1) := by
      have same : (index :: rest).length + count = rest.length + count + 1 := by
        simp only [List.length_cons]
        omega
      rwa [same] at room
    cases found : transactions[index]? with
    | none =>
      simp only [sendInOrder, found]
      refine ih ?_
      intro enabled
      have fits := more enabled
      omega
    | some tx =>
      obtain ⟨source, entry, history⟩ := vm.sendTransaction_keeps agave tx
      simp only [sendInOrder, found, ← source]
      refine ih ?_
      rw [history]
      exact more.record entry

/-- Calm throughout, sending one by one is running and committing one by one. -/
theorem sendInOrder_of_calm {transactions : List VersionedTransaction} {vm : Svm}
    {indexes : List Nat} (in_range : ∀ index ∈ indexes, index < transactions.length)
    (calm : vm.CalmAlong agave (pickTransactions transactions indexes)) :
    vm.sendInOrder agave transactions indexes =
      let ran := Snapshot.serial (fun vm tx => vm.transactDetached agave tx)
        (fun vm detached => vm.committed agave detached) vm (pickTransactions transactions indexes)
      (indexes.zip (ran.1.map fun detached => detached.result), ran.2) := by
  induction indexes generalizing vm with
  | nil => rfl
  | cons index rest ih =>
    have inside := in_range index List.mem_cons_self
    have found : transactions[index]? = some transactions[index] :=
      List.getElem?_eq_getElem inside
    have picked : pickTransactions transactions (index :: rest) =
        transactions[index] :: pickTransactions transactions rest := by
      unfold pickTransactions
      rw [List.filterMap_cons_some found]
    rw [picked] at calm ⊢
    obtain ⟨first, others⟩ := calm
    have next := ih (fun other member => in_range other (List.mem_cons_of_mem _ member)) others
    simp only [sendInOrder, found, first.sendTransaction agave, next, Snapshot.serial,
      List.map_cons, List.zip_cons_cons]

/-! ### A stage on a snapshot -/

/-- What the worker of a transaction of the batch answers. -/
theorem workerResult_of_lt (warm : Svm) {transactions : List VersionedTransaction} {index : Nat}
    (inside : index < transactions.length) :
    warm.workerResult agave transactions index = some ⟨index,
      (warm.transactDetached agave transactions[index]).result,
      warm.stagedDelta agave transactions[index]⟩ := by
  simp only [workerResult, List.getElem?_eq_getElem inside, Option.map_some,
    detachedIntoResultAndDelta, stagedDelta]

/-- The results of the workers, slot by slot. -/
theorem outcomes_of_stageResults {warm : Svm} {stage : TransactionBatchStage}
    {transactions : List VersionedTransaction} (listed : stage.Listed transactions) :
    ((warm.stageResults agave stage transactions).map fun done => (done.index, done.result)) =
      stage.transactionIndexes.zip
        (((pickTransactions transactions stage.transactionIndexes).map
          (warm.transactDetached agave)).map fun detached => detached.result) := by
  obtain ⟨indexes⟩ := stage
  have in_range := listed.in_range
  clear listed
  unfold stageResults pickTransactions
  induction indexes with
  | nil => rfl
  | cons index rest ih =>
    have inside := in_range index List.mem_cons_self
    have found : transactions[index]? = some transactions[index] :=
      List.getElem?_eq_getElem inside
    have worked := warm.workerResult_of_lt agave inside
    have others := ih fun other member => in_range other (List.mem_cons_of_mem _ member)
    simp only at others
    simp only [List.filterMap_cons_some worked, List.filterMap_cons_some found, List.map_cons,
      List.zip_cons_cons, others]

theorem isEnabled_committed (vm : Svm) (detached : DetachedTx) :
    (vm.committed agave detached).history.isEnabled = vm.history.isEnabled :=
  TransactionHistory.isEnabled_record _ _

/-- The merge commits the outcomes one after the other. -/
theorem merged_stageResults {warm : Svm} {stage : TransactionBatchStage}
    {transactions : List VersionedTransaction} (listed : stage.Listed transactions) :
    warm.merged agave (warm.stageResults agave stage transactions) =
      ((pickTransactions transactions stage.transactionIndexes).map
        (warm.transactDetached agave)).foldl (fun vm detached => vm.committed agave detached)
        warm := by
  obtain ⟨indexes⟩ := stage
  have in_range := listed.in_range
  clear listed
  unfold merged stageResults pickTransactions
  -- The workers stay those of the snapshot while the merge goes on from another VM.
  suffices general : ∀ vm : Svm, vm.history.isEnabled = warm.history.isEnabled →
      (indexes.filterMap (warm.workerResult agave transactions)).foldl (fun vm stageResult =>
        { vm with
          accounts := (vm.accounts.syncAccounts agave stageResult.delta.postAccounts).2
          history := vm.history.record stageResult.delta.historyEntry }) vm =
      ((indexes.filterMap fun index => transactions[index]?).map
        (warm.transactDetached agave)).foldl (fun vm detached => vm.committed agave detached) vm by
    exact general warm rfl
  simp only at in_range
  induction indexes with
  | nil =>
    intro vm _
    rfl
  | cons index rest ih =>
    intro vm enabled
    have inside := in_range index List.mem_cons_self
    have found : transactions[index]? = some transactions[index] :=
      List.getElem?_eq_getElem inside
    have worked := warm.workerResult_of_lt agave inside
    have others := ih (fun other member => in_range other (List.mem_cons_of_mem _ member))
      (vm.committed agave (warm.transactDetached agave transactions[index]))
      (by rw [isEnabled_committed, enabled])
    rw [List.filterMap_cons_some worked, List.filterMap_cons_some found, List.map_cons,
      List.foldl_cons, List.foldl_cons, ← others]
    simp only [committed, stagedDelta, enabled]

/-- Committing keeps VMs alike. -/
theorem Warmed.committed {cold warm : Svm} (warmed : Warmed agave cold warm)
    (detached : DetachedTx) :
    Warmed agave (cold.committed agave detached) (warm.committed agave detached) := by
  have synced := (warmed.accounts.syncAccounts
    (detachedIntoResultAndDelta detached cold.history.isEnabled).2.postAccounts).2
  refine ⟨?_, ?_⟩
  · simp only [Svm.committed, warmed.history]
    rw [warmed.rest]
  · simpa only [Svm.committed, warmed.history] using synced

/-- The prewarms of a stage read ahead what the caches do not look at. -/
theorem Warmed.prewarmStage {cold warm warm' : Svm} (warmed : Warmed agave cold warm)
    {readSet : List Address} (alike : cold.accounts.source.AnswersAlike)
    (inert : ∀ address ∈ readSet, ∀ account, cold.accounts.cache.inner[address]? = none →
      cold.accounts.tryGetAccount address = .ok (some account) →
        Accounts.Inert agave address account)
    (resolved : cold.accounts.programsToResolve readSet = [])
    (done : warm.prewarmStage agave readSet = (.ok (), warm')) : Warmed agave cold warm' := by
  unfold Svm.prewarmStage at done
  split at done
  · cases done
  next accounts prewarmed =>
    have ahead := warmed.accounts.prewarm alike inert prewarmed
    have nothing : accounts.prewarmPrograms agave readSet = (.ok (), accounts) := by
      unfold Accounts.prewarmPrograms
      rw [ahead.programsToResolve_eq, resolved]
      rfl
    rw [nothing] at done
    cases done
    refine ⟨?_, ahead⟩
    simp only
    rw [warmed.rest]

/-! ### Isolated stages -/

/-- The later transaction reads nothing without a lock that the earlier one has locked for writing,
and has another signature where signatures are verified. -/
structure Unrelated (vm : Svm) (first second : VersionedTransaction) : Prop where
  unlocked : ∀ lockSet, vm.lockSet? agave first = some lockSet →
    ∀ key ∈ vm.unlockedReads agave second, key ∉ lockSet.writable
  signature : vm.version.sigverify = true → ∀ sanitized sanitized',
    vm.sanitize agave first = .ok sanitized → vm.sanitize agave second = .ok sanitized' →
      sanitized'.signature ≠ sanitized.signature

/-- What the locks of a plan do not ensure for a stage of several transactions: they still resolve
as they were planned, touch no cache, have no unlocked reads in common with each other's writes, and
the prewarm has nothing to show to the caches. -/
structure StageIsolated (planned vm : Svm) (stage : TransactionBatchStage)
    (transactions : List VersionedTransaction) : Prop where
  sanitized : ∀ tx ∈ pickTransactions transactions stage.transactionIndexes,
    vm.sanitize agave tx = planned.sanitize agave tx
  calm : ∀ tx ∈ pickTransactions transactions stage.transactionIndexes, vm.Calm agave tx
  unrelated : (pickTransactions transactions stage.transactionIndexes).Pairwise
    (vm.Unrelated agave)
  inert : ∀ address ∈ stageReadSet stage transactions, ∀ account,
    vm.accounts.cache.inner[address]? = none →
    vm.accounts.tryGetAccount address = .ok (some account) → Accounts.Inert agave address account
  resolved : vm.accounts.programsToResolve (stageReadSet stage transactions) = []

/-- Every stage of several transactions is isolated in the state that the serial run of the earlier
stages leaves. -/
def StagesIsolated (planned : Svm) (transactions : List VersionedTransaction) (vm : Svm) :
    List TransactionBatchStage → Prop
  | [] => True
  | stage :: rest =>
    (stage.transactionIndexes.length ≠ 1 → StageIsolated agave planned vm stage transactions) ∧
      StagesIsolated planned transactions
        (vm.sendInOrder agave transactions stage.transactionIndexes).2 rest

theorem lockSet?_of_sanitize {vm : Svm} {tx : VersionedTransaction} {sanitized}
    (done : vm.sanitize agave tx = .ok sanitized) :
    vm.lockSet? agave tx = some (.fromTransaction sanitized.message (lookupsOf tx)) := by
  simp only [lockSet?, sanitizeTransactionForBatch, done]

theorem lockSet?_congr {vm vm' : Svm} {tx : VersionedTransaction}
    (same : vm'.sanitize agave tx = vm.sanitize agave tx) :
    vm'.lockSet? agave tx = vm.lockSet? agave tx := by
  simp only [lockSet?, sanitizeTransactionForBatch, same]

/-- A transaction writes only what it has locked for writing. -/
theorem writes_locked {vm : Svm} {tx : VersionedTransaction} {lockSet : TransactionLockSet}
    (locked : vm.lockSet? agave tx = some lockSet) {key : Address}
    (written : key ∈ vm.writes agave tx) : key ∈ lockSet.writable := by
  obtain ⟨pair, member, rfl⟩ := List.mem_map.1 written
  obtain ⟨sanitized, done, index, listed, writable⟩ := writable_of_postAccounts agave member
  rw [lockSet?_of_sanitize agave done] at locked
  cases locked
  simp only [TransactionLockSet.fromTransaction, List.mem_toFinset, List.mem_map, List.mem_filter]
  exact ⟨(pair.1, index), ⟨List.mem_zipIdx_iff_getElem?.2 listed, by simp [writable]⟩, rfl⟩

/-- Transactions whose locks do not conflict and that are unrelated beyond them are apart. -/
theorem apart_of_no_conflict {vm : Svm} {first second : VersionedTransaction}
    {lockSet lockSet' : TransactionLockSet} (locked : vm.lockSet? agave first = some lockSet)
    (locked' : vm.lockSet? agave second = some lockSet')
    (free : lockSet.conflictsWith lockSet' = false) (unrelated : vm.Unrelated agave first second) :
    vm.Apart agave first second := by
  have unlocked : ∀ key, key ∈ vm.writes agave first → key ∉ lockSet'.writable ∪ lockSet'.readonly :=
    fun key written => TransactionLockSet.notMem_of_no_conflict free (writes_locked agave locked written)
  refine ⟨?_, ?_, ?_, ?_⟩
  · intro lookup member written
    refine unlocked _ written ?_
    -- The planner locks the lookup tables for reading.
    have tables : lookup.accountKey ∈ lockSet'.readonly := by
      unfold lockSet? at locked'
      split at locked'
      · cases locked'
        simp only [TransactionLockSet.fromTransaction, Finset.mem_union, List.mem_toFinset]
        exact .inr (List.mem_map_of_mem member)
      · cases locked'
    exact Finset.mem_union_right _ tables
  · intro sanitized done key member written
    refine unlocked key written ?_
    rw [lockSet?_of_sanitize agave done] at locked'
    cases locked'
    exact TransactionLockSet.mem_of_key _ _ member
  · intro key member written
    exact unrelated.unlocked lockSet locked key member (writes_locked agave locked written)
  · intro sanitized done verify included
    rcases vm.transactDetached_cases agave first with ⟨result, rejected, detached⟩ | ⟨run, detached⟩
    · have excluded : (vm.executionIntoDetached agave result []).included = false :=
        rejected.not_included
      rw [detached, excluded] at included
      cases included
    · rw [detached, Execution.detached_signature]
      exact unrelated.signature verify run.sanitized sanitized run.sanitize_eq done

/-- The stages of a plan hold each transaction once, and those of one stage do not conflict. -/
theorem apart_of_planned {vm : Svm} {txs : List VersionedTransaction}
    {plan : TransactionBatchPlan} (planned : vm.planTransactionBatch agave txs = .ok plan) :
    (plan.stages.flatMap fun stage => stage.transactionIndexes).Nodup ∧
    ∀ stage ∈ plan.stages, ∀ first ∈ stage.transactionIndexes, ∀ second ∈ stage.transactionIndexes,
      first < second → ∀ tx tx', txs[first]? = some tx → txs[second]? = some tx' →
      ∃ lockSet lockSet', vm.lockSet? agave tx = some lockSet ∧ vm.lockSet? agave tx' = some lockSet' ∧
        lockSet.conflictsWith lockSet' = false := by
  obtain ⟨locks, listed, -, same⟩ := planTransactionBatch_eq_ok agave planned
  have invariant := GreedyStages.planned_plan TransactionLockSet.locking locks
  have known : ∀ (index : Nat) (tx : VersionedTransaction), txs[index]? = some tx →
      ∃ lockSet, locks[index]? = some lockSet ∧ vm.lockSet? agave tx = some lockSet := by
    intro index tx found
    have equal := congrArg (fun items => items[index]?) listed
    simp only [List.getElem?_map, found, Option.map_some] at equal
    cases there : locks[index]? with
    | none =>
      rw [there] at equal
      cases equal
    | some lockSet =>
      rw [there] at equal
      exact ⟨lockSet, rfl, Option.some.inj equal⟩
  refine ⟨?_, ?_⟩
  · -- Within a stage the indexes ascend, and no index is in two stages.
    rw [same, List.flatMap_map, List.nodup_flatMap]
    refine ⟨?_, ?_⟩
    · intro stage member
      exact (invariant.ascending stage member).imp fun below => Nat.ne_of_lt below
    · rw [List.pairwise_iff_getElem]
      intro place place' inside inside' below
      simp only [Function.onFun, List.disjoint_left]
      intro index there there'
      have once := invariant.once index place place'
        ⟨_, List.getElem?_eq_getElem inside, there⟩ ⟨_, List.getElem?_eq_getElem inside', there'⟩
      omega
  · intro stage member first there second there' below tx tx' found found'
    rw [same] at member
    obtain ⟨scheduled, present, rfl⟩ := List.mem_map.1 member
    obtain ⟨place, at_⟩ := List.mem_iff_getElem?.1 present
    obtain ⟨lockSet, own, locked⟩ := known first tx found
    obtain ⟨lockSet', other, locked'⟩ := known second tx' found'
    refine ⟨lockSet, lockSet', locked, locked', ?_⟩
    rw [← TransactionLockSet.locking_conflicts]
    exact invariant.apart place first second lockSet lockSet' ⟨scheduled, at_, there⟩
      ⟨scheduled, at_, there'⟩ below own other

/-- The transactions of an isolated stage are pairwise apart. -/
theorem StageIsolated.apart {planned vm : Svm} {transactions : List VersionedTransaction}
    {plan : TransactionBatchPlan} (made : planned.planTransactionBatch agave transactions = .ok plan)
    {stage : TransactionBatchStage} (member : stage ∈ plan.stages)
    (isolated : StageIsolated agave planned vm stage transactions) :
    (pickTransactions transactions stage.transactionIndexes).Pairwise (vm.Apart agave) := by
  have ascending := ((listed_of_planned agave made).1 stage member).ascending
  have apart := (apart_of_planned agave made).2 stage member
  have unrelated := isolated.unrelated
  have sanitized := isolated.sanitized
  unfold pickTransactions at unrelated sanitized ⊢
  rw [List.pairwise_filterMap] at unrelated ⊢
  refine (ascending.and unrelated).imp_of_mem ?_
  rintro first second there there' ⟨below, beyond⟩ tx found tx' found'
  obtain ⟨lockSet, lockSet', locked, locked', free⟩ :=
    apart first there second there' below tx tx' found found'
  have same := lockSet?_congr agave (sanitized tx (List.mem_filterMap.2 ⟨first, there, found⟩))
  have same' := lockSet?_congr agave (sanitized tx' (List.mem_filterMap.2 ⟨second, there', found'⟩))
  exact apart_of_no_conflict agave (same.trans locked) (same'.trans locked') free
    (beyond tx found tx' found')

/-! ### The whole batch -/

/-- One stage of the batch does what the serial run of its transactions does. -/
theorem Warmed.stage {planned cold warm next : Svm} {transactions : List VersionedTransaction}
    {plan : TransactionBatchPlan} (made : planned.planTransactionBatch agave transactions = .ok plan)
    {stage : TransactionBatchStage} (member : stage ∈ plan.stages)
    {schedule : Schedule} {results results' : List (Option TransactionResult)}
    (warmed : Warmed agave cold warm) (alike : cold.accounts.source.AnswersAlike)
    (room : cold.history.HasRoom stage.transactionIndexes.length)
    (isolated : stage.transactionIndexes.length ≠ 1 →
      StageIsolated agave planned cold stage transactions)
    (ran : warm.runStage agave schedule stage transactions results = some (.ok results', next)) :
    results' = fillResults results
        (cold.sendInOrder agave transactions stage.transactionIndexes).1 ∧
      Warmed agave (cold.sendInOrder agave transactions stage.transactionIndexes).2 next := by
  have listed := (listed_of_planned agave made).1 stage member
  have step := stageStep_runStage agave warm schedule listed results
  rw [ran] at step
  cases step with
  | single index tx alone found =>
    obtain ⟨answer, left⟩ := warmed.sendTransaction tx
    rw [answer, alone]
    simp only [sendInOrder, found]
    exact ⟨trivial, left⟩
  | parallel warm' several prewarm accepts =>
    have stageIsolated := isolated several
    have ahead := warmed.prewarmStage agave alike stageIsolated.inert stageIsolated.resolved prewarm
    have count : (pickTransactions transactions stage.transactionIndexes).length ≤
        stage.transactionIndexes.length := List.length_filterMap_le _ _
    have enough : cold.history.HasRoom
        (pickTransactions transactions stage.transactionIndexes).length := by
      intro enabled
      have fits := room enabled
      omega
    obtain ⟨independent, calm⟩ := independent_of_apart agave enough stageIsolated.calm
      (stageIsolated.apart agave made member)
    -- The workers run on the prewarmed snapshot, the serial run on the cold VM.
    obtain ⟨outcomes, left⟩ := Snapshot.snapshot_of_independent independent ahead
      (fun alike tx => Warmed.transactDetached_eq alike tx)
      (fun alike detached => Warmed.committed agave alike detached)
    rw [sendInOrder_of_calm agave listed.in_range calm, outcomes_of_stageResults agave listed,
      merged_stageResults agave listed]
    refine ⟨?_, left⟩
    simp only [← outcomes]
    rfl

/-- The stages of the batch do what the serial run in their order does. -/
theorem Warmed.stages {planned cold warm next : Svm} {transactions : List VersionedTransaction}
    {plan : TransactionBatchPlan} (made : planned.planTransactionBatch agave transactions = .ok plan)
    {stages : List TransactionBatchStage} (members : ∀ stage ∈ stages, stage ∈ plan.stages)
    {schedule : Nat → Schedule} {stageIndex : Nat}
    {results results' : List (Option TransactionResult)}
    (warmed : Warmed agave cold warm) (alike : cold.accounts.source.AnswersAlike)
    (room : cold.history.HasRoom (stages.flatMap fun stage => stage.transactionIndexes).length)
    (isolated : StagesIsolated agave planned transactions cold stages)
    (ran : warm.runStages agave schedule transactions stageIndex stages results =
      some (.ok results', next)) :
    results' = fillResults results (cold.sendInOrder agave transactions
        (stages.flatMap fun stage => stage.transactionIndexes)).1 ∧
      Warmed agave (cold.sendInOrder agave transactions
        (stages.flatMap fun stage => stage.transactionIndexes)).2 next := by
  -- Both runs go on from what a stage left: the serial one stays cold, the batch reads ahead.
  induction stages generalizing cold warm stageIndex results with
  | nil =>
    cases ran
    exact ⟨rfl, warmed⟩
  | cons stage rest ih =>
    obtain ⟨first, others⟩ := isolated
    rw [List.flatMap_cons] at room ⊢
    rw [List.length_append] at room
    have enough : cold.history.HasRoom stage.transactionIndexes.length := by
      intro enabled
      have fits := room enabled
      omega
    unfold runStages at ran
    cases one : warm.runStage agave (schedule stageIndex) stage transactions results with
    | none =>
      rw [one] at ran
      cases ran
    | some outcome =>
      obtain ⟨outcome, after⟩ := outcome
      rw [one] at ran
      cases outcome with
      | error error => cases ran
      | ok filled =>
        obtain ⟨rfl, left⟩ := warmed.stage agave made (members stage List.mem_cons_self) alike enough
          first one
        obtain ⟨source, room'⟩ := sendInOrder_keeps agave room
        have rest := ih (fun stage member => members stage (List.mem_cons_of_mem _ member)) left
          (by rwa [source]) room' others ran
        rw [sendInOrder_append]
        refine ⟨?_, rest.2⟩
        rw [rest.1]
        simp only [fillResults, List.foldl_append]

theorem eq_map_some_of_mapM_id {slots : List (Option TransactionResult)}
    {values : List TransactionResult} (complete : slots.mapM id = some values) :
    values.map some = slots := by
  induction slots generalizing values with
  | nil =>
    cases complete
    rfl
  | cons slot rest ih =>
    rw [List.mapM_cons] at complete
    cases slot with
    | none => cases complete
    | some value =>
      cases others : rest.mapM id with
      | none =>
        rw [others] at complete
        cases complete
      | some values =>
        rw [others] at complete
        cases complete
        rw [List.map_cons, ih others]

/-- The results, the accounts and the history of a batch are those of sending its transactions one
by one in the order of the plan. -/
structure MatchesSerial (vm : Svm) (transactions : List VersionedTransaction)
    (executed : TransactionBatchExecutionResult) (after : Svm) : Prop where
  results : executed.results.map some = fillResults (transactions.map fun _ => none)
    (vm.sendInOrder agave transactions executed.plan.order).1
  accounts : ∀ key, after.accounts.tryGetAccount key =
    (vm.sendInOrder agave transactions
      executed.plan.order).2.accounts.tryGetAccount key
  history : after.history =
    (vm.sendInOrder agave transactions executed.plan.order).2.history

theorem length_order_le {vm : Svm} {transactions : List VersionedTransaction}
    {plan : TransactionBatchPlan} (made : vm.planTransactionBatch agave transactions = .ok plan) :
    plan.order.length ≤ transactions.length := by
  have nodup := (apart_of_planned agave made).1
  have inside : plan.order ⊆ List.range transactions.length := by
    intro index member
    obtain ⟨stage, listed, there⟩ := List.mem_flatMap.1 member
    exact List.mem_range.2 (((listed_of_planned agave made).1 stage listed).in_range index there)
  have short := (List.subperm_of_subset nodup inside).length_le
  rwa [List.length_range] at short

/-- A batch whose stages of several transactions are isolated matches the serial run, for every
schedule of its workers. -/
theorem batch_matches_serial {vm after : Svm} {schedule : Nat → Schedule}
    {transactions : List VersionedTransaction} {executed : TransactionBatchExecutionResult}
    (alike : vm.accounts.source.AnswersAlike) (room : vm.history.HasRoom transactions.length)
    (isolated : ∀ plan, vm.planTransactionBatch agave transactions = .ok plan →
      StagesIsolated agave vm transactions vm plan.stages)
    (sent : vm.sendTransactionBatch agave schedule transactions = some (.ok executed, after)) :
    MatchesSerial agave vm transactions executed after := by
  unfold sendTransactionBatch at sent
  split at sent
  · cases sent
  next plan made =>
    have enough : vm.history.HasRoom plan.order.length := by
      intro enabled
      have fits := room enabled
      have short := length_order_le agave made
      omega
    cases ran : vm.runStages agave schedule transactions 0 plan.stages
        (transactions.map fun _ => none) with
    | none =>
      rw [ran] at sent
      cases sent
    | some outcome =>
      obtain ⟨outcome, left⟩ := outcome
      rw [ran] at sent
      cases outcome with
      | error error => cases sent
      | ok slots =>
        obtain ⟨values, complete, equal⟩ := Option.map_eq_some_iff.1 sent
        cases equal
        obtain ⟨filled, warmed⟩ := (Warmed.refl vm).stages agave made (fun _ member => member) alike
          enough (isolated plan made) ran
        refine ⟨?_, warmed.accounts.reads, warmed.history⟩
        rw [eq_map_some_of_mapM_id complete]
        exact filled

/-- A batch of one stage, with its workers in the order of the merge. -/
theorem sendTransactionBatch_of_one_stage {vm warm : Svm} {transactions : List VersionedTransaction}
    {stage : TransactionBatchStage}
    (made : vm.planTransactionBatch agave transactions = .ok ⟨[stage]⟩)
    (several : stage.transactionIndexes.length ≠ 1)
    (prewarm : vm.prewarmStage agave (stageReadSet stage transactions) = (.ok (), warm))
    (schedule : Nat → Schedule) :
    vm.sendTransactionBatch agave schedule transactions =
      (warm.mergeStageResults agave (transactions.map fun _ => none)
        (warm.stageResults agave stage transactions)).bind fun (slots, vm) =>
          (slots.mapM id).map fun results => (.ok ⟨⟨[stage]⟩, results⟩, vm) := by
  have listed := (listed_of_planned agave made).1 stage List.mem_cons_self
  have parallel : vm.runStage agave (schedule 0) stage transactions
      (transactions.map fun _ => none) = vm.runParallelStage agave (schedule 0) stage transactions
        (transactions.map fun _ => none) := by
    unfold runStage
    split
    next index alone =>
      rw [alone] at several
      exact absurd rfl several
    · rfl
  unfold sendTransactionBatch
  simp only [made, runStages, parallel, runParallelStage_eq agave vm (schedule 0) listed, prewarm]
  cases warm.mergeStageResults agave (transactions.map fun _ => none)
      (warm.stageResults agave stage transactions) with
  | none => rfl
  | some merged => rfl

end Svm

namespace Sample

/-- Two transfers that share no account. -/
def pairTxs : List VersionedTransaction :=
  [transferTx 1 0x11 [0xa] [([0, 1], 64)], transferTx 2 0x12 [0xb] [([0, 1], 64)]]

def pairVm : Svm :=
  vm [(0x11, systemAccount 1_000_000), (0x12, systemAccount 1_000_000)] .empty

/-- Both transfers run in one stage, on workers. -/
theorem pairTxs_plan : pairVm.planTransactionBatch agave pairTxs = .ok ⟨[⟨[0, 1]⟩]⟩ := by
  decide

theorem pairTxs_unrelated : (Svm.pickTransactions pairTxs [0, 1]).Pairwise
    (pairVm.Unrelated agave) := by
  have picked : Svm.pickTransactions pairTxs [0, 1] =
    [transferTx 1 0x11 [0xa] [([0, 1], 64)], transferTx 2 0x12 [0xb] [([0, 1], 64)]] := rfl
  rw [picked, List.pairwise_pair]
  refine ⟨?_, ?_⟩
  · intro lockSet locked key member
    -- The owner of the system program is read and written by neither.
    have reads : pairVm.unlockedReads agave (transferTx 2 0x12 [0xb] [([0, 1], 64)]) =
        [Ids.nativeLoader] := by decide +kernel
    have unlocked : (pairVm.lockSet? agave (transferTx 1 0x11 [0xa] [([0, 1], 64)])).map
        (fun lockSet => decide (Ids.nativeLoader ∈ lockSet.writable)) = some false := by decide +kernel
    rw [reads, List.mem_singleton] at member
    rw [locked] at unlocked
    subst member
    simpa using unlocked
  · intro _ sanitized sanitized' done done'
    have one : (pairVm.sanitize agave (transferTx 1 0x11 [0xa] [([0, 1], 64)])).toOption.map
        (fun sanitized => sanitized.signature) = some 1 := by decide +kernel
    have two : (pairVm.sanitize agave (transferTx 2 0x12 [0xb] [([0, 1], 64)])).toOption.map
        (fun sanitized => sanitized.signature) = some 2 := by decide +kernel
    rw [done] at one
    rw [done'] at two
    simp only [Except.toOption, Option.map_some, Option.some.injEq] at one two
    simp [one, two]

theorem pairTxs_isolated : Svm.StagesIsolated agave pairVm pairTxs pairVm [⟨[0, 1]⟩] := by
  refine ⟨fun _ => ⟨fun _ _ => rfl, ?_, pairTxs_unrelated, ?_, by decide⟩, trivial⟩
  · intro tx member
    have either : tx = transferTx 1 0x11 [0xa] [([0, 1], 64)] ∨
        tx = transferTx 2 0x12 [0xb] [([0, 1], 64)] := by
      simpa [Svm.pickTransactions, pairTxs] using member
    rcases either with rfl | rfl
    · unfold Svm.Calm
      decide
    · unfold Svm.Calm
      decide
  · -- The source is empty, so a prewarm has nothing to add.
    intro address member account absent found
    have empty : pairVm.accounts.tryGetAccount address = .ok none := by
      unfold Accounts.tryGetAccount
      simp only [Accounts.getAccountRef, absent]
      split <;> rfl
    rw [empty] at found
    cases found

/-- The two transfers are a batch whose stage is isolated. -/
theorem pair_batch_matches_serial : ∃ executed after,
    pairVm.sendTransactionBatch agave (fun _ => inOrder) pairTxs = some (.ok executed, after) ∧
      pairVm.MatchesSerial agave pairTxs executed after := by
  have prewarmed : (pairVm.prewarmStage agave (stageReadSet ⟨[0, 1]⟩ pairTxs)).1 = .ok () := by
    decide +kernel
  have returned : (pairVm.sendTransactionBatch agave (fun _ => inOrder) pairTxs).map
      (fun (result, _) => result.toOption.isSome) = some true := by
    rw [Svm.sendTransactionBatch_of_one_stage agave pairTxs_plan (by decide)
      (Prod.ext prewarmed rfl)]
    decide +kernel
  cases sent : pairVm.sendTransactionBatch agave (fun _ => inOrder) pairTxs with
  | none =>
    rw [sent] at returned
    cases returned
  | some outcome =>
    obtain ⟨result, after⟩ := outcome
    cases result with
    | error error =>
      rw [sent] at returned
      cases returned
    | ok executed =>
      refine ⟨executed, after, rfl, Svm.batch_matches_serial agave
        (AccountSource.answersAlike_ofGetAccount _) (by unfold TransactionHistory.HasRoom; decide)
        ?_ sent⟩
      intro plan planned
      rw [pairTxs_plan] at planned
      cases planned
      exact pairTxs_isolated

/-- A source with a program of the loader at 0x77. -/
def programSource : AccountSource := .ofGetAccount fun key =>
  if key = 0x77 then
    .ok (some { AccountSharedData.default with
      lamports := 1, data := [0x7f], owner := Ids.bpfLoader, executable := true })
  else .ok none

def sourcedVm : Svm :=
  vm [(0x11, systemAccount 1_000_000), (0x12, systemAccount 1_000_000),
    (Ids.bpfLoader, builtinAccount)] programSource

/-- A call of the program, and a transfer that has nothing to do with it. -/
def callAndTransfer : List VersionedTransaction :=
  [{ transferTx 1 0x11 [0xa] [([0, 1], 64)] with staticAccountKeys := [0x11, 0xa, 0x77] },
    transferTx 2 0x12 [0xb] [([0, 1], 64)]]

/-- Sent alone, the call finds no entry for the program. In a batch, the prewarm of its stage has
loaded one. -/
theorem prewarmed_program_runs :
    ¬ ∀ executed after, sourcedVm.sendTransactionBatch agave (fun _ => inOrder) callAndTransfer =
      some (.ok executed, after) → sourcedVm.MatchesSerial agave callAndTransfer executed after := by
  intro matches_
  have planned : sourcedVm.planTransactionBatch agave callAndTransfer = .ok ⟨[⟨[0, 1]⟩]⟩ := by
    decide +kernel
  have prewarmed : (sourcedVm.prewarmStage agave
      (stageReadSet ⟨[0, 1]⟩ callAndTransfer)).1 = .ok () := by decide +kernel
  have batch : (sourcedVm.sendTransactionBatch agave (fun _ => inOrder) callAndTransfer).map
      (fun (result, _) => result.toOption.map fun executed =>
        (executed.plan, executed.results.map fun result => result.toOption.isSome)) =
        some (some (⟨[⟨[0, 1]⟩]⟩, [true, true])) := by
    rw [Svm.sendTransactionBatch_of_one_stage agave planned (by decide) (Prod.ext prewarmed rfl)]
    decide +kernel
  have serial : (fillResults [none, none]
      (sourcedVm.sendInOrder agave callAndTransfer [0, 1]).1).map
        (fun slot => slot.map fun result => result.toOption.isSome) =
        [some false, some true] := by decide +kernel
  cases sent : sourcedVm.sendTransactionBatch agave (fun _ => inOrder) callAndTransfer with
  | none =>
    rw [sent] at batch
    cases batch
  | some outcome =>
    obtain ⟨result, after⟩ := outcome
    rw [sent] at batch
    cases result with
    | error error => cases batch
    | ok executed =>
      simp only [Except.toOption, Option.map_some, Option.some.injEq, Prod.mk.injEq] at batch
      have equal := (matches_ executed after sent).results
      rw [batch.1] at equal
      have slots := congrArg (List.map fun slot : Option TransactionResult =>
        slot.map fun result => result.toOption.isSome) equal
      rw [List.map_map] at slots
      have ran : executed.results.map (fun result => some result.toOption.isSome) =
          [some true, some true] := by
        have lifted := congrArg (List.map some) batch.2
        rwa [List.map_map] at lifted
      have differ := ran.symm.trans (slots.trans serial)
      cases differ

end Sample

end Hpsvm
