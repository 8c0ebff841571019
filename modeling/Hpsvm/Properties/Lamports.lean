import Hpsvm.Properties.Charging

/-!
# Lamport conservation

A commit overwrites the staged accounts and nothing else, so the total of all lamports moves by what
those accounts lose or gain. Instructions that succeed keep the total of the context, and the fee
was taken while loading; an instruction that fails may leave any total behind.
-/

namespace Hpsvm

open Foundation (Writes.last Writes.sum_last Writes.sum_last_of_nodup)

/-- The lamports of all accounts a reader sees. A sum over every address must never be evaluated. -/
@[irreducible]
def totalLamports (reads : Address → Option AccountSharedData) : Nat :=
  ∑ key : Address, balance (reads key)

/-- The keys of staged accounts. -/
def stagedKeys (staged : List (Address × AccountSharedData)) : Finset Address :=
  (staged.map Prod.fst).toFinset

/-- The staged accounts hold, less the fee, what the reader saw at their keys. -/
def StagedBalance (reads : Address → Option AccountSharedData) (fee : Nat)
    (staged : List (Address × AccountSharedData)) : Prop :=
  ∑ key ∈ stagedKeys staged, balance (Accounts.stagedCopy staged key) + fee =
    ∑ key ∈ stagedKeys staged, balance (reads key)

theorem toFinset_partitionProgramdata (staged : List (Address × AccountSharedData)) :
    ((partitionProgramdata [] [] staged).map Prod.fst).toFinset = stagedKeys staged :=
  List.toFinset_eq_of_perm _ _ ((partitionProgramdata_perm staged).map Prod.fst)

theorem totalLamports_staged {reads after : Address → Option AccountSharedData}
    {staged : List (Address × AccountSharedData)}
    (overwritten : ∀ key, after key = match Accounts.stagedCopy staged key with
      | some copy => copy.visible
      | none => reads key) :
    totalLamports after + ∑ key ∈ stagedKeys staged, balance (reads key) =
      totalLamports reads +
        ∑ key ∈ stagedKeys staged, balance (Accounts.stagedCopy staged key) := by
  have moved := Writes.sum_last (partitionProgramdata [] [] staged)
    (fun account => account.lamports) fun key => balance (reads key)
  rw [toFinset_partitionProgramdata] at moved
  have total : totalLamports after = ∑ key, (Accounts.stagedCopy staged key).elim
      (balance (reads key)) fun account => account.lamports := by
    unfold totalLamports
    refine Finset.sum_congr rfl ?_
    intro key _
    rw [overwritten key]
    cases Accounts.stagedCopy staged key with
    | none => rfl
    | some copy => simp
  have copies : ∀ key, (Accounts.stagedCopy staged key).elim 0 (fun account => account.lamports) =
      balance (Accounts.stagedCopy staged key) := by
    intro key
    cases Accounts.stagedCopy staged key with
    | none => rfl
    | some copy => rfl
  have before : totalLamports reads = ∑ key : Address, balance (reads key) := by
    unfold totalLamports
    rfl
  rw [total, before, ← Finset.sum_congr rfl fun key _ => copies key]
  exact moved

theorem totalLamports_conserved_iff {reads after : Address → Option AccountSharedData}
    {staged : List (Address × AccountSharedData)} (fee : Nat)
    (overwritten : ∀ key, after key = match Accounts.stagedCopy staged key with
      | some copy => copy.visible
      | none => reads key) :
    totalLamports after + fee = totalLamports reads ↔ StagedBalance reads fee staged := by
  have moved := totalLamports_staged overwritten
  unfold StagedBalance
  constructor
  · intro conserved
    omega
  · intro balanced
    omega

namespace Svm

variable (agave : Agave)

/-- Committing the transaction, in each of the ways to do it, takes exactly its fee out of the total
of all lamports. -/
structure ConservesLamports (vm : Svm) (tx : VersionedTransaction) : Prop where
  sent : ∀ staged, vm.transact agave tx = .ok staged →
    totalLamports (vm.sendTransaction agave tx).2.getAccount +
      (vm.transactDetached agave tx).info.fee = totalLamports vm.getAccount
  committed : ∀ staged, vm.transact agave tx = .ok staged →
    totalLamports staged.commit.2.getAccount + (vm.transactDetached agave tx).info.fee =
      totalLamports vm.getAccount
  merged : ∀ accounts history,
    applyCommitDelta agave vm.accounts vm.history
      (detachedIntoResultAndDelta (vm.transactDetached agave tx) vm.history.isEnabled).2 =
        (.ok (), accounts, history) →
    totalLamports accounts.getAccount + (vm.transactDetached agave tx).info.fee =
      totalLamports vm.getAccount

theorem conservesLamports_iff_stagedBalance {vm : Svm} {tx : VersionedTransaction}
    (included : (vm.transactDetached agave tx).included = true) :
    vm.ConservesLamports agave tx ↔
      (vm.accounts.AcceptsStaging agave (vm.transactDetached agave tx).postAccounts →
        StagedBalance vm.getAccount (vm.transactDetached agave tx).info.fee
          (vm.transactDetached agave tx).postAccounts) := by
  cases commitPaths_of_included agave included with
  | accepted accounts accepts reads sent stages committed merged =>
    have balanced := totalLamports_conserved_iff (vm.transactDetached agave tx).info.fee reads
    simp only [accepts, forall_true_left]
    rw [← balanced]
    constructor
    · intro conserves
      obtain ⟨staged, transacted⟩ := stages
      have total := conserves.sent staged transacted
      rwa [sent] at total
    · intro conserved
      refine ⟨?_, ?_, ?_⟩
      · intro staged _
        rwa [sent]
      · intro staged transacted
        rwa [committed staged transacted]
      · intro accounts' history applied
        rwa [merged accounts' history applied]
  | refused refuses sent unstaged unmerged =>
    -- Refused staging commits nothing, so there is nothing to conserve.
    simp only [refuses, false_implies, iff_true]
    refine ⟨?_, ?_, ?_⟩
    · intro staged transacted
      exact absurd transacted (unstaged staged)
    · intro staged transacted
      exact absurd transacted (unstaged staged)
    · intro accounts' history applied
      exact absurd applied (unmerged accounts' history)

end Svm

/-! ### What successful instructions keep -/

section Instructions

variable {keys : List Address}

/-- The total of a context is kept, and so is every account that is not writable. -/
structure KeepsLamports (message : SanitizedMessage) (before after : InvokeContext keys) :
    Prop where
  total : ∑ index, (after.accounts index).lamports = ∑ index, (before.accounts index).lamports
  readonly : ∀ index : Fin keys.length, message.isWritable index = false →
    after.accounts index = before.accounts index

theorem KeepsLamports.refl (message : SanitizedMessage) (context : InvokeContext keys) :
    KeepsLamports message context context :=
  ⟨rfl, fun _ _ => rfl⟩

theorem KeepsLamports.trans {message : SanitizedMessage} {first second third : InvokeContext keys}
    (left : KeepsLamports message first second) (right : KeepsLamports message second third) :
    KeepsLamports message first third :=
  ⟨right.total.trans left.total,
    fun index readonly => (right.readonly index readonly).trans (left.readonly index readonly)⟩

end Instructions

/-- What is assumed of the runtime: a top-level instruction that succeeds moves lamports between
writable accounts only, and preparing the instructions moves none. -/
structure Agave.PreservesLamports (agave : Agave) : Prop where
  prepare : ∀ {keys : List Address} (config : EnvironmentConfig) (message : SanitizedMessage)
    (context context' : InvokeContext keys),
    agave.prepareTopLevelInstructions config message context = .ok context' →
    context'.accounts = context.accounts
  instruction : ∀ {keys : List Address} (config : EnvironmentConfig) (cache : ProgramCache)
    (message : SanitizedMessage) (index : Nat) (context : InvokeContext keys),
    (agave.processInstruction config cache message index context).result = .ok () →
    KeepsLamports message context
      (agave.processInstruction config cache message index context).context
  precompile : ∀ {keys : List Address} (message : SanitizedMessage) (index : Nat)
    (verified : Bool) (context : InvokeContext keys),
    (agave.processPrecompile message index verified context).result = .ok () →
    KeepsLamports message context (agave.processPrecompile message index verified context).context

namespace Svm

variable {agave : Agave}

theorem processTopLevelInstruction_keeps (preserves : agave.PreservesLamports) {vm : Svm}
    {config : EnvironmentConfig} {message : SanitizedMessage} {index : Nat}
    {instruction : CompiledInstruction} {keys : List Address} {context : InvokeContext keys}
    (succeeded : (vm.processTopLevelInstruction agave config message index instruction
      context).result = .ok ()) :
    KeepsLamports message context
      (vm.processTopLevelInstruction agave config message index instruction context).context := by
  unfold processTopLevelInstruction at succeeded ⊢
  cases found : vm.findPrecompile (message.accountKeys.getD instruction.programIdIndex 0) with
  | some precompile =>
    simp only [found] at succeeded ⊢
    exact preserves.precompile _ _ _ _ succeeded
  | none =>
    simp only [found] at succeeded ⊢
    exact preserves.instruction _ _ _ _ _ succeeded

/-- The loop keeps what each of its rounds keeps, as long as they succeed. -/
theorem processInstructions_keeps (preserves : agave.PreservesLamports) {vm : Svm}
    {config : EnvironmentConfig} {message : SanitizedMessage} {index consumed : Nat}
    {instructions : List CompiledInstruction} {keys : List Address} {context : InvokeContext keys}
    (succeeded : (vm.processInstructions agave config message index instructions context
      consumed).result = .ok ()) :
    KeepsLamports message context
      (vm.processInstructions agave config message index instructions context
        consumed).context := by
  induction instructions generalizing index context consumed with
  | nil => exact .refl message context
  | cons instruction rest ih =>
    unfold processInstructions at succeeded ⊢
    simp only at succeeded ⊢
    cases outcome : (vm.processTopLevelInstruction agave config message index instruction
        context).result with
    | error error =>
      rw [outcome] at succeeded
      cases succeeded
    | ok done =>
      simp only [outcome] at succeeded ⊢
      exact (processTopLevelInstruction_keeps preserves outcome).trans (ih succeeded)

theorem processMessage_keeps (preserves : agave.PreservesLamports) {vm : Svm}
    {config : EnvironmentConfig} {message : SanitizedMessage} {keys : List Address}
    {context : InvokeContext keys}
    (succeeded : (vm.processMessage agave config message context).result = .ok ()) :
    KeepsLamports message context (vm.processMessage agave config message context).context := by
  unfold processMessage at succeeded ⊢
  cases prepared : agave.prepareTopLevelInstructions config message context with
  | error failure =>
    rw [prepared] at succeeded
    cases succeeded
  | ok context' =>
    simp only [prepared] at succeeded ⊢
    have same := preserves.prepare config message context context' prepared
    have kept := processInstructions_keeps preserves succeeded
    exact ⟨by rw [kept.total, same], fun index readonly => by rw [kept.readonly index readonly, same]⟩

/-! ### The staged accounts of an execution -/

theorem sum_filter_map {α : Type} (keep : α → Bool) (amount : α → Nat) (items : List α) :
    ((items.filter keep).map amount).sum =
      (items.map fun item => if keep item then amount item else 0).sum := by
  induction items with
  | nil => rfl
  | cons item rest ih => cases kept : keep item <;> simp [kept, ih]

/-- Totals over the extracted accounts are totals over the writable indexes. -/
theorem sum_writableAccounts (message : SanitizedMessage) {keys : List Address}
    (context : InvokeContext keys) (amount : Address × AccountSharedData → Nat) :
    ((writableAccounts message context.pairs).map amount).sum =
      ∑ index : Fin keys.length, if message.isWritable index then
        amount (keys.get index, context.accounts index) else 0 := by
  have indexed : context.pairs.zipIdx = List.ofFn fun index : Fin keys.length =>
      ((keys.get index, context.accounts index), index.val) := by
    refine List.ext_getElem (by simp [InvokeContext.pairs]) ?_
    intro index _ _
    simp [InvokeContext.pairs]
  rw [writableAccounts, indexed, List.map_map, sum_filter_map, List.map_ofFn, List.sum_ofFn]
  rfl

/-- With distinct keys the staged balance is a balance of writable context accounts. -/
theorem stagedBalance_writableAccounts_iff {message : SanitizedMessage} {keys : List Address}
    (nodup : keys.Nodup) (context : InvokeContext keys)
    (reads : Address → Option AccountSharedData) (fee : Nat) :
    StagedBalance reads fee (writableAccounts message context.pairs) ↔
      (∑ index : Fin keys.length, if message.isWritable index then
        (context.accounts index).lamports else 0) + fee =
      ∑ index : Fin keys.length, if message.isWritable index then
        balance (reads (keys.get index)) else 0 := by
  have distinct : ((writableAccounts message context.pairs).map Prod.fst).Nodup := by
    have sublist := writableAccounts_sublist message context.pairs
    rw [map_fst_pairs] at sublist
    exact sublist.nodup nodup
  have perm := partitionProgramdata_perm (writableAccounts message context.pairs)
  have distinct' := (perm.map Prod.fst).nodup_iff.2 distinct
  have copies := Writes.sum_last_of_nodup distinct' fun account => account.lamports
  rw [toFinset_partitionProgramdata, (perm.map _).sum_eq] at copies
  have staged : ∑ key ∈ stagedKeys (writableAccounts message context.pairs),
      balance (Accounts.stagedCopy (writableAccounts message context.pairs) key) =
        ((writableAccounts message context.pairs).map fun pair => pair.2.lamports).sum := by
    rw [← copies]
    refine Finset.sum_congr rfl ?_
    intro key _
    unfold Accounts.stagedCopy balance
    cases Writes.last _ key <;> rfl
  have read : ∑ key ∈ stagedKeys (writableAccounts message context.pairs), balance (reads key) =
      ((writableAccounts message context.pairs).map fun pair => balance (reads pair.1)).sum := by
    rw [stagedKeys, List.sum_toFinset _ distinct, List.map_map]
    rfl
  rw [StagedBalance, staged, read, sum_writableAccounts, sum_writableAccounts]

/-- The keys are distinct, the payer can be written, and the instructions sysvar cannot. -/
structure Orderly (message : SanitizedMessage) (payer : Address) : Prop where
  nodup : message.accountKeys.Nodup
  payer_writable : ∀ index : Nat, message.accountKeys[index]? = some payer →
    message.isWritable index = true
  sysvar_readonly : ∀ index : Nat, message.accountKeys[index]? = some Ids.instructions →
    message.isWritable index = false

/-- Only the payer was loaded with less lamports than the VM reads. -/
theorem loaded_balance {vm : Svm} {message : SanitizedMessage} {rent : Rent} {fee : Nat}
    {loaded : List (Address × AccountSharedData)} {payer : Address}
    (nodup : message.accountKeys.Nodup)
    (done : vm.loadAccounts agave message rent fee 0 message.accountKeys none =
      .ok (loaded, some payer))
    {pair : Address × AccountSharedData} (member : pair ∈ loaded)
    (stored : pair.1 ≠ Ids.instructions) :
    pair.2.lamports + (if pair.1 = payer then fee else 0) = balance (vm.getAccount pair.1) := by
  obtain ⟨before, after, account, split, read, -, -, covered, rfl⟩ := loadAccounts_eq_ok agave done
  rw [split] at nodup
  have plain : ∀ key ∈ before ++ after, key ≠ payer ∧
      (key ≠ Ids.instructions → (vm.loadedAccount agave message key).lamports =
        balance (vm.getAccount key)) := by
    intro key listed
    refine ⟨?_, ?_⟩
    · rintro rfl
      simp only [List.nodup_append, List.nodup_cons, List.mem_cons] at nodup
      rcases List.mem_append.1 listed with earlier | later
      · exact nodup.2.2 key earlier key (.inl rfl) rfl
      · exact nodup.2.1.1 later
    · intro differ
      rw [loadedAccount, if_neg differ]
      cases vm.getAccount key <;> rfl
  rcases List.mem_append.1 member with earlier | later
  · obtain ⟨key, listed, rfl⟩ := List.mem_map.1 earlier
    obtain ⟨differ, same⟩ := plain key (List.mem_append_left _ listed)
    simp only [if_neg differ, Nat.add_zero]
    exact same stored
  · rcases List.mem_cons.1 later with rfl | later
    · simp only [if_true, read]
      change account.lamports - fee + fee = account.lamports
      omega
    · obtain ⟨key, listed, rfl⟩ := List.mem_map.1 later
      obtain ⟨differ, same⟩ := plain key (List.mem_append_right _ listed)
      simp only [if_neg differ, Nat.add_zero]
      exact same stored

/-- Keeping the whole total and the readonly accounts keeps the total of the writable ones. -/
theorem sum_writable_of_keeps {message : SanitizedMessage} {keys : List Address}
    {before after : InvokeContext keys} (kept : KeepsLamports message before after) :
    (∑ index : Fin keys.length, if message.isWritable index then
      (after.accounts index).lamports else 0) =
    ∑ index : Fin keys.length, if message.isWritable index then
      (before.accounts index).lamports else 0 := by
  have halves : ∀ context : InvokeContext keys,
      ∑ index, (context.accounts index).lamports =
        (∑ index : Fin keys.length, if message.isWritable index then
          (context.accounts index).lamports else 0) +
        ∑ index : Fin keys.length, if message.isWritable index then 0
          else (context.accounts index).lamports := by
    intro context
    rw [← Finset.sum_add_distrib]
    refine Finset.sum_congr rfl ?_
    intro index _
    split <;> simp
  have readonly : (∑ index : Fin keys.length, if message.isWritable index then 0
        else (after.accounts index).lamports) =
      ∑ index : Fin keys.length, if message.isWritable index then 0
        else (before.accounts index).lamports := by
    refine Finset.sum_congr rfl ?_
    intro index _
    split
    · rfl
    next fixed => rw [kept.readonly index (by simpa using fixed)]
  have total := kept.total
  rw [halves before, halves after, readonly] at total
  omega

/-- A successful execution of an orderly message stages the fee less than the VM reads. -/
theorem stagedBalance_of_succeeded (preserves : agave.PreservesLamports) {vm : Svm}
    {tx : VersionedTransaction} (run : Execution agave vm tx)
    (succeeded : run.outcome.result = .ok ()) (orderly : Orderly run.message run.payer) :
    StagedBalance vm.getAccount run.fee run.postAccounts := by
  have keys := run.map_fst_loaded
  have nodup : (run.loaded.map Prod.fst).Nodup := by
    rw [keys]
    exact orderly.nodup
  have kept : KeepsLamports run.message run.initial run.outcome.context :=
    processMessage_keeps preserves succeeded
  have key_at : ∀ index : Fin (run.loaded.map Prod.fst).length,
      run.message.accountKeys[index.val]? = some ((run.loaded.map Prod.fst).get index) := by
    intro index
    rw [← keys, List.get_eq_getElem, List.getElem?_eq_getElem index.isLt]
  -- Index by index, the payer's fee makes up the difference to what the VM reads.
  have each : ∀ index : Fin (run.loaded.map Prod.fst).length,
      (if run.message.isWritable index then (run.initial.accounts index).lamports else 0) +
        (if (run.loaded.map Prod.fst).get index = run.payer then run.fee else 0) =
      if run.message.isWritable index then
        balance (vm.getAccount ((run.loaded.map Prod.fst).get index)) else 0 := by
    intro index
    have listed := key_at index
    split
    next writable =>
      have stored : (run.loaded.map Prod.fst).get index ≠ Ids.instructions := by
        intro same
        rw [same] at listed
        rw [orderly.sysvar_readonly _ listed] at writable
        cases writable
      have member := List.get_mem run.loaded (index.cast (List.length_map _))
      have same : (run.loaded.map Prod.fst).get index =
          (run.loaded.get (index.cast (List.length_map _))).1 := by simp
      rw [same] at stored ⊢
      exact loaded_balance orderly.nodup run.load_eq member stored
    next readonly =>
      have differ : (run.loaded.map Prod.fst).get index ≠ run.payer := by
        intro same
        rw [same] at listed
        exact readonly (orderly.payer_writable _ listed)
      rw [if_neg differ]
  have once : (∑ index : Fin (run.loaded.map Prod.fst).length,
      if (run.loaded.map Prod.fst).get index = run.payer then run.fee else 0) = run.fee := by
    obtain ⟨before, after, account, split, -⟩ := loadAccounts_eq_ok agave run.load_eq
    have member : run.payer ∈ run.loaded.map Prod.fst := by
      rw [keys, Execution.message, split]
      simp
    obtain ⟨place, found⟩ := List.mem_iff_get.1 member
    rw [Finset.sum_eq_single place]
    · rw [if_pos found]
    · intro other _ differ
      rw [if_neg]
      intro same
      exact differ (List.nodup_iff_injective_get.1 nodup (same.trans found.symm))
    · intro outside
      exact absurd (Finset.mem_univ place) outside
  rw [Execution.postAccounts, stagedBalance_writableAccounts_iff nodup,
    sum_writable_of_keeps kept, ← Finset.sum_congr rfl fun index _ => each index,
    Finset.sum_add_distrib, once]

end Svm

namespace Sample

variable {keys : List Address}

theorem sum_setLamports (context : InvokeContext keys) (place : Fin keys.length)
    (lamports : Nat) :
    ∑ index, ((setLamports context place lamports).accounts index).lamports +
        (context.accounts place).lamports =
      ∑ index, (context.accounts index).lamports + lamports := by
  have updated : ∀ index, ((setLamports context place lamports).accounts index).lamports =
      Function.update (fun index => (context.accounts index).lamports) place lamports index := by
    intro index
    by_cases same : index = place
    · subst same
      simp [setLamports]
    · simp [setLamports, same]
  rw [Finset.sum_congr rfl fun index _ => updated index,
    Finset.sum_update_of_mem (Finset.mem_univ place),
    Finset.sum_eq_add_sum_sdiff_singleton_of_mem (Finset.mem_univ place) fun index =>
      (context.accounts index).lamports]
  omega

theorem transfer_keeps {message : SanitizedMessage} {context : InvokeContext keys}
    {source target : Fin keys.length} {amount : Nat}
    (source_writable : message.isWritable source = true)
    (target_writable : message.isWritable target = true)
    (succeeded : (transfer context source target amount).result = .ok ()) :
    KeepsLamports message context (transfer context source target amount).context := by
  unfold transfer at succeeded ⊢
  split at succeeded
  · cases succeeded
  next covered =>
    rw [if_neg covered]
    simp only at succeeded ⊢
    split at succeeded
    · cases succeeded
    next fits =>
      rw [if_neg fits]
      refine ⟨?_, ?_⟩
      · have debit := sum_setLamports context source
          ((context.accounts source).lamports - amount)
        have credit := sum_setLamports
          (setLamports context source ((context.accounts source).lamports - amount)) target
          (((setLamports context source ((context.accounts source).lamports - amount)).accounts
            target).lamports + amount)
        simp only
        omega
      · intro index readonly
        have notSource : index ≠ source := by
          rintro rfl
          rw [source_writable] at readonly
          cases readonly
        have notTarget : index ≠ target := by
          rintro rfl
          rw [target_writable] at readonly
          cases readonly
        simp [setLamports, notSource, notTarget]

theorem agave_preservesLamports : agave.PreservesLamports := by
  refine ⟨?_, ?_, ?_⟩
  · intro keys config message context context' prepared
    cases prepared
    rfl
  · intro keys config cache message index context succeeded
    change (processInstruction config cache message index context).result = .ok () at succeeded
    change KeepsLamports message context
      (processInstruction config cache message index context).context
    unfold processInstruction at succeeded ⊢
    split
    · exact .refl message context
    next instruction listed =>
      simp only [listed] at succeeded
      split
      next registerFn found =>
        simp only [found] at succeeded
        split
        next system =>
          simp only [if_pos system] at succeeded
          unfold processSystem at succeeded ⊢
          split
          next source target rest amount accounts data =>
            simp only [accounts, data] at succeeded
            split
            next bounds =>
              simp only [dif_pos bounds] at succeeded
              split
              next writable =>
                simp only [if_pos writable] at succeeded
                rw [Bool.and_eq_true] at writable
                exact transfer_keeps writable.1 writable.2 succeeded
              · exact .refl message context
            · exact .refl message context
          · exact .refl message context
        · exact .refl message context
      · exact .refl message context
      · exact .refl message context
      · exact .refl message context
  · intro keys message index verified context _
    exact .refl message context

/-- A VM with an account that cannot take another lamport. -/
def fullVm : Svm :=
  vm [(0x11, systemAccount 1_000_000), (0x22, systemAccount (2 ^ 64 - 1))] .empty

end Sample

end Hpsvm
