import Hpsvm.Foundation.Runs
import Hpsvm.Properties.Coherence

/-!
# Runs that keep the program cache coherent

What each operation of a VM has to meet to leave the program cache coherent, and coherence in every
state of a run whose operations meet it. The builtins that `add_builtin` installed are tracked
beside the VM, because nothing in the VM records them but the entries themselves.
-/

namespace Hpsvm

open Foundation (Runs.run Runs.Along Runs.invariant_of_along)

namespace Accounts

variable (agave : Agave)

/-! ### Unchecked writes -/

theorem wrote_addAccountNoChecks (db : Accounts) (pubkey : Address) (account : AccountSharedData)
    (funded : account.lamports ≠ 0) :
    Wrote db pubkey account (db.addAccountNoChecks pubkey account) := by
  refine ⟨?_, rfl, rfl, rfl⟩
  simp [addAccountNoChecks, CacheDb.store, funded]

/-- A data account holds no program, so only what is loaded from it can be stale. -/
theorem coherentExcept_of_data_written {installed : Address → Option Nat} {db : Accounts}
    {pubkey : Address} {account : AccountSharedData} (coherent : db.Coherent agave installed)
    (funded : account.lamports ≠ 0) (plain : account.executable = false)
    (free : Gone (db.programsCache.find pubkey)) :
    (db.addAccountNoChecks pubkey account).CoherentExcept agave
      ((db.disturbed pubkey account).filter fun program => program != pubkey) installed := by
  have wrote := db.wrote_addAccountNoChecks pubkey account funded
  rw [← List.nil_append (db.disturbed pubkey account)]
  refine coherentExcept_of_write agave wrote (fun _ _ => rfl) rfl (by simp)
    (fun other _ _ => coherent other) ?_
  unfold CoherentAt
  simp only [wrote.cache, CacheDb.store_inner_getElem?, AccountSharedData.visible, if_neg funded,
    if_true, isCachedProgramAccount, plain, Bool.false_and, Bool.false_eq_true, if_false]
  exact free

/-- Every program of the overlay loads, and a rebuild finds the builtins again. -/
def RebuildsCoherently (installed : Address → Option Nat) (db : Accounts) : Prop :=
  (∃ cache, db.rebuiltProgramCache agave = .ok cache) ∧ db.BuiltinsSound agave installed

/-- A program is written over the only program that may be stale. -/
theorem coherent_of_program_written {installed : Address → Option Nat} {stale : List Address}
    {db db' : Accounts} {programId : Address} {program : AccountSharedData}
    (coherent : db.CoherentExcept agave stale installed)
    (own : ∀ other ∈ stale, other = programId)
    (alone : ∀ other ∈ db.dependents programId, other = programId)
    (wrote : Wrote db programId program db')
    (entries : ∀ other, other ≠ programId →
      db'.programsCache.find other = db.programsCache.find other)
    (clock : db'.clockSlot? agave = db.clockSlot? agave)
    (cached : hasCachedProgram programId program = true)
    (reflects : db'.Reflects agave program (db'.programsCache.find programId)) :
    db'.Coherent agave installed := by
  have settled : db'.CoherentAt agave installed programId := by
    simp only [hasCachedProgram, Bool.and_eq_true, bne_iff_ne] at cached
    unfold CoherentAt
    simp only [wrote.cache, CacheDb.store_inner_getElem?, AccountSharedData.visible, cached.1,
      cached.2, if_true, if_false]
    exact reflects
  have next := coherentExcept_of_write agave wrote entries (by rw [clock]) coherent.programs
    (fun other _ => coherent.others other) settled
  have none_left : ((stale ++ db.disturbed programId program).filter
      fun other => other != programId) = [] := by
    rw [List.filter_eq_nil_iff]
    intro other member
    have same : other = programId := by
      rcases List.mem_append.1 member with listed | disturbs
      · exact own other listed
      · exact alone other (mem_dependents_of_disturbed disturbs)
    simp [same]
  rw [none_left] at next
  exact (coherentExcept_nil_iff agave).1 next

end Accounts

namespace Svm

open Accounts (Wrote hasCachedProgram)

variable (agave : Agave)

theorem programdataAccount_drop (db : Accounts) (programBytes : List UInt8) :
    (programdataAccount agave db programBytes).data.drop
      UpgradeableLoaderState.sizeOfProgramdataMetadata = programBytes := by
  simp only [programdataAccount]
  refine List.drop_left' ?_
  simp [UpgradeableLoaderState.serializeProgramData,
    UpgradeableLoaderState.sizeOfProgramdataMetadata]

/-- The place of a program is free: nothing else is loaded from the accounts `add_program` writes,
and an entry it leaves there is the program's own. -/
structure FitsProgram (db : Accounts) (programId : Address) (programBytes : List UInt8)
    (loaderId : Address) : Prop where
  clock : (db.clockSlot? agave).isSome = true
  not_system : programId ≠ Ids.systemProgram
  alone : ∀ other ∈ db.dependents programId, other = programId
  refused : ∀ reason, agave.loadElf db.environments loaderId programBytes = .error reason →
    db.programsCache.find programId = none
  programdata : loaderId = Ids.bpfLoaderUpgradeable →
    agave.programDataAddress programId ≠ programId ∧
      Gone (db.programsCache.find (agave.programDataAddress programId)) ∧
        ∀ other ∈ db.dependents (agave.programDataAddress programId), other = programId

theorem minimumBalance_ne_zero (db : Accounts) (dataLen : Nat) :
    db.minimumBalanceForRentExemption agave dataLen ≠ 0 := by
  have least : 1 ≤ db.minimumBalanceForRentExemption agave dataLen := Nat.le_max_left _ _
  omega

/-- The last step of `add_program_internal`. -/
def loadInto (db : Accounts) (programId : Address) (programBytes : List UInt8)
    (loaderId : Address) : Accounts :=
  match agave.loadElf db.environments loaderId programBytes with
  | .error _ => db
  | .ok () =>
    let entry := .loaded db.environments loaderId programBytes
    { db with programsCache := db.programsCache.replenish programId entry }

theorem addProgramInternal_accounts {vm : Svm} {programId : Address} {programBytes : List UInt8}
    {loaderId : Address} {writes : List (Address × AccountSharedData)}
    (listed : programAccountsFor agave vm.accounts programId programBytes loaderId = some writes) :
    (vm.addProgramInternal agave programId programBytes loaderId).2.accounts =
      loadInto agave (writes.foldl (fun accounts (address, account) =>
        accounts.addAccountNoChecks address account) vm.accounts) programId programBytes
        loaderId := by
  simp only [addProgramInternal, listed, loadInto]
  split
  next reason refused => simp only [refused, withAccounts]
  next loads => simp only [loads, withAccounts]

/-- The program's account comes last, and its entry is the one the account loads to. -/
theorem coherent_loadInto {installed : Address → Option Nat} {stale : List Address}
    {db : Accounts} {programId loaderId : Address} {programBytes : List UInt8}
    {program : AccountSharedData} (coherent : db.CoherentExcept agave stale installed)
    (own : ∀ other ∈ stale, other = programId)
    (alone : ∀ other ∈ db.dependents programId, other = programId)
    (refused : ∀ reason, agave.loadElf db.environments loaderId programBytes = .error reason →
      db.programsCache.find programId = none)
    (cached : hasCachedProgram programId program = true)
    (present : ∀ db', Wrote db programId program db' → ¬ db'.LacksProgramdata program)
    (loads : ∀ db', Wrote db programId program db' → db'.clockSlot? agave = db.clockSlot? agave →
      db'.loadProgram agave program = db'.loadElf agave loaderId programBytes) :
    (loadInto agave (db.addAccountNoChecks programId program) programId programBytes
      loaderId).Coherent agave installed := by
  have funded : program.lamports ≠ 0 := by
    simp only [hasCachedProgram, Bool.and_eq_true, bne_iff_ne] at cached
    exact cached.1
  have base := db.wrote_addAccountNoChecks programId program funded
  unfold loadInto
  split
  next reason fails =>
    refine Accounts.coherent_of_program_written agave coherent own alone base (fun _ _ => rfl) rfl
      cached ⟨fun lacks => absurd lacks (present _ base), fun _ => ?_⟩
    have missing : (db.addAccountNoChecks programId program).programsCache.find programId = none :=
      refused reason fails
    simp only [missing, loads _ base rfl, Accounts.loadElf, fails, Except.toOption]
  next succeeds =>
    have wrote : Wrote db programId program { db.addAccountNoChecks programId program with
        programsCache := (db.addAccountNoChecks programId program).programsCache.replenish programId
          (.loaded (db.addAccountNoChecks programId program).environments loaderId
            programBytes) } :=
      ⟨base.cache, base.journal, base.source, base.environments⟩
    refine Accounts.coherent_of_program_written agave coherent own alone wrote ?_ rfl cached
      ⟨fun lacks => absurd lacks (present _ wrote), fun _ => ?_⟩
    · intro other differ
      simp only [ProgramCache.find_replenish, if_neg (Ne.symm differ)]
      rfl
    · simp only [loads _ wrote rfl, Accounts.loadElf, succeeds, Except.toOption,
        ProgramCache.find_replenish, if_true]

/-- A program of a loader that keeps the ELF in the program's own account. -/
theorem coherent_add_direct {installed : Address → Option Nat} {db : Accounts}
    {programId loaderId : Address} {programBytes : List UInt8}
    (coherent : db.Coherent agave installed)
    (fits : FitsProgram agave db programId programBytes loaderId)
    (direct : loaderId = Ids.bpfLoader ∨ loaderId = Ids.bpfLoaderDeprecated) :
    (loadInto agave (db.addAccountNoChecks programId
      ⟨db.minimumBalanceForRentExemption agave programBytes.length, programBytes, loaderId, true,
        0⟩) programId programBytes loaderId).Coherent agave installed := by
  have foreign : loaderId ≠ Ids.nativeLoader ∧ loaderId ≠ Ids.bpfLoaderUpgradeable := by
    rcases direct with rfl | rfl <;> decide
  have balance := minimumBalance_ne_zero agave db programBytes.length
  refine coherent_loadInto agave ((Accounts.coherentExcept_nil_iff agave).2 coherent) (by simp)
    fits.alone fits.refused ?_ ?_ ?_
  · simp [hasCachedProgram, isCachedProgramAccount, balance, fits.not_system, foreign.1]
  · rintro db' - ⟨address, refers, -⟩
    simp [programdataAddress?, foreign.2] at refers
  · intro db' _ clock
    obtain ⟨slot, set⟩ := Option.isSome_iff_exists.1 fits.clock
    simp only [Accounts.loadProgram, clock, set, if_pos direct]

/-- A program of the upgradeable loader, whose programdata account is written first. -/
theorem coherent_add_upgradeable {installed : Address → Option Nat} {db : Accounts}
    {programId : Address} {programBytes : List UInt8} (balance : Nat) (funded : balance ≠ 0)
    (coherent : db.Coherent agave installed)
    (fits : FitsProgram agave db programId programBytes Ids.bpfLoaderUpgradeable) :
    (loadInto agave ((db.addAccountNoChecks (agave.programDataAddress programId)
        (programdataAccount agave db programBytes)).addAccountNoChecks programId
        ⟨balance, UpgradeableLoaderState.serializeProgram (agave.programDataAddress programId),
          Ids.bpfLoaderUpgradeable, true, 0⟩) programId programBytes
        Ids.bpfLoaderUpgradeable).Coherent agave installed := by
  obtain ⟨differ, free, dependents⟩ := fits.programdata rfl
  have rent : (programdataAccount agave db programBytes).lamports ≠ 0 :=
    minimumBalance_ne_zero agave db _
  have plain : (programdataAccount agave db programBytes).executable = false := rfl
  have wrote := db.wrote_addAccountNoChecks (agave.programDataAddress programId)
    (programdataAccount agave db programBytes) rent
  -- The program's own write leaves the programdata it refers to.
  have there : ∀ db', Wrote (db.addAccountNoChecks (agave.programDataAddress programId)
        (programdataAccount agave db programBytes)) programId
        ⟨balance, UpgradeableLoaderState.serializeProgram (agave.programDataAddress programId),
          Ids.bpfLoaderUpgradeable, true, 0⟩ db' →
      db'.getAccount (agave.programDataAddress programId) =
        some (programdataAccount agave db programBytes) := by
    intro db' second
    have read := second.tryGetAccount (agave.programDataAddress programId)
    rw [if_neg (Ne.symm differ), wrote.tryGetAccount, if_pos rfl] at read
    simp only [Accounts.getAccount, read, AccountSharedData.visible, if_neg rent]
  -- In between, the entries of programs that refer to the new programdata are stale; the only such
  -- program is the one about to be loaded.
  have first := Accounts.coherentExcept_of_data_written agave coherent rent plain free
  refine coherent_loadInto agave first ?_ ?_ fits.refused ?_ ?_ ?_
  · intro other member
    exact dependents other (Accounts.mem_dependents_of_disturbed (List.mem_filter.1 member).1)
  · intro other depends
    have same : db.addAccountNoChecks (agave.programDataAddress programId)
        (programdataAccount agave db programBytes) =
          db.writeAccount (agave.programDataAddress programId)
            (programdataAccount agave db programBytes) := by
      simp only [Accounts.addAccountNoChecks, Accounts.writeAccount, CacheDb.store, if_neg rent]
    rw [same] at depends
    exact fits.alone other (Accounts.dependents_writeAccount plain depends)
  · have native : Ids.bpfLoaderUpgradeable ≠ Ids.nativeLoader := by decide
    simp [hasCachedProgram, isCachedProgramAccount, funded, fits.not_system, native]
  · rintro db' second ⟨address, refers, missing⟩
    simp only [programdataAddress?, if_true,
      UpgradeableLoaderState.deserializeProgram_serializeProgram, Option.some.injEq] at refers
    rw [← refers, there db' second] at missing
    cases missing
  · intro db' second clock
    obtain ⟨slot, set⟩ := Option.isSome_iff_exists.1 fits.clock
    have set' : db'.clockSlot? agave = some slot := clock.trans set
    have long : UpgradeableLoaderState.sizeOfProgramdataMetadata ≤
        (programdataAccount agave db programBytes).data.length := by
      simp [programdataAccount, UpgradeableLoaderState.serializeProgramData,
        UpgradeableLoaderState.sizeOfProgramdataMetadata]
      omega
    have other : ¬ (Ids.bpfLoaderUpgradeable = Ids.bpfLoader ∨
        Ids.bpfLoaderUpgradeable = Ids.bpfLoaderDeprecated) := by decide
    simp only [Accounts.loadProgram, set', if_neg other, if_true,
      UpgradeableLoaderState.deserializeProgram_serializeProgram, there db' second, if_pos long,
      programdataAccount_drop]

/-- `add_program` under any loader. -/
theorem coherent_addProgramInternal {installed : Address → Option Nat} {vm : Svm}
    {programId loaderId : Address} {programBytes : List UInt8}
    (coherent : vm.accounts.Coherent agave installed)
    (fits : (programAccountsFor agave vm.accounts programId programBytes loaderId).isSome →
      FitsProgram agave vm.accounts programId programBytes loaderId) :
    (vm.addProgramInternal agave programId programBytes loaderId).2.accounts.Coherent agave
      installed := by
  cases listed : programAccountsFor agave vm.accounts programId programBytes loaderId with
  | none => simpa only [addProgramInternal, listed] using coherent
  | some writes =>
    rw [addProgramInternal_accounts agave listed]
    have fits := fits (by rw [listed]; rfl)
    unfold programAccountsFor at listed
    split at listed
    next upgradeable =>
      subst upgradeable
      cases listed
      exact coherent_add_upgradeable agave _ (minimumBalance_ne_zero agave _ _) coherent fits
    · split at listed
      next direct =>
        cases listed
        exact coherent_add_direct agave coherent fits direct
      · cases listed

/-! ### The other operations -/

theorem coherent_addBuiltin {installed : Address → Option Nat} {vm : Svm} {programId : Address}
    {entrypoint : Nat} (coherent : vm.accounts.Coherent agave installed)
    (alone : vm.accounts.disturbed programId builtinAccount = []) :
    (vm.addBuiltin programId entrypoint).accounts.Coherent agave
      (Function.update installed programId (some entrypoint)) := by
  have funded : builtinAccount.lamports ≠ 0 := by decide
  have native : isCachedProgramAccount programId builtinAccount = false := by
    simp [isCachedProgramAccount, builtinAccount]
  have wrote : Wrote vm.accounts programId builtinAccount
      (vm.addBuiltin programId entrypoint).accounts := by
    refine ⟨?_, rfl, rfl, rfl⟩
    rw [CacheDb.store, if_neg funded]
    rfl
  have found : ∀ other, (vm.addBuiltin programId entrypoint).accounts.programsCache.find other =
      if programId = other then some (.builtin entrypoint)
      else vm.accounts.programsCache.find other :=
    fun other => ProgramCache.find_replenish _ _ _ _
  rw [← Accounts.coherentExcept_nil_iff]
  have none_stale : (([] ++ vm.accounts.disturbed programId builtinAccount).filter
      fun program => program != programId) = [] := by
    rw [alone]
    rfl
  rw [← none_stale]
  refine Accounts.coherentExcept_of_write agave wrote ?_ rfl (by simp) ?_ ?_
  · intro other differ
    rw [found, if_neg (Ne.symm differ)]
  · intro other differ _
    refine Accounts.coherentAt_installed agave (fun _ _ _ _ => ?_) (coherent other)
    exact Function.update_of_ne differ _ _
  · unfold Accounts.CoherentAt
    simp only [wrote.cache, CacheDb.store_inner_getElem?, AccountSharedData.visible, if_neg funded,
      if_true, native, Bool.false_eq_true, if_false, found]
    refine ⟨.inr ⟨entrypoint, rfl⟩, ?_⟩
    intro registerFn there
    simpa using there

theorem setAccount_accounts (vm : Svm) (address : Address) (account : AccountSharedData) :
    (vm.setAccount agave address account).2.accounts =
      (vm.accounts.addAccount agave address account).2 := by
  unfold setAccount
  split
  next error left refused => rw [refused]; rfl
  next left added => rw [added]; rfl

/-- The write of one account is careful and leaves no program stale. -/
def WritesCoherently (installed : Address → Option Nat) (vm : Svm) (address : Address)
    (account : AccountSharedData) : Prop :=
  vm.accounts.KeepsCoherence agave installed address account ∧
    vm.accounts.staleAfter [] address account = []

/-- A plain account that is no program's programdata. -/
theorem writesCoherently_of_untouched {installed : Address → Option Nat} {vm : Svm}
    {address : Address} {account : AccountSharedData}
    (untouched : stagingTouchesCaches [(address, account)] vm.accounts = false)
    (entryless : vm.accounts.programsCache.find address = none)
    (nobody : vm.accounts.dependents address = []) :
    vm.WritesCoherently agave installed address account := by
  refine Accounts.keepsCoherenceAll_of_quiet agave (Accounts.quiet_of_untouched untouched) ?_
  simpa using ⟨entryless, nobody⟩

theorem coherent_setAccount {installed : Address → Option Nat} {vm : Svm} {address : Address}
    {account : AccountSharedData} (coherent : vm.accounts.Coherent agave installed)
    (keeps : vm.WritesCoherently agave installed address account) :
    (vm.setAccount agave address account).2.accounts.Coherent agave installed := by
  obtain ⟨careful, none_stale⟩ := keeps
  have next := (Accounts.coherentExcept_addAccount agave
    ((Accounts.coherentExcept_nil_iff agave).2 coherent) careful).2
  rw [none_stale] at next
  rw [setAccount_accounts]
  exact (Accounts.coherentExcept_nil_iff agave).1 next

/-- The accounts a transaction stages. -/
def stagedAccounts (vm : Svm) (tx : VersionedTransaction) : List (Address × AccountSharedData) :=
  (detachedIntoResultAndDelta (vm.transactDetached agave tx)
    vm.history.isEnabled).2.postAccounts

/-- The accounts a transaction stages are written carefully, in the order they are staged. -/
def StagesCoherently (installed : Address → Option Nat) (vm : Svm) (tx : VersionedTransaction) :
    Prop :=
  vm.accounts.KeepsCoherenceAll agave installed []
    (partitionProgramdata [] [] (vm.stagedAccounts agave tx))

/-- Staging that is accepted in full fails only before anything is staged. -/
theorem transactCore_of_accepts {vm : Svm} {tx : VersionedTransaction}
    (accepts : vm.accounts.AcceptsStaging agave (vm.stagedAccounts agave tx)) :
    (∀ staged, vm.transactCore agave tx = .ok staged → staged.vm.accounts =
      (vm.accounts.syncAccounts agave (vm.stagedAccounts agave tx)).2) ∧
    ∀ failure after, vm.transactCore agave tx = .error (failure, after) → after = vm := by
  have taken := (vm.accounts.syncAccounts_ok_iff agave _).2 accepts
  unfold stagedAccounts at taken ⊢
  refine ⟨?_, ?_⟩
  · intro staged core
    obtain ⟨accounts, synced, left, -⟩ := transactCore_eq_ok agave core
    rw [left, synced]
  · intro failure after core
    rcases transactCore_eq_error agave core with same | ⟨accounts, refused, -⟩
    · exact same
    · rw [refused] at taken
      cases taken

theorem coherent_transactCore {installed : Address → Option Nat} {vm : Svm}
    {tx : VersionedTransaction} (coherent : vm.accounts.Coherent agave installed)
    (keeps : vm.StagesCoherently agave installed tx) :
    (∀ staged, vm.transactCore agave tx = .ok staged →
      staged.vm.accounts.Coherent agave installed) ∧
    ∀ failure after, vm.transactCore agave tx = .error (failure, after) →
      after.accounts.Coherent agave installed := by
  obtain ⟨taken, next⟩ := Accounts.coherent_addAccounts agave
    ((Accounts.coherentExcept_nil_iff agave).2 coherent) keeps
  have accepts := (vm.accounts.syncAccounts_ok_iff agave (vm.stagedAccounts agave tx)).1 taken
  obtain ⟨committed, failed⟩ := transactCore_of_accepts agave accepts
  refine ⟨?_, ?_⟩
  · intro staged equal
    rw [committed staged equal]
    exact next
  · intro failure after equal
    rw [failed failure after equal]
    exact coherent

theorem coherent_unstage {installed : Address → Option Nat} {vm after : Svm}
    {tx : VersionedTransaction} {staged : ExecutedTx} (on : vm.StagedOn agave tx staged)
    (coherent : vm.accounts.Coherent agave installed)
    (sound : stagingTouchesCaches (vm.transactDetached agave tx).postAccounts vm.accounts = true →
      vm.accounts.BuiltinsSound agave installed)
    (unstaged : staged.unstage agave = some after) : after.accounts.Coherent agave installed := by
  rcases on.unstage_cases agave unstaged with ⟨-, rfl⟩ | ⟨cache, dirty, rebuilt, rfl⟩
  · exact coherent
  · have sound := sound (on.dirty.symm.trans dirty)
    exact Accounts.coherent_of_rebuilt agave rebuilt ⟨sound.executable, sound.kept⟩

theorem coherent_rebuildPrograms {installed : Address → Option Nat} {vm : Svm}
    (rebuilds : vm.accounts.RebuildsCoherently agave installed) :
    (vm.rebuildPrograms agave).2.accounts.Coherent agave installed := by
  obtain ⟨⟨cache, rebuilt⟩, sound⟩ := rebuilds
  simp only [rebuildPrograms, Accounts.rebuildProgramCache, rebuilt, withAccounts]
  exact Accounts.coherent_of_rebuilt agave rebuilt sound

/-- Refreshing replaces the environments or leaves the VM alone. -/
theorem tryRefreshRuntimeEnvironments_cases (vm : Svm) :
    (∃ error, vm.tryRefreshRuntimeEnvironments agave = (.error error, vm)) ∨
      ∃ environments, vm.tryRefreshRuntimeEnvironments agave =
        (.ok (), vm.withAccounts { vm.accounts with environments := environments }) := by
  unfold tryRefreshRuntimeEnvironments
  simp only
  split
  next reason _ => exact .inl ⟨_, rfl⟩
  · split
    next error _ => exact .inl ⟨error, rfl⟩
    · exact .inr ⟨_, rfl⟩

end Svm

namespace Operation

variable (agave : Agave)

/-- The operation leaves the program cache coherent. -/
def KeepsCoherence (installed : Address → Option Nat) (vm : Svm) : Operation → Prop
  | addBuiltin programId _ => vm.accounts.disturbed programId builtinAccount = []
  | addProgram programId programBytes =>
    Svm.FitsProgram agave vm.accounts programId programBytes Ids.bpfLoaderUpgradeable
  | addProgramWithLoader programId programBytes loaderId =>
    (Svm.programAccountsFor agave vm.accounts programId programBytes loaderId).isSome →
      Svm.FitsProgram agave vm.accounts programId programBytes loaderId
  | setAccount address account => vm.WritesCoherently agave installed address account
  | setSysvar sysvar data => vm.WritesCoherently agave installed sysvar.id (sysvarAccount data)
  | warpToSlot slot => ∀ clock, vm.clock? agave = some clock →
    vm.WritesCoherently agave installed Sysvar.clock.id
      (sysvarAccount (agave.withClockSlot clock slot))
  | setFeatureSet featureSet => ∀ rematerialized,
    { vm with
      version := { vm.version with featureSet := featureSet }
      reservedAccountKeys := agave.reservedAccountKeys featureSet : Svm }.rematerialize agave
        vm.version.featureSet = some rematerialized →
    match rematerialized.accounts.rebuiltProgramCache agave with
    | .ok _ => rematerialized.accounts.BuiltinsSound agave installed
    | .error _ => vm.accounts.RebuildsCoherently agave installed
  | registerCustomSyscall syscall => ∀ refreshed,
    { vm with customSyscalls := vm.customSyscalls ++ [syscall] : Svm
      }.tryRefreshRuntimeEnvironments agave = (.ok (), refreshed) →
    refreshed.accounts.RebuildsCoherently agave installed
  | sendTransaction tx => vm.StagesCoherently agave installed tx
  | transactCommit tx => vm.StagesCoherently agave installed tx
  | transactDiscard tx =>
    vm.accounts.AcceptsStaging agave (vm.stagedAccounts agave tx) ∧
      (stagingTouchesCaches (vm.transactDetached agave tx).postAccounts vm.accounts = true →
        vm.accounts.BuiltinsSound agave installed)
  | processInstructionCase case unique =>
    KeepsPrograms agave vm (.processInstructionCase case unique)
  | simulateInstructionChainWithAccounts _ preAccounts =>
    vm.accounts.KeepsProgramsAll agave preAccounts

/-- The builtins installed after an operation, as far as their accounts are there. -/
def installs (installed : Address → Option Nat) : Operation → Address → Option Nat
  | addBuiltin programId entrypoint => Function.update installed programId (some entrypoint)
  | _ => installed

end Operation

namespace Svm

variable (agave : Agave)

theorem coherent_setFeatureSet {installed : Address → Option Nat} {vm after : Svm}
    {featureSet : FeatureSet} {result : Except HpsvmError Unit}
    (keeps : Operation.KeepsCoherence agave installed vm (.setFeatureSet featureSet))
    (set : vm.setFeatureSet agave featureSet = some (result, after)) :
    after.accounts.Coherent agave installed := by
  obtain ⟨rematerialized, configured, -⟩ := Option.map_eq_some_iff.1 set
  have rebuilds := keeps rematerialized configured
  rw [setFeatureSet_of_rematerialized agave configured] at set
  cases rebuilt : rematerialized.accounts.rebuiltProgramCache agave with
  | ok cache =>
    simp only [rebuilt] at set rebuilds
    cases set
    exact Accounts.coherent_of_rebuilt agave rebuilt rebuilds
  | error error =>
    simp only [rebuilt] at set rebuilds
    obtain ⟨⟨cache, second⟩, sound⟩ := rebuilds
    simp only [second] at set
    cases set
    exact Accounts.coherent_of_rebuilt agave second sound

end Svm

namespace Operation

variable (agave : Agave)

/-- One step: a careful operation keeps the cache coherent. -/
theorem coherent_act {installed : Address → Option Nat} {op : Operation} {vm next : Svm}
    {answer : Answer} (coherent : vm.accounts.Coherent agave installed)
    (keeps : op.KeepsCoherence agave installed vm)
    (acted : op.act agave vm = some (answer, next)) :
    next.accounts.Coherent agave (op.installs installed) := by
  cases op with
  | addBuiltin programId entrypoint =>
    cases acted
    exact Svm.coherent_addBuiltin agave coherent keeps
  | addProgram programId programBytes =>
    cases acted
    have added : (vm.addProgramInternal agave programId programBytes
        Ids.bpfLoaderUpgradeable).2.accounts.Coherent agave installed :=
      Svm.coherent_addProgramInternal agave coherent fun _ => keeps
    exact added
  | addProgramWithLoader programId programBytes loaderId =>
    cases acted
    exact Svm.coherent_addProgramInternal agave coherent keeps
  | setAccount address account =>
    cases acted
    exact Svm.coherent_setAccount agave coherent keeps
  | setSysvar sysvar data =>
    cases acted
    exact Svm.coherent_setAccount agave coherent keeps
  | warpToSlot slot =>
    obtain ⟨warped, done, equal⟩ := Option.map_eq_some_iff.1 acted
    cases equal
    obtain ⟨clock, found, set⟩ := Svm.warpToSlot_eq_some agave done
    have kept := Svm.coherent_setAccount agave coherent (keeps clock found)
    rwa [set] at kept
  | setFeatureSet featureSet =>
    simp only [act, Option.map_eq_some_iff] at acted
    obtain ⟨⟨result, after⟩, set, equal⟩ := acted
    cases equal
    exact Svm.coherent_setFeatureSet agave keeps set
  | registerCustomSyscall syscall =>
    cases acted
    rcases Svm.tryRefreshRuntimeEnvironments_cases agave
        { vm with customSyscalls := vm.customSyscalls ++ [syscall] } with
      ⟨error, refused⟩ | ⟨environments, refreshed⟩
    · simp only [refused]
      exact coherent
    · have rebuilds := keeps _ refreshed
      simp only [refreshed]
      exact Svm.coherent_rebuildPrograms agave rebuilds
  | sendTransaction tx =>
    cases acted
    obtain ⟨committed, failed⟩ := Svm.coherent_transactCore agave coherent keeps
    split
    next staged equal => exact committed staged equal
    next failure after equal => exact failed failure after equal
  | transactCommit tx =>
    obtain ⟨staged, failed⟩ := Svm.transact_of_transactCore agave
      (fun after => after.accounts.Coherent agave installed)
      (Svm.coherent_transactCore agave coherent keeps)
    simp only [act] at acted
    split at acted
    next error after refused =>
      cases acted
      exact failed error _ refused
    next executed taken =>
      cases acted
      exact staged executed taken
  | transactDiscard tx =>
    obtain ⟨-, failed⟩ := Svm.transactCore_of_accepts agave keeps.1
    simp only [act] at acted
    split at acted
    next error after refused =>
      cases acted
      obtain ⟨failure, core, -⟩ := (Svm.transact_eq_error_iff agave).1 refused
      rw [failed failure _ core]
      exact coherent
    next executed taken =>
      simp only [ExecutedTx.discard, Option.map_map, Option.map_eq_some_iff] at acted
      obtain ⟨after, unstaged, equal⟩ := acted
      cases equal
      exact Svm.coherent_unstage agave (Svm.stagedOn_of_transact agave taken) coherent keeps.2
        unstaged
  | processInstructionCase case unique =>
    have left : (vm.processInstructionCase agave case unique).2 = next :=
      congrArg Prod.snd (Option.some.inj acted)
    rw [← left, Svm.processInstructionCase_vm agave keeps]
    exact coherent
  | simulateInstructionChainWithAccounts instructions preAccounts =>
    have left : (vm.simulateInstructionChainWithAccounts agave instructions preAccounts).2 = next :=
      congrArg Prod.snd (Option.some.inj acted)
    rw [← left, Svm.simulateInstructionChainWithAccounts_vm agave keeps]
    exact coherent

end Operation

/-- An executable account that no loader owns. -/
def Accounts.holdsNative (db : Accounts) (pubkey : Address) : Bool :=
  match db.cache.inner[pubkey]? with
  | some account => account.executable && !isCachedProgramAccount pubkey account
  | none => false

/-- A builtin whose account is still there still has its entry. -/
theorem Accounts.Coherent.find_of_installed (agave : Agave) {installed : Address → Option Nat}
    {db : Accounts} {pubkey : Address} {registerFn : Nat} (coherent : db.Coherent agave installed)
    (native : db.holdsNative pubkey = true) (there : installed pubkey = some registerFn) :
    db.programsCache.find pubkey = some (.builtin registerFn) := by
  have at_pubkey := coherent pubkey
  unfold CoherentAt at at_pubkey
  unfold holdsNative at native
  cases found : db.cache.inner[pubkey]? with
  | none => simp [found] at native
  | some account =>
    simp only [found, Bool.and_eq_true, Bool.not_eq_true'] at native at_pubkey
    simp only [native.1, native.2, Bool.false_eq_true, if_false, if_true] at at_pubkey
    exact at_pubkey.kept registerFn there

/-- A VM, with the builtins that `add_builtin` installed and whose accounts are still there. -/
structure Tracked where
  vm : Svm
  installed : Address → Option Nat

namespace Tracked

section

variable (agave : Agave)

def step (op : Operation) (tracked : Tracked) : Option Tracked :=
  (op.act agave tracked.vm).map fun (_, vm) =>
    ⟨vm, fun pubkey =>
      if vm.accounts.holdsNative pubkey then op.installs tracked.installed pubkey else none⟩

/-- The program cache of the VM is coherent, and every installed builtin has its entry. -/
def Coherent (tracked : Tracked) : Prop :=
  tracked.vm.accounts.Coherent agave tracked.installed

/-- Every operation of a run is careful. -/
def KeepsCoherence (start : Tracked) (ops : List Operation) : Prop :=
  Runs.Along (step agave)
    (fun op tracked => op.KeepsCoherence agave tracked.installed tracked.vm) ops start

theorem coherent_step {op : Operation} {tracked next : Tracked}
    (coherent : tracked.Coherent agave)
    (keeps : op.KeepsCoherence agave tracked.installed tracked.vm)
    (stepped : step agave op tracked = some next) : next.Coherent agave := by
  obtain ⟨⟨answer, vm⟩, acted, equal⟩ := Option.map_eq_some_iff.1 stepped
  subst equal
  intro pubkey
  refine Accounts.coherentAt_installed agave ?_ (Operation.coherent_act agave coherent keeps acted
    pubkey)
  intro account found executable plain
  -- Where coherence asks for a builtin, its account is there, so the tracking keeps it.
  have holds : vm.accounts.holdsNative pubkey = true := by
    simp [Accounts.holdsNative, found, executable, plain]
  exact if_pos holds

/-- In a run of careful operations the program cache is coherent in every state reached. -/
theorem coherent_of_keepsCoherence {start : Tracked} {ops : List Operation}
    (initial : start.Coherent agave) (keeps : start.KeepsCoherence agave ops) :
    ∀ before after reached, ops = before ++ after →
      Runs.run (step agave) before start = some reached → reached.Coherent agave := by
  intro before after reached split ran
  refine Runs.invariant_of_along (Coherent agave) ?_ initial keeps split ran
  intro op tracked next coherent careful stepped
  exact coherent_step agave coherent careful stepped

end

end Tracked

namespace Sample

/-- The paying VM before any builtin was added. -/
def payingStart : Tracked := ⟨payingVm, fun _ => none⟩

theorem payingStart_coherent : payingStart.Coherent agave := by
  have rebuilt : payingVm.accounts.rebuiltProgramCache agave =
      .ok payingVm.accounts.programsCache := by rfl
  refine Accounts.coherent_of_rebuilt agave rebuilt ⟨?_, ?_⟩
  · decide
  · intro pubkey registerFn account there
    cases there

def careful : List Operation :=
  [.addProgramWithLoader 0x50 [0x7f] Ids.bpfLoader, .sendTransaction plainTx, .addBuiltin 0x77 9,
    .setAccount 0x22 (systemAccount 5)]

theorem careful_keepsCoherence : payingStart.KeepsCoherence agave careful := by
  refine ⟨fun _ => ⟨?_, ?_, ?_, ?_, ?_⟩, fun next stepped => ?_⟩
  · decide
  · decide
  · intro other depends
    have nobody : payingVm.accounts.dependents 0x50 = [] := by decide
    have depends : other ∈ payingVm.accounts.dependents 0x50 := depends
    rw [nobody] at depends
    cases depends
  · intro reason refused
    cases refused
  · intro upgradeable
    exact absurd upgradeable (by decide)
  obtain rfl := Option.some.inj stepped
  refine ⟨?_, fun next stepped => ?_⟩
  · refine Accounts.keepsCoherenceAll_of_quiet agave (Accounts.quiet_of_untouched ?_) ?_
    · decide
    · decide
  obtain rfl := Option.some.inj stepped
  refine ⟨?_, fun next stepped => ?_⟩
  · simp only [Operation.KeepsCoherence]
    decide
  obtain rfl := Option.some.inj stepped
  refine ⟨Svm.writesCoherently_of_untouched agave ?_ ?_ ?_, fun next stepped => trivial⟩
  · decide
  · decide
  · decide

theorem careful_run_coherent :
    payingStart.Coherent agave ∧ payingStart.KeepsCoherence agave careful ∧
      ∀ reached, Runs.run (Tracked.step agave) careful payingStart = some reached →
        reached.Coherent agave :=
  ⟨payingStart_coherent, careful_keepsCoherence, fun reached ran =>
    Tracked.coherent_of_keepsCoherence agave payingStart_coherent careful_keepsCoherence careful []
      reached rfl ran⟩

/-- The rebuild after a new syscall knows agave's builtins only: the account of the VM's own builtin
is still there, its entry is not. -/
theorem syscall_drops_builtin :
    payingStart.Coherent agave ∧ ∃ reached,
      Runs.run (Tracked.step agave) [.addBuiltin 0x77 9, .registerCustomSyscall ⟨"trace", 1⟩]
        payingStart = some reached ∧ ¬ reached.Coherent agave := by
  have left : (Runs.run (Tracked.step agave)
      [.addBuiltin 0x77 9, .registerCustomSyscall ⟨"trace", 1⟩] payingStart).map
      (fun reached => (reached.vm.accounts.holdsNative 0x77, reached.installed 0x77,
        (reached.vm.accounts.programsCache.find 0x77).isSome)) =
        some (true, some 9, false) := by decide
  refine ⟨payingStart_coherent, ?_⟩
  cases ran : Runs.run (Tracked.step agave)
      [.addBuiltin 0x77 9, .registerCustomSyscall ⟨"trace", 1⟩] payingStart with
  | none =>
    rw [ran] at left
    cases left
  | some reached =>
    simp only [ran, Option.map_some, Option.some.injEq, Prod.mk.injEq] at left
    obtain ⟨native, there, missing⟩ := left
    refine ⟨reached, rfl, ?_⟩
    intro coherent
    rw [coherent.find_of_installed agave native there] at missing
    cases missing

end Sample

end Hpsvm
