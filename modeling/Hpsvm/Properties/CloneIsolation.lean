import Hpsvm.Foundation.Sharing
import Hpsvm.Operations
import Hpsvm.Properties.Discard

/-!
# Isolation of clones

A clone has accounts, history and configuration of its own, and the program cache in common with
the VM it was cloned from. The VMs are isolated as long as no operation changes that cache, its
entries or its slot.
-/

namespace Hpsvm

open Foundation (Sharing.Lens Sharing.Parties Sharing.Keeps Sharing.Along Sharing.Isolated
  Sharing.isolated_of_keeps Sharing.along_nil Sharing.along_cons Sharing.run Sharing.runAlone
  Sharing.own)

theorem ProgramCache.replenish_of_find {cache : ProgramCache} {programId : Address}
    {entry : ProgramCacheEntry} (known : cache.find programId = some entry) :
    cache.replenish programId entry = cache := by
  obtain ⟨entries, slot⟩ := cache
  simp only [replenish, ProgramCache.mk.injEq, and_true]
  refine Std.ExtTreeMap.ext_getElem? fun other => ?_
  by_cases same : programId = other
  · subst same
    rw [find] at known
    simpa using known.symm
  · simp [same]

namespace Accounts

variable (agave : Agave)

/-! ### Writes that keep the program cache -/

/-- The clock that the overlay holds after a sysvar was written is at the slot of the program
cache. -/
def KeepsSlot (db : Accounts) (pubkey : Address) (account : AccountSharedData) : Prop :=
  isManagedSysvarAccount pubkey = true → ∀ data,
    fillSysvarCache agave (db.cache.store pubkey account).inner .clock = some data →
      agave.clockSlot data = db.programsCache.slot

theorem written_programsCache {db : Accounts} {pubkey : Address} {account : AccountSharedData}
    (slot : db.KeepsSlot agave pubkey account) :
    (db.written agave pubkey account).programsCache = db.programsCache := by
  unfold written refreshSysvars
  split
  next managed =>
    simp only [rebuildSysvarCache, writeAccount, recordJournal, ProgramCache.setSlot]
    cases clock : fillSysvarCache agave (db.cache.store pubkey account).inner .clock with
    | none => rfl
    | some data => simp [slot managed data clock]
  · rfl

/-- An account that is refused, or whose write leaves the slot and the entries of the program cache
as they are. -/
def KeepsPrograms (db : Accounts) (pubkey : Address) (account : AccountSharedData) : Prop :=
  match db.checkAccount agave pubkey account with
  | .error _ => True
  | .ok (some entry) =>
    db.KeepsSlot agave pubkey account ∧ db.programsCache.find pubkey = some entry
  | .ok none =>
    if db.hadCachedProgram pubkey then
      match (db.written agave pubkey account).rebuiltProgramCache agave with
      | .error _ => db.KeepsSlot agave pubkey account
      | .ok cache => cache = db.programsCache
    else db.KeepsSlot agave pubkey account

theorem addAccount_programs {db : Accounts} {pubkey : Address} {account : AccountSharedData}
    (keeps : db.KeepsPrograms agave pubkey account) :
    (db.addAccount agave pubkey account).2.programsCache = db.programsCache := by
  unfold KeepsPrograms at keeps
  rcases db.addAccount_cases agave pubkey account with
    ⟨error, checked, added⟩ | ⟨entry, checked, added⟩ | ⟨checked, had, error, rebuilt, added⟩ |
      ⟨checked, had, cache, rebuilt, added⟩ | ⟨checked, had, added⟩
  · rw [added]
  · rw [checked] at keeps
    obtain ⟨slot, known⟩ := keeps
    rw [added]
    simp only [written_programsCache agave slot, ProgramCache.replenish_of_find known]
  · simp only [checked, had, rebuilt, if_true] at keeps
    rw [added]
    exact written_programsCache agave keeps
  · simp only [checked, had, rebuilt, if_true] at keeps
    rw [added]
    exact keeps
  · simp only [checked, had, Bool.false_eq_true, if_false] at keeps
    rw [added]
    exact written_programsCache agave keeps

/-- Every account of a list keeps the program cache at its turn. -/
def KeepsProgramsAll (db : Accounts) : List (Address × AccountSharedData) → Prop
  | [] => True
  | (address, account) :: rest =>
    db.KeepsPrograms agave address account ∧
      ((db.addAccount agave address account).1 = .ok () →
        KeepsProgramsAll (db.addAccount agave address account).2 rest)

theorem addAccounts_programs {db : Accounts} {accounts : List (Address × AccountSharedData)}
    (keeps : db.KeepsProgramsAll agave accounts) :
    (db.addAccounts agave accounts).2.programsCache = db.programsCache := by
  induction accounts generalizing db with
  | nil => rfl
  | cons pair rest ih =>
    obtain ⟨address, account⟩ := pair
    obtain ⟨first, others⟩ := keeps
    have kept := addAccount_programs agave first
    unfold addAccounts
    split
    next error left refused => rwa [refused] at kept
    next taken added =>
      rw [added] at kept others
      exact (ih (others rfl)).trans kept

/-- A plain account over nothing executable keeps the program cache. -/
theorem Quiet.keepsPrograms {db : Accounts} {pubkey : Address} {account : AccountSharedData}
    (quiet : Quiet db pubkey account) : db.KeepsPrograms agave pubkey account := by
  simp [KeepsPrograms, KeepsSlot, quiet.checkAccount_eq agave, quiet.hadCachedProgram_eq,
    quiet.unmanaged]

theorem keepsProgramsAll_of_quiet {db : Accounts} {accounts : List (Address × AccountSharedData)}
    (quiet : ∀ pair ∈ accounts, Quiet db pair.1 pair.2) :
    db.KeepsProgramsAll agave accounts := by
  induction accounts generalizing db with
  | nil => trivial
  | cons pair rest ih =>
    obtain ⟨address, account⟩ := pair
    have first : Quiet db address account := quiet _ List.mem_cons_self
    refine ⟨first.keepsPrograms agave, ?_⟩
    intro _
    rw [addAccount_of_quiet agave first]
    exact ih fun pair member => (quiet pair (List.mem_cons_of_mem _ member)).after_write first.plain

theorem keepsPrograms_of_untouched {db : Accounts} {pubkey : Address} {account : AccountSharedData}
    (untouched : stagingTouchesCaches [(pubkey, account)] db = false) :
    db.KeepsPrograms agave pubkey account :=
  (quiet_of_untouched untouched _ List.mem_cons_self).keepsPrograms agave

/-- A rebuild that succeeds gives the cache. -/
def RebuildsTo (db : Accounts) (cache : ProgramCache) : Prop :=
  ∀ rebuilt, db.rebuiltProgramCache agave = .ok rebuilt → rebuilt = cache

theorem rebuildProgramCache_programs {db : Accounts} {cache : ProgramCache}
    (found : db.programsCache = cache) (rebuilds : db.RebuildsTo agave cache) :
    (db.rebuildProgramCache agave).2.programsCache = cache := by
  unfold rebuildProgramCache
  split
  · exact found
  next rebuilt equal => exact rebuilds rebuilt equal

end Accounts

namespace Svm

variable (agave : Agave)

/-! ### Operations that keep the program cache -/

theorem setAccounts_eq (vm : Svm) (accounts : List (Address × AccountSharedData)) :
    (vm.setAccounts agave accounts).1 = (vm.accounts.addAccounts agave accounts).1 ∧
      (vm.setAccounts agave accounts).2.accounts =
        (vm.accounts.addAccounts agave accounts).2 := by
  induction accounts generalizing vm with
  | nil => exact ⟨rfl, rfl⟩
  | cons pair rest ih =>
    obtain ⟨address, account⟩ := pair
    unfold setAccounts Accounts.addAccounts setAccount
    cases vm.accounts.addAccount agave address account with
    | mk result left =>
      cases result with
      | error error => exact ⟨rfl, rfl⟩
      | ok _ => exact ih ((vm.withAccounts left).syncBlockEnvSlot agave)

theorem setAccount_programs {vm : Svm} {address : Address} {account : AccountSharedData}
    (keeps : vm.accounts.KeepsPrograms agave address account) :
    (vm.setAccount agave address account).2.accounts.programsCache =
      vm.accounts.programsCache := by
  have kept := Accounts.addAccount_programs agave keeps
  unfold setAccount
  split
  next error left refused => rwa [refused] at kept
  next taken added => rwa [added] at kept

/-- The cache has the entry of the program already, or the program is refused. -/
def KnowsProgram (vm : Svm) (programId : Address) (programBytes : List UInt8)
    (loaderId : Address) : Prop :=
  (programAccountsFor agave vm.accounts programId programBytes loaderId).isSome →
    agave.loadElf vm.accounts.environments loaderId programBytes = .ok () →
    vm.accounts.programsCache.find programId =
      some (.loaded vm.accounts.environments loaderId programBytes)

theorem foldl_addAccountNoChecks (db : Accounts) (writes : List (Address × AccountSharedData)) :
    (writes.foldl (fun accounts (address, account) =>
        accounts.addAccountNoChecks address account) db).programsCache = db.programsCache ∧
      (writes.foldl (fun accounts (address, account) =>
        accounts.addAccountNoChecks address account) db).environments = db.environments := by
  induction writes generalizing db with
  | nil => exact ⟨rfl, rfl⟩
  | cons write rest ih => exact ih (db.addAccountNoChecks write.1 write.2)

theorem addProgramInternal_programs {vm : Svm} {programId : Address} {programBytes : List UInt8}
    {loaderId : Address} (known : vm.KnowsProgram agave programId programBytes loaderId) :
    (vm.addProgramInternal agave programId programBytes loaderId).2.accounts.programsCache =
      vm.accounts.programsCache := by
  unfold KnowsProgram at known
  unfold addProgramInternal
  split
  · rfl
  next writes listed =>
    obtain ⟨programs, environments⟩ := foldl_addAccountNoChecks vm.accounts writes
    simp only [environments]
    split
    · exact programs
    next loads =>
      have found := known (by simp [listed]) loads
      simp only [withAccounts, programs]
      exact ProgramCache.replenish_of_find found

/-- The accounts a transaction stages, in the order they are staged, keep the program cache. -/
def StagesKeepingPrograms (vm : Svm) (tx : VersionedTransaction) : Prop :=
  vm.accounts.KeepsProgramsAll agave (partitionProgramdata [] []
    (detachedIntoResultAndDelta (vm.transactDetached agave tx)
      vm.history.isEnabled).2.postAccounts)

/-- Whether the staging is kept or rolled back, the program cache is as before. -/
theorem transactCore_programs {vm : Svm} {tx : VersionedTransaction}
    (keeps : vm.StagesKeepingPrograms agave tx) :
    (∀ staged, vm.transactCore agave tx = .ok staged →
      staged.vm.accounts.programsCache = vm.accounts.programsCache) ∧
    ∀ failure after, vm.transactCore agave tx = .error (failure, after) →
      after.accounts.programsCache = vm.accounts.programsCache := by
  have kept : (vm.accounts.syncAccounts agave (detachedIntoResultAndDelta
      (vm.transactDetached agave tx) vm.history.isEnabled).2.postAccounts).2.programsCache =
        vm.accounts.programsCache := Accounts.addAccounts_programs agave keeps
  refine ⟨?_, ?_⟩
  · intro staged core
    obtain ⟨accounts, synced, left, -⟩ := transactCore_eq_ok agave core
    rw [synced] at kept
    rw [left]
    exact kept
  · intro failure after core
    rcases transactCore_eq_error agave core with rfl | ⟨accounts, refused, rfl⟩
    · rfl
    · rw [refused] at kept
      exact kept

theorem sendTransaction_programs {vm : Svm} {tx : VersionedTransaction}
    (keeps : vm.StagesKeepingPrograms agave tx) :
    (vm.sendTransaction agave tx).2.accounts.programsCache = vm.accounts.programsCache := by
  obtain ⟨committed, failed⟩ := transactCore_programs agave keeps
  unfold sendTransaction
  split
  next staged equal => exact committed staged equal
  next failure after equal => exact failed failure after equal

/-- What staging leaves, accepted or not, is what `transact` leaves. -/
theorem transact_of_transactCore {vm : Svm} {tx : VersionedTransaction} (holds : Svm → Prop)
    (core : (∀ staged, vm.transactCore agave tx = .ok staged → holds staged.vm) ∧
      ∀ failure after, vm.transactCore agave tx = .error (failure, after) → holds after) :
    (∀ staged, vm.transact agave tx = .ok staged → holds staged.vm) ∧
      ∀ error after, vm.transact agave tx = .error (error, after) → holds after := by
  obtain ⟨committed, failed⟩ := core
  refine ⟨?_, ?_⟩
  · intro staged transacted
    exact committed staged ((transact_eq_ok_iff agave).1 transacted)
  · intro error after refused
    obtain ⟨failure, core, -⟩ := (transact_eq_error_iff agave).1 refused
    exact failed failure after core

theorem transact_programs {vm : Svm} {tx : VersionedTransaction}
    (keeps : vm.StagesKeepingPrograms agave tx) :
    (∀ staged, vm.transact agave tx = .ok staged →
      staged.vm.accounts.programsCache = vm.accounts.programsCache) ∧
    ∀ error after, vm.transact agave tx = .error (error, after) →
      after.accounts.programsCache = vm.accounts.programsCache :=
  transact_of_transactCore agave
    (fun after => after.accounts.programsCache = vm.accounts.programsCache)
    (transactCore_programs agave keeps)

/-- Discarding the transaction keeps the program cache, the rebuild of a dirty one included. -/
def DiscardsKeepingPrograms (vm : Svm) (tx : VersionedTransaction) : Prop :=
  vm.StagesKeepingPrograms agave tx ∧
    (stagingTouchesCaches (vm.transactDetached agave tx).postAccounts vm.accounts = true →
      (vm.accounts.rebuildSysvarCache agave).RebuildsTo agave vm.accounts.programsCache)

theorem StagedOn.unstage_programs {vm after : Svm} {tx : VersionedTransaction}
    {staged : ExecutedTx} (on : vm.StagedOn agave tx staged)
    (keeps : vm.DiscardsKeepingPrograms agave tx)
    (unstaged : staged.unstage agave = some after) :
    after.accounts.programsCache = vm.accounts.programsCache := by
  rcases on.unstage_cases agave unstaged with ⟨-, rfl⟩ | ⟨cache, dirty, rebuilt, rfl⟩
  · rfl
  · exact keeps.2 (on.dirty.symm.trans dirty) cache rebuilt

end Svm

namespace Operation

variable (agave : Agave)

/-- The operation finds the program cache as it would leave it. -/
def KeepsPrograms (vm : Svm) : Operation → Prop
  | addBuiltin programId entrypoint =>
    vm.accounts.programsCache.find programId = some (.builtin entrypoint)
  | addProgram programId programBytes =>
    vm.KnowsProgram agave programId programBytes Ids.bpfLoaderUpgradeable
  | addProgramWithLoader programId programBytes loaderId =>
    vm.KnowsProgram agave programId programBytes loaderId
  | setAccount address account => vm.accounts.KeepsPrograms agave address account
  | setSysvar sysvar data => vm.accounts.KeepsPrograms agave sysvar.id (sysvarAccount data)
  | warpToSlot slot => ∀ clock, vm.clock? agave = some clock →
    vm.accounts.KeepsPrograms agave Sysvar.clock.id
      (sysvarAccount (agave.withClockSlot clock slot))
  | setFeatureSet featureSet => ∀ rematerialized,
    { vm with
      version := { vm.version with featureSet := featureSet }
      reservedAccountKeys := agave.reservedAccountKeys featureSet : Svm }.rematerialize agave
        vm.version.featureSet = some rematerialized →
    match rematerialized.accounts.rebuiltProgramCache agave with
    | .ok cache => cache = vm.accounts.programsCache
    | .error _ => vm.accounts.rebuiltProgramCache agave = .ok vm.accounts.programsCache
  | registerCustomSyscall syscall => ∀ refreshed,
    { vm with customSyscalls := vm.customSyscalls ++ [syscall] : Svm
      }.tryRefreshRuntimeEnvironments agave = (.ok (), refreshed) →
    refreshed.accounts.RebuildsTo agave vm.accounts.programsCache
  | sendTransaction tx => vm.StagesKeepingPrograms agave tx
  | transactCommit tx => vm.StagesKeepingPrograms agave tx
  | transactDiscard tx => vm.DiscardsKeepingPrograms agave tx
  | processInstructionCase case unique =>
    vm.accounts.KeepsProgramsAll agave case.preAccounts ∧
      ((vm.accounts.addAccounts agave case.preAccounts).1 = .ok () →
        (vm.accounts.addAccounts agave case.preAccounts).2.getAccount (case.feePayer unique) =
          none →
        (vm.accounts.addAccounts agave case.preAccounts).2.KeepsPrograms agave
          (case.feePayer unique) Svm.feePayerAccount)
  | simulateInstructionChainWithAccounts _ preAccounts =>
    vm.accounts.KeepsProgramsAll agave preAccounts

end Operation

namespace Svm

variable (agave : Agave)

theorem rebuildPrograms_programs {vm : Svm} {cache : ProgramCache}
    (found : vm.accounts.programsCache = cache) (rebuilds : vm.accounts.RebuildsTo agave cache) :
    (vm.rebuildPrograms agave).2.accounts.programsCache = cache := by
  have kept := Accounts.rebuildProgramCache_programs agave found rebuilds
  unfold rebuildPrograms
  split
  next error accounts equal => rwa [equal] at kept
  next accounts equal => rwa [equal] at kept

theorem tryRefreshRuntimeEnvironments_programs (vm : Svm) :
    (vm.tryRefreshRuntimeEnvironments agave).2.accounts.programsCache =
      vm.accounts.programsCache := by
  unfold tryRefreshRuntimeEnvironments
  simp only
  split
  · rfl
  · split <;> rfl

/-- The VM with the new features in place, before anything is materialized again. -/
def withFeatureSet (vm : Svm) (featureSet : FeatureSet) : Svm :=
  { vm with
    version := { vm.version with featureSet := featureSet }
    reservedAccountKeys := agave.reservedAccountKeys featureSet }

/-- What `set_feature_set` answers once the reconfiguration got to its rebuild. -/
theorem setFeatureSet_of_rematerialized {vm rematerialized : Svm} {featureSet : FeatureSet}
    (reached : (vm.withFeatureSet agave featureSet).rematerialize agave vm.version.featureSet =
      some rematerialized) :
    vm.setFeatureSet agave featureSet =
      match rematerialized.accounts.rebuiltProgramCache agave with
      | .ok cache =>
        some (.ok (), rematerialized.withAccounts
          { rematerialized.accounts with programsCache := cache })
      | .error error =>
        let programs := match vm.accounts.rebuiltProgramCache agave with
          | .ok cache => cache
          | .error _ => rematerialized.accounts.programsCache
        some (.error (.instruction error), { rematerialized with
          version := { rematerialized.version with featureSet := vm.version.featureSet }
          reservedAccountKeys := vm.reservedAccountKeys
          accounts := { vm.accounts with programsCache := programs } }) := by
  unfold withFeatureSet at reached
  unfold setFeatureSet
  simp only [reached, Option.map_some, rebuildPrograms, Accounts.rebuildProgramCache]
  cases first : rematerialized.accounts.rebuiltProgramCache agave with
  | ok cache => rfl
  | error error =>
    have again : Accounts.rebuiltProgramCache agave
        { vm.accounts with programsCache := rematerialized.accounts.programsCache } =
          vm.accounts.rebuiltProgramCache agave :=
      Accounts.rebuiltProgramCache_congr agave rfl rfl rfl rfl
    simp only [withAccounts, again]
    cases vm.accounts.rebuiltProgramCache agave with
    | ok cache => rfl
    | error error => rfl

theorem setFeatureSet_programs {vm after : Svm} {featureSet : FeatureSet}
    {result : Except HpsvmError Unit}
    (keeps : Operation.KeepsPrograms agave vm (.setFeatureSet featureSet))
    (set : vm.setFeatureSet agave featureSet = some (result, after)) :
    after.accounts.programsCache = vm.accounts.programsCache := by
  obtain ⟨rematerialized, configured, -⟩ := Option.map_eq_some_iff.1 set
  have rebuilds := keeps rematerialized configured
  rw [setFeatureSet_of_rematerialized agave configured] at set
  cases rebuilt : rematerialized.accounts.rebuiltProgramCache agave with
  | ok cache =>
    simp only [rebuilt] at set rebuilds
    cases set
    exact rebuilds
  | error error =>
    simp only [rebuilt] at set rebuilds
    simp only [rebuilds] at set
    cases set
    rfl

theorem prepareCase_programs {vm : Svm} {case : InstructionCase} {unique : Address}
    (keeps : Operation.KeepsPrograms agave vm (.processInstructionCase case unique)) :
    (vm.prepareCase agave case (case.feePayer unique)).2.accounts.programsCache =
      vm.accounts.programsCache := by
  obtain ⟨writes, payer⟩ := keeps
  obtain ⟨results, databases⟩ := setAccounts_eq agave (vm.setSigverify false) case.preAccounts
  have same : (vm.setSigverify false).accounts = vm.accounts := rfl
  rw [same] at results databases
  have kept := Accounts.addAccounts_programs agave writes
  rw [← databases] at kept
  rw [← results, ← databases] at payer
  unfold prepareCase
  split
  next error working refused => rwa [refused] at kept
  next working set =>
    rw [set] at kept payer
    split
    · exact kept
    next missing => exact (setAccount_programs agave (payer rfl missing)).trans kept

theorem afterClone_of_programs {vm working : Svm}
    (kept : working.accounts.programsCache = vm.accounts.programsCache) :
    vm.afterClone working = vm := by
  rw [afterClone, kept]
  rfl

/-- A clone that kept the programs leaves nothing behind. -/
theorem processInstructionCase_vm {vm : Svm} {case : InstructionCase} {unique : Address}
    (keeps : Operation.KeepsPrograms agave vm (.processInstructionCase case unique)) :
    (vm.processInstructionCase agave case unique).2 = vm := by
  have kept := prepareCase_programs agave keeps
  unfold processInstructionCase
  simp only
  split
  next error working refused =>
    rw [refused] at kept
    exact afterClone_of_programs kept
  next working prepared =>
    rw [prepared] at kept
    exact afterClone_of_programs kept

theorem simulateInstructionChainWithAccounts_vm {vm : Svm} {instructions : List Instruction}
    {preAccounts : List (Address × AccountSharedData)}
    (keeps : vm.accounts.KeepsProgramsAll agave preAccounts) :
    (vm.simulateInstructionChainWithAccounts agave instructions preAccounts).2 = vm := by
  have kept : (vm.setAccounts agave preAccounts).2.accounts.programsCache =
      vm.accounts.programsCache := by
    rw [(setAccounts_eq agave vm preAccounts).2]
    exact Accounts.addAccounts_programs agave keeps
  unfold simulateInstructionChainWithAccounts
  split
  next error working refused =>
    rw [refused] at kept
    exact afterClone_of_programs kept
  next working set =>
    rw [set] at kept
    exact afterClone_of_programs kept

end Svm

namespace Operation

variable (agave : Agave)

/-- The operation leaves the program cache as it finds it. -/
theorem act_programs {op : Operation} {vm next : Svm} {answer : Answer}
    (keeps : op.KeepsPrograms agave vm) (acted : op.act agave vm = some (answer, next)) :
    next.accounts.programsCache = vm.accounts.programsCache := by
  cases op with
  | addBuiltin programId entrypoint =>
    cases acted
    exact ProgramCache.replenish_of_find keeps
  | addProgram programId programBytes =>
    cases acted
    exact Svm.addProgramInternal_programs agave keeps
  | addProgramWithLoader programId programBytes loaderId =>
    cases acted
    exact Svm.addProgramInternal_programs agave keeps
  | setAccount address account =>
    cases acted
    exact Svm.setAccount_programs agave keeps
  | setSysvar sysvar data =>
    cases acted
    exact Svm.setAccount_programs agave keeps
  | warpToSlot slot =>
    obtain ⟨warped, done, equal⟩ := Option.map_eq_some_iff.1 acted
    cases equal
    obtain ⟨clock, found, set⟩ := Svm.warpToSlot_eq_some agave done
    have kept := Svm.setAccount_programs agave (keeps clock found)
    rwa [set] at kept
  | setFeatureSet featureSet =>
    simp only [act, Option.map_eq_some_iff] at acted
    obtain ⟨⟨result, after⟩, set, equal⟩ := acted
    cases equal
    exact Svm.setFeatureSet_programs agave keeps set
  | registerCustomSyscall syscall =>
    cases acted
    have same := Svm.tryRefreshRuntimeEnvironments_programs agave
      { vm with customSyscalls := vm.customSyscalls ++ [syscall] }
    split
    next error left refused => rwa [refused] at same
    next refreshed taken =>
      rw [taken] at same
      exact Svm.rebuildPrograms_programs agave same (keeps refreshed taken)
  | sendTransaction tx =>
    cases acted
    exact Svm.sendTransaction_programs agave keeps
  | transactCommit tx =>
    obtain ⟨staged, failed⟩ := Svm.transact_programs agave keeps
    simp only [act] at acted
    split at acted
    next error after refused =>
      cases acted
      exact failed error _ refused
    next executed taken =>
      cases acted
      exact staged executed taken
  | transactDiscard tx =>
    obtain ⟨-, failed⟩ := Svm.transact_programs agave keeps.1
    simp only [act] at acted
    split at acted
    next error after refused =>
      cases acted
      exact failed error _ refused
    next executed taken =>
      simp only [ExecutedTx.discard, Option.map_map, Option.map_eq_some_iff] at acted
      obtain ⟨after, unstaged, equal⟩ := acted
      cases equal
      exact (Svm.stagedOn_of_transact agave taken).unstage_programs agave keeps unstaged
  | processInstructionCase case unique =>
    cases acted
    exact congrArg (fun vm => vm.accounts.programsCache)
      (Svm.processInstructionCase_vm agave keeps)
  | simulateInstructionChainWithAccounts instructions preAccounts =>
    cases acted
    exact congrArg (fun vm => vm.accounts.programsCache)
      (Svm.simulateInstructionChainWithAccounts_vm agave keeps)

end Operation

/-- The part of a VM that its clones share. -/
def programLens : Sharing.Lens Svm ProgramCache where
  get := fun vm => vm.accounts.programsCache
  put := fun cache vm => vm.withAccounts { vm.accounts with programsCache := cache }
  get_put := fun _ _ => rfl
  put_get := fun _ => rfl

namespace Operation

variable (agave : Agave)

/-- An operation that finds the program cache as it would leave it is not seen by a clone, and by
nobody if it takes `&self`. -/
theorem keeps_of_keepsPrograms {op : Operation} {vm : Svm} (keeps : op.KeepsPrograms agave vm) :
    Sharing.Keeps (act agave) programLens (alone agave) op vm := by
  refine ⟨?_, fun answer next acted => act_programs agave keeps acted⟩
  unfold alone
  split
  next readonly =>
    cases op with
    | processInstructionCase case unique =>
      simp only [act, Option.map_some, Svm.processInstructionCase_vm agave keeps]
    | simulateInstructionChainWithAccounts instructions preAccounts =>
      simp only [act, Option.map_some, Svm.simulateInstructionChainWithAccounts_vm agave keeps]
    | _ => cases readonly
  · rfl

end Operation

/-- A VM and its clones, taken by any number of parties. -/
abbrev Clones (ι : Type) := Sharing.Parties ι programLens

namespace Clones

variable (agave : Agave) {ι : Type} [DecidableEq ι]

/-- After an interleaving of operations, every VM has answered and is as if it had run its own
operations only, and its `&self` calls had left it alone. -/
def Isolated (clones : Clones ι) (steps : List (ι × Operation)) : Prop :=
  Sharing.Isolated (Operation.act agave) (Operation.alone agave) clones steps

/-- Every operation finds the program cache as it would leave it. -/
def KeepsPrograms (clones : Clones ι) (steps : List (ι × Operation)) : Prop :=
  Sharing.Along (Operation.act agave) (fun op vm => op.KeepsPrograms agave vm) clones steps

/-- In an interleaving whose operations all find the program cache as they would leave it, the
clones are isolated in every state reached. -/
theorem isolated_of_keepsPrograms (vm : Svm) {steps : List (ι × Operation)}
    (keeps : KeepsPrograms agave (.copies vm) steps) :
    ∀ before after, steps = before ++ after → Isolated agave (.copies vm) before := by
  intro before after split
  refine Sharing.isolated_of_keeps ?_
  unfold KeepsPrograms at keeps
  rw [split] at keeps
  exact keeps.of_append.mono fun op vm => Operation.keeps_of_keepsPrograms agave

end Clones

namespace Sample

inductive Party
  | original
  | clone
deriving DecidableEq

/-- A case that writes one plain account before it runs a transfer. -/
def plainCase : InstructionCase where
  programId := Ids.systemProgram
  accounts := [⟨0x11, true, true⟩, ⟨0x33, false, true⟩]
  data := [2, 5]
  preAccounts := [(0x33, systemAccount 7)]

def plainSteps : List (Party × Operation) :=
  [(.original, .sendTransaction plainTx), (.clone, .setAccount 0x22 (systemAccount 5)),
    (.original, .processInstructionCase plainCase 0)]

theorem plain_operations_isolated :
    Clones.KeepsPrograms agave (.copies payingVm) plainSteps ∧
      Clones.Isolated agave (.copies payingVm) plainSteps := by
  have keeps : Clones.KeepsPrograms agave (.copies payingVm) plainSteps := by
    refine Sharing.along_cons ?_ fun answer next acted => ?_
    · refine Accounts.keepsProgramsAll_of_quiet agave (Accounts.quiet_of_untouched ?_)
      decide
    obtain rfl : (payingVm.sendTransaction agave plainTx).2 = next :=
      congrArg Prod.snd (Option.some.inj acted)
    refine Sharing.along_cons ?_ fun answer next acted => ?_
    · simp only [Operation.KeepsPrograms]
      refine Accounts.keepsPrograms_of_untouched agave ?_
      decide
    refine Sharing.along_cons ⟨?_, ?_⟩ fun answer next acted => Sharing.along_nil
    all_goals
      obtain rfl := congrArg Prod.snd (Option.some.inj acted)
    · refine Accounts.keepsProgramsAll_of_quiet agave (Accounts.quiet_of_untouched ?_)
      decide
    · intro _ missing
      exact absurd missing (by decide)
  exact ⟨keeps, Clones.isolated_of_keepsPrograms agave payingVm keeps plainSteps [] (by simp)⟩

/-- A VM with the program 0x50 of the loader `bpfLoader`. -/
def programVm : Svm :=
  ((vm [(0x11, systemAccount 1_000_000), (Ids.bpfLoader, builtinAccount)] .empty
    ).addProgramWithLoader agave 0x50 [0x7f] Ids.bpfLoader).2

def callTx : VersionedTransaction where
  version := .legacy
  signatures := [1]
  header := ⟨1, 0, 1⟩
  staticAccountKeys := [0x11, 0x50]
  recentBlockhash := 0xb10c
  instructions := [⟨1, [], []⟩]
  addressTableLookups := []

/-- A case that puts a plain account in the place of the program. -/
def replacingCase : InstructionCase :=
  { plainCase with preAccounts := [(0x50, systemAccount 1)] }

def answeredOk : Answer → Bool
  | .transaction result => result.toOption.isSome
  | .instruction result => result.toOption.isSome
  | _ => true

/-- The case runs on a clone, and the program of the VM itself can no longer be called. -/
theorem instruction_case_unloads_program :
    ¬ Clones.Isolated agave (.copies programVm)
      [(Party.original, .processInstructionCase replacingCase 0),
        (Party.original, .sendTransaction callTx)] := by
  intro isolated
  have together : (Sharing.run (Operation.act agave)
      [(Party.original, .processInstructionCase replacingCase 0),
        (Party.original, .sendTransaction callTx)] (.copies programVm : Clones Party)).map
      (fun outcome => (Sharing.own Party.original outcome.1).map answeredOk) =
        some [true, false] := by decide
  have apart : (Sharing.runAlone (Operation.alone agave)
      [.processInstructionCase replacingCase 0, .sendTransaction callTx] programVm).map
      (fun outcome => outcome.1.map answeredOk) = some [true, true] := by decide
  cases ran : Sharing.run (Operation.act agave)
      [(Party.original, .processInstructionCase replacingCase 0),
        (Party.original, .sendTransaction callTx)] (.copies programVm : Clones Party) with
  | none =>
    rw [ran] at together
    cases together
  | some outcome =>
    have same := isolated.completes outcome.1 outcome.2 ran .original
    rw [ran] at together
    have alone : Sharing.runAlone (Operation.alone agave)
        [.processInstructionCase replacingCase 0, .sendTransaction callTx] programVm =
          some (Sharing.own .original outcome.1, outcome.2.state .original) := same
    rw [alone] at apart
    have equal := together.symm.trans apart
    cases equal

end Sample

end Hpsvm
