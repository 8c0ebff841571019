import Hpsvm.AccountsDb.Prewarming
import Hpsvm.Properties.Footprint
import Hpsvm.Properties.InStep

/-!
# Prewarmed overlays

A prewarm copies accounts of the source into the overlay. Reads do not change, but an account in the
overlay counts where one in the source does not: for the sysvar cache, for a rebuild of the program
cache, for the check whether a program is replaced. An overlay with inert accounts more behaves the
same under every write.
-/

namespace Hpsvm

open Foundation (Lockstep.Answers)

/-- A batch query answers what its keys give one by one. -/
def AccountSource.AnswersAlike (source : AccountSource) : Prop :=
  ∀ pubkeys loaded, source.getAccounts pubkeys = .ok loaded →
    ∀ pubkey account, (pubkey, some account) ∈ pubkeys.zip loaded →
      source.getAccount pubkey = .ok (some account)

/-- The trait's default batch query does. -/
theorem AccountSource.answersAlike_ofGetAccount
    (getAccount : Address → Except AccountSourceError (Option AccountSharedData)) :
    (ofGetAccount getAccount).AnswersAlike := by
  intro pubkeys loaded answered pubkey account member
  have paired := Foundation.mapM_eq_ok_iff.1 answered
  exact (List.forall₂_iff_zip.1 paired).2 member

namespace Accounts

/-- The overlay of `warm` holds inert accounts ahead of time that `cold` reads from the source. -/
structure Warmed (agave : Agave) (cold warm : Accounts) : Prop where
  source : warm.source = cold.source
  programs : warm.programsCache = cold.programsCache
  sysvars : warm.sysvarCache = cold.sysvarCache
  environments : warm.environments = cold.environments
  kept : ∀ (pubkey : Address) (account : AccountSharedData),
    cold.cache.inner[pubkey]? = some account → warm.cache.inner[pubkey]? = some account
  added : ∀ (pubkey : Address) (account : AccountSharedData),
    warm.cache.inner[pubkey]? = some account → cold.cache.inner[pubkey]? = none →
      Inert agave pubkey account
  reads : ∀ pubkey, warm.tryGetAccount pubkey = cold.tryGetAccount pubkey

namespace Warmed

variable {agave : Agave} {cold warm : Accounts}

theorem refl (db : Accounts) : Warmed agave db db := by
  refine ⟨rfl, rfl, rfl, rfl, fun _ _ found => found, ?_, fun _ => rfl⟩
  intro pubkey account found missing
  rw [found] at missing
  cases missing

theorem looksAlike (warmed : Warmed agave cold warm) : LooksAlike agave cold warm := by
  intro pubkey
  cases found : cold.cache.inner[pubkey]? with
  | some account => exact .inl (warmed.kept pubkey account found)
  | none =>
    right
    rintro account (there | there)
    · cases there
    · exact warmed.added pubkey account there found

theorem loadProgram_eq (warmed : Warmed agave cold warm) (account : AccountSharedData) :
    warm.loadProgram agave account = cold.loadProgram agave account :=
  loadProgram_congr agave account (fun address _ => getAccount_congr (warmed.reads address))
    (by rw [warmed.sysvars]) warmed.environments

theorem rebuiltProgramCache_eq (warmed : Warmed agave cold warm) :
    warm.rebuiltProgramCache agave = cold.rebuiltProgramCache agave :=
  warmed.looksAlike.rebuiltProgramCache_eq warmed.sysvars fun program _ =>
    warmed.loadProgram_eq program.2

theorem checkAccount_eq (warmed : Warmed agave cold warm) (pubkey : Address)
    (account : AccountSharedData) :
    warm.checkAccount agave pubkey account = cold.checkAccount agave pubkey account := by
  simp only [checkAccount, checkAccount.loadEntry, warmed.loadProgram_eq]

/-! ### Writes -/

theorem writeAccount (warmed : Warmed agave cold warm) (pubkey : Address)
    (account : AccountSharedData) :
    Warmed agave (cold.writeAccount pubkey account) (warm.writeAccount pubkey account) := by
  refine ⟨warmed.source, warmed.programs, warmed.sysvars, warmed.environments, ?_, ?_, ?_⟩
  · intro other existing found
    simp only [Accounts.writeAccount, CacheDb.store_inner_getElem?] at found ⊢
    split
    next same => rwa [if_pos same] at found
    next differ =>
      rw [if_neg differ] at found
      exact warmed.kept other existing found
  · intro other existing there missing
    simp only [Accounts.writeAccount, CacheDb.store_inner_getElem?] at there missing
    split at there
    next same =>
      rw [if_pos same, there] at missing
      cases missing
    next differ =>
      rw [if_neg differ] at missing
      exact warmed.added other existing there missing
  · intro other
    have wrote : ∀ db : Accounts, Wrote db pubkey account (db.writeAccount pubkey account) :=
      fun db => ⟨rfl, rfl, rfl, rfl⟩
    rw [(wrote warm).tryGetAccount other, (wrote cold).tryGetAccount other, warmed.reads other]

/-- The program cache may change in the same way on both sides. -/
theorem with_programs (warmed : Warmed agave cold warm) (programs : ProgramCache) :
    Warmed agave { cold with programsCache := programs } { warm with programsCache := programs } :=
  ⟨warmed.source, rfl, warmed.sysvars, warmed.environments, warmed.kept, warmed.added,
    warmed.reads⟩

theorem rebuildSysvarCache (warmed : Warmed agave cold warm) :
    Warmed agave (cold.rebuildSysvarCache agave) (warm.rebuildSysvarCache agave) := by
  have slot : (warm.rebuildSysvarCache agave).programsCache =
      (cold.rebuildSysvarCache agave).programsCache := by
    simp only [Accounts.rebuildSysvarCache, warmed.looksAlike.fillSysvarCache_eq, warmed.programs]
  exact ⟨warmed.source, slot, warmed.looksAlike.fillSysvarCache_eq, warmed.environments, warmed.kept,
    warmed.added, warmed.reads⟩

theorem written (warmed : Warmed agave cold warm) (pubkey : Address)
    (account : AccountSharedData) :
    Warmed agave (cold.written agave pubkey account) (warm.written agave pubkey account) := by
  unfold Accounts.written refreshSysvars
  split
  · exact (warmed.writeAccount pubkey account).rebuildSysvarCache
  · exact warmed.writeAccount pubkey account

/-- `add_account` answers the same and leaves a warmed overlay. -/
theorem addAccount (warmed : Warmed agave cold warm) (pubkey : Address)
    (account : AccountSharedData) :
    Lockstep.Answers (Warmed agave) (cold.addAccount agave pubkey account)
      (warm.addAccount agave pubkey account) := by
  have written := warmed.written pubkey account
  apply addAccount_inStep agave (warmed.checkAccount_eq pubkey account)
    (warmed.looksAlike.hadCachedProgram_eq pubkey) written.rebuiltProgramCache_eq warmed written
  · intro entry _
    rw [written.programs]
    exact written.with_programs _
  · intro cache
    exact written.with_programs cache

theorem addAccounts (warmed : Warmed agave cold warm)
    (accounts : List (Address × AccountSharedData)) :
    Lockstep.Answers (Warmed agave) (cold.addAccounts agave accounts)
      (warm.addAccounts agave accounts) :=
  addAccounts_inStep agave (fun write _ _ _ related => related.addAccount write.1 write.2) warmed

theorem syncAccounts (warmed : Warmed agave cold warm)
    (accounts : List (Address × AccountSharedData)) :
    Lockstep.Answers (Warmed agave) (cold.syncAccounts agave accounts)
      (warm.syncAccounts agave accounts) :=
  warmed.addAccounts _

/-- Rolling both sides back leaves the overlays from before and the caches from after. -/
theorem rollback (warmed : Warmed agave cold warm) (accounts : List (Address × AccountSharedData)) :
    Warmed agave ((cold.syncAccounts agave accounts).2.rollback cold.checkpoint)
      ((warm.syncAccounts agave accounts).2.rollback warm.checkpoint) := by
  have after := (warmed.syncAccounts accounts).left
  rw [rollback_checkpoint (cold.journaled_syncAccounts agave accounts),
    rollback_checkpoint (warm.journaled_syncAccounts agave accounts)]
  refine ⟨after.source, after.programs, after.sysvars, after.environments, warmed.kept,
    warmed.added, ?_⟩
  intro pubkey
  have unchanged : ∀ db : Accounts, Accounts.tryGetAccount
      { (db.syncAccounts agave accounts).2 with journal := db.journal, cache := db.cache } pubkey =
        db.tryGetAccount pubkey := fun db =>
    tryGetAccount_congr (db.syncAccounts_keeps agave accounts).1 rfl Iff.rfl
  rw [unchanged, unchanged, warmed.reads]

/-! ### Prewarming -/

theorem insert (warmed : Warmed agave cold warm) {pubkey : Address} {account : AccountSharedData}
    (absent : cold.cache.inner[pubkey]? = none)
    (read : cold.tryGetAccount pubkey = .ok (some account))
    (inert : Inert agave pubkey account) :
    Warmed agave cold (warm.addAccountNoChecks pubkey account) := by
  refine ⟨warmed.source, warmed.programs, warmed.sysvars, warmed.environments, ?_, ?_, ?_⟩
  · intro other existing found
    have differ : pubkey ≠ other := by
      rintro rfl
      rw [absent] at found
      cases found
    simp only [addAccountNoChecks, CacheDb.put_inner, AddressMap.getElem?_insert, if_neg differ]
    exact warmed.kept other existing found
  · intro other existing there missing
    simp only [addAccountNoChecks, CacheDb.put_inner, AddressMap.getElem?_insert] at there
    split at there
    next same =>
      subst same
      cases there
      exact inert
    · exact warmed.added other existing there missing
  · intro other
    by_cases same : pubkey = other
    · subst same
      rw [tryGetAccount_put_self (by rfl : (warm.addAccountNoChecks pubkey account).cache =
        warm.cache.put pubkey account), read]
    · have unchanged : (warm.addAccountNoChecks pubkey account).tryGetAccount other =
          warm.tryGetAccount other := by
        refine tryGetAccount_congr rfl ?_ ?_
        · simp [addAccountNoChecks, same]
        · simp [addAccountNoChecks, CacheDb.put, Ne.symm same]
      rw [unchanged, warmed.reads]

/-- A prewarm of addresses whose accounts are inert, where only the source has them. -/
theorem prewarm (warmed : Warmed agave cold warm) {addresses : List Address} {warm' : Accounts}
    (alike : cold.source.AnswersAlike)
    (inert : ∀ address ∈ addresses, ∀ account, cold.cache.inner[address]? = none →
      cold.tryGetAccount address = .ok (some account) → Inert agave address account)
    (done : warm.prewarm addresses = (.ok (), warm')) : Warmed agave cold warm' := by
  have inserted : Warmed agave cold (warm.prewarm addresses).2 := by
    refine prewarm_induct ?_ warmed
    intro current address account answered ahead
    obtain ⟨asked, absent, present⟩ := answered.unknown
    obtain ⟨loaded, batch, member⟩ := answered
    rw [warmed.source] at batch
    have single := alike _ loaded batch address account member
    have read : cold.tryGetAccount address = .ok (some account) := by
      rw [← warmed.reads]
      simp only [tryGetAccount, getAccountRef, absent, if_neg present, warmed.source, single]
    have absent' : cold.cache.inner[address]? = none := by
      cases found : cold.cache.inner[address]? with
      | none => rfl
      | some existing =>
        rw [warmed.kept address existing found] at absent
        cases absent
    exact ahead.insert absent' read (inert address asked account absent' read)
  rwa [done] at inserted

theorem programsToResolve_eq (warmed : Warmed agave cold warm) (programIds : List Address) :
    warm.programsToResolve programIds = cold.programsToResolve programIds := by
  unfold programsToResolve
  refine List.filterMap_congr ?_
  intro programId _
  rw [warmed.programs]
  cases found : cold.cache.inner[programId]? with
  | some account => simp only [warmed.kept programId account found]
  | none =>
    cases there : warm.cache.inner[programId]? with
    | none => rfl
    | some account => simp [(warmed.added programId account there found).no_program]

end Warmed

end Accounts

namespace Svm

section

variable (agave : Agave)

/-- What a transaction would commit. -/
def stagedDelta (vm : Svm) (tx : VersionedTransaction) : CommitDelta :=
  (detachedIntoResultAndDelta (vm.transactDetached agave tx) vm.history.isEnabled).2

/-- Sending is executing, staging and recording. -/
theorem sendTransaction_staged (vm : Svm) (tx : VersionedTransaction) :
    vm.sendTransaction agave tx =
      match (vm.transactDetached agave tx).fatalError with
      | some _ => ((vm.transactDetached agave tx).result, vm)
      | none =>
        match vm.accounts.syncAccounts agave (vm.stagedDelta agave tx).postAccounts with
        | (.error _, accounts) =>
          ((vm.transactDetached agave tx).result,
            { vm with accounts := accounts.rollback vm.accounts.checkpoint })
        | (.ok (), accounts) =>
          ((vm.transactDetached agave tx).result,
            { vm with
              accounts := accounts
              history := vm.history.record (vm.stagedDelta agave tx).historyEntry }) := by
  unfold sendTransaction transactCore stagedDelta
  simp only
  cases (vm.transactDetached agave tx).fatalError with
  | some error => rfl
  | none =>
    simp only
    cases vm.accounts.syncAccounts agave (detachedIntoResultAndDelta
        (vm.transactDetached agave tx) vm.history.isEnabled).2.postAccounts with
    | mk result accounts =>
      cases result with
      | error error => rfl
      | ok done => rfl

theorem transact_eq_ok {vm : Svm} {tx : VersionedTransaction} {executed : ExecutedTx}
    (staged : vm.transact agave tx = .ok executed) :
    ∃ accounts,
      vm.accounts.syncAccounts agave (vm.stagedDelta agave tx).postAccounts = (.ok (), accounts) ∧
      executed.vm = { vm with accounts := accounts } ∧
      executed.historyEntry = (vm.stagedDelta agave tx).historyEntry :=
  transactCore_eq_ok agave ((transact_eq_ok_iff agave).1 staged)

theorem transact_eq_error {vm next : Svm} {tx : VersionedTransaction} {error : HpsvmError}
    (failed : vm.transact agave tx = .error (error, next)) :
    next = vm ∨ ∃ accounts,
      vm.accounts.syncAccounts agave (vm.stagedDelta agave tx).postAccounts =
        (.error error, accounts) ∧
      next = { vm with accounts := accounts.rollback vm.accounts.checkpoint } := by
  obtain ⟨failure, core, rfl⟩ := (transact_eq_error_iff agave).1 failed
  exact transactCore_eq_error agave core

end

/-- The VMs differ only in accounts that one has read ahead of time. -/
structure Warmed (agave : Agave) (cold warm : Svm) : Prop where
  rest : warm = { cold with accounts := warm.accounts }
  accounts : Accounts.Warmed agave cold.accounts warm.accounts

namespace Warmed

variable {agave : Agave} {cold warm : Svm}

theorem refl (vm : Svm) : Warmed agave vm vm := ⟨rfl, .refl vm.accounts⟩

theorem history (warmed : Warmed agave cold warm) : warm.history = cold.history := by
  rw [warmed.rest]

/-- An execution cannot tell the two apart. -/
theorem transactDetached_eq (warmed : Warmed agave cold warm) (tx : VersionedTransaction) :
    warm.transactDetached agave tx = cold.transactDetached agave tx := by
  have same := warmed.accounts
  refine transactDetached_congr agave ⟨⟨?_, same.programs, same.sysvars, same.environments⟩,
    fun _ _ => same.reads _, fun _ _ _ _ => same.reads _, fun _ _ => same.reads _, ?_⟩
  · have key : warm.airdropPubkey = cold.airdropPubkey := by rw [warmed.rest]
    rw [warmed.history, key]
    exact warmed.rest
  · intro sanitized _ _
    rw [warmed.history]

/-- Sending answers the same and keeps the VMs alike. -/
theorem sendTransaction (warmed : Warmed agave cold warm) (tx : VersionedTransaction) :
    (warm.sendTransaction agave tx).1 = (cold.sendTransaction agave tx).1 ∧
      Warmed agave (cold.sendTransaction agave tx).2 (warm.sendTransaction agave tx).2 := by
  have rest : ∀ accounts history, ({ warm with accounts := accounts, history := history } : Svm) =
      { cold with accounts := accounts, history := history } := by
    intro accounts history
    rw [warmed.rest]
  obtain ⟨answer, synced⟩ := warmed.accounts.syncAccounts (cold.stagedDelta agave tx).postAccounts
  have rolled := warmed.accounts.rollback (cold.stagedDelta agave tx).postAccounts
  have delta : warm.stagedDelta agave tx = cold.stagedDelta agave tx := by
    simp only [stagedDelta, warmed.transactDetached_eq tx, warmed.history]
  rw [sendTransaction_staged, sendTransaction_staged, delta, warmed.transactDetached_eq tx]
  cases (cold.transactDetached agave tx).fatalError with
  | some error => exact ⟨rfl, warmed⟩
  | none =>
    cases left : cold.accounts.syncAccounts agave (cold.stagedDelta agave tx).postAccounts with
    | mk result accounts =>
      cases left' : warm.accounts.syncAccounts agave (cold.stagedDelta agave tx).postAccounts with
      | mk result' accounts' =>
        rw [left, left'] at answer synced rolled
        simp only at answer synced rolled
        subst answer
        cases result' with
        | error error =>
          refine ⟨rfl, ?_, rolled⟩
          simp only [rest, warmed.history]
        | ok done =>
          refine ⟨rfl, ?_, synced⟩
          simp only [rest, warmed.history]

end Warmed

end Svm

end Hpsvm
