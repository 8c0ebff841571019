import Hpsvm.Foundation.RoundTrip
import Hpsvm.Properties.Simulation

/-!
# Discarding a staged transaction

The journal undoes the overlay part of a staged transaction exactly. The caches are not rewound:
when staging touched them they are computed again from the restored overlay, which gives them back
only if they were what the overlay determines in the first place.
-/

namespace Hpsvm

namespace Accounts

variable (agave : Agave)

/-- Loading a program reads the source, the overlay, the clock and the environments. -/
theorem loadProgram_congr {db db' : Accounts} (account : AccountSharedData)
    (reads : ∀ address, programdataAddress? account = some address →
      db'.getAccount address = db.getAccount address)
    (clock : db'.sysvarCache .clock = db.sysvarCache .clock)
    (environments : db'.environments = db.environments) :
    db'.loadProgram agave account = db.loadProgram agave account := by
  have slot : db'.clockSlot? agave = db.clockSlot? agave := by simp only [clockSlot?, clock]
  have elf : ∀ loader bytes, db'.loadElf agave loader bytes = db.loadElf agave loader bytes := by
    intro loader bytes
    simp only [loadElf, environments]
  unfold loadProgram
  simp only [slot, elf]
  cases db.clockSlot? agave with
  | none => rfl
  | some slot =>
    by_cases direct : account.owner = Ids.bpfLoader ∨ account.owner = Ids.bpfLoaderDeprecated
    · simp only [if_pos direct]
    · by_cases upgradeable : account.owner = Ids.bpfLoaderUpgradeable
      · simp only [if_neg direct, if_pos upgradeable]
        cases state : UpgradeableLoaderState.deserializeProgram account.data with
        | none => rfl
        | some address =>
          have same := reads address (by simp only [programdataAddress?, if_pos upgradeable, state])
          simp only [same]
      · simp only [if_neg direct, if_neg upgradeable]

theorem replenishPrograms_congr {db db' : Accounts} (cache : ProgramCache)
    {programs : List (Address × AccountSharedData)}
    (loads : ∀ program ∈ programs,
      db'.loadProgram agave program.2 = db.loadProgram agave program.2) :
    replenishPrograms agave db' cache programs = replenishPrograms agave db cache programs := by
  induction programs generalizing cache with
  | nil => rfl
  | cons program rest ih =>
    obtain ⟨pubkey, account⟩ := program
    have first := loads (pubkey, account) List.mem_cons_self
    simp only at first
    simp only [replenishPrograms, first]
    cases db.loadProgram agave account with
    | error error => rfl
    | ok entry => exact ih _ fun other member => loads other (List.mem_cons_of_mem _ member)

/-- A rebuilt program cache does not depend on the cache it replaces. -/
theorem rebuiltProgramCache_congr {db db' : Accounts} (source : db'.source = db.source)
    (cache : db'.cache = db.cache) (sysvars : db'.sysvarCache = db.sysvarCache)
    (environments : db'.environments = db.environments) :
    db'.rebuiltProgramCache agave = db.rebuiltProgramCache agave := by
  have loads : ∀ account, db'.loadProgram agave account = db.loadProgram agave account := by
    intro account
    refine loadProgram_congr agave account ?_ (by rw [sysvars]) environments
    intro address _
    refine getAccount_congr (tryGetAccount_congr source ?_ ?_) <;> rw [cache]
  simp only [rebuiltProgramCache, programAccounts, currentSlot, clockSlot?, cache, sysvars]
  exact replenishPrograms_congr agave _ fun program _ => loads program.2

/-- The caches are what the overlay determines: a rebuild of both would change nothing. -/
structure CachesDerived (db : Accounts) : Prop where
  sysvars : fillSysvarCache agave db.cache.inner = db.sysvarCache
  programs : db.rebuiltProgramCache agave = .ok db.programsCache

/-- Rebuilding both caches succeeds with the same database exactly when they were derived. -/
theorem rebuild_eq_self_iff (db : Accounts) :
    (db.rebuildSysvarCache agave).rebuildProgramCache agave = (.ok (), db) ↔
      db.CachesDerived agave := by
  constructor
  · intro rebuilt
    have sysvars : fillSysvarCache agave db.cache.inner = db.sysvarCache := by
      have same := congrArg (fun outcome => outcome.2.sysvarCache) rebuilt
      unfold rebuildProgramCache at same
      split at same <;> exact same
    have unchanged : (db.rebuildSysvarCache agave).rebuiltProgramCache agave =
        db.rebuiltProgramCache agave :=
      rebuiltProgramCache_congr agave rfl rfl sysvars rfl
    refine ⟨sysvars, ?_⟩
    unfold rebuildProgramCache at rebuilt
    rw [unchanged] at rebuilt
    split at rebuilt
    · cases rebuilt
    next cache found =>
      have same := congrArg (fun outcome => outcome.2.programsCache) rebuilt
      rw [found]
      exact congrArg Except.ok same
  · intro derived
    have unchanged : (db.rebuildSysvarCache agave).rebuiltProgramCache agave =
        db.rebuiltProgramCache agave :=
      rebuiltProgramCache_congr agave rfl rfl derived.sysvars rfl
    have sysvars := derived.sysvars
    unfold rebuildProgramCache
    rw [unchanged, derived.programs]
    simp only [rebuildSysvarCache, sysvars]

theorem quiet_of_untouched {db : Accounts} {accounts : List (Address × AccountSharedData)}
    (untouched : stagingTouchesCaches accounts db = false) :
    ∀ pair ∈ accounts, Quiet db pair.1 pair.2 := by
  intro pair member
  have calm := List.any_eq_false.1 untouched pair member
  simp only [Bool.or_eq_true, not_or, Bool.not_eq_true] at calm
  obtain ⟨⟨plain, unmanaged⟩, overlaid⟩ := calm
  refine ⟨unmanaged, plain, ?_⟩
  intro existing found
  simpa only [getAccountRef, found] using overlaid

/-- Staging that touches no cache leaves both as they are. -/
theorem caches_of_syncAccounts {db db' : Accounts}
    {accounts : List (Address × AccountSharedData)}
    (untouched : stagingTouchesCaches accounts db = false)
    (synced : db.syncAccounts agave accounts = (.ok (), db')) :
    db'.programsCache = db.programsCache ∧ db'.sysvarCache = db.sysvarCache := by
  obtain ⟨db'', added, programs, sysvars⟩ := addAccounts_of_quiet agave fun pair member =>
    quiet_of_untouched untouched pair (mem_partitionProgramdata.1 member)
  have same : db'' = db' := congrArg Prod.snd (added.symm.trans synced)
  rw [← same]
  exact ⟨programs, sysvars⟩

end Accounts

namespace Svm

variable (agave : Agave)

/-- What a staged transaction keeps of the VM it was staged on. -/
structure StagedOn (vm : Svm) (tx : VersionedTransaction) (staged : ExecutedTx) : Prop where
  checkpoint : staged.checkpoint = vm.accounts.checkpoint
  rest : staged.vm = { vm with accounts := staged.vm.accounts }
  source : staged.vm.accounts.source = vm.accounts.source
  environments : staged.vm.accounts.environments = vm.accounts.environments
  journaled : vm.accounts.Journaled staged.vm.accounts
  dirty : staged.cacheDirty =
    stagingTouchesCaches (vm.transactDetached agave tx).postAccounts vm.accounts
  clean : staged.cacheDirty = false →
    staged.vm.accounts.programsCache = vm.accounts.programsCache ∧
      staged.vm.accounts.sysvarCache = vm.accounts.sysvarCache

theorem stagedOn_of_transact {vm : Svm} {tx : VersionedTransaction} {staged : ExecutedTx}
    (transacted : vm.transact agave tx = .ok staged) : vm.StagedOn agave tx staged := by
  have core := (transact_eq_ok_iff agave).1 transacted
  rcases vm.transactDetached_cases agave tx with ⟨result, rejected, detached⟩ | ⟨run, detached⟩
  · rcases transactCore_of_rejected agave rejected detached with
      ⟨failure, failed, -⟩ | ⟨other, kept, same, checkpoint, -, -, clean, -⟩
    · rw [failed] at core
      cases core
    · obtain rfl : other = staged := Except.ok.inj (kept.symm.trans core)
      have nothing := postAccounts_of_rejected agave rejected detached
      refine ⟨checkpoint, by rw [same], by rw [same], by rw [same], ?_, ?_, ?_⟩
      · rw [same]
        exact .refl _
      · rw [clean, nothing]
        rfl
      · intro _
        rw [same]
        exact ⟨rfl, rfl⟩
  · rw [transactCore_eq agave run detached] at core
    split at core
    · cases core
    next accounts synced =>
      cases core
      have keeps := vm.accounts.syncAccounts_keeps agave run.postAccounts
      rw [synced] at keeps
      refine ⟨rfl, rfl, keeps.1, keeps.2, ?_, ?_, ?_⟩
      · have journaled := vm.accounts.journaled_syncAccounts agave run.postAccounts
        rwa [synced] at journaled
      · rw [detached]
        rfl
      · intro untouched
        exact Accounts.caches_of_syncAccounts agave untouched synced

/-- Rolling back restores all of the database but its caches. -/
theorem StagedOn.rollback_eq {vm : Svm} {tx : VersionedTransaction} {staged : ExecutedTx}
    (on : vm.StagedOn agave tx staged) :
    staged.vm.accounts.rollback staged.checkpoint =
      { vm.accounts with
        programsCache := staged.vm.accounts.programsCache
        sysvarCache := staged.vm.accounts.sysvarCache } := by
  rw [on.checkpoint, Accounts.rollback_checkpoint on.journaled]
  have source := on.source
  have environments := on.environments
  simp only [source, environments]

/-- Unstaging gives the VM back as it is where no cache was touched. A touched cache is computed
again, and that forgets what the staging left in both. -/
theorem StagedOn.unstage_eq {vm : Svm} {tx : VersionedTransaction} {staged : ExecutedTx}
    (on : vm.StagedOn agave tx staged) :
    staged.unstage agave =
      if staged.cacheDirty then
        ((vm.accounts.rebuildSysvarCache agave).rebuiltProgramCache agave).toOption.map fun cache =>
          { vm with
            accounts := { vm.accounts.rebuildSysvarCache agave with programsCache := cache } }
      else some vm := by
  have rest : ∀ accounts : Accounts,
      ({ staged.vm with accounts := accounts } : Svm) = { vm with accounts := accounts } := by
    intro accounts
    rw [on.rest]
  unfold ExecutedTx.unstage
  simp only [on.rollback_eq agave, rest]
  cases dirty : staged.cacheDirty with
  | false =>
    obtain ⟨programs, sysvars⟩ := on.clean dirty
    simp [programs, sysvars]
  | true =>
    have same : (Accounts.rebuildSysvarCache agave
          { vm.accounts with
            programsCache := staged.vm.accounts.programsCache
            sysvarCache := staged.vm.accounts.sysvarCache }).rebuiltProgramCache agave =
        (vm.accounts.rebuildSysvarCache agave).rebuiltProgramCache agave :=
      Accounts.rebuiltProgramCache_congr agave rfl rfl rfl rfl
    simp only [if_true, Accounts.rebuildProgramCache, same]
    cases (vm.accounts.rebuildSysvarCache agave).rebuiltProgramCache agave with
    | error error => rfl
    | ok cache => rfl

/-- What unstaging can leave: the VM, or the VM with both caches computed again. -/
theorem StagedOn.unstage_cases {vm after : Svm} {tx : VersionedTransaction} {staged : ExecutedTx}
    (on : vm.StagedOn agave tx staged) (unstaged : staged.unstage agave = some after) :
    (staged.cacheDirty = false ∧ after = vm) ∨
      ∃ cache, staged.cacheDirty = true ∧
        (vm.accounts.rebuildSysvarCache agave).rebuiltProgramCache agave = .ok cache ∧
        after = { vm with
          accounts := { vm.accounts.rebuildSysvarCache agave with programsCache := cache } } := by
  rw [on.unstage_eq agave] at unstaged
  cases dirty : staged.cacheDirty with
  | false =>
    rw [dirty] at unstaged
    exact .inl ⟨rfl, (Option.some.inj unstaged).symm⟩
  | true =>
    rw [dirty, if_pos rfl] at unstaged
    obtain ⟨cache, rebuilt, equal⟩ := Option.map_eq_some_iff.1 unstaged
    exact .inr ⟨cache, rfl, Foundation.toOption_eq_some_iff.1 rebuilt, equal.symm⟩

/-- Unstaging gives the VM back, apart from its two caches. -/
theorem StagedOn.eq_of_unstage {vm after : Svm} {tx : VersionedTransaction} {staged : ExecutedTx}
    (on : vm.StagedOn agave tx staged) (unstaged : staged.unstage agave = some after) :
    after = { vm with
      accounts := { vm.accounts with
        programsCache := after.accounts.programsCache
        sysvarCache := after.accounts.sysvarCache } } := by
  rcases on.unstage_cases agave unstaged with ⟨-, rfl⟩ | ⟨cache, -, -, rfl⟩
  · rfl
  · rfl

/-- Unstaging gives the VM back exactly when no cache was touched or both were derived. -/
theorem StagedOn.unstage_iff {vm : Svm} {tx : VersionedTransaction} {staged : ExecutedTx}
    (on : vm.StagedOn agave tx staged) :
    staged.unstage agave = some vm ↔
      (staged.cacheDirty = false ∨ vm.accounts.CachesDerived agave) := by
  rw [on.unstage_eq agave]
  cases dirty : staged.cacheDirty with
  | false => simp
  | true =>
    rw [← Accounts.rebuild_eq_self_iff agave]
    unfold Accounts.rebuildProgramCache
    cases (vm.accounts.rebuildSysvarCache agave).rebuiltProgramCache agave with
    | error error => simp [Except.toOption]
    | ok cache =>
      simp only [if_true, Except.toOption, Option.map_some, Option.some.injEq, Bool.true_eq_false,
        false_or, Prod.mk.injEq, true_and]
      constructor
      · intro equal
        exact congrArg Svm.accounts equal
      · intro equal
        rw [equal]

/-- Giving a staged transaction up, by `discard` or by a sink that fails at any change, ends
without a panic and with the VM it was staged on. -/
structure DiscardRestores (vm : Svm) (staged : ExecutedTx) : Prop where
  discard : staged.discard agave = some (staged.result, vm)
  failed_sink : ∀ {σ ε : Type} (sink : σ → AccountChangeRecord → Except ε Unit × σ)
    (state left : σ) (error : ε),
    ExecutedTx.streamChanges sink staged.changes state = (.error error, left) →
    staged.commitWith agave sink state = some (.error error, vm, left)

/-- Giving up a staged transaction restores the VM exactly when the staging touched no cache or
the caches were what a rebuild computes from the overlay. -/
theorem discard_restores_iff {vm : Svm} {tx : VersionedTransaction} {staged : ExecutedTx}
    (transacted : vm.transact agave tx = .ok staged) :
    vm.DiscardRestores agave staged ↔
      (stagingTouchesCaches (vm.transactDetached agave tx).postAccounts vm.accounts = false ∨
        vm.accounts.CachesDerived agave) := by
  have on := stagedOn_of_transact agave transacted
  rw [← on.dirty, ← on.unstage_iff agave]
  constructor
  · intro restores
    have discarded := restores.discard
    unfold ExecutedTx.discard at discarded
    obtain ⟨left, unstaged, same⟩ := Option.map_eq_some_iff.1 discarded
    rw [unstaged, (Prod.mk.inj same).2]
  · intro unstaged
    refine ⟨?_, ?_⟩
    · simp only [ExecutedTx.discard, unstaged, Option.map_some]
    · intro σ ε sink state left error streamed
      simp only [ExecutedTx.commitWith, streamed, unstaged, Option.map_some]

end Svm

namespace Sample

def payingVm : Svm := vm [(0x11, systemAccount 1_000_000)] .empty

def plainTx : VersionedTransaction := transferTx 1 0x11 [0x22] [([0, 1], 64)]

/-- A plain transfer touches no cache, so discarding it restores the VM. -/
theorem discard_restores_plain_transfer :
    ∃ staged, payingVm.transact agave plainTx = .ok staged ∧
      payingVm.DiscardRestores agave staged := by
  cases transacted : payingVm.transact agave plainTx with
  | error failure =>
    have staged : (payingVm.transact agave plainTx).isOk = true := by decide
    rw [transacted] at staged
    cases staged
  | ok staged =>
    exact ⟨staged, rfl, (Svm.discard_restores_iff agave transacted).2 (.inl (by decide))⟩

/-- A VM with an own builtin. -/
def builtinVm : Svm := payingVm.addBuiltin 0x77 9

/-- A transfer that also lists the builtin as writable. -/
def builtinTx : VersionedTransaction := transferTx 1 0x11 [0x22, 0x77] [([0, 1], 64)]

/-- The rebuild of a discard knows agave's builtins only, and drops the entry of the VM's own. -/
theorem discard_drops_builtin :
    ∃ staged, builtinVm.transact agave builtinTx = .ok staged ∧
      ¬ builtinVm.DiscardRestores agave staged := by
  cases transacted : builtinVm.transact agave builtinTx with
  | error failure =>
    have staged : (builtinVm.transact agave builtinTx).isOk = true := by decide
    rw [transacted] at staged
    cases staged
  | ok staged =>
    refine ⟨staged, rfl, ?_⟩
    intro restores
    have before : (builtinVm.accounts.programsCache.find 0x77).isSome = true := by decide
    have after : ((builtinVm.transact agave builtinTx).toOption.bind fun staged =>
        (staged.discard agave).map fun outcome =>
          (outcome.2.accounts.programsCache.find 0x77).isSome) = some false := by decide
    rw [transacted] at after
    simp only [Except.toOption, Option.bind_some, restores.discard, Option.map_some] at after
    rw [before] at after
    cases after

end Sample

end Hpsvm
