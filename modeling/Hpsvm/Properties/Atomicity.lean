import Hpsvm.Properties.Coherence
import Hpsvm.Properties.FeatureSets

/-!
# Setup calls that fail

What `add_account`, `add_program`, `register_custom_syscall` and the builder leave behind when they
fail. `add_account` and `add_program` write before the last step that can fail, and a custom syscall
is recorded before it is tried, so each of them is atomic exactly where that last step succeeds.
-/

namespace Hpsvm

namespace Accounts

variable (agave : Agave)

/-- Overlay, tombstones, journal and caches are as they were. -/
structure AsBefore (db db' : Accounts) : Prop where
  inner : db'.cache.inner = db.cache.inner
  removed : db'.cache.removed = db.cache.removed
  journal : db'.journal = db.journal
  sysvars : db'.sysvarCache = db.sysvarCache
  programs : db'.programsCache = db.programsCache

theorem AsBefore.refl (db : Accounts) : AsBefore db db := ⟨rfl, rfl, rfl, rfl, rfl⟩

/-! ### Rebuilding the program cache -/

theorem replenishPrograms_isOk_iff (db : Accounts) (cache : ProgramCache)
    (programs : List (Address × AccountSharedData)) :
    (∃ cache', db.replenishPrograms agave cache programs = .ok cache') ↔
      ∀ program ∈ programs, ∃ entry, db.loadProgram agave program.2 = .ok entry := by
  induction programs generalizing cache with
  | nil => simp [replenishPrograms]
  | cons program rest ih =>
    rw [List.forall_mem_cons, replenishPrograms]
    cases loaded : db.loadProgram agave program.2 with
    | error error => simp only [reduceCtorEq, exists_false, false_and]
    | ok entry =>
      simp only [ih, Except.ok.injEq, exists_eq', true_and]

/-- A rebuild succeeds exactly if every program account of the overlay loads. -/
theorem rebuiltProgramCache_isOk_iff (db : Accounts) :
    (∃ cache, db.rebuiltProgramCache agave = .ok cache) ↔
      ∀ program ∈ db.programAccounts, ∃ entry, db.loadProgram agave program.2 = .ok entry :=
  db.replenishPrograms_isOk_iff agave _ _

/-! ### Adding an account -/

/-- The account passes the checks of `add_account` and takes the place of a program without being
one. -/
structure ReplacesProgram (db : Accounts) (pubkey : Address) (account : AccountSharedData) :
    Prop where
  had : db.hadCachedProgram pubkey = true
  plain : hasCachedProgram pubkey account = false
  decodes : isManagedSysvarAccount pubkey = true → account.lamports ≠ 0 →
    validateSysvarAccount agave pubkey account = .ok ()

/-- Every other program of the overlay loads once the account is written. -/
def OthersLoad (db : Accounts) (pubkey : Address) (account : AccountSharedData) : Prop :=
  ∀ other program, other ≠ pubkey → (other, program) ∈ db.programAccounts →
    ∃ entry, (db.written agave pubkey account).loadProgram agave program = .ok entry

theorem replacesProgram_iff {db : Accounts} {pubkey : Address} {account : AccountSharedData} :
    db.ReplacesProgram agave pubkey account ↔
      db.checkAccount agave pubkey account = .ok none ∧ db.hadCachedProgram pubkey = true := by
  constructor
  · intro replaces
    refine ⟨?_, replaces.had⟩
    have loads : checkAccount.loadEntry agave db pubkey account = .ok none := by
      simp [checkAccount.loadEntry, replaces.plain]
    unfold checkAccount
    split
    next managed =>
      rw [Bool.and_eq_true, bne_iff_ne] at managed
      rw [replaces.decodes managed.1 managed.2]
      exact loads
    · exact loads
  · rintro ⟨checked, had⟩
    refine ⟨had, (checkAccount_isSome agave checked).1.symm, ?_⟩
    intro managed funded
    unfold checkAccount at checked
    rw [if_pos (by simp [managed, funded])] at checked
    cases validated : validateSysvarAccount agave pubkey account with
    | error error => simp [validated] at checked
    | ok done => rfl

/-- The programs left by a write that replaces a program with a plain account. -/
theorem mem_programAccounts_written {db : Accounts} {pubkey other : Address}
    {account program : AccountSharedData} (plain : hasCachedProgram pubkey account = false) :
    (other, program) ∈ (db.written agave pubkey account).programAccounts ↔
      other ≠ pubkey ∧ (other, program) ∈ db.programAccounts := by
  simp only [mem_programAccounts, written_cache, CacheDb.store_inner_getElem?]
  by_cases same : pubkey = other
  · subst same
    -- The new account is dropped from the overlay, or is no program.
    simp only [ne_eq, not_true_eq_false, false_and, iff_false, if_true]
    rintro ⟨visible, cached⟩
    obtain ⟨funded, rfl⟩ := AccountSharedData.visible_eq_some visible
    simp [hasCachedProgram, funded, cached] at plain
  · have differ : other ≠ pubkey := fun equal => same equal.symm
    simp [same, differ]

theorem rebuilt_after_replacing_iff {db : Accounts} {pubkey : Address}
    {account : AccountSharedData} (plain : hasCachedProgram pubkey account = false) :
    (∃ cache, (db.written agave pubkey account).rebuiltProgramCache agave = .ok cache) ↔
      db.OthersLoad agave pubkey account := by
  rw [rebuiltProgramCache_isOk_iff]
  constructor
  · intro loads other program differ listed
    exact loads (other, program) ((mem_programAccounts_written agave plain).2 ⟨differ, listed⟩)
  · rintro loads ⟨other, program⟩ listed
    obtain ⟨differ, before⟩ := (mem_programAccounts_written agave plain).1 listed
    exact loads other program differ before

/-- `add_account` is atomic unless it replaces a program while another program of the overlay does
not load. -/
theorem addAccount_atomic_iff (db : Accounts) (pubkey : Address) (account : AccountSharedData) :
    (∀ error left, db.addAccount agave pubkey account = (.error error, left) → AsBefore db left) ↔
      (db.ReplacesProgram agave pubkey account → db.OthersLoad agave pubkey account) := by
  constructor
  · intro atomic replaces
    rw [← rebuilt_after_replacing_iff agave replaces.plain]
    obtain ⟨checks, has⟩ := (replacesProgram_iff agave).1 replaces
    rcases db.addAccount_cases agave pubkey account with
      ⟨error, checked, added⟩ | ⟨entry, checked, added⟩ | ⟨checked, had, error, rebuilt, added⟩ |
        ⟨checked, had, cache, rebuilt, added⟩ | ⟨checked, had, added⟩
    · simp [checks] at checked
    · simp [checks] at checked
    · -- The journal has the entry of the write.
      have journal := (atomic _ _ added).journal
      simp at journal
    · exact ⟨cache, rebuilt⟩
    · simp [has] at had
  · intro loads error left failed
    rcases db.addAccount_cases agave pubkey account with
      ⟨error, checked, added⟩ | ⟨entry, checked, added⟩ | ⟨checked, had, error, rebuilt, added⟩ |
        ⟨checked, had, cache, rebuilt, added⟩ | ⟨checked, had, added⟩
    · rw [added] at failed
      cases failed
      exact .refl db
    · rw [added] at failed
      cases failed
    · have replaces := (replacesProgram_iff agave).2 ⟨checked, had⟩
      obtain ⟨cache, done⟩ :=
        (rebuilt_after_replacing_iff agave replaces.plain).2 (loads replaces)
      rw [done] at rebuilt
      cases rebuilt
    · rw [added] at failed
      cases failed
    · rw [added] at failed
      cases failed

end Accounts

namespace Sample

/-- A VM with a program at `0x88`, and at `0x77` the account of a program whose ELF was refused. -/
def brokenVm : Svm :=
  let installed := ((vm [] .empty).addProgramWithLoader agave 0x88 [0x7f] Ids.bpfLoader).2
  (installed.addProgramWithLoader agave 0x77 [0] Ids.bpfLoader).2

/-- Replacing the program fails because of the other one, and has replaced it. -/
theorem refused_account_is_written :
    (brokenVm.accounts.addAccount agave 0x88 (systemAccount 5)).1 =
        .error (.instruction .invalidAccountData) ∧
      (brokenVm.accounts.addAccount agave 0x88 (systemAccount 5)).2.getAccountRef 0x88 =
        some (systemAccount 5) ∧
      brokenVm.accounts.getAccountRef 0x88 ≠ some (systemAccount 5) := by
  decide +kernel

end Sample

/-! ### Adding a program -/

namespace Svm

variable (agave : Agave)

/-- A loader `add_program_with_loader` knows. -/
def SupportedLoader (loaderId : Address) : Prop :=
  loaderId = Ids.bpfLoaderUpgradeable ∨ loaderId = Ids.bpfLoader ∨
    loaderId = Ids.bpfLoaderDeprecated

/-- Under a supported loader at least one account is written, under any other none. -/
theorem programAccountsFor_cases (db : Accounts) (programId : Address) (programBytes : List UInt8)
    (loaderId : Address) :
    (¬ SupportedLoader loaderId ∧
        programAccountsFor agave db programId programBytes loaderId = none) ∨
      (SupportedLoader loaderId ∧ ∃ write rest,
        programAccountsFor agave db programId programBytes loaderId = some (write :: rest)) := by
  unfold programAccountsFor SupportedLoader
  by_cases upgradeable : loaderId = Ids.bpfLoaderUpgradeable
  · right
    rw [if_pos upgradeable]
    exact ⟨.inl upgradeable, _, _, rfl⟩
  · rw [if_neg upgradeable]
    by_cases direct : loaderId = Ids.bpfLoader ∨ loaderId = Ids.bpfLoaderDeprecated
    · right
      rw [if_pos direct]
      exact ⟨.inr direct, _, _, rfl⟩
    · left
      rw [if_neg direct]
      exact ⟨by simp [upgradeable, direct], rfl⟩

theorem journal_foldl_addAccountNoChecks (db : Accounts)
    (writes : List (Address × AccountSharedData)) :
    (writes.foldl (fun accounts (address, account) =>
      accounts.addAccountNoChecks address account) db).journal.length =
        db.journal.length + writes.length := by
  induction writes generalizing db with
  | nil => rfl
  | cons write rest ih =>
    rw [List.foldl_cons, ih]
    simp only [Accounts.addAccountNoChecks, Accounts.recordJournal, List.length_cons]
    omega

/-- `add_program_internal` is atomic exactly if the loader is refused or the ELF verifies. -/
theorem addProgramInternal_atomic_iff (vm : Svm) (programId : Address) (programBytes : List UInt8)
    (loaderId : Address) :
    (∀ error left, vm.addProgramInternal agave programId programBytes loaderId =
        (.error error, left) → Accounts.AsBefore vm.accounts left.accounts) ↔
      (SupportedLoader loaderId →
        agave.loadElf vm.accounts.environments loaderId programBytes = .ok ()) := by
  unfold addProgramInternal
  rcases programAccountsFor_cases agave vm.accounts programId programBytes loaderId with
    ⟨unsupported, none⟩ | ⟨supported, write, rest, listed⟩
  · simp only [none, unsupported, false_implies, iff_true]
    rintro error left refused
    cases refused
    exact .refl vm.accounts
  · have environments := (foldl_addAccountNoChecks vm.accounts (write :: rest)).2
    have length := journal_foldl_addAccountNoChecks vm.accounts (write :: rest)
    simp only [listed, supported, true_implies, environments]
    cases loaded : agave.loadElf vm.accounts.environments loaderId programBytes with
    | ok done => simp
    | error reason =>
      simp only [reduceCtorEq, iff_false]
      intro atomic
      -- The journal has an entry for every account that was written.
      have journal := (atomic _ _ rfl).journal
      simp only [withAccounts] at journal
      rw [journal, List.length_cons] at length
      omega

/-- The two public calls fix nothing but the loader. -/
theorem addProgram_atomic_iff (vm : Svm) (programId : Address) (programBytes : List UInt8) :
    ((∀ error left, vm.addProgram agave programId programBytes = (.error error, left) →
        Accounts.AsBefore vm.accounts left.accounts) ↔
      agave.loadElf vm.accounts.environments Ids.bpfLoaderUpgradeable programBytes = .ok ()) ∧
    ∀ loaderId,
      (∀ error left, vm.addProgramWithLoader agave programId programBytes loaderId =
          (.error error, left) → Accounts.AsBefore vm.accounts left.accounts) ↔
        (SupportedLoader loaderId →
          agave.loadElf vm.accounts.environments loaderId programBytes = .ok ()) := by
  constructor
  · have atomic := vm.addProgramInternal_atomic_iff agave programId programBytes
      Ids.bpfLoaderUpgradeable
    have supported : SupportedLoader Ids.bpfLoaderUpgradeable := .inl rfl
    simp only [supported, true_implies] at atomic
    exact atomic
  · exact vm.addProgramInternal_atomic_iff agave programId programBytes

end Svm

namespace Sample

/-- Bytes that are no ELF leave an executable account and its programdata, and no rebuild succeeds
after it. -/
theorem refused_program_is_written :
    ((vm [] .empty).addProgram agave 0x77 [0]).1 = .error (.programLoad "invalid ELF header") ∧
      ((vm [] .empty).accounts.getAccountRef 0x77).isNone = true ∧
      ((((vm [] .empty).addProgram agave 0x77 [0]).2.accounts.getAccountRef 0x77).any
        fun account => account.executable) = true ∧
      ((vm [] .empty).accounts.rebuildProgramCache agave).1 = .ok () ∧
      (((vm [] .empty).addProgram agave 0x77 [0]).2.accounts.rebuildProgramCache agave).1 =
        .error .invalidAccountData := by
  decide +kernel

end Sample

/-! ### Registering a custom syscall -/

namespace Svm

variable (agave : Agave)

/-- The VM with one more registration. -/
def withSyscall (vm : Svm) (syscall : CustomSyscall) : Svm :=
  { vm with customSyscalls := vm.customSyscalls ++ [syscall] }

/-- Registry, environments and program cache are as they were, and later reconfigurations do what
they would have done. -/
structure NoTrace (vm left : Svm) : Prop where
  registry : left.customSyscalls = vm.customSyscalls
  environments : left.accounts.environments = vm.accounts.environments
  programs : left.accounts.programsCache = vm.accounts.programsCache
  featureSets : ∀ featureSet, left.setFeatureSet agave featureSet = vm.setFeatureSet agave featureSet
  registrations : ∀ syscall,
    left.registerCustomSyscall agave syscall = vm.registerCustomSyscall agave syscall

/-- The environment takes the syscall, and every program account of the overlay loads in it. -/
structure TakesSyscall (vm : Svm) (syscall : CustomSyscall) : Prop where
  environment : (vm.withSyscall syscall).BuildsEnvironment agave
  loads : ∀ program ∈ vm.accounts.programAccounts, ∃ entry,
    { vm.accounts with environments := (vm.withSyscall syscall).builtEnvironment }.loadProgram agave
      program.2 = .ok entry

theorem registerCustomSyscall_eq (vm : Svm) (syscall : CustomSyscall) :
    vm.registerCustomSyscall agave syscall =
      match (vm.withSyscall syscall).tryRefreshRuntimeEnvironments agave with
      | (.error error, vm) => (.error error, vm)
      | (.ok (), vm) => vm.rebuildPrograms agave := rfl

theorem registerCustomSyscall_of_refused {vm : Svm} {syscall : CustomSyscall}
    (broken : ¬ (vm.withSyscall syscall).BuildsEnvironment agave) :
    ∃ error, vm.registerCustomSyscall agave syscall = (.error error, vm.withSyscall syscall) := by
  rcases (vm.withSyscall syscall).tryRefreshRuntimeEnvironments_builds agave with
    ⟨⟨error, failed⟩, -⟩ | ⟨-, builds⟩
  · exact ⟨error, by rw [registerCustomSyscall_eq, failed]⟩
  · exact absurd builds broken

/-- Every way a registration ends. The syscall is recorded in all of them. -/
theorem registerCustomSyscall_cases (vm : Svm) (syscall : CustomSyscall) :
    (vm.TakesSyscall agave syscall ∧
        (vm.registerCustomSyscall agave syscall).1 = .ok ()) ∨
      (¬ vm.TakesSyscall agave syscall ∧ ∃ error left,
        vm.registerCustomSyscall agave syscall = (.error error, left) ∧
          left.customSyscalls = vm.customSyscalls ++ [syscall]) := by
  rcases (vm.withSyscall syscall).tryRefreshRuntimeEnvironments_builds agave with
    ⟨-, broken⟩ | ⟨done, builds⟩
  · right
    obtain ⟨error, failed⟩ := registerCustomSyscall_of_refused agave broken
    exact ⟨fun takes => broken takes.environment, error, _, failed, rfl⟩
  · rw [registerCustomSyscall_eq, done]
    have rebuilds := Accounts.rebuiltProgramCache_isOk_iff agave
      { vm.accounts with environments := (vm.withSyscall syscall).builtEnvironment }
    simp only [rebuildPrograms, Accounts.rebuildProgramCache, withAccounts]
    cases rebuilt : Accounts.rebuiltProgramCache agave
        { vm.accounts with environments := (vm.withSyscall syscall).builtEnvironment } with
    | ok cache =>
      left
      refine ⟨⟨builds, rebuilds.1 ⟨cache, rebuilt⟩⟩, ?_⟩
      simp only [withSyscall] at rebuilt ⊢
      simp only [rebuilt]
    | error error =>
      right
      constructor
      · intro takes
        obtain ⟨cache, ok⟩ := rebuilds.2 takes.loads
        rw [rebuilt] at ok
        cases ok
      · simp only [withSyscall] at rebuilt ⊢
        simp only [rebuilt]
        exact ⟨_, _, rfl, rfl⟩

theorem registerCustomSyscall_traceless_iff (vm : Svm) (syscall : CustomSyscall) :
    (∀ error left, vm.registerCustomSyscall agave syscall = (.error error, left) →
        NoTrace agave vm left) ↔ vm.TakesSyscall agave syscall := by
  rcases vm.registerCustomSyscall_cases agave syscall with
    ⟨takes, done⟩ | ⟨broken, error, left, failed, recorded⟩
  · simp only [takes, iff_true]
    intro error left failed
    rw [failed] at done
    cases done
  · simp only [broken, iff_false]
    intro traceless
    have registry := (traceless error left failed).registry
    rw [recorded] at registry
    simp at registry

/-- A name that was refused is refused in every longer list. -/
theorem registerSyscalls_append_error {features : FeatureSet}
    {registered syscalls : List CustomSyscall} {error : HpsvmError}
    (refused : registerSyscalls agave features registered syscalls = .error error)
    (more : List CustomSyscall) :
    registerSyscalls agave features registered (syscalls ++ more) = .error error := by
  induction syscalls generalizing registered with
  | nil => cases refused
  | cons syscall rest ih =>
    rw [List.cons_append]
    unfold registerSyscalls at refused ⊢
    split at refused
    · exact refused
    · exact ih refused

/-- Once the environment refuses a syscall, the VM takes no other. -/
theorem registerCustomSyscall_after_refused {vm : Svm} {syscall : CustomSyscall}
    {reason : HpsvmError}
    (refused : registerSyscalls agave vm.version.featureSet [] (vm.customSyscalls ++ [syscall]) =
      .error reason) (other : CustomSyscall) :
    ∃ error, ((vm.registerCustomSyscall agave syscall).2.registerCustomSyscall agave other).1 =
      .error error := by
  have first : ¬ (vm.withSyscall syscall).BuildsEnvironment agave := by
    rintro ⟨-, registered, taken⟩
    cases refused.symm.trans taken
  have second : ¬ ((vm.withSyscall syscall).withSyscall other).BuildsEnvironment agave := by
    rintro ⟨-, registered, taken⟩
    cases (registerSyscalls_append_error agave refused [other]).symm.trans taken
  obtain ⟨_, failed⟩ := registerCustomSyscall_of_refused agave first
  obtain ⟨error, failed'⟩ := registerCustomSyscall_of_refused agave second
  exact ⟨error, by rw [failed, failed']⟩

end Svm

/-! ### Building with custom syscalls -/

/-- Choosing the features of a new VM rebuilds an empty cache and cannot fail. -/
theorem Svm.setFeatureSet_newInner (agave : Agave) (genesis : Genesis) (airdropPubkey : Address)
    (featureSet : FeatureSet) :
    (newInner agave genesis airdropPubkey).setFeatureSet agave featureSet =
      some (.ok (), { newInner agave genesis airdropPubkey with
        version := { (newInner agave genesis airdropPubkey).version with featureSet := featureSet }
        reservedAccountKeys := agave.reservedAccountKeys featureSet }) := by
  have nothing : (Accounts.new genesis).programAccounts = [] := rfl
  have builtins : ∀ prototypes cache,
      Accounts.replenishBuiltins (Accounts.new genesis).cache.inner cache prototypes = cache := by
    intro prototypes
    induction prototypes with
    | nil => exact fun cache => rfl
    | cons prototype rest ih => exact fun cache => ih cache
  have rebuilt : (Accounts.new genesis).rebuiltProgramCache agave = .ok (.new 0) := by
    simp only [Accounts.rebuiltProgramCache, nothing, builtins, Accounts.replenishPrograms]
    rfl
  simp [setFeatureSet, rematerialize, newInner, rebuildPrograms, Accounts.rebuildProgramCache,
    rebuilt, withAccounts]
  rfl

theorem Svm.loadBuiltins_isSome_iff (agave : Agave) {vm : Svm} :
    (vm.loadBuiltins agave).isSome = true ↔ vm.BuildsEnvironment agave := by
  unfold loadBuiltins
  rcases Svm.refreshRuntimeEnvironments_cases agave
      { vm with materialized := { vm.materialized with builtins := true } } with
    ⟨failed, broken⟩ | ⟨done, builds⟩
  · simp only [failed, Option.map_none, Option.isSome_none, Bool.false_eq_true, false_iff]
    exact broken
  · simp only [done, Option.map_some, Option.isSome_some, true_iff]
    exact builds

namespace BuildPlan

variable (agave : Agave) (genesis : Genesis)

/-- The features the plan builds with. -/
def features (plan : BuildPlan) : FeatureSet := plan.featureSet.getD genesis.defaultFeatures

/-- The environment takes the features, the budget and the syscalls of the plan. -/
def BuildsEnvironment (plan : BuildPlan) : Prop :=
  agave.createRuntimeEnvironment (plan.features genesis) (plan.computeBudget.getD
    (agave.defaultComputeBudget
      ((plan.features genesis).isActive agave.raiseCpiNestingLimitTo8))) = .ok () ∧
    ∃ registered,
      Svm.registerSyscalls agave (plan.features genesis) [] plan.customSyscalls = .ok registered

/-- The VM with the features and settings of the plan, and nothing installed. -/
def configured (plan : BuildPlan) (airdropPubkey : Address) : Svm :=
  let fresh := Svm.newInner agave genesis airdropPubkey
  plan.applySettings (match plan.featureSet with
    | none => fresh
    | some featureSet => { fresh with
        version := { fresh.version with featureSet := featureSet }
        reservedAccountKeys := agave.reservedAccountKeys featureSet })

theorem configured_buildsEnvironment_iff (plan : BuildPlan) (airdropPubkey : Address) :
    (plan.configured agave genesis airdropPubkey).BuildsEnvironment agave ↔
      plan.BuildsEnvironment agave genesis := by
  obtain ⟨featureSet, computeBudget, -, -, -, -, -, -, -, -, -, -, -, history, source, limit,
    syscalls⟩ := plan
  cases featureSet <;> cases computeBudget <;> cases history <;> cases source <;> cases limit <;>
    rfl

/-- What `build` installs after the builtins. -/
def install (plan : BuildPlan) (vm : Svm) : Option Svm :=
  { plan with includeBuiltins := false }.materialize agave genesis vm

theorem materialize_eq (plan : BuildPlan) (vm : Svm) :
    plan.materialize agave genesis vm =
      (if plan.includeBuiltins then vm.loadBuiltins agave else some vm).bind
        (plan.install agave genesis) := by
  obtain ⟨-, -, -, -, -, -, -, -, includeBuiltins, -, -, -, -, -, -, -, -⟩ := plan
  cases includeBuiltins <;> rfl

/-- With builtins the syscalls are not tried before these are loaded. Without them a refused
syscall is an error of the build. -/
theorem configure_newInner (plan : BuildPlan) (airdropPubkey : Address) :
    ∃ outcome, plan.configure agave (.newInner agave genesis airdropPubkey) = some outcome ∧
      (plan.includeBuiltins = true →
        outcome = .ok (plan.configured agave genesis airdropPubkey)) := by
  unfold configure configured
  cases selected : plan.featureSet with
  | none => exact ⟨_, rfl, fun included => by simp [included]⟩
  | some featureSet =>
    simp only [Svm.setFeatureSet_newInner, Option.map_some]
    exact ⟨_, rfl, fun included => by simp [included]⟩

/-- The VM is what the plan installs its sysvars, programs and precompiles in. -/
def Starts (plan : BuildPlan) (airdropPubkey : Address) (vm : Svm) : Prop :=
  ∃ configured, plan.configure agave (.newInner agave genesis airdropPubkey) =
      some (.ok configured) ∧
    (if plan.includeBuiltins then configured.loadBuiltins agave else some configured) = some vm

/-- If what comes after the builtins installs, a build with builtins panics exactly for syscalls
the environment refuses. -/
theorem build_total_iff {plan : BuildPlan} {airdropPubkey : Address}
    (installs : ∀ vm, plan.Starts agave genesis airdropPubkey vm →
      (plan.install agave genesis vm).isSome = true) :
    plan.build agave genesis airdropPubkey ≠ none ↔
      (plan.includeBuiltins = true → plan.includeSysvars = true →
        plan.BuildsEnvironment agave genesis) := by
  obtain ⟨outcome, configured, builtins⟩ := plan.configure_newInner agave genesis airdropPubkey
  unfold build
  rw [configured]
  by_cases missing : (plan.needsSysvars && !plan.includeSysvars) = true
  · simp only [missing, if_true, ne_eq, reduceCtorEq, not_false_eq_true, true_iff]
    intro _ sysvars
    simp [sysvars] at missing
  · simp only [missing, Bool.false_eq_true, if_false, Option.bind_some]
    cases outcome with
    | error error =>
      -- The error is returned, and the builtins are not included.
      simp only [ne_eq, reduceCtorEq, not_false_eq_true, true_iff]
      intro included
      cases builtins included
    | ok vm =>
      simp only [ne_eq, Option.map_eq_none_iff, materialize_eq]
      cases included : plan.includeBuiltins with
      | false =>
        have done := installs vm ⟨vm, configured, by simp [included]⟩
        simp only [Bool.false_eq_true, if_false, Option.bind_some, false_implies, iff_true]
        exact Option.isSome_iff_ne_none.1 done
      | true =>
        have started := builtins included
        cases started
        have sysvars : plan.includeSysvars = true := by
          simpa [needsSysvars, included] using missing
        simp only [if_true, sysvars, true_implies]
        rw [← plan.configured_buildsEnvironment_iff agave genesis airdropPubkey]
        have loaded : ∀ vm, (plan.configured agave genesis airdropPubkey).loadBuiltins agave =
            some vm → plan.install agave genesis vm ≠ none := by
          intro vm loads
          have done := installs vm ⟨_, configured, by simp [included, loads]⟩
          exact Option.isSome_iff_ne_none.1 done
        rw [← Svm.loadBuiltins_isSome_iff agave]
        cases loads : (plan.configured agave genesis airdropPubkey).loadBuiltins agave with
        | none => simp
        | some vm => simpa using loaded vm loads

end BuildPlan

namespace Sample

/-- The sample runtime with sbpf's rule that a name is registered once. -/
def strictAgave : Agave :=
  { agave with
    registerSyscall := fun _ registered syscall =>
      if registered.any fun earlier => earlier.name == syscall.name then
        .error "symbol already registered"
      else .ok () }

/-- A plan of the program-test defaults with custom syscalls of these names. -/
def syscallPlan (names : List String) : BuildPlan :=
  BuildPlan.withProgramTestDefaults genesis
    { customSyscalls := names.map fun name => ⟨name, 0⟩ }

def sol : CustomSyscall := ⟨"sol_custom", 0⟩

/-- The VM after `sol` was registered once and once more. -/
def twiceRegistered : Svm :=
  (((vm [] .empty).registerCustomSyscall strictAgave sol).2.registerCustomSyscall strictAgave sol).2

end Sample

end Hpsvm
