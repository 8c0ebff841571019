import Hpsvm.Properties.CloneIsolation

/-!
# Changing the feature set

`set_feature_set` tears the materialized state down, builds it again under the new features, and
rebuilds the program cache. Up to that rebuild a failure is a panic; a failure of the rebuild is
answered after the backup was put back. The backup shares the program cache, so the cache is only
what it was if the rebuild from the restored overlay gives that, or, where that fails too, if the
reconfiguration left it alone.
-/

namespace Hpsvm

namespace Svm

variable (agave : Agave)

/-! ### The parts of a reconfiguration -/

/-- The part of `reconfigure_materialized_feature_state` that cannot fail. -/
def cleared (vm : Svm) (previous : FeatureSet) : Svm :=
  let vm := if vm.materialized.featureAccounts then
      (vm.clearFeatureAccounts agave previous).materializeFeatureAccounts agave
    else vm
  let vm := if vm.materialized.defaultPrograms then vm.clearDefaultPrograms agave else vm
  if vm.materialized.splPrograms then vm.clearSplPrograms agave else vm

def reloadBuiltins (vm : Svm) : Option Svm :=
  if vm.materialized.builtins then (vm.clearBuiltinAccounts agave).loadBuiltins agave
  else if vm.customSyscalls.isEmpty then some vm
  else vm.refreshRuntimeEnvironments agave

def reloadPrecompiles (vm : Svm) : Option Svm :=
  if vm.loadsStandardPrecompiles then (vm.clearPrecompileAccounts agave).loadPrecompiles agave
  else some vm

def reloadDefaultPrograms (vm : Svm) : Option Svm :=
  if vm.materialized.defaultPrograms then vm.loadDefaultPrograms agave else some vm

def reloadSplPrograms (vm : Svm) : Option Svm :=
  if vm.materialized.splPrograms then vm.loadSplPrograms agave else some vm

theorem rematerialize_eq (vm : Svm) (previous : FeatureSet) :
    vm.rematerialize agave previous =
      ((vm.cleared agave previous).reloadBuiltins agave).bind fun vm =>
        (vm.reloadPrecompiles agave).bind fun vm =>
          (vm.reloadDefaultPrograms agave).bind fun vm => vm.reloadSplPrograms agave := by
  -- The notation of the definition puts what follows a step into both branches of it.
  have branch : ∀ (flag : Bool) (step : Option Svm) (vm : Svm) (next : Svm → Option Svm),
      (if flag then step.bind next else next vm) = (if flag then step else some vm).bind next := by
    intro flag step vm next
    cases flag <;> rfl
  have builtins : ∀ (vm : Svm) (next : Svm → Option Svm),
      (if vm.materialized.builtins then
          ((vm.clearBuiltinAccounts agave).loadBuiltins agave).bind next
        else if vm.customSyscalls.isEmpty then next vm
        else (vm.refreshRuntimeEnvironments agave).bind next) =
      (vm.reloadBuiltins agave).bind next := by
    intro vm next
    unfold reloadBuiltins
    cases vm.materialized.builtins <;> cases vm.customSyscalls.isEmpty <;> rfl
  refine (builtins (vm.cleared agave previous) _).trans ?_
  congr 1
  funext vm
  refine (branch _ _ vm _).trans ?_
  congr 1
  funext vm
  exact branch _ _ vm _

/-- The VMs differ in their accounts and their block only. -/
def SameRest (vm vm' : Svm) : Prop :=
  vm' = { vm with accounts := vm'.accounts, blockEnv := vm'.blockEnv }

namespace SameRest

variable {vm vm' : Svm}

theorem version (same : SameRest vm vm') : vm'.version = vm.version := by rw [same]

theorem materialized (same : SameRest vm vm') : vm'.materialized = vm.materialized := by rw [same]

theorem customSyscalls (same : SameRest vm vm') : vm'.customSyscalls = vm.customSyscalls := by
  rw [same]

theorem precompiles (same : SameRest vm vm') : vm'.precompiles = vm.precompiles := by rw [same]

theorem loadsStandardPrecompiles (same : SameRest vm vm') :
    vm'.loadsStandardPrecompiles = vm.loadsStandardPrecompiles := by rw [same]

theorem trans {vm'' : Svm} (left : SameRest vm vm') (right : SameRest vm' vm'') :
    SameRest vm vm'' := by
  unfold SameRest at *
  rw [right, left]

end SameRest

/-- The VMs are also under the same environment. -/
structure SameSetup (vm vm' : Svm) : Prop where
  rest : SameRest vm vm'
  environments : vm'.accounts.environments = vm.accounts.environments

theorem SameSetup.refl (vm : Svm) : SameSetup vm vm := ⟨rfl, rfl⟩

theorem SameSetup.trans {first second third : Svm} (left : SameSetup first second)
    (right : SameSetup second third) : SameSetup first third :=
  ⟨left.rest.trans right.rest, right.environments.trans left.environments⟩

theorem sameSetup_withAccounts (vm : Svm) {accounts : Accounts}
    (same : accounts.environments = vm.accounts.environments) :
    SameSetup vm (vm.withAccounts accounts) := ⟨rfl, same⟩

theorem sameSetup_removeAccounts (vm : Svm) (addresses : List Address) :
    SameSetup vm (vm.removeAccounts agave addresses) := by
  apply sameSetup_withAccounts
  induction addresses generalizing vm with
  | nil => rfl
  | cons address rest ih =>
    rw [List.foldl_cons]
    have first : (vm.accounts.removeAccount agave address).environments =
        vm.accounts.environments := by
      simp [Accounts.removeAccount, Accounts.recordJournal]
    exact (ih (vm.withAccounts (vm.accounts.removeAccount agave address))).trans first

theorem sameSetup_clearPrograms (vm : Svm) (programIds : List Address) :
    SameSetup vm (vm.clearPrograms agave programIds) := by
  induction programIds generalizing vm with
  | nil => exact .refl vm
  | cons programId rest ih => exact (vm.sameSetup_removeAccounts agave _).trans (ih _)

theorem environments_foldl_addAccountNoChecks {Item : Type} (db : Accounts) (items : List Item)
    (pubkey : Item → Address) (account : Item → AccountSharedData) :
    (items.foldl (fun db item => db.addAccountNoChecks (pubkey item) (account item))
      db).environments = db.environments := by
  induction items generalizing db with
  | nil => rfl
  | cons item rest ih => exact ih (db.addAccountNoChecks (pubkey item) (account item))

theorem sameSetup_materializeFeatureAccounts {vm : Svm}
    (present : vm.materialized.featureAccounts = true) :
    SameSetup vm (vm.materializeFeatureAccounts agave) := by
  have same : ({ vm.materialized with featureAccounts := true } : MaterializedState) =
      vm.materialized := by rw [← present]
  refine ⟨?_, ?_⟩
  · simp only [SameRest, materializeFeatureAccounts, withAccounts, same]
  · exact environments_foldl_addAccountNoChecks vm.accounts _ _ _

theorem sameSetup_cleared (vm : Svm) (previous : FeatureSet) :
    SameSetup vm (vm.cleared agave previous) := by
  have features : SameSetup vm (if vm.materialized.featureAccounts then
      (vm.clearFeatureAccounts agave previous).materializeFeatureAccounts agave else vm) := by
    split
    next present =>
      have removed := vm.sameSetup_removeAccounts agave previous.active.keys
      exact removed.trans (sameSetup_materializeFeatureAccounts agave present)
    · exact .refl vm
  have clears : ∀ (other : Svm) (flag : Bool) (programIds : List Address),
      SameSetup other (if flag then other.clearPrograms agave programIds else other) := by
    intro other flag programIds
    split
    · exact other.sameSetup_clearPrograms agave programIds
    · exact .refl other
  exact features.trans ((clears _ _ _).trans (clears _ _ _))

/-! ### When a part panics -/

/-- A runtime environment can be built for the VM's features, budget and syscalls. -/
def BuildsEnvironment (vm : Svm) : Prop :=
  agave.createRuntimeEnvironment vm.version.featureSet (vm.version.computeBudget.getD
    (agave.defaultComputeBudget (vm.version.featureSet.isActive agave.raiseCpiNestingLimitTo8))) =
      .ok () ∧
    ∃ registered,
      registerSyscalls agave vm.version.featureSet [] vm.customSyscalls = .ok registered

/-- The environment of the VM's features, budget and syscalls. -/
def builtEnvironment (vm : Svm) : RuntimeEnvironment :=
  ⟨vm.version.featureSet, vm.version.computeBudget, vm.customSyscalls⟩

theorem registerSyscalls_eq_ok {features : FeatureSet}
    {registered registered' syscalls : List CustomSyscall}
    (done : registerSyscalls agave features registered syscalls = .ok registered') :
    registered' = registered ++ syscalls := by
  induction syscalls generalizing registered with
  | nil =>
    cases done
    simp
  | cons syscall rest ih =>
    unfold registerSyscalls at done
    split at done
    · cases done
    · rw [ih done, List.append_assoc, List.singleton_append]

theorem tryRefreshRuntimeEnvironments_builds (vm : Svm) :
    ((∃ error, vm.tryRefreshRuntimeEnvironments agave = (.error error, vm)) ∧
        ¬ vm.BuildsEnvironment agave) ∨
      (vm.tryRefreshRuntimeEnvironments agave =
          (.ok (), vm.withAccounts { vm.accounts with environments := vm.builtEnvironment }) ∧
        vm.BuildsEnvironment agave) := by
  unfold tryRefreshRuntimeEnvironments BuildsEnvironment
  cases created : agave.createRuntimeEnvironment vm.version.featureSet
      (vm.version.computeBudget.getD (agave.defaultComputeBudget
        (vm.version.featureSet.isActive agave.raiseCpiNestingLimitTo8))) with
  | error reason =>
    left
    simp [created]
  | ok done =>
    cases syscalls : registerSyscalls agave vm.version.featureSet [] vm.customSyscalls with
    | error error =>
      left
      simp [created]
    | ok registered =>
      right
      have all := registerSyscalls_eq_ok agave syscalls
      rw [List.nil_append] at all
      subst all
      simp [created, builtEnvironment]

theorem refreshRuntimeEnvironments_cases (vm : Svm) :
    (vm.refreshRuntimeEnvironments agave = none ∧ ¬ vm.BuildsEnvironment agave) ∨
      (vm.refreshRuntimeEnvironments agave =
          some (vm.withAccounts { vm.accounts with environments := vm.builtEnvironment }) ∧
        vm.BuildsEnvironment agave) := by
  unfold refreshRuntimeEnvironments
  rcases vm.tryRefreshRuntimeEnvironments_builds agave with ⟨⟨error, failed⟩, broken⟩ | ⟨done, builds⟩
  · exact .inl ⟨by rw [failed, expectOk], broken⟩
  · exact .inr ⟨by rw [done, expectOk], builds⟩

theorem environments_installBuiltins (features : FeatureSet) (db : Accounts)
    (builtins : List BuiltinPrototype) :
    (installBuiltins features db builtins).environments = db.environments := by
  induction builtins generalizing db with
  | nil => rfl
  | cons builtin rest ih =>
    unfold installBuiltins
    cases builtin.enableFeatureId with
    | none => exact ih _
    | some feature =>
      cases active : features.isActive feature with
      | true =>
        simp only [active, if_true]
        exact ih _
      | false =>
        simp only [active, Bool.false_eq_true, if_false]
        exact ih db

/-- The VM asks for an environment of its own when it reconfigures. -/
def RefreshesEnvironment (vm : Svm) : Prop :=
  vm.materialized.builtins = true ∨ vm.customSyscalls ≠ []

instance (vm : Svm) : Decidable vm.RefreshesEnvironment := by
  unfold RefreshesEnvironment
  infer_instance

/-- The environment the programs of a reconfigured VM are loaded under. -/
def reconfiguredEnvironment (vm : Svm) : RuntimeEnvironment :=
  if vm.RefreshesEnvironment then vm.builtEnvironment else vm.accounts.environments

theorem SameRest.buildsEnvironment {vm vm' : Svm} (same : SameRest vm vm') :
    vm'.BuildsEnvironment agave ↔ vm.BuildsEnvironment agave := by
  unfold BuildsEnvironment
  rw [same.version, same.customSyscalls]

theorem SameRest.builtEnvironment {vm vm' : Svm} (same : SameRest vm vm') :
    vm'.builtEnvironment = vm.builtEnvironment := by
  unfold Svm.builtEnvironment
  rw [same.version, same.customSyscalls]

theorem loadBuiltins_cases {vm : Svm} (present : vm.materialized.builtins = true) :
    (vm.loadBuiltins agave = none ∧ ¬ vm.BuildsEnvironment agave) ∨
      ∃ vm', vm.loadBuiltins agave = some vm' ∧ vm.BuildsEnvironment agave ∧ SameRest vm vm' ∧
        vm'.accounts.environments = vm.builtEnvironment := by
  have same : ({ vm with materialized := { vm.materialized with builtins := true } } : Svm) = vm := by
    rw [← present]
  unfold loadBuiltins
  rw [same]
  simp only
  rcases vm.refreshRuntimeEnvironments_cases agave with ⟨failed, broken⟩ | ⟨done, builds⟩
  · exact .inl ⟨by rw [failed]; rfl, broken⟩
  · right
    rw [done]
    refine ⟨_, rfl, builds, rfl, ?_⟩
    exact environments_installBuiltins _ _ _

theorem reloadBuiltins_cases (vm : Svm) :
    (vm.reloadBuiltins agave = none ∧ vm.RefreshesEnvironment ∧ ¬ vm.BuildsEnvironment agave) ∨
      ∃ vm', vm.reloadBuiltins agave = some vm' ∧
        (vm.RefreshesEnvironment → vm.BuildsEnvironment agave) ∧ SameRest vm vm' ∧
        vm'.accounts.environments = vm.reconfiguredEnvironment := by
  unfold reloadBuiltins reconfiguredEnvironment
  by_cases present : vm.materialized.builtins = true
  · -- The builtins are loaded over the VM without their accounts.
    have refreshes : vm.RefreshesEnvironment := .inl present
    have removed : SameSetup vm (vm.clearBuiltinAccounts agave) :=
      vm.sameSetup_removeAccounts agave _
    have present' : (vm.clearBuiltinAccounts agave).materialized.builtins = true := by
      rw [removed.rest.materialized, present]
    simp only [present, refreshes, if_true]
    rcases loadBuiltins_cases agave present' with
      ⟨failed, broken⟩ | ⟨vm', done, builds, rest, environments⟩
    · exact .inl ⟨failed, trivial, fun builds => broken ((removed.rest.buildsEnvironment agave).2 builds)⟩
    · refine .inr ⟨vm', done, fun _ => (removed.rest.buildsEnvironment agave).1 builds,
        removed.rest.trans rest, ?_⟩
      rw [environments, removed.rest.builtEnvironment]
  · simp only [present, Bool.false_eq_true, if_false]
    by_cases empty : vm.customSyscalls = []
    · have keeps : ¬ vm.RefreshesEnvironment := by
        rintro (builtins | syscalls)
        · exact present builtins
        · exact syscalls empty
      simp only [empty, List.isEmpty_nil, if_true, keeps, if_false]
      exact .inr ⟨vm, rfl, False.elim, rfl, rfl⟩
    · have refreshes : vm.RefreshesEnvironment := .inr empty
      have some_left : vm.customSyscalls.isEmpty = false := by simpa using empty
      simp only [some_left, Bool.false_eq_true, if_false, refreshes, if_true]
      rcases vm.refreshRuntimeEnvironments_cases agave with ⟨failed, broken⟩ | ⟨done, builds⟩
      · exact .inl ⟨failed, trivial, broken⟩
      · exact .inr ⟨_, done, fun _ => builds, rfl, rfl⟩

/-- The precompiles that the VM's features enable. -/
def enabledPrecompiles (vm : Svm) : List Precompile :=
  vm.precompiles.filter fun precompile => (vm.findPrecompile precompile.programId).isSome

/-- The account of a precompile can be written: where its address is a sysvar's, empty data decode
as that sysvar. -/
def TakesPrecompile (precompile : Precompile) : Prop :=
  ∀ sysvar, Sysvar.at? precompile.programId = some sysvar →
    agave.deserializesSysvar sysvar [] = true

/-- A bundled program loads under an environment. -/
def LoadsBundled (environment : RuntimeEnvironment) (program : BundledProgram) : Prop :=
  agave.loadElf environment program.loaderId (agave.bundledElf program.elf) = .ok ()

end Svm

namespace Accounts

variable (agave : Agave)

theorem inner_foldl_removeAccount (db : Accounts) (addresses : List Address) (address : Address) :
    (addresses.foldl (fun db address => db.removeAccount agave address)
      db).cache.inner[address]? = if address ∈ addresses then none else db.cache.inner[address]? := by
  induction addresses generalizing db with
  | nil => simp
  | cons first rest ih =>
    have dropped : (db.removeAccount agave first).cache.inner[address]? =
        if first = address then none else db.cache.inner[address]? := by
      simp [removeAccount]
    rw [List.foldl_cons, ih, dropped]
    by_cases later : address ∈ rest
    · simp [later]
    · by_cases same : first = address
      · simp [same]
      · simp [later, same, Ne.symm same]

theorem checkAccount_precompileAccount (db : Accounts) (pubkey : Address) :
    db.checkAccount agave pubkey precompileAccount =
      match validateSysvarAccount agave pubkey precompileAccount with
      | .error error => .error (.invalidSysvarData error)
      | .ok () => .ok none := by
  have plain : hasCachedProgram pubkey precompileAccount = false := by
    simp [hasCachedProgram, isCachedProgramAccount, precompileAccount]
  have funded : (precompileAccount.lamports != 0) = true := rfl
  unfold checkAccount validateSysvarAccount isManagedSysvarAccount
  cases Sysvar.at? pubkey with
  | none => simp [checkAccount.loadEntry, plain]
  | some sysvar =>
    cases decodes : agave.deserializesSysvar sysvar precompileAccount.data with
    | true => simp [checkAccount.loadEntry, plain, funded, decodes]
    | false => simp [funded, decodes]

/-- The account of a precompile is taken over an address without a program, unless its data are
refused. -/
theorem addAccount_precompileAccount {db : Accounts} {precompile : Precompile}
    (plain : db.hadCachedProgram precompile.programId = false) :
    (db.addAccount agave precompile.programId precompileAccount).1 = .ok () ↔
      Svm.TakesPrecompile agave precompile := by
  rw [addAccount_ok_iff, Accepts, checkAccount_precompileAccount]
  unfold validateSysvarAccount Svm.TakesPrecompile
  cases Sysvar.at? precompile.programId with
  | none => simp [plain]
  | some sysvar =>
    cases decodes : agave.deserializesSysvar sysvar precompileAccount.data with
    | true =>
      have decodes' : agave.deserializesSysvar sysvar [] = true := decodes
      simp [plain, decodes, decodes']
    | false =>
      have refused : agave.deserializesSysvar sysvar [] = false := decodes
      simp [decodes, refused]

theorem addAccounts_precompiles {db : Accounts} {precompiles : List Precompile}
    (plain : ∀ precompile ∈ precompiles, db.hadCachedProgram precompile.programId = false) :
    (db.addAccounts agave (precompiles.map fun precompile =>
        (precompile.programId, precompileAccount))).1 = .ok () ↔
      ∀ precompile ∈ precompiles, Svm.TakesPrecompile agave precompile := by
  induction precompiles generalizing db with
  | nil => simp [addAccounts]
  | cons first rest ih =>
    have taken := addAccount_precompileAccount agave (plain first List.mem_cons_self)
    rw [List.map_cons, addAccounts, List.forall_mem_cons]
    cases added : db.addAccount agave first.programId precompileAccount with
    | mk result next =>
      rw [added] at taken
      cases result with
      | error error =>
        have refused : ¬ Svm.TakesPrecompile agave first := by
          intro takes
          cases taken.2 takes
        simp [refused]
      | ok done =>
        have takes := taken.1 rfl
        have wrote := wrote_of_addAccount agave added
        rw [ih]
        · simp [takes]
        · -- The account that was written is a native one.
          intro other member
          have before := plain other (List.mem_cons_of_mem _ member)
          unfold hadCachedProgram at before ⊢
          rw [wrote.cache, CacheDb.store_inner_getElem?]
          by_cases same : first.programId = other.programId
          · simp [same, AccountSharedData.visible, precompileAccount, isCachedProgramAccount]
          · simpa [same] using before

theorem environments_addAccounts (db : Accounts) (accounts : List (Address × AccountSharedData)) :
    (db.addAccounts agave accounts).2.environments = db.environments :=
  (db.addAccounts_keeps agave accounts).2

end Accounts

namespace Svm

variable (agave : Agave)

theorem sameRest_setAccounts (vm : Svm) (accounts : List (Address × AccountSharedData)) :
    SameRest vm (vm.setAccounts agave accounts).2 := by
  induction accounts generalizing vm with
  | nil => rfl
  | cons pair rest ih =>
    obtain ⟨address, account⟩ := pair
    unfold setAccounts setAccount
    cases vm.accounts.addAccount agave address account with
    | mk result left =>
      cases result with
      | error error => rfl
      | ok done =>
        have first : SameRest vm ((vm.withAccounts left).syncBlockEnvSlot agave) := rfl
        exact first.trans (ih _)

theorem SameRest.enabledPrecompiles {vm vm' : Svm} (same : SameRest vm vm') :
    vm'.enabledPrecompiles = vm.enabledPrecompiles := by
  unfold Svm.enabledPrecompiles findPrecompile
  rw [same.precompiles, same.version]

theorem reloadPrecompiles_cases (vm : Svm) :
    (vm.reloadPrecompiles agave = none ∧ vm.loadsStandardPrecompiles = true ∧
      ¬ ∀ precompile ∈ vm.enabledPrecompiles, TakesPrecompile agave precompile) ∨
      ∃ vm', vm.reloadPrecompiles agave = some vm' ∧ SameSetup vm vm' ∧
        (vm.loadsStandardPrecompiles = true →
          ∀ precompile ∈ vm.enabledPrecompiles, TakesPrecompile agave precompile) := by
  unfold reloadPrecompiles
  by_cases loads : vm.loadsStandardPrecompiles = true
  · have removed : SameSetup vm (vm.clearPrecompileAccounts agave) :=
      vm.sameSetup_removeAccounts agave _
    simp only [loads, if_true]
    unfold loadPrecompiles
    change (expectOk ((vm.clearPrecompileAccounts agave).setAccounts agave
        ((vm.clearPrecompileAccounts agave).enabledPrecompiles.map fun precompile =>
          (precompile.programId, precompileAccount))) = none ∧ _) ∨ ∃ vm', expectOk
        ((vm.clearPrecompileAccounts agave).setAccounts agave
          ((vm.clearPrecompileAccounts agave).enabledPrecompiles.map fun precompile =>
            (precompile.programId, precompileAccount))) = some vm' ∧ _
    rw [removed.rest.enabledPrecompiles]
    -- Every enabled precompile is one of those just removed, so no write finds a program.
    have plain : ∀ precompile ∈ vm.enabledPrecompiles,
        (vm.clearPrecompileAccounts agave).accounts.hadCachedProgram precompile.programId = false := by
      intro precompile member
      have listed : precompile.programId ∈ vm.precompiles.map fun precompile => precompile.programId :=
        List.mem_map_of_mem (List.mem_of_mem_filter member)
      have gone : (vm.clearPrecompileAccounts agave).accounts.cache.inner[precompile.programId]? =
          none := by
        unfold clearPrecompileAccounts removeAccounts
        rw [withAccounts, Accounts.inner_foldl_removeAccount, if_pos listed]
      simp [Accounts.hadCachedProgram, gone]
    have takes := Accounts.addAccounts_precompiles agave plain
    obtain ⟨results, databases⟩ := setAccounts_eq agave (vm.clearPrecompileAccounts agave)
      (vm.enabledPrecompiles.map fun precompile => (precompile.programId, precompileAccount))
    have kept := sameRest_setAccounts agave (vm.clearPrecompileAccounts agave)
      (vm.enabledPrecompiles.map fun precompile => (precompile.programId, precompileAccount))
    have environments := Accounts.environments_addAccounts agave
      (vm.clearPrecompileAccounts agave).accounts
      (vm.enabledPrecompiles.map fun precompile => (precompile.programId, precompileAccount))
    rw [← databases] at environments
    rw [← results] at takes
    cases set : (vm.clearPrecompileAccounts agave).setAccounts agave
        (vm.enabledPrecompiles.map fun precompile => (precompile.programId, precompileAccount)) with
    | mk result vm' =>
      rw [set] at takes kept environments
      cases result with
      | error error =>
        refine .inl ⟨rfl, trivial, ?_⟩
        intro all
        cases takes.2 all
      | ok done =>
        exact .inr ⟨vm', rfl, removed.trans ⟨kept, environments⟩, fun _ => takes.1 rfl⟩
  · simp only [loads, Bool.false_eq_true, if_false]
    exact .inr ⟨vm, rfl, .refl vm, False.elim⟩

/-- One of the loaders that `add_program_internal` knows. -/
def KnownLoader (program : BundledProgram) : Prop :=
  program.loaderId = Ids.bpfLoaderUpgradeable ∨ program.loaderId = Ids.bpfLoader ∨
    program.loaderId = Ids.bpfLoaderDeprecated

theorem knownLoader_splPrograms (features : FeatureSet) :
    ∀ program ∈ splPrograms agave features, KnownLoader program := by
  intro program member
  unfold splPrograms at member
  split at member
  · simp only [List.mem_cons, List.not_mem_nil, or_false] at member
    rcases member with rfl | rfl | rfl <;> simp [KnownLoader]
  · simp only [List.mem_cons, List.not_mem_nil, or_false] at member
    rcases member with rfl | rfl | rfl <;> simp [KnownLoader]

theorem knownLoader_nonSplDefaultPrograms :
    ∀ program ∈ nonSplDefaultPrograms, KnownLoader program := by
  intro program member
  simp only [nonSplDefaultPrograms, List.mem_cons, List.not_mem_nil, or_false] at member
  rcases member with rfl | rfl | rfl | rfl | rfl <;> simp [KnownLoader]

theorem addBundledProgram_cases (vm : Svm) {program : BundledProgram}
    (known : KnownLoader program) :
    (expectOk (vm.addProgramInternal agave program.programId (agave.bundledElf program.elf)
        program.loaderId) = none ∧ ¬ LoadsBundled agave vm.accounts.environments program) ∨
      ∃ vm', expectOk (vm.addProgramInternal agave program.programId
          (agave.bundledElf program.elf) program.loaderId) = some vm' ∧ SameSetup vm vm' ∧
        LoadsBundled agave vm.accounts.environments program := by
  obtain ⟨writes, listed⟩ : ∃ writes, programAccountsFor agave vm.accounts program.programId
      (agave.bundledElf program.elf) program.loaderId = some writes := by
    unfold programAccountsFor
    by_cases upgradeable : program.loaderId = Ids.bpfLoaderUpgradeable
    · exact ⟨_, if_pos upgradeable⟩
    · refine ⟨_, (if_neg upgradeable).trans (if_pos ?_)⟩
      exact known.resolve_left upgradeable
  have environments := environments_foldl_addAccountNoChecks vm.accounts writes Prod.fst Prod.snd
  unfold addProgramInternal LoadsBundled
  simp only [listed]
  cases loaded : agave.loadElf vm.accounts.environments program.loaderId
      (agave.bundledElf program.elf) with
  | error reason =>
    left
    simp [environments, loaded, expectOk]
  | ok done =>
    right
    simp only [environments, loaded, expectOk]
    exact ⟨_, rfl, ⟨rfl, rfl⟩, trivial⟩

theorem addBundledPrograms_cases (vm : Svm) {programs : List BundledProgram}
    (known : ∀ program ∈ programs, KnownLoader program) :
    (vm.addBundledPrograms agave programs = none ∧
      ¬ ∀ program ∈ programs, LoadsBundled agave vm.accounts.environments program) ∨
      ∃ vm', vm.addBundledPrograms agave programs = some vm' ∧ SameSetup vm vm' ∧
        ∀ program ∈ programs, LoadsBundled agave vm.accounts.environments program := by
  induction programs generalizing vm with
  | nil => exact .inr ⟨vm, rfl, .refl vm, by simp⟩
  | cons first rest ih =>
    unfold addBundledPrograms
    rcases vm.addBundledProgram_cases agave (known first List.mem_cons_self) with
      ⟨failed, broken⟩ | ⟨next, done, same, loads⟩
    · refine .inl ⟨by rw [failed]; rfl, ?_⟩
      intro all
      exact broken (all first List.mem_cons_self)
    · rw [done, Option.bind_some, ← same.environments]
      rw [← same.environments] at loads
      rcases ih next (fun program member => known program (List.mem_cons_of_mem _ member)) with
        ⟨failed, broken⟩ | ⟨vm', done', same', others⟩
      · refine .inl ⟨failed, ?_⟩
        intro all
        exact broken fun program member => all program (List.mem_cons_of_mem _ member)
      · refine .inr ⟨vm', done', same.trans same', ?_⟩
        rw [List.forall_mem_cons]
        exact ⟨loads, others⟩

/-! ### The whole reconfiguration -/

/-- Nothing a reconfiguration does under the VM's features panics: the environment builds where it is
asked for, the accounts of the precompiles are taken, and the bundled programs load. -/
structure Rematerializes (vm : Svm) : Prop where
  environment : vm.RefreshesEnvironment → vm.BuildsEnvironment agave
  precompiles : vm.loadsStandardPrecompiles = true →
    ∀ precompile ∈ vm.enabledPrecompiles, TakesPrecompile agave precompile
  defaultPrograms : vm.materialized.defaultPrograms = true →
    ∀ program ∈ splPrograms agave vm.version.featureSet ++ nonSplDefaultPrograms,
      LoadsBundled agave vm.reconfiguredEnvironment program
  splPrograms : vm.materialized.splPrograms = true →
    ∀ program ∈ splPrograms agave vm.version.featureSet,
      LoadsBundled agave vm.reconfiguredEnvironment program

theorem reloadDefaultPrograms_cases (vm : Svm) :
    (vm.reloadDefaultPrograms agave = none ∧ vm.materialized.defaultPrograms = true ∧
      ¬ ∀ program ∈ splPrograms agave vm.version.featureSet ++ nonSplDefaultPrograms,
        LoadsBundled agave vm.accounts.environments program) ∨
      ∃ vm', vm.reloadDefaultPrograms agave = some vm' ∧ SameSetup vm vm' ∧
        (vm.materialized.defaultPrograms = true →
          ∀ program ∈ splPrograms agave vm.version.featureSet ++ nonSplDefaultPrograms,
            LoadsBundled agave vm.accounts.environments program) := by
  unfold reloadDefaultPrograms
  by_cases present : vm.materialized.defaultPrograms = true
  · have same : ({ vm with materialized := { vm.materialized with defaultPrograms := true } } :
        Svm) = vm := by rw [← present]
    have known : ∀ program ∈ splPrograms agave vm.version.featureSet ++ nonSplDefaultPrograms,
        KnownLoader program := by
      intro program member
      rcases List.mem_append.1 member with spl | other
      · exact knownLoader_splPrograms agave _ program spl
      · exact knownLoader_nonSplDefaultPrograms program other
    simp only [present, if_true, loadDefaultPrograms]
    rw [same]
    rcases vm.addBundledPrograms_cases agave known with ⟨failed, broken⟩ | ⟨vm', done, same, loads⟩
    · exact .inl ⟨failed, trivial, broken⟩
    · exact .inr ⟨vm', done, same, fun _ => loads⟩
  · simp only [present, Bool.false_eq_true, if_false]
    exact .inr ⟨vm, rfl, .refl vm, False.elim⟩

theorem reloadSplPrograms_cases (vm : Svm) :
    (vm.reloadSplPrograms agave = none ∧ vm.materialized.splPrograms = true ∧
      ¬ ∀ program ∈ splPrograms agave vm.version.featureSet,
        LoadsBundled agave vm.accounts.environments program) ∨
      ∃ vm', vm.reloadSplPrograms agave = some vm' ∧ SameSetup vm vm' ∧
        (vm.materialized.splPrograms = true →
          ∀ program ∈ splPrograms agave vm.version.featureSet,
            LoadsBundled agave vm.accounts.environments program) := by
  unfold reloadSplPrograms
  by_cases present : vm.materialized.splPrograms = true
  · have same : ({ vm with materialized := { vm.materialized with splPrograms := true } } : Svm) =
        vm := by rw [← present]
    simp only [present, if_true, loadSplPrograms]
    rw [same]
    rcases vm.addBundledPrograms_cases agave (knownLoader_splPrograms agave _) with
      ⟨failed, broken⟩ | ⟨vm', done, same, loads⟩
    · exact .inl ⟨failed, trivial, broken⟩
    · exact .inr ⟨vm', done, same, fun _ => loads⟩
  · simp only [present, Bool.false_eq_true, if_false]
    exact .inr ⟨vm, rfl, .refl vm, False.elim⟩

theorem SameRest.refreshesEnvironment {vm vm' : Svm} (same : SameRest vm vm') :
    vm'.RefreshesEnvironment ↔ vm.RefreshesEnvironment := by
  unfold RefreshesEnvironment
  rw [same.materialized, same.customSyscalls]

theorem SameSetup.reconfiguredEnvironment {vm vm' : Svm} (same : SameSetup vm vm') :
    vm'.reconfiguredEnvironment = vm.reconfiguredEnvironment := by
  simp only [Svm.reconfiguredEnvironment, same.rest.refreshesEnvironment,
    same.rest.builtEnvironment, same.environments]

/-- A reconfiguration gets to its final rebuild exactly when nothing in it panics. -/
theorem rematerialize_cases (vm : Svm) (previous : FeatureSet) :
    (vm.rematerialize agave previous = none ∧ ¬ vm.Rematerializes agave) ∨
      ∃ vm', vm.rematerialize agave previous = some vm' ∧ vm.Rematerializes agave ∧
        SameRest vm vm' := by
  -- The steps run one after the other. What a step needs is stated of the VM the call began with,
  -- so every step before it has to leave the features, the flags and the environments alone.
  have first := vm.sameSetup_cleared agave previous
  rw [rematerialize_eq]
  rcases (vm.cleared agave previous).reloadBuiltins_cases agave with
    ⟨failed, refreshes, broken⟩ | ⟨second, done, builds, rest, environments⟩
  · refine .inl ⟨by rw [failed]; rfl, ?_⟩
    intro all
    exact broken ((first.rest.buildsEnvironment agave).2
      (all.environment (first.rest.refreshesEnvironment.1 refreshes)))
  rw [done, Option.bind_some]
  have rest₂ := first.rest.trans rest
  rw [first.reconfiguredEnvironment] at environments
  rcases second.reloadPrecompiles_cases agave with
    ⟨failed, loads, broken⟩ | ⟨third, done, same, takes⟩
  · refine .inl ⟨by rw [failed]; rfl, ?_⟩
    intro all
    rw [rest₂.enabledPrecompiles] at broken
    exact broken (all.precompiles (rest₂.loadsStandardPrecompiles ▸ loads))
  rw [done, Option.bind_some]
  have rest₃ := rest₂.trans same.rest
  have environments₃ := same.environments.trans environments
  rcases third.reloadDefaultPrograms_cases agave with
    ⟨failed, present, broken⟩ | ⟨fourth, done, same', loads⟩
  · refine .inl ⟨by rw [failed]; rfl, ?_⟩
    intro all
    rw [rest₃.version, environments₃] at broken
    exact broken (all.defaultPrograms (rest₃.materialized ▸ present))
  rw [done, Option.bind_some]
  have rest₄ := rest₃.trans same'.rest
  have environments₄ := same'.environments.trans environments₃
  rcases fourth.reloadSplPrograms_cases agave with
    ⟨failed, present, broken⟩ | ⟨fifth, done, same'', loads'⟩
  · refine .inl ⟨failed, ?_⟩
    intro all
    rw [rest₄.version, environments₄] at broken
    exact broken (all.splPrograms (rest₄.materialized ▸ present))
  refine .inr ⟨fifth, done, ⟨?_, ?_, ?_, ?_⟩, rest₄.trans same''.rest⟩
  · intro refreshes
    exact (first.rest.buildsEnvironment agave).1
      (builds (first.rest.refreshesEnvironment.2 refreshes))
  · intro loads
    have all := takes (rest₂.loadsStandardPrecompiles.trans loads)
    rwa [rest₂.enabledPrecompiles] at all
  · intro present
    have all := loads (by rw [rest₃.materialized, present])
    rwa [rest₃.version, environments₃] at all
  · intro present
    have all := loads' (by rw [rest₄.materialized, present])
    rwa [rest₄.version, environments₄] at all

/-! ### Atomicity -/

/-- Features, reserved keys, flags, accounts, environments and programs are as before. -/
structure Unchanged (vm after : Svm) : Prop where
  featureSet : after.version.featureSet = vm.version.featureSet
  reservedAccountKeys : after.reservedAccountKeys = vm.reservedAccountKeys
  materialized : after.materialized = vm.materialized
  cache : after.accounts.cache = vm.accounts.cache
  journal : after.accounts.journal = vm.accounts.journal
  environments : after.accounts.environments = vm.accounts.environments
  programs : after.accounts.programsCache = vm.accounts.programsCache

/-- The call does not panic, and where it fails nothing has changed. -/
structure SetsFeatureSetAtomically (vm : Svm) (featureSet : FeatureSet) : Prop where
  returns : vm.setFeatureSet agave featureSet ≠ none
  unchanged : ∀ error after, vm.setFeatureSet agave featureSet = some (.error error, after) →
    Unchanged vm after

/-- Where the reconfigured overlay holds a program that does not load, the program cache can be had
back: it is what a rebuild from the present overlay gives, or, if that fails too, the programs that
were cleared and loaded again are in it as they were. -/
def RecoversPrograms (vm : Svm) (featureSet : FeatureSet) : Prop :=
  ∀ rematerialized error,
    (vm.withFeatureSet agave featureSet).rematerialize agave vm.version.featureSet =
      some rematerialized →
    rematerialized.accounts.rebuiltProgramCache agave = .error error →
    match vm.accounts.rebuiltProgramCache agave with
    | .ok cache => cache = vm.accounts.programsCache
    | .error _ => rematerialized.accounts.programsCache = vm.accounts.programsCache

/-- Changing the feature set is atomic exactly when the reconfiguration does not panic and the
program cache can be had back where its rebuild fails. -/
theorem setFeatureSet_atomic_iff (vm : Svm) (featureSet : FeatureSet) :
    vm.SetsFeatureSetAtomically agave featureSet ↔
      (vm.withFeatureSet agave featureSet).Rematerializes agave ∧
        vm.RecoversPrograms agave featureSet := by
  rcases (vm.withFeatureSet agave featureSet).rematerialize_cases agave vm.version.featureSet with
    ⟨panicked, broken⟩ | ⟨rematerialized, reached, builds, rest⟩
  · have stopped : vm.setFeatureSet agave featureSet = none := by
      unfold withFeatureSet at panicked
      simp only [setFeatureSet, panicked, Option.map_none]
    constructor
    · intro atomic
      exact absurd stopped atomic.returns
    · rintro ⟨builds, -⟩
      exact absurd builds broken
  · have answered := setFeatureSet_of_rematerialized agave reached
    cases first : rematerialized.accounts.rebuiltProgramCache agave with
    | ok cache =>
      -- The call succeeds, and atomicity is about failures.
      simp only [first] at answered
      constructor
      · intro _
        refine ⟨builds, ?_⟩
        intro other error same failed
        cases reached.symm.trans same
        rw [first] at failed
        cases failed
      · intro _
        refine ⟨by simp [answered], ?_⟩
        intro error after failed
        rw [answered] at failed
        cases failed
    | error error =>
      -- All but the program cache is put back, so atomicity comes down to what the second rebuild
      -- makes of that.
      simp only [first] at answered
      constructor
      · intro atomic
        refine ⟨builds, ?_⟩
        intro other error' same _
        cases reached.symm.trans same
        have programs := (atomic.unchanged _ _ answered).programs
        cases again : vm.accounts.rebuiltProgramCache agave with
        | ok cache => simpa only [again] using programs
        | error error => simpa only [again] using programs
      · rintro ⟨-, recovers⟩
        have cache := recovers rematerialized error reached first
        refine ⟨by simp [answered], ?_⟩
        intro error' after failed
        rw [answered] at failed
        cases failed
        refine ⟨rfl, rfl, rest.materialized, rfl, rfl, rfl, ?_⟩
        cases again : vm.accounts.rebuiltProgramCache agave with
        | ok cache' =>
          rw [again] at cache
          exact cache
        | error error =>
          rw [again] at cache
          exact cache

end Svm

namespace Sample

/-- A runtime that refuses every ELF once the feature 0xf is active. -/
def pickyAgave : Agave :=
  { agave with
    loadElf := fun environment loader elf =>
      if environment.features.isActive 0xf then .error "unsupported ELF"
      else loadElf environment loader elf }

/-- A VM with a builtin of the user's and a program. -/
def extendedVm : Svm :=
  (((vm [] .empty).addBuiltin 0x77 9).addProgramWithLoader pickyAgave 0x50 [0x7f] Ids.bpfLoader).2

/-- The program does not load under the new features. The rebuild from the restored overlay finds it
again, but not the builtin. -/
theorem feature_set_drops_builtin :
    ¬ extendedVm.SetsFeatureSetAtomically pickyAgave ⟨(∅ : AddressMap Nat).insert 0xf 0⟩ := by
  intro atomic
  have failed : (extendedVm.setFeatureSet pickyAgave ⟨(∅ : AddressMap Nat).insert 0xf 0⟩).map
      (fun outcome =>
        (outcome.1.toOption.isNone, (outcome.2.accounts.programsCache.find 0x77).isSome)) =
        some (true, false) := by decide +kernel
  have before : (extendedVm.accounts.programsCache.find 0x77).isSome = true := by
    decide +kernel
  cases set : extendedVm.setFeatureSet pickyAgave ⟨(∅ : AddressMap Nat).insert 0xf 0⟩ with
  | none => exact atomic.returns set
  | some outcome =>
    obtain ⟨result, after⟩ := outcome
    rw [set] at failed
    cases result with
    | ok done => cases failed
    | error error =>
      have kept := (atomic.unchanged error after set).programs
      simp only [Option.map_some, Option.some.injEq, Prod.mk.injEq] at failed
      rw [kept, before] at failed
      cases failed.2

end Sample

end Hpsvm
