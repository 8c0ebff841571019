import Hpsvm.Fixture.Runner
import Hpsvm.Foundation.RoundTrip
import Hpsvm.Properties.Coherence

/-!
# The programs a fixture binds

A runner binds the programs of a fixture and then writes its pre-accounts. Writing one can make the
entry of a program anew: an executable account is loaded at once, and an account that takes the place
of a program has all programs loaded again. Which ELF a program runs is followed through the writes
as an equation, so that the last of them that makes its entry anew decides.
-/

namespace Hpsvm

/-- The ELF an entry was built from. -/
def ProgramCacheEntry.elf? : ProgramCacheEntry → Option (List UInt8)
  | .loaded _ _ elf => some elf
  | .builtin _ => none
  | .closedTombstone _ => none

namespace Accounts

variable (agave : Agave)

/-- The ELF that the entry of a program was built from. -/
def servedElf? (db : Accounts) (programId : Address) : Option (List UInt8) :=
  (db.programsCache.find programId).bind ProgramCacheEntry.elf?

/-! ### The ELF in the accounts -/

/-- The ELF that `load_program` reads for a program account, whether it loads or not. -/
def elfOf (db : Accounts) (programAccount : AccountSharedData) : Option (List UInt8) :=
  if programAccount.owner = Ids.bpfLoader ∨ programAccount.owner = Ids.bpfLoaderDeprecated then
    some programAccount.data
  else if programAccount.owner = Ids.bpfLoaderUpgradeable then
    (UpgradeableLoaderState.deserializeProgram programAccount.data).bind fun programdataAddress =>
      (db.getAccount programdataAddress).map fun account =>
        account.data.drop UpgradeableLoaderState.sizeOfProgramdataMetadata
  else if programAccount.owner = Ids.loaderV4 then
    some (programAccount.data.drop loaderV4ProgramDataOffset)
  else none

/-- The ELF that the overlay holds for a program. -/
def heldElf (db : Accounts) (programId : Address) : Option (List UInt8) :=
  (db.cache.inner[programId]?.filter (isCachedProgramAccount programId)).bind db.elfOf

theorem elf?_of_loadElf {db : Accounts} {loader : Address} {elf : List UInt8}
    {entry : ProgramCacheEntry} (loads : db.loadElf agave loader elf = .ok entry) :
    entry.elf? = some elf := by
  unfold loadElf at loads
  split at loads
  · cases loads
    rfl
  · cases loads

theorem elf?_of_loadProgram {db : Accounts} {account : AccountSharedData} {entry : ProgramCacheEntry}
    (loads : db.loadProgram agave account = .ok entry) : entry.elf? = db.elfOf account := by
  unfold loadProgram at loads
  unfold elfOf
  split at loads
  · cases loads
  · split
    next direct =>
      rw [if_pos direct] at loads
      exact elf?_of_loadElf agave loads
    next other =>
      rw [if_neg other] at loads
      split
      next upgradeable =>
        rw [if_pos upgradeable] at loads
        cases refers : UpgradeableLoaderState.deserializeProgram account.data with
        | none =>
          simp only [refers] at loads
          cases loads
        | some programdataAddress =>
          simp only [refers] at loads
          cases there : db.getAccount programdataAddress with
          | none =>
            -- A program without its data is cached as closed.
            simp only [there] at loads
            cases loads
            simp [there, ProgramCacheEntry.elf?]
          | some programdata =>
            simp only [there] at loads
            split at loads
            · simpa [there] using elf?_of_loadElf agave loads
            · cases loads
      next other =>
        rw [if_neg other] at loads
        split
        next v4 =>
          rw [if_pos v4] at loads
          split at loads
          · exact elf?_of_loadElf agave loads
          · cases loads
        next unknown =>
          rw [if_neg unknown] at loads
          cases loads

/-- Only the overlay and the source count. -/
theorem elfOf_congr {db db' : Accounts} (source : db'.source = db.source)
    (cache : db'.cache = db.cache) (account : AccountSharedData) :
    db'.elfOf account = db.elfOf account := by
  have reads : ∀ address, db'.getAccount address = db.getAccount address := by
    intro address
    apply getAccount_congr
    apply tryGetAccount_congr source
    · rw [cache]
    · rw [cache]
  simp only [elfOf, reads]

theorem heldElf_congr {db db' : Accounts} (source : db'.source = db.source)
    (cache : db'.cache = db.cache) (programId : Address) :
    db'.heldElf programId = db.heldElf programId := by
  unfold heldElf
  rw [cache]
  exact congrArg _ (funext (elfOf_congr source cache))

/-- A rebuilt cache serves what the overlay holds. -/
theorem servedElf?_of_rebuilt {db : Accounts} {cache : ProgramCache}
    (rebuilt : db.rebuiltProgramCache agave = .ok cache) (programId : Address) :
    ({ db with programsCache := cache } : Accounts).servedElf? programId = db.heldElf programId := by
  have builtins := find_replenishBuiltins db.cache.inner (ProgramCache.new (db.currentSlot agave))
    agave.builtins programId
  rw [ProgramCache.find_new] at builtins
  unfold servedElf? heldElf
  rcases find_replenishPrograms agave rebuilt programId with
    ⟨account, entry, member, loads, found⟩ | ⟨missing, same⟩
  · obtain ⟨there, program⟩ := mem_programAccounts.1 member
    simp [found, there, Option.filter_some, program, elf?_of_loadProgram agave loads]
  · -- Neither a program account nor, if anything, more than a builtin.
    have plain : db.cache.inner[programId]?.filter (isCachedProgramAccount programId) = none := by
      rw [Option.filter_eq_none_iff]
      intro account there program
      exact missing (List.mem_map_of_mem (mem_programAccounts.2 ⟨there, program⟩))
    rw [plain, same]
    rcases builtins with ⟨-, builtin, -, -, found⟩ | found
    · simp [found, ProgramCacheEntry.elf?]
    · simp [found]

/-! ### Writes -/

/-- The ELF a write makes the entry of a program anew from, if it does: an executable account at its
address is loaded before it is written, and an account in the place of a program has every program
loaded after it is written. -/
def remade (db : Accounts) (programId : Address) (write : Address × AccountSharedData) :
    Option (Option (List UInt8)) :=
  if hasCachedProgram write.1 write.2 then
    if write.1 = programId then some (db.elfOf write.2) else none
  else if db.hadCachedProgram write.1 then
    some ((db.writeAccount write.1 write.2).heldElf programId)
  else none

/-- The ELF of the last write that makes the entry of a program anew. -/
def lastRemade (db : Accounts) (programId : Address) :
    List (Address × AccountSharedData) → Option (Option (List UInt8))
  | [] => none
  | write :: rest =>
    (lastRemade (db.writeAccount write.1 write.2) programId rest).or (db.remade programId write)

theorem remade_congr {db db' : Accounts} (source : db'.source = db.source)
    (cache : db'.cache = db.cache) (programId : Address) (write : Address × AccountSharedData) :
    db'.remade programId write = db.remade programId write := by
  have held : (db'.writeAccount write.1 write.2).heldElf programId =
      (db.writeAccount write.1 write.2).heldElf programId := by
    apply heldElf_congr
    · exact source
    · simp only [writeAccount, cache]
  have had : db'.hadCachedProgram write.1 = db.hadCachedProgram write.1 := by
    simp only [hadCachedProgram, cache]
  simp only [remade, elfOf_congr source cache, held, had]

theorem lastRemade_congr {db db' : Accounts} (source : db'.source = db.source)
    (cache : db'.cache = db.cache) (programId : Address)
    (writes : List (Address × AccountSharedData)) :
    db'.lastRemade programId writes = db.lastRemade programId writes := by
  induction writes generalizing db db' with
  | nil => rfl
  | cons write rest ih =>
    have later : (db'.writeAccount write.1 write.2).lastRemade programId rest =
        (db.writeAccount write.1 write.2).lastRemade programId rest := by
      apply ih
      · exact source
      · simp only [writeAccount, cache]
    simp only [lastRemade, later, remade_congr source cache]

theorem servedElf?_addAccount {db db' : Accounts} {pubkey : Address} {account : AccountSharedData}
    (added : db.addAccount agave pubkey account = (.ok (), db')) (programId : Address) :
    db'.servedElf? programId =
      (db.remade programId (pubkey, account)).getD (db.servedElf? programId) := by
  unfold remade
  rcases db.addAccount_cases agave pubkey account with
    ⟨error, checked, result⟩ | ⟨entry, checked, result⟩ | ⟨checked, had, error, rebuilt, result⟩ |
      ⟨checked, had, cache, rebuilt, result⟩ | ⟨checked, had, result⟩
  · rw [result] at added
    cases added
  · rw [result] at added
    cases added
    -- An executable account is loaded before it is written, over the accounts it finds.
    obtain ⟨program, loads⟩ := checkAccount_isSome agave checked
    have elf := elf?_of_loadProgram agave (loads entry rfl)
    simp only [← program, Option.isSome_some, if_true, servedElf?, ProgramCache.find_replenish]
    split
    · exact elf
    · simp
  · rw [result] at added
    cases added
  · rw [result] at added
    cases added
    -- An account in place of a program has the whole cache rebuilt from the overlay.
    obtain ⟨plain, -⟩ := checkAccount_isSome agave checked
    have held : (db.written agave pubkey account).heldElf programId =
        (db.writeAccount pubkey account).heldElf programId := by
      apply heldElf_congr
      · simp [writeAccount, recordJournal]
      · simp [writeAccount]
    simp only [← plain, Option.isSome_none, Bool.false_eq_true, if_false, had, if_true,
      Option.getD_some]
    rw [servedElf?_of_rebuilt agave rebuilt, held]
  · rw [result] at added
    cases added
    obtain ⟨plain, -⟩ := checkAccount_isSome agave checked
    simp [← plain, had, servedElf?]

/-- After a list of writes, a program is served from the last of them that made its entry anew. -/
theorem servedElf?_addAccounts {db db' : Accounts} {writes : List (Address × AccountSharedData)}
    (added : db.addAccounts agave writes = (.ok (), db')) (programId : Address) :
    db'.servedElf? programId = (db.lastRemade programId writes).getD (db.servedElf? programId) := by
  induction writes generalizing db with
  | nil =>
    cases added
    rfl
  | cons write rest ih =>
    obtain ⟨pubkey, account⟩ := write
    obtain ⟨next, first, others⟩ := addAccounts_cons_ok agave added
    have wrote := wrote_of_addAccount agave first
    have later : next.lastRemade programId rest =
        (db.writeAccount pubkey account).lastRemade programId rest := by
      apply lastRemade_congr
      · exact wrote.source
      · exact wrote.cache
    rw [ih others, servedElf?_addAccount agave first, later, lastRemade]
    cases (db.writeAccount pubkey account).lastRemade programId rest with
    | none => rfl
    | some elf => rfl

end Accounts

/-! ### Binding -/

theorem Svm.servedElf?_addProgramWithLoader (agave : Agave) {vm bound : Svm}
    {programId loaderId : Address} {elf : List UInt8}
    (added : vm.addProgramWithLoader agave programId elf loaderId = (.ok (), bound))
    (other : Address) :
    bound.accounts.servedElf? other =
      if programId = other then some elf else vm.accounts.servedElf? other := by
  unfold addProgramWithLoader addProgramInternal at added
  split at added
  · cases added
  next writes listed =>
    obtain ⟨programs, environments⟩ := foldl_addAccountNoChecks vm.accounts writes
    simp only [environments] at added
    split at added
    · cases added
    · cases added
      simp only [Accounts.servedElf?, withAccounts, programs, ProgramCache.find_replenish]
      split
      · rfl
      · rfl

theorem bindPrograms_cons_ok (agave : Agave) {elfs : AddressMap (List UInt8)} {vm bound : Svm}
    {binding : ProgramBinding} {rest : List ProgramBinding}
    (binds : bindPrograms agave elfs vm (binding :: rest) = (.ok (), bound)) :
    ∃ elf next, elfs[binding.programId]? = some elf ∧
      vm.addProgramWithLoader agave binding.programId elf binding.loaderId = (.ok (), next) ∧
      bindPrograms agave elfs next rest = (.ok (), bound) := by
  unfold bindPrograms at binds
  cases mapped : elfs[binding.programId]? with
  | none =>
    simp only [mapped] at binds
    cases binds
  | some elf =>
    simp only [mapped] at binds
    split at binds
    · cases binds
    next next added => exact ⟨elf, next, rfl, added, binds⟩

/-- A binding that succeeds serves each program from the ELF it was bound to. -/
theorem servedElf?_bindPrograms (agave : Agave) {elfs : AddressMap (List UInt8)} {vm bound : Svm}
    {bindings : List ProgramBinding}
    (binds : bindPrograms agave elfs vm bindings = (.ok (), bound)) (programId : Address) :
    bound.accounts.servedElf? programId =
      if programId ∈ bindings.map ProgramBinding.programId then elfs[programId]?
      else vm.accounts.servedElf? programId := by
  induction bindings generalizing vm with
  | nil =>
    cases binds
    simp
  | cons binding rest ih =>
    obtain ⟨elf, next, mapped, added, others⟩ := bindPrograms_cons_ok agave binds
    have first := Svm.servedElf?_addProgramWithLoader agave added programId
    rw [ih others, first]
    by_cases same : binding.programId = programId
    · -- A program bound twice is bound to the same ELF, which the map gives for its address.
      subst same
      simp [mapped]
    · simp [same, Ne.symm same]

theorem exists_elf_of_bindPrograms (agave : Agave) {elfs : AddressMap (List UInt8)} {vm bound : Svm}
    {bindings : List ProgramBinding}
    (binds : bindPrograms agave elfs vm bindings = (.ok (), bound)) {binding : ProgramBinding}
    (listed : binding ∈ bindings) : ∃ elf, elfs[binding.programId]? = some elf := by
  induction bindings generalizing vm with
  | nil => cases listed
  | cons first rest ih =>
    obtain ⟨elf, next, mapped, -, others⟩ := bindPrograms_cons_ok agave binds
    rcases List.mem_cons.1 listed with rfl | later
    · exact ⟨elf, mapped⟩
    · exact ih others later

/-! ### Fixtures -/

namespace FixtureInput

variable (agave : Agave)

def runtime : FixtureInput → RuntimeFixtureConfig
  | .transaction fixture => fixture.runtime
  | .instruction fixture => fixture.runtime

def programs : FixtureInput → List ProgramBinding
  | .transaction fixture => fixture.programs
  | .instruction fixture => fixture.programs

def preAccounts : FixtureInput → List AccountSnapshot
  | .transaction fixture => fixture.preAccounts
  | .instruction fixture => fixture.preAccounts

/-- What a runner does between binding the programs and executing. -/
def prepare (unique : Address) (vm : Svm) : FixtureInput → Except HpsvmError Unit × Svm
  | .transaction fixture => vm.setAccounts agave (fixture.preAccounts.map AccountSnapshot.entry)
  | .instruction fixture =>
    vm.prepareCase agave fixture.instructionCase (fixture.instructionCase.feePayer unique)

/-- What a runner executes on the VM that is prepared. -/
def execute (texts : ErrorTexts) (codec : Codec) (unique : Address) (working : Svm) :
    FixtureInput → Except FixtureError ExecutionSnapshot
  | .transaction fixture =>
    match codec.deserializeTransaction fixture.transactionBytes with
    | .error reason => .error (.decodeTransaction reason)
    | .ok tx => .ok (.fromOutcome texts (working.transactDetached agave tx))
  | .instruction fixture =>
    let tx := agave.compileMessage [fixture.instructionCase.instruction]
      (fixture.instructionCase.feePayer unique) working.blockEnv.latestBlockhash
    match working.tryTransact agave tx with
    | .error error => .error (.hpsvm error)
    | .ok outcome => .ok (.fromOutcome texts outcome)

end FixtureInput

/-- The VM that a fixture executes on is the one bound and prepared. -/
theorem FixtureRunner.run_of_prepared (agave : Agave) (texts : ErrorTexts) (codec : Codec)
    (runner : FixtureRunner) (fixture : Fixture) (unique : Address) {vm bound working : Svm}
    (unchecked : fixture.input.runtime.blockhashCheck = false)
    (configured : configureVm agave runner.baseVm fixture.input.runtime = some vm)
    (binds : bindPrograms agave runner.programElfs vm fixture.input.programs = (.ok (), bound))
    (prepared : fixture.input.prepare agave unique bound = (.ok (), working)) :
    ∃ next, runner.run agave texts codec fixture unique =
      some ((fixture.input.execute agave texts codec unique working).map fun snapshot =>
        ⟨snapshot, none⟩, next) := by
  unfold run
  cases input : fixture.input with
  | transaction transaction =>
    rw [input] at unchecked configured binds prepared
    simp only [FixtureInput.runtime] at unchecked configured
    simp only [FixtureInput.programs] at binds
    simp only [FixtureInput.prepare] at prepared
    have sets : transaction.setUp agave runner.programElfs runner.baseVm =
        some (.ok (), working) := by
      simp only [TransactionFixture.setUp, configured, Option.map_some, binds, prepared]
    simp only [runTransactionFixture, unchecked, Bool.false_eq_true, if_false, sets, Option.map_some,
      FixtureInput.execute]
    cases codec.deserializeTransaction transaction.transactionBytes with
    | error reason => exact ⟨_, rfl⟩
    | ok tx => exact ⟨_, rfl⟩
  | instruction instruction =>
    rw [input] at configured binds prepared
    simp only [FixtureInput.runtime] at configured
    simp only [FixtureInput.programs] at binds
    simp only [FixtureInput.prepare] at prepared
    simp only [runInstructionFixture, configured, Option.map_some, binds, FixtureInput.execute,
      Svm.processInstructionCase, prepared]
    cases working.tryTransact agave _ with
    | error error => exact ⟨_, rfl⟩
    | ok outcome => exact ⟨_, rfl⟩

namespace FixtureInput

variable (agave : Agave)

/-- The account of the fee payer is written only where there is none, and makes no entry anew. -/
theorem servedElf?_setFeePayer {vm working : Svm} {payer : Address}
    (missing : vm.getAccount payer = none)
    (set : vm.setAccount agave payer Svm.feePayerAccount = (.ok (), working)) (programId : Address) :
    working.accounts.servedElf? programId = vm.accounts.servedElf? programId := by
  have unheld : vm.accounts.cache.inner[payer]? = none := by
    cases there : vm.accounts.cache.inner[payer]? with
    | none => rfl
    | some account =>
      simp only [Svm.getAccount, Accounts.getAccount, Accounts.tryGetAccount, Accounts.getAccountRef,
        there] at missing
      cases missing
  have quiet : vm.accounts.remade programId (payer, Svm.feePayerAccount) = none := by
    have plain : Accounts.hasCachedProgram payer Svm.feePayerAccount = false := rfl
    simp [Accounts.remade, plain, Accounts.hadCachedProgram, unheld]
  unfold Svm.setAccount at set
  split at set
  · cases set
  next next added =>
    cases set
    have served := Accounts.servedElf?_addAccount agave added programId
    rw [quiet] at served
    exact served

theorem servedElf?_setAccounts {vm working : Svm} {writes : List (Address × AccountSharedData)}
    (set : vm.setAccounts agave writes = (.ok (), working)) (programId : Address) :
    working.accounts.servedElf? programId =
      (vm.accounts.lastRemade programId writes).getD (vm.accounts.servedElf? programId) := by
  obtain ⟨results, databases⟩ := Svm.setAccounts_eq agave vm writes
  rw [set] at results databases
  exact Accounts.servedElf?_addAccounts agave (Prod.ext results.symm databases.symm) programId

theorem servedElf?_prepare {vm working : Svm} {input : FixtureInput} {unique : Address}
    (prepared : input.prepare agave unique vm = (.ok (), working)) (programId : Address) :
    working.accounts.servedElf? programId =
      (vm.accounts.lastRemade programId (input.preAccounts.map AccountSnapshot.entry)).getD
        (vm.accounts.servedElf? programId) := by
  cases input with
  | transaction fixture => exact servedElf?_setAccounts agave prepared programId
  | instruction fixture =>
    simp only [prepare, Svm.prepareCase] at prepared
    split at prepared
    · cases prepared
    next set =>
      have served := servedElf?_setAccounts agave set programId
      split at prepared
      · cases prepared
        exact served
      next missing => exact (servedElf?_setFeePayer agave missing prepared programId).trans served

/-- At the moment a fixture executes, every program it binds is served from the ELF bound to it if
and only if the last pre-account that makes the entry of such a program anew, where there is one,
makes it from that ELF. -/
theorem runs_bound_programs_iff (elfs : AddressMap (List UInt8)) (input : FixtureInput)
    (unique : Address) {vm bound working : Svm}
    (binds : bindPrograms agave elfs vm input.programs = (.ok (), bound))
    (prepared : input.prepare agave unique bound = (.ok (), working)) :
    (∀ binding ∈ input.programs, ∃ elf, elfs[binding.programId]? = some elf ∧
      working.accounts.servedElf? binding.programId = some elf) ↔
    ∀ binding ∈ input.programs, ∀ found,
      bound.accounts.lastRemade binding.programId (input.preAccounts.map AccountSnapshot.entry) =
        some found → found = elfs[binding.programId]? := by
  refine forall₂_congr fun binding listed => ?_
  obtain ⟨elf, mapped⟩ := exists_elf_of_bindPrograms agave binds listed
  have served := servedElf?_bindPrograms agave binds binding.programId
  rw [if_pos (List.mem_map_of_mem listed), mapped] at served
  rw [servedElf?_prepare agave prepared, served, mapped]
  cases bound.accounts.lastRemade binding.programId
      (input.preAccounts.map AccountSnapshot.entry) with
  | none => simp
  | some found => simp

end FixtureInput

namespace Sample

def boundProgram : ProgramBinding := ⟨0x50, Ids.bpfLoader, none⟩

def boundElfs : AddressMap (List UInt8) := (∅ : AddressMap (List UInt8)).insert 0x50 [0x7f, 1]

/-- A fixture that calls the program 0x50 and has an account with the given ELF at its address. -/
def callFixture (elf : List UInt8) : FixtureInput :=
  .instruction ⟨.new 1 none false false, [boundProgram],
    [.fromReadable 0x50 ⟨1, elf, Ids.bpfLoader, true, 0⟩], 0x50, [], []⟩

/-- The VM of the call is bound, and prepared to serve an ELF. -/
def preparesTo (elf served : List UInt8) : Bool :=
  (configureVm agave payingVm (callFixture elf).runtime).any fun vm =>
    let bound := bindPrograms agave boundElfs vm (callFixture elf).programs
    let prepared := (callFixture elf).prepare agave 0x77 bound.2
    bound.1.toOption.isSome && prepared.1.toOption.isSome &&
      prepared.2.accounts.servedElf? 0x50 == some served

theorem exists_of_preparesTo {elf served : List UInt8} (prepares : preparesTo elf served = true) :
    ∃ vm bound working, configureVm agave payingVm (callFixture elf).runtime = some vm ∧
      bindPrograms agave boundElfs vm (callFixture elf).programs = (.ok (), bound) ∧
      (callFixture elf).prepare agave 0x77 bound = (.ok (), working) ∧
      working.accounts.servedElf? 0x50 = some served := by
  simp only [preparesTo, Option.any_eq_true, Bool.and_eq_true, Option.isSome_iff_exists,
    Foundation.toOption_eq_some_iff, beq_iff_eq] at prepares
  obtain ⟨vm, configured, ⟨⟨_, binds⟩, _, prepared⟩, serves⟩ := prepares
  exact ⟨vm, _, _, configured, Prod.ext binds rfl, Prod.ext prepared rfl, serves⟩

/-- The account holds the very ELF that is bound. -/
theorem same_elf_runs_bound_program :
    ∃ vm bound working, bindPrograms agave boundElfs vm [boundProgram] = (.ok (), bound) ∧
      (callFixture [0x7f, 1]).prepare agave 0x77 bound = (.ok (), working) ∧
      ∀ found, bound.accounts.lastRemade 0x50
          ((callFixture [0x7f, 1]).preAccounts.map AccountSnapshot.entry) = some found →
        found = boundElfs[(0x50 : Address)]? := by
  have prepares : preparesTo [0x7f, 1] [0x7f, 1] = true := by decide +kernel
  obtain ⟨vm, bound, working, -, binds, prepared, serves⟩ := exists_of_preparesTo prepares
  have mapped : boundElfs[(0x50 : Address)]? = some [0x7f, 1] := by decide
  refine ⟨vm, bound, working, binds, prepared, ?_⟩
  have finds := (FixtureInput.runs_bound_programs_iff agave boundElfs (callFixture [0x7f, 1]) 0x77
    binds prepared).1
  apply finds _ boundProgram List.mem_cons_self
  intro binding listed
  cases List.mem_singleton.1 listed
  exact ⟨_, mapped, serves⟩

/-- The account holds another ELF, which the program runs instead of the one that was bound. -/
theorem pre_account_replaces_bound_program :
    ∃ vm bound working, configureVm agave payingVm (callFixture [0x7f]).runtime = some vm ∧
      bindPrograms agave boundElfs vm [boundProgram] = (.ok (), bound) ∧
      (callFixture [0x7f]).prepare agave 0x77 bound = (.ok (), working) ∧
      working.accounts.servedElf? 0x50 = some [0x7f] ∧
      boundElfs[(0x50 : Address)]? = some [0x7f, 1] := by
  have prepares : preparesTo [0x7f] [0x7f] = true := by decide +kernel
  obtain ⟨vm, bound, working, configured, binds, prepared, serves⟩ := exists_of_preparesTo prepares
  exact ⟨vm, bound, working, configured, binds, prepared, serves, by decide⟩

end Sample

end Hpsvm
