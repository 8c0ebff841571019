import Hpsvm.Properties.BoundPrograms
import Hpsvm.Properties.CloneIsolation
import Hpsvm.Properties.RecordedFixtures

/-!
# Fixtures that do not see each other

A runner executes each fixture on a clone of its VM, and all clones share a program cache. A fixture
whose pre-accounts are no programs and do not take the place of one leaves the cache entries of all
programs that it does not bind. A later fixture that binds the others again executes as on a new VM,
so fixtures that bind the same programs do not see each other, in whatever order they run.
-/

namespace Hpsvm

open Foundation

/-! ### Writes away from programs -/

namespace Accounts

/-- The account is no program, and there is none in its place. -/
structure Plain (db : Accounts) (pubkey : Address) (account : AccountSharedData) : Prop where
  no_program : isCachedProgramAccount pubkey account = false
  over_none : db.hadCachedProgram pubkey = false

variable (agave : Agave) {db : Accounts} {pubkey : Address} {account : AccountSharedData}

theorem Plain.addAccount_cases (plain : Plain db pubkey account) :
    (db.addAccount agave pubkey account).2 = db ∨
      db.addAccount agave pubkey account = (.ok (), db.written agave pubkey account) := by
  rcases db.addAccount_cases agave pubkey account with
    ⟨error, -, added⟩ | ⟨entry, checked, -⟩ | ⟨-, had, -⟩ | ⟨-, had, -⟩ | ⟨-, -, added⟩
  · exact .inl (congrArg Prod.snd added)
  · have program := (checkAccount_isSome agave checked).1
    simp [hasCachedProgram, plain.no_program] at program
  · simp [plain.over_none] at had
  · simp [plain.over_none] at had
  · exact .inr added

/-- Such a write makes no entry. -/
theorem Plain.find_addAccount (plain : Plain db pubkey account) (programId : Address) :
    (db.addAccount agave pubkey account).2.programsCache.find programId =
      db.programsCache.find programId := by
  rcases plain.addAccount_cases agave with kept | added
  · rw [kept]
  · simp [added]

/-- Such a write makes no program account. -/
theorem Plain.hadCachedProgram_addAccount (plain : Plain db pubkey account) {other : Address}
    (none : db.hadCachedProgram other = false) :
    (db.addAccount agave pubkey account).2.hadCachedProgram other = false := by
  rcases plain.addAccount_cases agave with kept | added
  · rwa [kept]
  · unfold hadCachedProgram at none ⊢
    simp only [added, written_cache, CacheDb.store_inner_getElem?]
    by_cases same : pubkey = other
    · subst same
      by_cases empty : account.lamports = 0
      · simp [AccountSharedData.visible, empty]
      · simp [AccountSharedData.visible, empty, plain.no_program]
    · simpa [same] using none

theorem find_addAccounts_of_plain {writes : List (Address × AccountSharedData)}
    (plain : ∀ write ∈ writes, Plain db write.1 write.2) (programId : Address) :
    (db.addAccounts agave writes).2.programsCache.find programId =
      db.programsCache.find programId := by
  induction writes generalizing db with
  | nil => rfl
  | cons write rest ih =>
    obtain ⟨pubkey, account⟩ := write
    have first : Plain db pubkey account := plain _ List.mem_cons_self
    have kept := first.find_addAccount agave programId
    unfold addAccounts
    split
    next error left refused => rwa [refused] at kept
    next next added =>
      have later : ∀ write ∈ rest, Plain next write.1 write.2 := by
        intro write member
        obtain ⟨no_program, over_none⟩ := plain write (List.mem_cons_of_mem _ member)
        have had := first.hadCachedProgram_addAccount agave over_none
        rw [added] at had
        exact ⟨no_program, had⟩
      rw [added] at kept
      exact (ih later).trans kept

end Accounts

/-! ### Setting a fixture up -/

/-- The VM that a step leaves if it succeeds. -/
def succeeded {ε : Type} : Except ε Unit × Svm → Option Svm
  | (.ok (), vm) => some vm
  | (.error _, _) => none

theorem succeeded_eq_some {ε : Type} {outcome : Except ε Unit × Svm} {vm : Svm} :
    succeeded outcome = some vm ↔ outcome = (.ok (), vm) := by
  obtain ⟨result, left⟩ := outcome
  cases result with
  | error error => simp [succeeded]
  | ok done => simp [succeeded]

theorem Svm.Twins.succeeded {agave : Agave} {keys : List Address} {programs : Set Address}
    {settled : Prop} {ε : Type} {outcome outcome' : Except ε Unit × Svm}
    (answers : Lockstep.Answers (Svm.Twins agave keys programs settled) outcome outcome') :
    Option.Rel (Svm.Twins agave keys programs settled) (succeeded outcome) (succeeded outcome') := by
  rcases answers.cases with ⟨error, left, left', rfl, rfl, -⟩ | ⟨left, left', rfl, rfl, next⟩
  · exact .none
  · exact .some next

theorem succeeded_bindPrograms_cons {agave : Agave} {elfs : AddressMap (List UInt8)} {vm : Svm}
    {binding : ProgramBinding} {rest : List ProgramBinding} {elf : List UInt8}
    (mapped : elfs[binding.programId]? = some elf) :
    succeeded (bindPrograms agave elfs vm (binding :: rest)) =
      (Svm.expectOk (vm.addProgramInternal agave binding.programId elf binding.loaderId)).bind
        fun next => succeeded (bindPrograms agave elfs next rest) := by
  simp only [bindPrograms, mapped, Svm.addProgramWithLoader]
  rcases vm.addProgramInternal agave binding.programId elf binding.loaderId with ⟨_ | _, next⟩
  · rfl
  · rfl

/-- Binding programs repairs their entries: afterwards none of them differs. -/
theorem Svm.Twins.bindPrograms {agave : Agave} {keys : List Address} {programs : Set Address}
    {settled : Prop} {vm vm' : Svm} {bindings : List ProgramBinding}
    (twins : Svm.Twins agave keys programs settled vm vm')
    (outside : ∀ binding ∈ bindings,
      ∀ address ∈ Svm.programAddresses agave binding.programId binding.loaderId, address ∉ keys)
    (elfs : AddressMap (List UInt8)) :
    Option.Rel
      (Svm.Twins agave keys
        (programs \ { program | program ∈ bindings.map ProgramBinding.programId }) settled)
      (Hpsvm.succeeded (Hpsvm.bindPrograms agave elfs vm bindings))
      (Hpsvm.succeeded (Hpsvm.bindPrograms agave elfs vm' bindings)) := by
  induction bindings generalizing programs vm vm' with
  | nil =>
    refine .some (twins.mono ?_)
    simp
  | cons binding rest ih =>
    cases mapped : elfs[binding.programId]? with
    | none =>
      simp only [Hpsvm.bindPrograms, mapped, Hpsvm.succeeded]
      exact .none
    | some elf =>
      rw [succeeded_bindPrograms_cons mapped, succeeded_bindPrograms_cons mapped]
      apply Lockstep.bind (twins.addProgramInternal (outside binding List.mem_cons_self) elf)
      intro next next' related
      have rest_left : programs \ { program | program ∈ (binding :: rest).map ProgramBinding.programId } =
          (programs \ {binding.programId}) \
            { program | program ∈ rest.map ProgramBinding.programId } := by
        ext other
        simp only [List.map_cons, List.mem_cons, Set.mem_sdiff, Set.mem_ofPred_eq,
          Set.mem_singleton_iff, not_or, and_assoc]
      rw [rest_left]
      exact ih related fun binding member => outside binding (List.mem_cons_of_mem _ member)

theorem Svm.Twins.prepareCase {agave : Agave} {keys : List Address} {programs : Set Address}
    {settled : Prop} {vm vm' : Svm} {case : InstructionCase} {payer : Address}
    (twins : Svm.Twins agave keys programs settled vm vm')
    (accounts : ∀ write ∈ case.preAccounts, AvoidsKeys keys write.1 write.2)
    (outside : payer ∉ keys) :
    Lockstep.Answers (Svm.Twins agave keys programs settled) (vm.prepareCase agave case payer)
      (vm'.prepareCase agave case payer) := by
  have unverified : Svm.Twins agave keys programs settled (vm.setSigverify false)
      (vm'.setSigverify false) := by
    cases twins with
    | intro accounts key own clear alike => exact .intro accounts key own clear alike
  unfold Svm.prepareCase
  rcases (unverified.setAccounts accounts).cases with
    ⟨error, left, left', set, set', next⟩ | ⟨left, left', set, set', next⟩
  · rw [set, set']
    exact ⟨rfl, next⟩
  · have same : left'.getAccount payer = left.getAccount payer :=
      Accounts.getAccount_congr (next.accounts.tryGetAccount_eq outside)
    simp only [set, set', same]
    cases left.getAccount payer with
    | some account => exact ⟨rfl, next⟩
    | none => exact next.setAccount (.of_plain outside rfl)

/-- Fixtures are prepared alike, as far as they stay away from the keys. -/
theorem Svm.Twins.prepare {agave : Agave} {keys : List Address} {programs : Set Address}
    {settled : Prop} {vm vm' : Svm} {input : FixtureInput} {unique : Address}
    (twins : Svm.Twins agave keys programs settled vm vm')
    (accounts : ∀ account ∈ input.preAccounts,
      AvoidsKeys keys account.address account.toAccount)
    (payer : ∀ fixture, input = .instruction fixture →
      fixture.instructionCase.feePayer unique ∉ keys) :
    Lockstep.Answers (Svm.Twins agave keys programs settled) (input.prepare agave unique vm)
      (input.prepare agave unique vm') := by
  have avoids : ∀ write ∈ input.preAccounts.map AccountSnapshot.entry,
      AvoidsKeys keys write.1 write.2 := List.forall_mem_map.2 accounts
  cases input with
  | transaction fixture => exact twins.setAccounts avoids
  | instruction fixture =>
    exact twins.prepareCase avoids (payer fixture rfl)

namespace FixtureInput

variable (agave : Agave) (elfs : AddressMap (List UInt8)) (unique : Address)

/-- The fixture asks for a check that its runner does not make. -/
def refused : FixtureInput → Bool
  | .transaction fixture => fixture.runtime.blockhashCheck
  | .instruction _ => false

/-- The VM that a fixture executes on, if it comes to that. -/
def ready (vm : Svm) (input : FixtureInput) : Option Svm :=
  (configureVm agave vm input.runtime).bind fun configured =>
    (succeeded (bindPrograms agave elfs configured input.programs)).bind fun bound =>
      succeeded (input.prepare agave unique bound)

theorem ready_eq_some {vm working : Svm} {input : FixtureInput} :
    input.ready agave elfs unique vm = some working ↔
      ∃ configured bound, configureVm agave vm input.runtime = some configured ∧
        bindPrograms agave elfs configured input.programs = (.ok (), bound) ∧
        input.prepare agave unique bound = (.ok (), working) := by
  simp only [ready, Option.bind_eq_some_iff, succeeded_eq_some]
  constructor
  · rintro ⟨configured, configures, bound, binds, prepares⟩
    exact ⟨configured, bound, configures, binds, prepares⟩
  · rintro ⟨configured, bound, configures, binds, prepares⟩
    exact ⟨configured, configures, bound, binds, prepares⟩

end FixtureInput

namespace FixtureRunner

variable {agave : Agave} {texts : ErrorTexts} {codec : Codec}

/-- A fixture runs if it can be set up and executed; its runner is left with the cache of the
clone. -/
theorem run_eq_ok {runner next : FixtureRunner} {fixture : Fixture} {unique : Address}
    {execution : FixtureExecution} :
    runner.run agave texts codec fixture unique = some (.ok execution, next) ↔
      fixture.input.refused = false ∧ ∃ working,
        fixture.input.ready agave runner.programElfs unique runner.baseVm = some working ∧
        fixture.input.execute agave texts codec unique working = .ok execution.snapshot ∧
        execution.pass = none ∧ next = runner.withCache working.accounts.programsCache := by
  obtain ⟨snapshot, pass⟩ := execution
  unfold run FixtureInput.ready
  cases fixture.input with
  | transaction transaction =>
    simp only [FixtureInput.refused, FixtureInput.runtime, FixtureInput.programs,
      FixtureInput.prepare, FixtureInput.execute, runTransactionFixture, TransactionFixture.setUp]
    by_cases checked : transaction.runtime.blockhashCheck = true
    · simp [checked, Except.map]
    cases configureVm agave runner.baseVm transaction.runtime with
    | none => simp [checked]
    | some configured =>
      simp only [checked, Option.map_some, Option.bind_some, Bool.false_eq_true, if_false]
      rcases bindPrograms agave runner.programElfs configured transaction.programs with ⟨_ | _, bound⟩
      · simp [succeeded, Except.map]
      simp only [succeeded, Option.bind_some]
      rcases bound.setAccounts agave (transaction.preAccounts.map AccountSnapshot.entry)
        with ⟨_ | _, working⟩
      · simp [Except.map]
      cases codec.deserializeTransaction transaction.transactionBytes with
      | error reason => simp [Except.map]
      | ok tx => simp [Except.map, afterClone, withCache, Svm.afterClone, eq_comm, and_assoc]
  | instruction instruction =>
    simp only [FixtureInput.refused, FixtureInput.runtime, FixtureInput.programs,
      FixtureInput.prepare, FixtureInput.execute, runInstructionFixture, Svm.processInstructionCase]
    cases configureVm agave runner.baseVm instruction.runtime with
    | none => simp
    | some configured =>
      simp only [Option.map_some, Option.bind_some]
      rcases bindPrograms agave runner.programElfs configured instruction.programs with ⟨_ | _, bound⟩
      · simp [succeeded, Except.map]
      simp only [succeeded, Option.bind_some]
      rcases bound.prepareCase agave instruction.instructionCase
          (instruction.instructionCase.feePayer unique) with ⟨_ | _, working⟩
      · simp [Except.map]
      simp only [Option.some.injEq, exists_eq_left']
      cases working.tryTransact agave _ with
      | error error => simp [Except.map]
      | ok outcome =>
        simp [Except.map, afterClone, withCache, Svm.afterClone, Svm.withAccounts, eq_comm,
          and_assoc]

end FixtureRunner

/-! ### What a fixture leaves -/

/-- Configuring a VM writes the clock. -/
theorem exists_of_configureVm {agave : Agave} {vm configured : Svm} {runtime : RuntimeFixtureConfig}
    (configures : configureVm agave vm runtime = some configured) :
    ∃ data, configured.accounts =
      (vm.accounts.addAccount agave Sysvar.clock.id (sysvarAccount data)).2 := by
  -- The setters before it only touch the configuration.
  have warps : ∃ start : Svm, start.accounts = vm.accounts ∧
      start.warpToSlot agave runtime.slot = some configured := by
    unfold configureVm at configures
    refine ⟨_, ?_, configures⟩
    cases runtime.computeUnitLimit with
    | none => rfl
    | some units => rfl
  obtain ⟨start, same, warps⟩ := warps
  obtain ⟨clock, -, set⟩ := Svm.warpToSlot_eq_some agave warps
  refine ⟨agave.withClockSlot clock runtime.slot, ?_⟩
  rw [← same, ← Svm.setAccount_accounts, set]

theorem getElem?_foldl_addAccountNoChecks (db : Accounts)
    {writes : List (Address × AccountSharedData)} {other : Address}
    (unwritten : ∀ write ∈ writes, write.1 ≠ other) :
    (writes.foldl (fun accounts (address, account) =>
      accounts.addAccountNoChecks address account) db).cache.inner[other]? =
        db.cache.inner[other]? := by
  induction writes generalizing db with
  | nil => rfl
  | cons write rest ih =>
    rw [List.foldl_cons, ih _ fun write member => unwritten write (List.mem_cons_of_mem _ member)]
    simp [Accounts.addAccountNoChecks, unwritten write List.mem_cons_self]

/-- Adding a program makes its entry and writes its accounts. -/
theorem Svm.frame_addProgramWithLoader {agave : Agave} {vm bound : Svm}
    {programId loaderId : Address} {elf : List UInt8}
    (added : vm.addProgramWithLoader agave programId elf loaderId = (.ok (), bound)) :
    (∀ other, other ≠ programId →
      bound.accounts.programsCache.find other = vm.accounts.programsCache.find other) ∧
    ∀ other ∉ programAddresses agave programId loaderId,
      bound.accounts.cache.inner[other]? = vm.accounts.cache.inner[other]? := by
  unfold addProgramWithLoader addProgramInternal at added
  split at added
  · cases added
  next writes listed =>
    obtain ⟨programs, environments⟩ := foldl_addAccountNoChecks vm.accounts writes
    simp only [environments] at added
    split at added
    · cases added
    · cases added
      constructor
      · intro other differs
        simp [withAccounts, programs, ProgramCache.find_replenish, differs.symm]
      · intro other outside
        have unwritten : ∀ write ∈ writes, write.1 ≠ other := by
          rintro write member rfl
          exact outside (mem_programAddresses agave listed write member)
        exact getElem?_foldl_addAccountNoChecks vm.accounts unwritten

theorem frame_bindPrograms {agave : Agave} {elfs : AddressMap (List UInt8)} {vm bound : Svm}
    {bindings : List ProgramBinding}
    (binds : bindPrograms agave elfs vm bindings = (.ok (), bound)) :
    (∀ other ∉ bindings.map ProgramBinding.programId,
      bound.accounts.programsCache.find other = vm.accounts.programsCache.find other) ∧
    ∀ other, (∀ binding ∈ bindings,
        other ∉ Svm.programAddresses agave binding.programId binding.loaderId) →
      bound.accounts.cache.inner[other]? = vm.accounts.cache.inner[other]? := by
  induction bindings generalizing vm with
  | nil =>
    cases binds
    exact ⟨fun _ _ => rfl, fun _ _ => rfl⟩
  | cons binding rest ih =>
    obtain ⟨elf, next, -, added, others⟩ := bindPrograms_cons_ok agave binds
    obtain ⟨entries, inner⟩ := Svm.frame_addProgramWithLoader added
    obtain ⟨laterEntries, laterInner⟩ := ih others
    constructor
    · intro other outside
      rw [List.map_cons, List.mem_cons, not_or] at outside
      exact (laterEntries other outside.2).trans (entries other outside.1)
    · intro other outside
      rw [laterInner other fun binding member => outside binding (List.mem_cons_of_mem _ member)]
      exact inner other (outside binding List.mem_cons_self)

namespace FixtureInput

variable {agave : Agave} {elfs : AddressMap (List UInt8)} {unique : Address} {vm working : Svm}
  {input : FixtureInput}

theorem find_setAccounts_of_plain (agave : Agave) (vm : Svm)
    {writes : List (Address × AccountSharedData)}
    (plain : ∀ write ∈ writes, vm.accounts.Plain write.1 write.2) (programId : Address) :
    (vm.setAccounts agave writes).2.accounts.programsCache.find programId =
      vm.accounts.programsCache.find programId := by
  rw [(Svm.setAccounts_eq agave vm writes).2]
  exact Accounts.find_addAccounts_of_plain agave plain programId

/-- The account of a fee payer comes where there is none. -/
theorem find_prepareCase_of_plain {case : InstructionCase} {payer : Address}
    (plain : ∀ write ∈ case.preAccounts, vm.accounts.Plain write.1 write.2)
    (prepares : vm.prepareCase agave case payer = (.ok (), working)) (programId : Address) :
    working.accounts.programsCache.find programId = vm.accounts.programsCache.find programId := by
  have kept : ((vm.setSigverify false).setAccounts agave case.preAccounts).2.accounts.programsCache.find
      programId = vm.accounts.programsCache.find programId :=
    find_setAccounts_of_plain agave (vm.setSigverify false) plain programId
  unfold Svm.prepareCase at prepares
  split at prepares
  · cases prepares
  next next set =>
    rw [set] at kept
    split at prepares
    · cases prepares
      exact kept
    next missing =>
      have unheld : next.accounts.hadCachedProgram payer = false := by
        unfold Accounts.hadCachedProgram
        split
        next account held =>
          simp [Svm.getAccount, Accounts.getAccount, Accounts.tryGetAccount, Accounts.getAccountRef,
            held] at missing
        · rfl
      have pays : next.accounts.Plain payer Svm.feePayerAccount := ⟨rfl, unheld⟩
      have paid := Svm.setAccount_accounts agave next payer Svm.feePayerAccount
      rw [prepares] at paid
      rw [paid, pays.find_addAccount agave programId]
      exact kept

/-- The pre-accounts of the fixture are no programs, and neither they nor the clock take the place of
a program, of the VM or of the fixture. -/
structure SparesPrograms (agave : Agave) (vm : Svm) (input : FixtureInput) : Prop where
  no_program : ∀ account ∈ input.preAccounts,
    isCachedProgramAccount account.address account.toAccount = false
  over_none : ∀ address ∈ Sysvar.clock.id :: input.preAccounts.map AccountSnapshot.address,
    vm.accounts.hadCachedProgram address = false
  unbound : ∀ address ∈ Sysvar.clock.id :: input.preAccounts.map AccountSnapshot.address,
    ∀ binding ∈ input.programs,
      address ∉ Svm.programAddresses agave binding.programId binding.loaderId

-- Over lists, since addresses are too many to try them all.
instance (agave : Agave) (vm : Svm) (input : FixtureInput) :
    Decidable (input.SparesPrograms agave vm) :=
  decidable_of_iff
    ((input.preAccounts.all fun account =>
        !isCachedProgramAccount account.address account.toAccount) &&
      (Sysvar.clock.id :: input.preAccounts.map AccountSnapshot.address).all fun address =>
        !vm.accounts.hadCachedProgram address && input.programs.all fun binding =>
          !(Svm.programAddresses agave binding.programId binding.loaderId).contains address) <| by
    constructor
    · intro holds
      simp only [Bool.and_eq_true, List.all_eq_true, Bool.not_eq_true', List.contains_eq_mem,
        decide_eq_false_iff_not] at holds
      exact ⟨holds.1, fun address written => (holds.2 address written).1,
        fun address written => (holds.2 address written).2⟩
    · intro spares
      simp only [Bool.and_eq_true, List.all_eq_true, Bool.not_eq_true', List.contains_eq_mem,
        decide_eq_false_iff_not]
      exact ⟨spares.no_program, fun address written =>
        ⟨spares.over_none address written, spares.unbound address written⟩⟩

/-- Setting such a fixture up leaves the entries of all programs that it does not bind. -/
theorem find_ready (spares : input.SparesPrograms agave vm)
    (readies : input.ready agave elfs unique vm = some working) {programId : Address}
    (unbound : programId ∉ input.programs.map ProgramBinding.programId) :
    working.accounts.programsCache.find programId = vm.accounts.programsCache.find programId := by
  obtain ⟨configured, bound, configures, binds, prepares⟩ := (ready_eq_some agave elfs unique).1 readies
  obtain ⟨data, clock⟩ := exists_of_configureVm configures
  have ticks : vm.accounts.Plain Sysvar.clock.id (sysvarAccount data) :=
    ⟨rfl, spares.over_none _ List.mem_cons_self⟩
  obtain ⟨entries, inner⟩ := frame_bindPrograms binds
  have first := ticks.find_addAccount agave programId
  rw [← clock] at first
  have plain : ∀ write ∈ input.preAccounts.map AccountSnapshot.entry,
      bound.accounts.Plain write.1 write.2 := by
    intro write member
    obtain ⟨account, listed, rfl⟩ := List.mem_map.1 member
    have written : account.address ∈ Sysvar.clock.id :: input.preAccounts.map AccountSnapshot.address :=
      List.mem_cons_of_mem _ (List.mem_map_of_mem listed)
    refine ⟨spares.no_program account listed, ?_⟩
    have configuredNone := ticks.hadCachedProgram_addAccount agave (spares.over_none _ written)
    rw [← clock] at configuredNone
    unfold Accounts.hadCachedProgram at configuredNone ⊢
    rwa [AccountSnapshot.entry, inner _ (spares.unbound _ written)]
  have last : working.accounts.programsCache.find programId =
      bound.accounts.programsCache.find programId := by
    cases input with
    | transaction fixture =>
      have kept := find_setAccounts_of_plain agave bound plain programId
      simp only [prepare] at prepares
      simpa only [preAccounts, prepares] using kept
    | instruction fixture => exact find_prepareCase_of_plain plain prepares programId
  exact last.trans ((entries programId unbound).trans first)

/-! ### Executing alike -/

/-- The addresses that setting a fixture up writes, the clock apart, and those that its execution on
the VM looks at. -/
def touched (agave : Agave) (codec : Codec) (elfs : AddressMap (List UInt8)) (unique : Address)
    (vm : Svm) (input : FixtureInput) : List Address :=
  input.programs.flatMap (fun binding =>
      Svm.programAddresses agave binding.programId binding.loaderId) ++
    input.preAccounts.map AccountSnapshot.address ++
    match input with
    | .transaction fixture =>
      match codec.deserializeTransaction fixture.transactionBytes with
      | .error _ => []
      | .ok tx =>
        ((input.ready agave elfs unique vm).map fun working =>
          working.executionReads agave tx).getD []
    | .instruction fixture =>
      let payer := fixture.instructionCase.feePayer unique
      payer :: ((input.ready agave elfs unique vm).map fun working =>
        working.executionReads agave (agave.compileMessage [fixture.instructionCase.instruction] payer
          working.blockEnv.latestBlockhash)).getD []

variable {codec : Codec} {keys : List Address} {programs : Set Address} {settled : Prop} {vm' : Svm}

/-- A fixture that binds all programs whose entries differ is set up alike. -/
theorem ready_twins (twins : Svm.Twins agave keys programs settled vm vm')
    (fills : Svm.FillsClock agave) (clock : Sysvar.clock.id ∉ keys)
    (spares : input.SparesPrograms agave vm)
    (aside : ∀ address ∈ input.touched agave codec elfs unique vm, address ∉ keys)
    (binds : programs ⊆ { program | program ∈ input.programs.map ProgramBinding.programId }) :
    Option.Rel (Svm.Twins agave keys ∅ True) (input.ready agave elfs unique vm)
      (input.ready agave elfs unique vm') := by
  simp only [touched, List.mem_append] at aside
  apply Lockstep.bind (twins.configureVm fills clock input.runtime)
  intro configured configured' related
  have outside : ∀ binding ∈ input.programs,
      ∀ address ∈ Svm.programAddresses agave binding.programId binding.loaderId, address ∉ keys :=
    fun binding listed address written =>
      aside address (.inl (.inl (List.mem_flatMap.2 ⟨binding, listed, written⟩)))
  have repaired := related.bindPrograms outside elfs
  rw [Set.sdiff_eq_empty.2 binds] at repaired
  apply Lockstep.bind repaired
  intro bound bound' related
  apply Svm.Twins.succeeded
  apply related.prepare
  · intro account listed
    exact .of_plain (aside _ (.inl (.inr (List.mem_map_of_mem listed))))
      (spares.no_program account listed)
  · rintro fixture rfl
    exact aside _ (.inr List.mem_cons_self)

theorem fatalError_congr {tx : VersionedTransaction}
    (executes : vm'.executeReadonly agave tx = vm.executeReadonly agave tx) :
    (vm'.transactDetached agave tx).fatalError = (vm.transactDetached agave tx).fatalError := by
  unfold Svm.transactDetached
  rw [executes]
  rfl

/-- Twins that are ready execute the fixture alike. -/
theorem execute_twins (texts : ErrorTexts) {working' : Svm}
    (twins : Svm.Twins agave keys ∅ True working working')
    (readies : input.ready agave elfs unique vm = some working)
    (aside : ∀ address ∈ input.touched agave codec elfs unique vm, address ∉ keys) :
    input.execute agave texts codec unique working' =
      input.execute agave texts codec unique working := by
  simp only [touched, List.mem_append, readies] at aside
  cases input with
  | transaction fixture =>
    simp only [execute]
    cases decoded : codec.deserializeTransaction fixture.transactionBytes with
    | error reason => rfl
    | ok tx =>
      have executes := twins.executeReadonly_eq fun address read =>
        aside address (.inr (by simpa [decoded] using read))
      simp only [ExecutionSnapshot.fromOutcome_congr texts executes]
  | instruction fixture =>
    simp only [execute, twins.blockEnv_eq]
    have executes := twins.executeReadonly_eq fun address read =>
      aside address (.inr (List.mem_cons_of_mem _ read))
    have same := ExecutionSnapshot.fromOutcome_congr texts executes
    have fatal := fatalError_congr executes
    simp only [Svm.tryTransact, fatal]
    cases (working.transactDetached agave _).fatalError with
    | some error => rfl
    | none => simp only [same]

end FixtureInput

namespace FixtureRunner

variable {agave : Agave} {texts : ErrorTexts} {codec : Codec} {keys : List Address}
  {programs : Set Address} {settled : Prop} {runner alone : FixtureRunner} {fixture : Fixture}
  {unique : Address}

/-- What isolates a fixture from others on a runner: it spares the programs that it does not bind,
and the keys are not used for anything else. -/
structure Isolates (agave : Agave) (codec : Codec) (keys : List Address) (alone : FixtureRunner)
    (fixture : Fixture) (unique : Address) : Prop where
  spares : fixture.input.SparesPrograms agave alone.baseVm
  aside : ∀ address ∈ fixture.input.touched agave codec alone.programElfs unique alone.baseVm,
    address ∉ keys

instance (agave : Agave) (codec : Codec) (keys : List Address) (alone : FixtureRunner)
    (fixture : Fixture) (unique : Address) :
    Decidable (Isolates agave codec keys alone fixture unique) :=
  decidable_of_iff
    (fixture.input.SparesPrograms agave alone.baseVm ∧
      (fixture.input.touched agave codec alone.programElfs unique alone.baseVm).all fun address =>
        !keys.contains address) <| by
    simp only [List.all_eq_true, Bool.not_eq_true', List.contains_eq_mem, decide_eq_false_iff_not]
    exact ⟨fun holds => ⟨holds.1, holds.2⟩, fun isolates => ⟨isolates.spares, isolates.aside⟩⟩

/-- What a fixture gives on the runner. -/
def Gives (agave : Agave) (texts : ErrorTexts) (codec : Codec) (runner : FixtureRunner)
    (job : Fixture × Address) (execution : FixtureExecution) : Prop :=
  ∃ next, runner.run agave texts codec job.1 job.2 = some (.ok execution, next)

/-- A fixture runs alike where only the entries of programs differ that it binds. -/
theorem run_alike (twins : Svm.Twins agave keys programs settled alone.baseVm runner.baseVm)
    (elfs : runner.programElfs = alone.programElfs) (fills : Svm.FillsClock agave)
    (clock : Sysvar.clock.id ∉ keys) (isolates : Isolates agave codec keys alone fixture unique)
    (binds : programs ⊆ { program | program ∈ fixture.input.programs.map ProgramBinding.programId })
    (texts : ErrorTexts) (execution : FixtureExecution) :
    runner.Gives agave texts codec (fixture, unique) execution ↔
      alone.Gives agave texts codec (fixture, unique) execution := by
  have ready := FixtureInput.ready_twins twins fills clock isolates.spares isolates.aside binds
  simp only [Gives, run_eq_ok, elfs]
  cases readies : fixture.input.ready agave alone.programElfs unique alone.baseVm with
  | none =>
    rw [readies] at ready
    cases readies' : fixture.input.ready agave alone.programElfs unique runner.baseVm with
    | none => simp
    | some working' =>
      rw [readies'] at ready
      cases ready
  | some working =>
    obtain ⟨working', readies', related⟩ := Lockstep.exists_related ready readies
    have executes := FixtureInput.execute_twins texts related readies isolates.aside
    simp [readies', executes]

/-- A run leaves the entries of programs that the fixture does not bind. -/
theorem twins_of_run {next : FixtureRunner} {execution : FixtureExecution}
    (twins : Svm.Twins agave keys programs settled alone.baseVm runner.baseVm)
    (isolates : Isolates agave codec keys alone fixture unique)
    (bound : ∀ program ∈ fixture.input.programs.map ProgramBinding.programId, program ∈ programs)
    (ran : runner.run agave texts codec fixture unique = some (.ok execution, next)) :
    Svm.Twins agave keys programs False alone.baseVm next.baseVm ∧
      next.programElfs = runner.programElfs := by
  obtain ⟨-, working, readies, -, -, rfl⟩ := run_eq_ok.1 ran
  refine ⟨?_, rfl⟩
  have spares : fixture.input.SparesPrograms agave runner.baseVm := by
    refine ⟨isolates.spares.no_program, ?_, isolates.spares.unbound⟩
    intro address written
    rw [twins.accounts.looksAlike.hadCachedProgram_eq]
    exact isolates.spares.over_none address written
  have alike := twins.accounts
  have left : alone.baseVm.accounts.Twins agave keys programs False
      { runner.baseVm.accounts with programsCache := working.accounts.programsCache } := by
    refine ⟨alike.source, alike.sysvars, alike.environments, alike.overlay, ?_, nofun⟩
    intro program outside
    have kept := FixtureInput.find_ready spares readies fun listed => outside (bound program listed)
    exact kept.trans (alike.entries program outside)
  exact twins.withAccounts left

/-! ### Fixtures on one runner -/

/-- What the fixtures give one after the other, if all of them execute. -/
def runAll (agave : Agave) (texts : ErrorTexts) (codec : Codec) (runner : FixtureRunner) :
    List (Fixture × Address) → Option (List FixtureExecution)
  | [] => some []
  | (fixture, unique) :: rest =>
    match runner.run agave texts codec fixture unique with
    | some (.ok execution, next) => (runAll agave texts codec next rest).map (execution :: ·)
    | _ => none

theorem runAll_cons {job : Fixture × Address} {rest : List (Fixture × Address)}
    {executions : List FixtureExecution} :
    runner.runAll agave texts codec (job :: rest) = some executions ↔
      ∃ execution next others, runner.run agave texts codec job.1 job.2 = some (.ok execution, next) ∧
        next.runAll agave texts codec rest = some others ∧ executions = execution :: others := by
  simp only [runAll]
  rcases runner.run agave texts codec job.1 job.2 with _ | ⟨_ | execution, next⟩
  · simp
  · simp
  · simp [eq_comm]

theorem runAll_alike {bound : List Address} {jobs : List (Fixture × Address)}
    {executions : List FixtureExecution}
    (twins : Svm.Twins agave keys { program | program ∈ bound } settled alone.baseVm runner.baseVm)
    (elfs : runner.programElfs = alone.programElfs) (fills : Svm.FillsClock agave)
    (clock : Sysvar.clock.id ∉ keys)
    (isolates : ∀ job ∈ jobs, Isolates agave codec keys alone job.1 job.2)
    (binds : ∀ job ∈ jobs, ∀ program,
      program ∈ job.1.input.programs.map ProgramBinding.programId ↔ program ∈ bound) :
    runner.runAll agave texts codec jobs = some executions ↔
      List.Forall₂ (alone.Gives agave texts codec) jobs executions := by
  induction jobs generalizing runner settled executions with
  | nil => simp [runAll, eq_comm]
  | cons job rest ih =>
    obtain ⟨isolated, others_isolated⟩ := List.forall_mem_cons.1 isolates
    obtain ⟨own, others_bound⟩ := List.forall_mem_cons.1 binds
    have alike := run_alike twins elfs fills clock isolated (fun program => (own program).2) texts
    -- What the first fixture leaves in the cache is bound again by the others.
    have later : ∀ {execution next others},
        runner.run agave texts codec job.1 job.2 = some (.ok execution, next) →
          (next.runAll agave texts codec rest = some others ↔
            List.Forall₂ (alone.Gives agave texts codec) rest others) := by
      intro execution next others ran
      obtain ⟨related, kept⟩ := twins_of_run twins isolated (fun program => (own program).1) ran
      exact ih related (kept.trans elfs) others_isolated others_bound
    rw [runAll_cons, List.forall₂_cons_left_iff]
    constructor
    · rintro ⟨execution, next, others, ran, ran_rest, rfl⟩
      exact ⟨execution, others, (alike execution).1 ⟨next, ran⟩, (later ran).1 ran_rest, rfl⟩
    · rintro ⟨execution, others, ran_alone, rest_alone, rfl⟩
      obtain ⟨next, ran⟩ := (alike execution).2 ran_alone
      exact ⟨execution, next, others, ran, (later ran).2 rest_alone, rfl⟩

/-- Fixtures that bind the same programs execute on one runner exactly as each of them does on a
runner of its own, over a VM with another airdrop key. -/
theorem fixtures_are_isolated {genesis : Genesis} {key key' : Address} {shared fresh : Svm}
    {elfs : AddressMap (List UInt8)} {bound : List Address} {jobs : List (Fixture × Address)}
    (fills : Svm.FillsClock agave) (created : Svm.new agave genesis key = some fresh)
    (created' : Svm.new agave genesis key' = some shared)
    (aside : ∀ address ∈ Svm.installedAddresses agave genesis, address ∉ [key, key'])
    (isolates : ∀ job ∈ jobs, Isolates agave codec [key, key'] ⟨fresh, elfs⟩ job.1 job.2)
    (binds : ∀ job ∈ jobs, ∀ program,
      program ∈ job.1.input.programs.map ProgramBinding.programId ↔ program ∈ bound)
    (executions : List FixtureExecution) :
    runAll agave texts codec ⟨shared, elfs⟩ jobs = some executions ↔
      List.Forall₂ (Gives agave texts codec ⟨fresh, elfs⟩) jobs executions := by
  have clock : Sysvar.clock.id ∉ [key, key'] := by
    apply aside
    simp only [Svm.installedAddresses, List.mem_append]
    exact .inl (.inl (.inl (.inl (.inl (List.mem_map_of_mem (Sysvar.mem_all .clock))))))
  obtain ⟨other, same, twins⟩ := Lockstep.exists_related
    (Svm.twins_new List.mem_cons_self (List.mem_cons_of_mem key List.mem_cons_self) aside) created
  obtain rfl : shared = other := Option.some.inj (created'.symm.trans same)
  exact runAll_alike (twins.mono (Set.empty_subset _)) rfl fills clock isolates binds

end FixtureRunner

namespace Sample

def callingTx : VersionedTransaction := { memoTx with staticAccountKeys := [0x11, 0x50] }

/-- A call of the program at 0x50, by a payer with some lamports. -/
def callingFixture (lamports : Nat) : Fixture where
  header := .new "call" .transaction
  input := .transaction ⟨.new 0 none false false, [boundProgram],
    [.fromReadable 0x11 (systemAccount lamports)], []⟩
  expectations := ⟨⟨.success, true, 0, 0, [], none, [], []⟩, []⟩

def callingCodec : Codec := singleCodec callingTx (callingFixture 0)

def callingJobs : List (Fixture × Address) :=
  [(callingFixture 1_000_000, 0), (callingFixture 2_000_000, 0)]

theorem callingJobs_isolated : ∃ shared fresh, Svm.new loaderAgave genesis 0xa1d = some fresh ∧
    Svm.new loaderAgave genesis 0xa2d = some shared ∧ ∃ executions, executions.length = 2 ∧
      FixtureRunner.runAll loaderAgave plainTexts callingCodec ⟨shared, boundElfs⟩ callingJobs =
        some executions ∧
      List.Forall₂ (FixtureRunner.Gives loaderAgave plainTexts callingCodec ⟨fresh, boundElfs⟩)
        callingJobs executions := by
  have installed : (Svm.installedAddresses loaderAgave genesis).all fun address =>
      !([0xa1d, 0xa2d] : List Address).contains address := by
    decide +kernel
  have isolated : (Svm.new loaderAgave genesis 0xa1d).any fun fresh =>
      callingJobs.all fun job => FixtureRunner.Isolates loaderAgave callingCodec [0xa1d, 0xa2d]
        ⟨fresh, boundElfs⟩ job.1 job.2 := by
    decide +kernel
  have ran : (Svm.new loaderAgave genesis 0xa2d).any fun shared =>
      (FixtureRunner.runAll loaderAgave plainTexts callingCodec ⟨shared, boundElfs⟩
        callingJobs).any fun executions => executions.length = 2 := by
    decide +kernel
  simp only [Option.any_eq_true, List.all_eq_true, decide_eq_true_eq] at isolated ran
  obtain ⟨fresh, created, isolates⟩ := isolated
  obtain ⟨shared, created', executions, ran, two⟩ := ran
  refine ⟨shared, fresh, created, created', executions, two, ran, ?_⟩
  apply (FixtureRunner.fixtures_are_isolated (fun _ decodes => decodes) created created' ?_ isolates
    (fun job listed program => ?_) executions).1 ran
  · exact [0x50]
  · intro address listed
    simpa using List.all_eq_true.1 installed address listed
  · simp only [callingJobs, List.mem_cons, List.not_mem_nil, or_false] at listed
    rcases listed with rfl | rfl <;> rfl

end Sample

end Hpsvm
