import Hpsvm.Fixture.Record
import Hpsvm.Foundation.Runs
import Hpsvm.Properties.ChangeStream
import Hpsvm.Properties.FiredancerFixtures
import Hpsvm.Properties.Twins

/-!
# Replaying a recorded fixture

A recording and a replay take the same steps on two new VMs. The replay gives the recorded baseline
if the two VMs stay twins up to the execution. The clones of a runner share one program cache, so
this is a condition on what earlier fixtures left in it.
-/

namespace Hpsvm

open Foundation

/-! ### Comparing a snapshot with itself -/

theorem lastAccounts_of_nodup {accounts : List AccountSnapshot}
    (distinct : (accounts.map AccountSnapshot.address).Nodup) :
    lastAccounts accounts = accounts := by
  apply List.filter_eq_self.2
  intro account member
  obtain ⟨last, found⟩ := exists_lastAt member
  obtain ⟨listed, same⟩ := lastAt_eq_some found
  rw [found, List.inj_on_of_nodup_map distinct listed member same, beq_self_eq_true]

/-- With one account at each address a snapshot passes every comparison with itself. -/
theorem ExecutionSnapshot.compareWith_self (agave : Agave) {snapshot : ExecutionSnapshot}
    (distinct : (snapshot.postAccounts.map AccountSnapshot.address).Nodup) (config : ResultConfig)
    (compares : List Compare) :
    snapshot.compareWith agave snapshot config compares = some true := by
  have passes : snapshot.tryCompareWith agave snapshot config compares = some (.ok ()) := by
    rw [tryCompareWith_eq_ok_iff]
    intro compare _
    cases compare with
    | accounts scope =>
      exact compareAccounts_lastAccounts (lastAccounts_of_nodup distinct).symm scope
    | _ => exact beq_self_eq_true _
  rw [compareWith, passes]
  rfl

/-- A snapshot leaves the diagnostics of an outcome out. -/
theorem ExecutionSnapshot.fromOutcome_congr {agave : Agave} (texts : ErrorTexts) {vm vm' : Svm}
    {tx : VersionedTransaction}
    (executes : vm'.executeReadonly agave tx = vm.executeReadonly agave tx) :
    fromOutcome texts (vm'.transactDetached agave tx) =
      fromOutcome texts (vm.transactDetached agave tx) := by
  unfold Svm.transactDetached
  rw [executes]
  rfl

/-! ### Fixture files -/

theorem Files.read_of_write {files left : Files} {path : String} {contents : List UInt8}
    (written : files.write path contents = .ok left) : left.read path = .ok contents := by
  unfold Files.write at written
  split at written
  · cases written
  · cases written
    simp

/-- A fixture of the current version is loaded as it was saved. -/
theorem Fixture.load_of_save {codec : Codec} (trips : codec.RoundTrips) {fixture : Fixture}
    {files left : Files} {path : String} {format : FixtureFormat}
    (fits : fixtureFormatForPath codec path = .ok format)
    (current : fixture.header.schemaVersion = currentSchemaVersion)
    (saved : fixture.save codec files path format = .ok left) :
    Fixture.load codec left path = .ok fixture := by
  have supported : fixture.checkSchemaVersion = .ok () := by
    simp [checkSchemaVersion, hasSupportedSchemaVersion, current, supportedSchemaVersions]
  cases format with
  | json =>
    obtain ⟨contents, encoded, written⟩ := bind_eq_ok_iff.1 saved
    rw [mapError_eq_ok_iff] at encoded written
    have known : supportedSchemaVersions.contains (clampVersion fixture.header.schemaVersion) =
        true := by
      rw [current]
      rfl
    have decoded : loadJson codec contents = .ok fixture := by
      simp only [loadJson, trips.version fixture contents encoded, Except.mapError, bind,
        Except.bind, known, if_true, trips.json fixture contents encoded]
    simp only [load, fits, Files.read_of_write written, decoded, supported, Except.mapError, bind,
      Except.bind, pure, Except.pure]
  | binary =>
    obtain ⟨contents, encoded, written⟩ := bind_eq_ok_iff.1 saved
    rw [mapError_eq_ok_iff] at encoded written
    have decoded : loadBinary codec contents = .ok fixture := by
      simp only [loadBinary, trips.binary fixture contents encoded, Except.mapError]
    simp only [load, fits, Files.read_of_write written, decoded, supported, Except.mapError, bind,
      Except.bind, pure, Except.pure]

/-! ### What is captured -/

namespace CaptureBuilder

/-- The builders differ in the header, and not in its version. -/
def SameCapture (builder builder' : CaptureBuilder) : Prop :=
  ∃ header, builder' = { builder with header := header } ∧
    header.map FixtureHeader.schemaVersion = builder.header.map FixtureHeader.schemaVersion

theorem SameCapture.trans {first second third : CaptureBuilder} (left : SameCapture first second)
    (right : SameCapture second third) : SameCapture first third := by
  obtain ⟨header, rfl, version⟩ := left
  obtain ⟨header', rfl, version'⟩ := right
  exact ⟨header', rfl, version'.trans version⟩

theorem sameCapture_tag (builder : CaptureBuilder) (text : String) :
    SameCapture builder (builder.tag text) := by
  refine ⟨_, rfl, ?_⟩
  rw [Option.map_map]
  rfl

theorem sameCapture_tags (builder : CaptureBuilder) (tags : List String) :
    SameCapture builder (tags.foldl CaptureBuilder.tag builder) := by
  induction tags generalizing builder with
  | nil => exact ⟨builder.header, rfl, rfl⟩
  | cons text rest ih => exact (sameCapture_tag builder text).trans (ih _)

theorem sameCapture_source (builder : CaptureBuilder) (source : Option String) :
    SameCapture builder ((source.map builder.withSource).getD builder) := by
  cases source with
  | none => exact ⟨builder.header, rfl, rfl⟩
  | some text =>
    refine ⟨_, rfl, ?_⟩
    rw [Option.map_map]
    rfl

end CaptureBuilder

namespace RecordRequest

/-- A captured fixture holds what the recording ran with, and its baseline. -/
theorem exists_of_capture {codec : Codec} {host : CliHost} {request : RecordRequest}
    {inputs : RecordInputs} {slot : Nat} {baseline : ExecutionSnapshot} {fixture : Fixture}
    (captured : request.capture codec host inputs slot baseline = .ok fixture) :
    ∃ bytes, codec.serializeTransaction inputs.transaction = .ok bytes ∧
      fixture.input = .transaction ⟨request.runtime slot,
        request.bindings (host.iterate inputs.programs), inputs.accounts, bytes⟩ ∧
      fixture.expectations = ⟨baseline, request.compares⟩ ∧
      fixture.header.schemaVersion = currentSchemaVersion := by
  have same := (CaptureBuilder.sameCapture_tags
    { CaptureBuilder.new (request.fixtureName host) with
      runtime := some (request.runtime slot)
      programs := request.bindings (host.iterate inputs.programs)
      preAccounts := inputs.accounts
      baseline := some baseline
      compares := request.compares } request.tags).trans
        (CaptureBuilder.sameCapture_source _ request.source)
  unfold capture at captured
  obtain ⟨header, builder, version⟩ := same
  simp only at captured
  rw [builder] at captured
  cases header with
  | none => cases version
  | some header =>
    have kept : request.compares.isEmpty = false := by
      unfold compares
      split
      · rfl
      · rfl
    obtain ⟨bytes, serialized, captured⟩ := bind_eq_ok_iff.1 captured
    simp only [bind, Except.bind, pure, Except.pure, kept, Bool.false_eq_true, if_false] at captured
    cases captured
    exact ⟨bytes, mapError_eq_ok_iff.1 serialized, rfl, rfl, Option.some.inj version⟩

/-- What `record_fixture` has come to when it executes. -/
structure Recording (agave : Agave) (genesis : Genesis) (codec : Codec) (host : CliHost)
    (request : RecordRequest) (files : Files) (key : Address) where
  inputs : RecordInputs
  fresh : Svm
  prepared : Svm
  read : request.inputs codec host files = .ok inputs
  created : Svm.new agave genesis key = some fresh
  prepares : request.setUp agave host inputs fresh = some (.ok (), prepared)

section

variable {agave : Agave} {genesis : Genesis} {texts : ErrorTexts} {codec : Codec} {host : CliHost}
  {request : RecordRequest} {files left : Files} {key : Address}

/-- A recording that completes has saved what it captured. -/
theorem exists_of_recordFixture
    (recorded : request.recordFixture agave genesis texts codec host files key =
      some (.ok left)) :
    ∃ (recording : Recording agave genesis codec host request files key) (fixture : Fixture),
      request.capture codec host recording.inputs recording.fresh.blockEnv.slot (.fromOutcome texts
        (recording.prepared.transactDetached agave recording.inputs.transaction)) = .ok fixture ∧
      fixture.save codec files request.output recording.inputs.format = .ok left := by
  unfold recordFixture at recorded
  cases read : request.inputs codec host files with
  | error error =>
    rw [read] at recorded
    cases recorded
  | ok inputs =>
    simp only [read] at recorded
    obtain ⟨fresh, created, recorded⟩ := Option.bind_eq_some_iff.1 recorded
    obtain ⟨⟨result, prepared⟩, prepares, recorded⟩ := Option.map_eq_some_iff.1 recorded
    cases result with
    | error error => cases recorded
    | ok done =>
      obtain ⟨fixture, captured, saved⟩ := bind_eq_ok_iff.1 recorded
      rw [mapError_eq_ok_iff] at captured saved
      exact ⟨⟨inputs, fresh, prepared, read, created, prepares⟩, fixture, captured, saved⟩

instance : Subsingleton (Recording agave genesis codec host request files key) := by
  constructor
  rintro ⟨inputs, fresh, prepared, read, created, prepares⟩
    ⟨inputs', fresh', prepared', read', created', prepares'⟩
  cases read.symm.trans read'
  cases created.symm.trans created'
  cases prepares.symm.trans prepares'
  rfl

end

theorem format_of_inputs {codec : Codec} {host : CliHost} {request : RecordRequest} {files : Files}
    {inputs : RecordInputs} (read : request.inputs codec host files = .ok inputs) :
    fixtureFormatForPath codec request.output = .ok inputs.format := by
  unfold RecordRequest.inputs at read
  obtain ⟨format, fits, read⟩ := bind_eq_ok_iff.1 read
  obtain ⟨transaction, -, read⟩ := bind_eq_ok_iff.1 read
  obtain ⟨accounts, -, read⟩ := bind_eq_ok_iff.1 read
  obtain ⟨programs, -, read⟩ := bind_eq_ok_iff.1 read
  cases read
  exact mapError_eq_ok_iff.1 fits

end RecordRequest

/-! ### Earlier fixtures -/

namespace FixtureRunner

/-- The runner with another program cache behind its VM. -/
def withCache (runner : FixtureRunner) (cache : ProgramCache) : FixtureRunner :=
  { runner with baseVm :=
      runner.baseVm.withAccounts { runner.baseVm.accounts with programsCache := cache } }

variable {agave : Agave} {texts : ErrorTexts} {codec : Codec}

/-- A run works on a clone, and leaves its program cache. -/
theorem exists_cache_of_run {runner next : FixtureRunner} {fixture : Fixture} {unique : Address}
    {result : Except FixtureError FixtureExecution}
    (ran : runner.run agave texts codec fixture unique = some (result, next)) :
    ∃ cache, next = runner.withCache cache := by
  have clone : ∀ working : Svm, ∃ cache, runner.afterClone working = runner.withCache cache :=
    fun working => ⟨working.accounts.programsCache, rfl⟩
  have self : ∃ cache, runner = runner.withCache cache := ⟨runner.baseVm.accounts.programsCache, rfl⟩
  -- Only the refusal of a blockhash check comes before the VM is cloned.
  unfold run at ran
  obtain ⟨⟨snapshot, left⟩, ran, answered⟩ := Option.map_eq_some_iff.1 ran
  cases answered
  cases input : fixture.input with
  | transaction transaction =>
    simp only [input, runTransactionFixture] at ran
    split at ran
    · cases ran
      exact self
    · obtain ⟨⟨outcome, working⟩, -, ran⟩ := Option.map_eq_some_iff.1 ran
      cases outcome with
      | error error =>
        cases ran
        exact clone working
      | ok done =>
        simp only at ran
        split at ran
        · cases ran
          exact clone working
        · cases ran
          exact clone working
  | instruction instruction =>
    simp only [input, runInstructionFixture] at ran
    obtain ⟨working, -, ran⟩ := Option.map_eq_some_iff.1 ran
    split at ran
    · cases ran
      exact clone _
    · split at ran
      · cases ran
        exact clone _
      · cases ran
        exact clone _

theorem runTransactionFixture_of_setUp (texts : ErrorTexts) (runner : FixtureRunner)
    (fixture : TransactionFixture) {working : Svm} {tx : VersionedTransaction}
    (unchecked : fixture.runtime.blockhashCheck = false)
    (sets : fixture.setUp agave runner.programElfs runner.baseVm = some (.ok (), working))
    (decoded : codec.deserializeTransaction fixture.transactionBytes = .ok tx) :
    runner.runTransactionFixture agave texts codec fixture =
      some (.ok (.fromOutcome texts (working.transactDetached agave tx)),
        runner.afterClone working) := by
  simp only [runTransactionFixture, unchecked, Bool.false_eq_true, if_false, sets, Option.map_some,
    decoded]

theorem runAndValidate_of_transaction {runner next : FixtureRunner} {fixture : Fixture}
    {transaction : TransactionFixture} {snapshot : ExecutionSnapshot} {config : ResultConfig}
    {pass : Bool} (input : fixture.input = .transaction transaction)
    (ran : runner.runTransactionFixture agave texts codec transaction = some (.ok snapshot, next))
    (compared : snapshot.compareWith agave fixture.expectations.baseline config
      fixture.expectations.compares = some pass) (unique : Address) :
    runner.runAndValidate agave texts codec fixture config unique = some (.ok pass, next) := by
  simp only [runAndValidate, run, input, ran, Option.map_some, Except.map, compared]

/-- One fixture after another. -/
def step (agave : Agave) (texts : ErrorTexts) (codec : Codec) (job : Fixture × Address)
    (runner : FixtureRunner) : Option FixtureRunner :=
  (runner.run agave texts codec job.1 job.2).map Prod.snd

/-- Whatever fixtures a runner has executed, only its program cache has changed. -/
theorem exists_cache_of_runs {jobs : List (Fixture × Address)} {start runner : FixtureRunner}
    (ran : Runs.run (step agave texts codec) jobs start = some runner) :
    ∃ cache, runner = start.withCache cache := by
  induction jobs generalizing start with
  | nil =>
    cases ran
    exact ⟨runner.baseVm.accounts.programsCache, rfl⟩
  | cons job rest ih =>
    obtain ⟨next, stepped, others⟩ := Option.bind_eq_some_iff.1 ran
    obtain ⟨⟨result, left⟩, one, rfl⟩ := Option.map_eq_some_iff.1 stepped
    obtain ⟨cache, rfl⟩ := exists_cache_of_run one
    obtain ⟨cache', rfl⟩ := ih others
    exact ⟨cache', rfl⟩

end FixtureRunner

/-! ### Setting up alike -/

/-- The configuration of a fixture settles the program caches of twins. -/
theorem Svm.Twins.configureVm {agave : Agave} {keys : List Address} {programs : Set Address}
    {settled : Prop} {vm vm' : Svm} (twins : Twins agave keys programs settled vm vm')
    (fills : FillsClock agave) (outside : Sysvar.clock.id ∉ keys) (runtime : RuntimeFixtureConfig) :
    Option.Rel (Twins agave keys programs True) (configureVm agave vm runtime)
      (configureVm agave vm' runtime) := by
  cases twins with
  | intro accounts key own clear alike =>
    obtain ⟨slot, logBytesLimit, sigverify, blockhashCheck, computeUnitLimit⟩ := runtime
    -- The setters only touch the configuration.
    cases computeUnitLimit with
    | none =>
      have set : Twins agave keys programs settled
          (((vm.setSigverify sigverify).setBlockhashCheck blockhashCheck).setLogBytesLimit
            logBytesLimit) _ := .intro accounts key own clear alike
      exact set.warpToSlot fills outside slot
    | some limit =>
      have set : Twins agave keys programs settled
          ((((vm.setSigverify sigverify).setBlockhashCheck blockhashCheck).setLogBytesLimit
            logBytesLimit).setComputeUnitLimit agave limit) _ := .intro accounts key own clear alike
      exact set.warpToSlot fills outside slot

namespace RecordRequest

variable {agave : Agave}

theorem expectOk_addPrograms_cons (loaderId : Address) (vm : Svm) (program : Address × List UInt8)
    (rest : List (Address × List UInt8)) :
    Svm.expectOk (addPrograms agave loaderId vm (program :: rest)) =
      (Svm.expectOk (vm.addProgramInternal agave program.1 program.2 loaderId)).bind fun vm =>
        Svm.expectOk (addPrograms agave loaderId vm rest) := by
  obtain ⟨programId, elf⟩ := program
  simp only [addPrograms, Svm.addProgramWithLoader]
  rcases vm.addProgramInternal agave programId elf loaderId with ⟨result, next⟩
  cases result with
  | error error => rfl
  | ok done => rfl

/-- Adding the programs repairs their entries: afterwards none differs. -/
theorem twins_addPrograms {keys : List Address} {settled : Prop} {loaderId : Address} {vm vm' : Svm}
    {programs : List (Address × List UInt8)}
    (twins : Svm.Twins agave keys { program | program ∈ programs.map Prod.fst } settled vm vm')
    (outside : ∀ program ∈ programs,
      ∀ address ∈ Svm.programAddresses agave program.1 loaderId, address ∉ keys) :
    Option.Rel (Svm.Twins agave keys ∅ settled)
      (Svm.expectOk (addPrograms agave loaderId vm programs))
      (Svm.expectOk (addPrograms agave loaderId vm' programs)) := by
  induction programs generalizing vm vm' with
  | nil =>
    apply Option.Rel.some
    apply twins.mono
    rintro program listed
    cases listed
  | cons program rest ih =>
    rw [expectOk_addPrograms_cons, expectOk_addPrograms_cons]
    apply Lockstep.bind (twins.addProgramInternal (outside program List.mem_cons_self) _)
    intro next next' related
    apply ih
    · apply related.mono
      rintro other ⟨listed, differs⟩
      exact (List.mem_cons.1 listed).resolve_left differs
    · exact fun other member => outside other (List.mem_cons_of_mem _ member)

/-- A replay binds the programs as the recording added them. -/
theorem bindPrograms_bindings {elfs : AddressMap (List UInt8)} (request : RecordRequest) (vm : Svm)
    {programs : List (Address × List UInt8)}
    (mapped : ∀ program ∈ programs, elfs[program.1]? = some program.2) :
    bindPrograms agave elfs vm (request.bindings programs) =
      ((addPrograms agave request.loaderId vm programs).1.mapError .hpsvm,
        (addPrograms agave request.loaderId vm programs).2) := by
  induction programs generalizing vm with
  | nil => rfl
  | cons program rest ih =>
    obtain ⟨programId, elf⟩ := program
    have found := mapped (programId, elf) List.mem_cons_self
    have others := fun other member => mapped other (List.mem_cons_of_mem _ member)
    simp only [bindings, List.map_cons, bindPrograms, addPrograms] at found ih ⊢
    simp only [found]
    rcases vm.addProgramWithLoader agave programId elf request.loaderId with ⟨result, next⟩
    cases result with
    | error error => rfl
    | ok done => exact ih next others

/-- The addresses that a recording writes, its airdrop account apart, and those that its execution
looks at. -/
def touched (agave : Agave) (genesis : Genesis) (host : CliHost) (request : RecordRequest)
    (inputs : RecordInputs) (prepared : Svm) : List Address :=
  Svm.installedAddresses agave genesis ++
    (host.iterate inputs.programs).flatMap (fun program =>
      Svm.programAddresses agave program.1 request.loaderId) ++
    inputs.accounts.flatMap (fun account =>
      account.address :: (programdataAddress? account.toAccount).toList) ++
    prepared.executionReads agave inputs.transaction

namespace Recording

variable {genesis : Genesis} {codec : Codec} {host : CliHost} {request : RecordRequest}
  {files : Files} {key : Address}

/-- The programs that the recording added. -/
def programs (recording : Recording agave genesis codec host request files key) :
    List (Address × List UInt8) :=
  host.iterate recording.inputs.programs

def touched (recording : Recording agave genesis codec host request files key) : List Address :=
  request.touched agave genesis host recording.inputs recording.prepared

/-- The fixture that is saved, up to its header. -/
def transactionFixture (recording : Recording agave genesis codec host request files key)
    (bytes : List UInt8) : TransactionFixture :=
  ⟨request.runtime recording.fresh.blockEnv.slot, request.bindings recording.programs,
    recording.inputs.accounts, bytes⟩

/-- A replay sets its VM up as the recording did. -/
theorem exists_setUp (recording : Recording agave genesis codec host request files key)
    (fills : Svm.FillsClock agave) {keys : List Address} {base : Svm}
    (aside : ∀ address ∈ recording.touched, address ∉ keys)
    (twins : Svm.Twins agave keys { program | program ∈ recording.programs.map Prod.fst } False
      recording.fresh base) (bytes : List UInt8) :
    ∃ working, (recording.transactionFixture bytes).setUp agave recording.inputs.programs base =
        some (.ok (), working) ∧ Svm.Twins agave keys ∅ True recording.prepared working := by
  simp only [touched, RecordRequest.touched, List.mem_append] at aside
  have clock : Sysvar.clock.id ∉ keys := by
    apply aside
    simp only [Svm.installedAddresses, List.mem_append]
    exact .inl (.inl (.inl (.inl (.inl (.inl (.inl (.inl (List.mem_map_of_mem
      (Sysvar.mem_all .clock)))))))))
  have accounts : ∀ pair ∈ recording.inputs.accounts.map AccountSnapshot.entry,
      AvoidsKeys keys pair.1 pair.2 := by
    intro pair listed
    obtain ⟨account, given, rfl⟩ := List.mem_map.1 listed
    have part : ∀ address ∈ account.address :: (programdataAddress? account.toAccount).toList,
        address ∉ keys := fun address member =>
      aside address (.inl (.inr (List.mem_flatMap.2 ⟨account, given, member⟩)))
    refine ⟨part account.address List.mem_cons_self, fun _ programdata refers => ?_⟩
    exact part programdata (List.mem_cons_of_mem _ (Option.mem_toList.2 refers))
  have mapped : ∀ program ∈ recording.programs,
      recording.inputs.programs[program.1]? = some program.2 := by
    rintro ⟨programId, elf⟩ listed
    have member := (host.iterate_perm recording.inputs.programs).mem_iff.1 listed
    exact Std.ExtTreeMap.mem_toList_iff_getElem?_eq_some.1 member
  -- Both sides are configured, add their programs and set their accounts.
  obtain ⟨configured, configures, prepares⟩ := Option.map_eq_some_iff.1 recording.prepares
  obtain ⟨configured', configures', related⟩ :=
    Lockstep.exists_related (twins.configureVm fills clock _) configures
  have repaired := twins_addPrograms related fun program listed address written =>
    aside address (.inl (.inl (.inr (List.mem_flatMap.2 ⟨program, listed, written⟩))))
  cases added : addPrograms agave request.loaderId configured recording.programs with
  | mk result bound =>
    unfold programs at added
    rw [added] at prepares
    cases result with
    | error error => cases prepares
    | ok done =>
      obtain ⟨bound', expected', related⟩ := Lockstep.exists_related repaired
        (show Svm.expectOk _ = some bound by rw [programs, added]; rfl)
      have added' := Svm.expectOk_eq_some expected'
      rcases (related.setAccounts accounts).cases with
        ⟨error, left, left', set, -, -⟩ | ⟨left, left', set, set', related⟩
      · simp only [set] at prepares
        cases prepares
      · simp only [set] at prepares
        cases prepares
        refine ⟨left', ?_, related⟩
        simp only [TransactionFixture.setUp, transactionFixture, configures', Option.map_some,
          bindPrograms_bindings request _ mapped, added', Except.mapError, set']

end Recording

/-- What a replay needs: the transaction lists no key twice, the airdrop keys are used for nothing
else, and the earlier fixtures have left the cache entries of all programs that this one does not
bind. -/
structure Replayable {agave : Agave} {genesis : Genesis} {codec : Codec} {host : CliHost}
    {request : RecordRequest} {files : Files} {key : Address}
    (recording : Recording agave genesis codec host request files key) (key' : Address)
    (fresh' : Svm) (runner : FixtureRunner) : Prop where
  distinct : ∀ sanitized,
    recording.prepared.sanitize agave recording.inputs.transaction = .ok sanitized →
      sanitized.message.accountKeys.Nodup
  aside : ∀ address ∈ recording.touched, address ≠ key ∧ address ≠ key'
  entries : ∀ program, program ∉ recording.programs.map Prod.fst →
    runner.baseVm.accounts.programsCache.find program =
      fresh'.accounts.programsCache.find program

variable {genesis : Genesis} {codec : Codec} {host : CliHost} {request : RecordRequest}
  {files : Files} {key : Address}

/-- Where a recording is replayable, the replay executes what the recording did. -/
theorem Replayable.exists_setUp {recording : Recording agave genesis codec host request files key}
    {key' : Address} {fresh' : Svm} {programs : AddressMap (List UInt8)} {cache : ProgramCache}
    (replayable : Replayable recording key' fresh'
      (FixtureRunner.withCache ⟨fresh', programs⟩ cache))
    (fills : Svm.FillsClock agave) (created : Svm.new agave genesis key' = some fresh')
    (bytes : List UInt8) :
    ∃ working, (recording.transactionFixture bytes).setUp agave recording.inputs.programs
        (fresh'.withAccounts { fresh'.accounts with programsCache := cache }) =
          some (.ok (), working) ∧
      working.executeReadonly agave recording.inputs.transaction =
        recording.prepared.executeReadonly agave recording.inputs.transaction := by
  have aside : ∀ address ∈ recording.touched, address ∉ [key, key'] := by
    intro address listed
    simpa using replayable.aside address listed
  -- The two VMs were twins when they were new, and they are once both are set up.
  obtain ⟨other, created', twins⟩ := Lockstep.exists_related
    (Svm.twins_new List.mem_cons_self (List.mem_cons_of_mem key List.mem_cons_self)
      fun address listed => aside address (by simp [Recording.touched, touched, listed]))
    recording.created
  obtain rfl : fresh' = other := Option.some.inj (created.symm.trans created')
  have alike : recording.fresh.accounts.Twins agave [key, key']
      { program | program ∈ recording.programs.map Prod.fst } False
      { fresh'.accounts with programsCache := cache } := by
    obtain ⟨source, sysvars, environments, overlay, entries, -⟩ := twins.accounts
    refine ⟨source, sysvars, environments, overlay, fun program unbound => ?_, nofun⟩
    exact (replayable.entries program unbound).trans (entries program (Set.notMem_empty program))
  obtain ⟨working, sets, related⟩ :=
    recording.exists_setUp fills aside (twins.withAccounts alike) bytes
  refine ⟨working, sets, related.executeReadonly_eq fun address listed => ?_⟩
  exact aside address (List.mem_append_right _ listed)

theorem blockhashCheck_runtime (request : RecordRequest) (slot : Nat) :
    (request.runtime slot).blockhashCheck = false := by
  unfold runtime
  cases request.computeUnitLimit with
  | none => rfl
  | some limit => rfl

end RecordRequest

/-- A recorded fixture replays to its own baseline on a runner over a new VM, whatever fixtures ran
before, if it is replayable there. -/
theorem recorded_fixture_replays {agave : Agave} {genesis : Genesis} {texts : ErrorTexts}
    {codec : Codec} {host : CliHost} {request : RecordRequest} {files left : Files}
    {key key' : Address} {fresh' : Svm} {jobs : List (Fixture × Address)} {runner : FixtureRunner}
    (fills : Svm.FillsClock agave) (trips : codec.RoundTrips)
    (recording : request.Recording agave genesis codec host files key)
    (recorded : request.recordFixture agave genesis texts codec host files key = some (.ok left))
    (created : Svm.new agave genesis key' = some fresh')
    (ran : Runs.run (FixtureRunner.step agave texts codec) jobs
      ⟨fresh', recording.inputs.programs⟩ = some runner)
    (replayable : RecordRequest.Replayable recording key' fresh' runner) :
    ∃ fixture, Fixture.load codec left request.output = .ok fixture ∧
      ∀ config unique, ∃ next,
        runner.runAndValidate agave texts codec fixture config unique = some (.ok true, next) := by
  obtain ⟨same, fixture, captured, saved⟩ := RecordRequest.exists_of_recordFixture recorded
  obtain rfl : recording = same := Subsingleton.elim _ _
  obtain ⟨bytes, serialized, input, expectations, current⟩ :=
    RecordRequest.exists_of_capture captured
  have loads := Fixture.load_of_save trips (RecordRequest.format_of_inputs recording.read) current
    saved
  refine ⟨fixture, loads, fun config unique => ?_⟩
  obtain ⟨cache, rfl⟩ := FixtureRunner.exists_cache_of_runs ran
  obtain ⟨working, sets, executes⟩ := replayable.exists_setUp fills created bytes
  have passes : (ExecutionSnapshot.fromOutcome texts
        (recording.prepared.transactDetached agave recording.inputs.transaction)).compareWith agave
      (.fromOutcome texts (recording.prepared.transactDetached agave recording.inputs.transaction))
      config request.compares = some true := by
    apply ExecutionSnapshot.compareWith_self
    have nodup := Svm.nodup_postAccounts agave replayable.distinct
    simp only [ExecutionSnapshot.fromOutcome, List.map_map]
    exact nodup
  have replays := FixtureRunner.runTransactionFixture_of_setUp texts
    (FixtureRunner.withCache ⟨fresh', recording.inputs.programs⟩ cache)
    (recording.transactionFixture bytes) (request.blockhashCheck_runtime _) sets
    (trips.transaction _ _ serialized)
  rw [ExecutionSnapshot.fromOutcome_congr texts executes] at replays
  refine ⟨_, FixtureRunner.runAndValidate_of_transaction input replays ?_ unique⟩
  rw [expectations]
  exact passes

namespace Sample

/-- The sample runtime with the loader of the memo program. -/
def loaderAgave : Agave :=
  { agave with
    builtins := agave.builtins ++ [⟨Ids.bpfLoader, 2, none, "solana_bpf_loader_program"⟩] }

def memoTx : VersionedTransaction where
  version := .legacy
  signatures := [1]
  header := ⟨1, 0, 1⟩
  staticAccountKeys := [0x11, Ids.splMemo3]
  recentBlockhash := 0xb10c
  instructions := [⟨1, [0], []⟩]
  addressTableLookups := []

def memoPayer : AccountSnapshot := .fromReadable 0x11 (systemAccount 1_000_000)

def memoRequest : RecordRequest where
  transaction := "memo.tx"
  transactionEncoding := .raw
  accounts := "accounts.json"
  output := "memo.json"
  name := none
  tags := []
  source := none
  programs := []
  loader := none
  slot := none
  sigverify := true
  logBytesLimit := some 10_000
  computeUnitLimit := none
  ignoreComputeUnits := false

/-- What recording the memo gives. -/
def memoFixture : Fixture where
  header := .new "memo" .transaction
  input := .transaction ⟨.new 0 (some 10_000) true false, [], [memoPayer], []⟩
  expectations :=
    ⟨⟨.success, true, 1, 5000, [], none, [], [{ memoPayer with lamports := 995_000 }]⟩,
      Compare.everything⟩

/-- A codec of one transaction and one fixture. -/
def singleCodec (tx : VersionedTransaction) (fixture : Fixture) : Codec where
  extension := fun _ => some "json"
  serializeTransaction := fun other => if other = tx then .ok [] else .error "transaction"
  deserializeTransaction := fun _ => .ok tx
  serializeFixture := fun other => if other = fixture then .ok [] else .error "fixture"
  deserializeFixture := fun _ => .ok fixture
  toJson := fun other => if other = fixture then .ok [] else .error "fixture"
  fromJson := fun _ => .ok fixture
  jsonSchemaVersion := fun _ => .ok (some fixture.header.schemaVersion)

theorem singleCodec_roundTrips (tx : VersionedTransaction) (fixture : Fixture) :
    (singleCodec tx fixture).RoundTrips := by
  have only : ∀ {α : Type} [DecidableEq α] {value other : α} {reason : String} {bytes : List UInt8},
      (if other = value then Except.ok [] else Except.error reason) = .ok bytes → value = other := by
    intro α _ value other reason bytes encoded
    split at encoded
    next same => exact same.symm
    · cases encoded
  constructor
  · exact fun other bytes encoded => congrArg _ (only encoded)
  · exact fun other bytes encoded => congrArg _ (only encoded)
  · exact fun other bytes encoded => congrArg _ (only encoded)
  · intro other bytes encoded
    rw [← only encoded]
    rfl

def memoCodec : Codec := singleCodec memoTx memoFixture

/-- Accounts are always read as the payer of the memo. -/
def memoHost : CliHost where
  fileStem := fun _ => some "memo"
  parseAddress := fun _ => .error "address"
  decodeBase64 := .ok
  decodeHex := .ok
  parseAccounts := fun _ => .ok [memoPayer]
  iterate := fun map => map.toList
  iterate_perm := fun _ => .refl _

def emptyFiles : Files := ⟨fun _ => .ok [], fun _ => .ok ()⟩

def plainTexts : ErrorTexts := ⟨fun _ => "error", fun _ => "error"⟩

def memoInputs : RecordInputs := ⟨.json, memoTx, [memoPayer], ∅⟩

/-- On a runner that has executed nothing the memo is replayed. -/
theorem memo_fixture_replays :
    ∃ left fresh fixture,
      memoRequest.recordFixture loaderAgave genesis plainTexts memoCodec memoHost emptyFiles 0xa1d =
        some (.ok left) ∧
      Svm.new loaderAgave genesis 0xa2d = some fresh ∧
      Fixture.load memoCodec left memoRequest.output = .ok fixture ∧
      ∀ config unique, ∃ next,
        FixtureRunner.runAndValidate loaderAgave plainTexts memoCodec ⟨fresh, ∅⟩ fixture config
          unique = some (.ok true, next) := by
  have ran : ((memoRequest.recordFixture loaderAgave genesis plainTexts memoCodec memoHost
        emptyFiles 0xa1d).any fun outcome => outcome.toOption.isSome) &&
      (Svm.new loaderAgave genesis 0xa2d).isSome &&
      (Svm.new loaderAgave genesis 0xa1d).any fun fresh =>
        (memoRequest.setUp loaderAgave memoHost memoInputs fresh).any fun outcome =>
          outcome.1.toOption.isSome &&
            ((memoRequest.touched loaderAgave genesis memoHost memoInputs outcome.2).all
              fun address => address != 0xa1d && address != 0xa2d) &&
            (outcome.2.sanitize loaderAgave memoTx).toOption.all fun sanitized =>
              decide sanitized.message.accountKeys.Nodup := by
    decide +kernel
  simp only [Bool.and_eq_true, Option.any_eq_true, Option.isSome_iff_exists,
    toOption_eq_some_iff] at ran
  obtain ⟨⟨⟨_, recorded, left, rfl⟩, fresh', created'⟩, fresh, created, ⟨_, prepared⟩, prepares,
    ⟨⟨_, rfl⟩, aside⟩, distinct⟩ := ran
  let recording : memoRequest.Recording loaderAgave genesis memoCodec memoHost emptyFiles 0xa1d :=
    ⟨memoInputs, fresh, prepared, rfl, created, prepares⟩
  have replayable : RecordRequest.Replayable recording 0xa2d fresh' ⟨fresh', ∅⟩ := by
    refine ⟨?_, ?_, fun _ _ => rfl⟩
    · intro sanitized done
      simpa using (Option.all_eq_true _ _).1 distinct sanitized (toOption_eq_some_iff.2 done)
    · intro address listed
      simpa using List.all_eq_true.1 aside address listed
  obtain ⟨fixture, loaded, replays⟩ := recorded_fixture_replays (fun _ decodes => decodes)
    (singleCodec_roundTrips memoTx memoFixture) recording recorded created'
    (show Runs.run _ [] _ = _ from rfl) replayable
  exact ⟨left, fresh', fixture, recorded, created', loaded, replays⟩

/-- A fixture that has a plain account at the address of the memo program. -/
def overwritingFixture : Fixture where
  header := .new "overwrite" .transaction
  input := .transaction ⟨.new 0 none false false, [],
    [.fromReadable Ids.splMemo3 (systemAccount 1)], []⟩
  expectations := ⟨⟨.success, true, 0, 0, [], none, [], []⟩, []⟩

/-- The clone that ran first had no memo program, and left the cache it rebuilt: the replay of the
memo finds no entry for a program whose account is there. -/
theorem overwritten_program_fails_replay :
    memoCodec.RoundTrips ∧ ∃ left fresh runner fixture next,
      memoRequest.recordFixture loaderAgave genesis plainTexts memoCodec memoHost emptyFiles 0xa1d =
        some (.ok left) ∧
      Svm.new loaderAgave genesis 0xa2d = some fresh ∧
      Runs.run (FixtureRunner.step loaderAgave plainTexts memoCodec) [(overwritingFixture, 0)]
        ⟨fresh, ∅⟩ = some runner ∧
      Fixture.load memoCodec left memoRequest.output = .ok fixture ∧
      runner.runAndValidate loaderAgave plainTexts memoCodec fixture {} 0 =
        some (.ok false, next) := by
  refine ⟨singleCodec_roundTrips memoTx memoFixture, ?_⟩
  have ran : (memoRequest.recordFixture loaderAgave genesis plainTexts memoCodec memoHost
        emptyFiles 0xa1d).any fun outcome => outcome.toOption.any fun left =>
      (Svm.new loaderAgave genesis 0xa2d).any fun fresh =>
        (Runs.run (FixtureRunner.step loaderAgave plainTexts memoCodec) [(overwritingFixture, 0)]
            ⟨fresh, ∅⟩).any fun runner =>
          (Fixture.load memoCodec left memoRequest.output).toOption.any fun fixture =>
            (runner.runAndValidate loaderAgave plainTexts memoCodec fixture {} 0).any
              fun outcome => outcome.1.toOption == some false := by
    decide +kernel
  simp only [Option.any_eq_true, toOption_eq_some_iff, beq_iff_eq] at ran
  obtain ⟨_, recorded, left, rfl, fresh, created, runner, ran, fixture, loaded, ⟨_, next⟩,
    validated, rfl⟩ := ran
  exact ⟨left, fresh, runner, fixture, next, recorded, created, ran, loaded, validated⟩

end Sample

end Hpsvm
