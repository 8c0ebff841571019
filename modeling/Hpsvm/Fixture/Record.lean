import Hpsvm.Fixture.Runner

/-!
# Recording a fixture

`record_fixture` of the command line tool: it reads a transaction and its accounts, executes the
transaction on a new VM and writes what came out as the baseline of a fixture. Source: `record.rs`
and `program_map.rs`.
-/

namespace Hpsvm

inductive TransactionEncodingArg
  | raw
  | base64
  | hex
deriving DecidableEq, Repr

def TransactionEncodingArg.asStr : TransactionEncodingArg → String
  | raw => "raw"
  | base64 => "base64"
  | hex => "hex"

/-- The variants of `CliError` that recording gives. -/
inductive CliError
  | hpsvm (error : HpsvmError)
  | fixture (error : FixtureError)
  | io (reason : String)
  | invalidProgramMapping (value : String)
  | invalidProgramId (value reason : String)
  | accountFile (path reason : String)
  | transactionEncoding (path encoding reason : String)
deriving DecidableEq, Repr

/-- `RecordRequest`. -/
structure RecordRequest where
  transaction : String
  transactionEncoding : TransactionEncodingArg
  accounts : String
  output : String
  name : Option String
  tags : List String
  source : Option String
  programs : List String
  loader : Option Address
  slot : Option Nat
  sigverify : Bool
  logBytesLimit : Option Nat
  computeUnitLimit : Option Nat
  ignoreComputeUnits : Bool

/-- What recording takes from the standard library and from the parsers. -/
structure CliHost where
  -- `Path::file_stem`.
  fileStem : String → Option String
  -- `Address::from_str`.
  parseAddress : String → Except String Address
  decodeBase64 : List UInt8 → Except String (List UInt8)
  decodeHex : List UInt8 → Except String (List UInt8)
  -- A JSON list of `RecordAccount`s.
  parseAccounts : List UInt8 → Except String (List AccountSnapshot)
  -- The order in which a `HashMap` gives its entries.
  iterate : AddressMap (List UInt8) → List (Address × List UInt8)
  iterate_perm : ∀ map, (iterate map).Perm map.toList

/-- `str::split_once`. -/
def splitOnce (value : String) (separator : Char) : Option (String × String) :=
  match value.toList.span fun character => character != separator with
  | (_, []) => none
  | (before, _ :: after) => some (String.ofList before, String.ofList after)

/-- `parse_program_map`: a later mapping of a program replaces an earlier one. -/
def parseProgramMap (host : CliHost) (files : Files) (parsed : AddressMap (List UInt8)) :
    List String → Except CliError (AddressMap (List UInt8))
  | [] => .ok parsed
  | value :: rest =>
    match splitOnce value '=' with
    | none => .error (.invalidProgramMapping value)
    | some (programId, path) =>
      match host.parseAddress programId with
      | .error reason => .error (.invalidProgramId programId reason)
      | .ok address =>
        match files.read path with
        | .error reason => .error (.io reason)
        | .ok elf => parseProgramMap host files (parsed.insert address elf) rest

namespace TransactionEncodingArg

def decode (host : CliHost) (encoding : TransactionEncodingArg) (encoded : List UInt8) :
    Except String (List UInt8) :=
  match encoding with
  | raw => .ok encoded
  | base64 => host.decodeBase64 encoded
  | hex => host.decodeHex encoded

end TransactionEncodingArg

/-- What a request names, once it is read. -/
structure RecordInputs where
  format : FixtureFormat
  transaction : VersionedTransaction
  accounts : List AccountSnapshot
  programs : AddressMap (List UInt8)

namespace RecordRequest

variable (agave : Agave) (genesis : Genesis) (texts : ErrorTexts) (codec : Codec) (host : CliHost)

def loadTransaction (request : RecordRequest) (files : Files) :
    Except CliError VersionedTransaction := do
  let encoded ← (files.read request.transaction).mapError .io
  let bytes ← (request.transactionEncoding.decode host encoded).mapError
    (.transactionEncoding request.transaction request.transactionEncoding.asStr)
  (codec.deserializeTransaction bytes).mapError fun reason => .fixture (.decodeTransaction reason)

def loadAccounts (request : RecordRequest) (files : Files) :
    Except CliError (List AccountSnapshot) := do
  let raw ← (files.read request.accounts).mapError .io
  (host.parseAccounts raw).mapError (.accountFile request.accounts)

/-- The inputs of `record_fixture`. The output path is looked at before anything is read. -/
def inputs (request : RecordRequest) (files : Files) : Except CliError RecordInputs := do
  let format ← (fixtureFormatForPath codec request.output).mapError .fixture
  let transaction ← request.loadTransaction codec host files
  let accounts ← request.loadAccounts host files
  let programs ← parseProgramMap host files ∅ request.programs
  return ⟨format, transaction, accounts, programs⟩

/-- The configuration that the recording runs under and the fixture carries. -/
def runtime (request : RecordRequest) (slot : Nat) : RuntimeFixtureConfig :=
  let runtime := RuntimeFixtureConfig.new (request.slot.getD slot) request.logBytesLimit
    request.sigverify false
  (request.computeUnitLimit.map runtime.withComputeUnitLimit).getD runtime

def loaderId (request : RecordRequest) : Address := request.loader.getD Ids.bpfLoaderUpgradeable

def bindings (request : RecordRequest) (programs : List (Address × List UInt8)) :
    List ProgramBinding :=
  programs.map fun (programId, _) => ⟨programId, request.loaderId, none⟩

/-- The loop of `record_fixture` over the programs. -/
def addPrograms (loaderId : Address) (vm : Svm) :
    List (Address × List UInt8) → Except HpsvmError Unit × Svm
  | [] => (.ok (), vm)
  | (programId, elf) :: rest =>
    match vm.addProgramWithLoader agave programId elf loaderId with
    | (.error error, vm) => (.error error, vm)
    | (.ok (), vm) => addPrograms loaderId vm rest

/-- What `record_fixture` does to a new VM before it executes. -/
def setUp (request : RecordRequest) (inputs : RecordInputs) (vm : Svm) :
    Option (Except HpsvmError Unit × Svm) :=
  (configureVm agave vm (request.runtime vm.blockEnv.slot)).map fun vm =>
    match addPrograms agave request.loaderId vm (host.iterate inputs.programs) with
    | (.error error, vm) => (.error error, vm)
    | (.ok (), vm) => vm.setAccounts agave (inputs.accounts.map AccountSnapshot.entry)

def fixtureName (request : RecordRequest) : String :=
  request.name.getD ((host.fileStem request.output).getD "fixture")

def compares (request : RecordRequest) : List Compare :=
  if request.ignoreComputeUnits then Compare.everythingButComputeUnits else Compare.everything

/-- The fixture of a recorded baseline. -/
def capture (request : RecordRequest) (inputs : RecordInputs) (slot : Nat)
    (baseline : ExecutionSnapshot) : Except FixtureError Fixture :=
  let builder : CaptureBuilder :=
    { CaptureBuilder.new (request.fixtureName host) with
      runtime := some (request.runtime slot)
      programs := request.bindings (host.iterate inputs.programs)
      preAccounts := inputs.accounts
      baseline := some baseline
      compares := request.compares }
  let builder := request.tags.foldl CaptureBuilder.tag builder
  let builder := (request.source.map builder.withSource).getD builder
  builder.captureTransaction codec inputs.transaction

/-- `record_fixture`, given the airdrop key of the VM it creates. It answers the files it leaves;
`none` is a panic. -/
def recordFixture (request : RecordRequest) (files : Files) (airdropPubkey : Address) :
    Option (Except CliError Files) :=
  match request.inputs codec host files with
  | .error error => some (.error error)
  | .ok inputs =>
    (Svm.new agave genesis airdropPubkey).bind fun fresh =>
      (request.setUp agave host inputs fresh).map fun
        | (.error error, _) => .error (.hpsvm error)
        | (.ok (), vm) => do
          let baseline := .fromOutcome texts (vm.transactDetached agave inputs.transaction)
          let fixture ← (request.capture codec host inputs fresh.blockEnv.slot baseline).mapError
            .fixture
          (fixture.save codec files request.output inputs.format).mapError .fixture

end RecordRequest

end Hpsvm
