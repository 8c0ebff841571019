import Hpsvm.Fixture.Format

/-!
# The FireDancer adapter

The protobuf messages of a FireDancer instruction fixture, and the conversions between them and a
fixture in both directions (`hpsvm-fixture-firedancer/src/fd.rs`).
-/

namespace Hpsvm

/-! ### Messages -/

namespace Proto

structure SeedAddress where
  base : List UInt8
  seed : List UInt8
  owner : List UInt8
deriving DecidableEq, Repr

structure AcctState where
  address : List UInt8
  lamports : Nat
  data : List UInt8
  executable : Bool
  rentEpoch : Nat
  owner : List UInt8
  seedAddr : Option SeedAddress
deriving DecidableEq, Repr

structure FeatureSet where
  features : List UInt64
deriving DecidableEq, Repr

structure EpochContext where
  features : Option FeatureSet
deriving DecidableEq, Repr

structure SlotContext where
  slot : Nat
deriving DecidableEq, Repr

structure InstrAcct where
  index : UInt32
  isWritable : Bool
  isSigner : Bool
deriving DecidableEq, Repr

structure InstrContext where
  programId : List UInt8
  accounts : List AcctState
  instrAccounts : List InstrAcct
  data : List UInt8
  cuAvail : Nat
  slotContext : Option SlotContext
  epochContext : Option EpochContext
deriving DecidableEq, Repr

structure InstrEffects where
  result : Int
  customErr : Nat
  modifiedAccounts : List AcctState
  cuAvail : Nat
  returnData : List UInt8
deriving DecidableEq, Repr

structure FixtureMetadata where
  fnEntrypoint : String
deriving DecidableEq, Repr

structure InstrFixture where
  metadata : Option FixtureMetadata
  input : Option InstrContext
  output : Option InstrEffects
deriving DecidableEq, Repr

end Proto

open Proto

/-- `AdapterError`, with the variants of the conversions. -/
inductive AdapterError
  | missingField (field : String)
  | invalidAddressLength (field : String) (actual : Nat)
  | invalidInstructionAccountIndex (index accountsLen : Nat)
  | missingInstructionAccount (address : String)
  | unsupportedSeedAddress (field : String)
  | inconsistentComputeUnits (before after : Nat)
  | computeUnitsExceedBudget (budget consumed : Nat)
  | inconsistentExecutionStatus (result : Int) (customErr : Nat)
  | unsupportedExecutionStatus (kind : String)
  | unsupportedReturnDataProgram (programId instructionProgramId : String)
  | unsupportedFixtureKind (kind expected : String)
  | missingComputeUnitBudget
deriving DecidableEq, Repr

structure FiredancerFixture where
  inner : InstrFixture
deriving DecidableEq, Repr

/-- `Option::ok_or`. -/
def okOr {α : Type} (error : AdapterError) : Option α → Except AdapterError α
  | none => .error error
  | some value => .ok value

/-- `u64::checked_sub`. -/
def checkedSub (value amount : Nat) : Option Nat :=
  if amount ≤ value then some (value - amount) else none

/-! ### Addresses and accounts -/

def addressFromBytes (bytes : List UInt8) (field : String) : Except AdapterError Address :=
  if bytes.length = 32 then .ok (Address.ofBytes bytes)
  else .error (.invalidAddressLength field bytes.length)

def addressToBytes (address : Address) : List UInt8 := address.toBytes

def accountSnapshotFromProto (field : String) (account : AcctState) :
    Except AdapterError AccountSnapshot := do
  if account.seedAddr.isSome then
    throw (.unsupportedSeedAddress field)
  let address ← addressFromBytes account.address "account.address"
  let owner ← addressFromBytes account.owner "account.owner"
  return ⟨address, account.lamports, owner, account.executable, account.rentEpoch, account.data⟩

def accountSnapshotToProto (account : AccountSnapshot) : AcctState where
  address := addressToBytes account.address
  lamports := account.lamports
  data := account.data
  executable := account.executable
  rentEpoch := account.rentEpoch
  owner := addressToBytes account.owner
  seedAddr := none

def instructionAccountFromProto (accounts : List AccountSnapshot) (account : InstrAcct) :
    Except AdapterError InstructionAccountMeta := do
  let index := account.index.toNat
  let found ← okOr (.invalidInstructionAccountIndex index accounts.length) accounts[index]?
  return ⟨found.address, account.isSigner, account.isWritable⟩

def instructionAccountToProto (agave : Agave) (accounts : List AccountSnapshot)
    (account : InstructionAccountMeta) : Except AdapterError InstrAcct := do
  let index ← okOr (.missingInstructionAccount (agave.addressText account.pubkey))
    (accounts.findIdx? fun candidate => candidate.address == account.pubkey)
  -- `u32::try_from`.
  if index < 2 ^ 32 then
    return ⟨UInt32.ofNat index, account.isWritable, account.isSigner⟩
  else throw (.invalidInstructionAccountIndex index accounts.length)

def instructionAccountsToProto (agave : Agave) (accounts : List AccountSnapshot)
    (instructionAccounts : List InstructionAccountMeta) : Except AdapterError (List InstrAcct) :=
  instructionAccounts.mapM (instructionAccountToProto agave accounts)

/-! ### Status, return data and comparisons -/

def statusFromOutput (result : Int) (customErr : Nat) : Except AdapterError ExecutionStatus :=
  if result = 0 then
    if customErr = 0 then .ok .success
    else .error (.inconsistentExecutionStatus result customErr)
  else if customErr = 0 then .ok (.failure (.programResult result))
  else .ok (.failure (.programResultWithCustomError result customErr))

def statusToOutput : ExecutionStatus → Except AdapterError (Int × Nat)
  | .success => .ok (0, 0)
  | .failure (.programResult result) => .ok (result, 0)
  | .failure (.customError customError) => .ok (1, customError)
  | .failure (.programResultWithCustomError result customError) => .ok (result, customError)
  | .failure (.other kind _) => .error (.unsupportedExecutionStatus kind)

def returnDataFromOutput (programId : Address) (returnData : List UInt8) :
    Option ReturnDataSnapshot :=
  if returnData.isEmpty then none else some ⟨programId, returnData⟩

def returnDataToOutput (agave : Agave) (instructionProgramId : Address) :
    Option ReturnDataSnapshot → Except AdapterError (List UInt8)
  | none => .ok []
  | some returnData =>
    if returnData.programId = instructionProgramId then .ok returnData.data
    else .error (.unsupportedReturnDataProgram (agave.addressText returnData.programId)
      (agave.addressText instructionProgramId))

/-- The addresses of the accounts in order, each once. -/
def distinctAddresses (accounts : List AccountSnapshot) : List Address :=
  accounts.foldl (fun addresses account =>
    if addresses.contains account.address then addresses else addresses ++ [account.address]) []

def comparesForPostAccounts (postAccounts : List AccountSnapshot) : List Compare :=
  [.status, .included, .computeUnits, .returnData] ++
    if postAccounts.isEmpty then [] else [.accounts (.only (distinctAddresses postAccounts))]

/-! ### Import -/

/-- The header of an imported fixture. -/
def headerFromMetadata (agave : Agave) (metadata : Option FixtureMetadata) (programId : Address) :
    FixtureHeader :=
  let entrypoint := (metadata.map FixtureMetadata.fnEntrypoint).filter fun value => !value.isEmpty
  let name := entrypoint.getD ("firedancer-" ++ agave.addressText programId)
  ((FixtureHeader.new name .instruction).withSource "firedancer").tag "external:firedancer"

/-- `TryFrom<FiredancerFixture> for Fixture`. -/
def Fixture.tryFromFiredancer (agave : Agave) (value : FiredancerFixture) :
    Except AdapterError Fixture := do
  let input ← okOr (.missingField "input") value.inner.input
  let output ← okOr (.missingField "output") value.inner.output
  let preAccounts ← input.accounts.mapM (accountSnapshotFromProto "input.accounts")
  let instructionAccounts ← input.instrAccounts.mapM (instructionAccountFromProto preAccounts)
  let postAccounts ←
    output.modifiedAccounts.mapM (accountSnapshotFromProto "output.modified_accounts")
  let programId ← addressFromBytes input.programId "input.program_id"
  let computeUnitsConsumed ← okOr (.inconsistentComputeUnits input.cuAvail output.cuAvail)
    (checkedSub input.cuAvail output.cuAvail)
  let status ← statusFromOutput output.result output.customErr
  let baseline : ExecutionSnapshot :=
    { status, computeUnitsConsumed, postAccounts
      included := true
      fee := 0
      logs := []
      returnData := returnDataFromOutput programId output.returnData
      innerInstructions := [] }
  let runtime := RuntimeFixtureConfig.new ((input.slotContext.map SlotContext.slot).getD 0) none false false
  return {
    header := headerFromMetadata agave value.inner.metadata programId
    input := .instruction
      { runtime := runtime.withComputeUnitLimit input.cuAvail
        programs := []
        preAccounts
        programId
        accounts := instructionAccounts
        data := input.data }
    expectations := ⟨baseline, comparesForPostAccounts postAccounts⟩ }

/-! ### Export -/

def snapshotToProtoEffects (agave : Agave) (snapshot : ExecutionSnapshot)
    (instructionProgramId : Address) (cuAvail : Nat) : Except AdapterError InstrEffects := do
  let (result, customErr) ← statusToOutput snapshot.status
  let returnData ← returnDataToOutput agave instructionProgramId snapshot.returnData
  return { result, customErr, cuAvail, returnData
           modifiedAccounts := snapshot.postAccounts.map accountSnapshotToProto }

/-- `TryFrom<Fixture> for FiredancerFixture`. -/
def FiredancerFixture.tryFromFixture (agave : Agave) (value : Fixture) :
    Except AdapterError FiredancerFixture :=
  match value.input with
  | .instruction instruction => do
    let consumed := value.expectations.baseline.computeUnitsConsumed
    let inputCuAvail ← okOr .missingComputeUnitBudget instruction.runtime.computeUnitLimit
    let outputCuAvail ← okOr (.computeUnitsExceedBudget inputCuAvail consumed)
      (checkedSub inputCuAvail consumed)
    let instrAccounts ←
      instructionAccountsToProto agave instruction.preAccounts instruction.accounts
    let input : InstrContext :=
      { instrAccounts
        programId := addressToBytes instruction.programId
        accounts := instruction.preAccounts.map accountSnapshotToProto
        data := instruction.data
        cuAvail := inputCuAvail
        slotContext := some ⟨instruction.runtime.slot⟩
        epochContext := none }
    let output ← snapshotToProtoEffects agave value.expectations.baseline instruction.programId
      outputCuAvail
    return ⟨⟨some ⟨value.header.name⟩, some input, some output⟩⟩
  | .transaction _ => .error (.unsupportedFixtureKind "transaction" "instruction")

end Hpsvm
