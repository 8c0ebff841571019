import Hpsvm.Fixture.Snapshot

/-! The fixtures of `model.rs`. -/

namespace Hpsvm

/-- `CURRENT_SCHEMA_VERSION`. -/
def currentSchemaVersion : Nat := 2

/-- `SUPPORTED_SCHEMA_VERSIONS`. -/
def supportedSchemaVersions : List Nat := [currentSchemaVersion]

inductive FixtureKind
  | transaction
  | instruction
deriving DecidableEq, Repr

structure FixtureHeader where
  schemaVersion : Nat
  name : String
  kind : FixtureKind
  source : Option String
  tags : List String
deriving DecidableEq, Repr

namespace FixtureHeader

def new (name : String) (kind : FixtureKind) : FixtureHeader :=
  ⟨currentSchemaVersion, name, kind, none, []⟩

def withSource (header : FixtureHeader) (source : String) : FixtureHeader :=
  { header with source := some source }

def tag (header : FixtureHeader) (tag : String) : FixtureHeader :=
  { header with tags := header.tags ++ [tag] }

end FixtureHeader

structure RuntimeFixtureConfig where
  slot : Nat
  logBytesLimit : Option Nat
  sigverify : Bool
  blockhashCheck : Bool
  computeUnitLimit : Option Nat
deriving DecidableEq, Repr

namespace RuntimeFixtureConfig

def new (slot : Nat) (logBytesLimit : Option Nat) (sigverify blockhashCheck : Bool) :
    RuntimeFixtureConfig :=
  ⟨slot, logBytesLimit, sigverify, blockhashCheck, none⟩

def withComputeUnitLimit (config : RuntimeFixtureConfig) (computeUnitLimit : Nat) :
    RuntimeFixtureConfig :=
  { config with computeUnitLimit := some computeUnitLimit }

end RuntimeFixtureConfig

structure ProgramBinding where
  programId : Address
  loaderId : Address
  role : Option String
deriving DecidableEq, Repr

/-- `InstructionAccountMeta`, which has the fields of an `AccountMeta`. -/
abbrev InstructionAccountMeta := AccountMeta

structure TransactionFixture where
  runtime : RuntimeFixtureConfig
  programs : List ProgramBinding
  preAccounts : List AccountSnapshot
  transactionBytes : List UInt8
deriving DecidableEq, Repr

structure InstructionFixture where
  runtime : RuntimeFixtureConfig
  programs : List ProgramBinding
  preAccounts : List AccountSnapshot
  programId : Address
  accounts : List InstructionAccountMeta
  data : List UInt8
deriving DecidableEq, Repr

inductive FixtureInput
  | transaction (fixture : TransactionFixture)
  | instruction (fixture : InstructionFixture)
deriving DecidableEq, Repr

structure FixtureExpectations where
  baseline : ExecutionSnapshot
  compares : List Compare
deriving DecidableEq, Repr

structure Fixture where
  header : FixtureHeader
  input : FixtureInput
  expectations : FixtureExpectations
deriving DecidableEq, Repr

end Hpsvm
