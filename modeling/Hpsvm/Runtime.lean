import Hpsvm.Account

/-! What the VM takes from the agave crates: the data they exchange with it, and the
functions of theirs that it calls, gathered in one parameter of the model. -/

namespace Hpsvm

abbrev Hash := BitVec 256

abbrev Signature := BitVec 512

/-! ### Transactions -/

inductive TransactionError
  | accountNotFound
  | alreadyProcessed
  | blockhashNotFound
  | insufficientFundsForFee
  | insufficientFundsForRent (accountIndex : Nat)
  | invalidAccountForFee
  | invalidProgramForExecution
  | programAccountNotFound
  | sanitizeFailure
  | signatureFailure
  | unsupportedVersion
  | accountLoadedTwice
  | tooManyAccountLocks
  | addressLookupTableNotFound
  | invalidAddressLookupTableOwner
  | invalidAddressLookupTableData
  | invalidAddressLookupTableIndex
  | instructionError (index : Nat) (error : InstructionError)
  | other (code : Nat)
deriving DecidableEq, Repr

structure CompiledInstruction where
  programIdIndex : Nat
  accounts : List Nat
  data : List UInt8
deriving DecidableEq, Repr

structure AccountMeta where
  pubkey : Address
  isSigner : Bool
  isWritable : Bool
deriving DecidableEq, Repr

/-- An instruction before it is compiled into a message. -/
structure Instruction where
  programId : Address
  accounts : List AccountMeta
  data : List UInt8
deriving DecidableEq, Repr

structure MessageAddressTableLookup where
  accountKey : Address
  writableIndexes : List Nat
  readonlyIndexes : List Nat
deriving DecidableEq, Repr

structure LoadedAddresses where
  writable : List Address
  readonly : List Address
deriving DecidableEq, Repr

inductive TransactionVersion
  | legacy
  | v0
  | v1
deriving DecidableEq, Repr

structure MessageHeader where
  numRequiredSignatures : Nat
  numReadonlySignedAccounts : Nat
  numReadonlyUnsignedAccounts : Nat
deriving DecidableEq, Repr

structure VersionedTransaction where
  version : TransactionVersion
  signatures : List Signature
  header : MessageHeader
  staticAccountKeys : List Address
  recentBlockhash : Hash
  instructions : List CompiledInstruction
  addressTableLookups : List MessageAddressTableLookup
deriving DecidableEq, Repr

/-- `SanitizedMessage`: the static keys followed by the looked-up ones, and for each of them
the answer of `is_writable`, in which agave has demoted the reserved keys. -/
structure SanitizedMessage where
  accountKeys : List Address
  writable : List Bool
  recentBlockhash : Hash
  instructions : List CompiledInstruction
  addressTableLookups : List MessageAddressTableLookup
deriving DecidableEq, Repr

namespace SanitizedMessage

def isWritable (message : SanitizedMessage) (index : Nat) : Bool :=
  message.writable.getD index false

/-- The key is called as the program of some instruction. -/
def isInvoked (message : SanitizedMessage) (index : Nat) : Bool :=
  message.instructions.any fun instruction => instruction.programIdIndex == index

/-- The key is passed as an account to some instruction. -/
def isInstructionAccount (message : SanitizedMessage) (index : Nat) : Bool :=
  message.instructions.any fun instruction => instruction.accounts.contains index

end SanitizedMessage

structure SanitizedTransaction where
  message : SanitizedMessage
  signature : Signature
deriving DecidableEq, Repr

/-! ### Programs and their environment -/

structure FeatureSet where
  active : AddressMap Nat

namespace FeatureSet

def isActive (features : FeatureSet) (feature : Address) : Bool := features.active.contains feature

end FeatureSet

structure ComputeBudget where
  computeUnitLimit : Nat
  heapSize : Nat
  maxInstructionStackDepth : Nat
  maxInstructionTraceLength : Nat
deriving DecidableEq, Repr

structure ComputeBudgetLimits where
  computeUnitLimit : Nat
  updatedHeapBytes : Nat
  prioritizationFee : Nat
deriving DecidableEq, Repr

/-- A custom syscall registration: its name and the function that registers it. -/
structure CustomSyscall where
  name : String
  function : Nat
deriving DecidableEq, Repr

/-- `ProgramRuntimeEnvironments`, known by what it was built from. -/
structure RuntimeEnvironment where
  features : FeatureSet
  computeBudget : Option ComputeBudget
  syscalls : List CustomSyscall

/-- `ProgramCacheEntry`, known by what it was built from. Tier and usage counters belong to
the process-wide resident entry and are not part of it. -/
inductive ProgramCacheEntry
  | builtin (registerFn : Nat)
  | loaded (environment : RuntimeEnvironment) (loader : Address) (elf : List UInt8)
  | closedTombstone (slot : Nat)

/-- The committed part of `ProgramCacheForTxBatch`; the scratch entries and flags of a running
transaction live in its `InvokeContext`. -/
structure ProgramCache where
  entries : AddressMap ProgramCacheEntry
  slot : Nat

namespace ProgramCache

/-- `ProgramCacheForTxBatch::new`. -/
def new (slot : Nat) : ProgramCache := ⟨∅, slot⟩

def find (cache : ProgramCache) (programId : Address) : Option ProgramCacheEntry :=
  cache.entries[programId]?

def replenish (cache : ProgramCache) (programId : Address) (entry : ProgramCacheEntry) :
    ProgramCache :=
  { cache with entries := cache.entries.insert programId entry }

def removeEntry (cache : ProgramCache) (programId : Address) : ProgramCache :=
  { cache with entries := cache.entries.erase programId }

/-- `set_slot_for_tests`. -/
def setSlot (cache : ProgramCache) (slot : Nat) : ProgramCache := { cache with slot := slot }

@[simp] theorem find_new (slot : Nat) (programId : Address) :
    (new slot).find programId = none := by
  simp [find, new]

@[simp] theorem find_replenish (cache : ProgramCache) (programId other : Address)
    (entry : ProgramCacheEntry) :
    (cache.replenish programId entry).find other =
      if programId = other then some entry else cache.find other := by
  simp [find, replenish]

end ProgramCache

/-- `SysvarCache`: the bytes of every sysvar that was filled in. -/
abbrev SysvarCache := Sysvar → Option (List UInt8)

/-- `solana_rent::Rent`, through the one function the VM computes with. -/
structure Rent where
  minimumBalance : Nat → Nat

namespace Rent

def isExempt (rent : Rent) (balance dataLen : Nat) : Bool :=
  decide (rent.minimumBalance dataLen ≤ balance)

end Rent

/-- An entry of `solana_builtins::BUILTINS`. -/
structure BuiltinPrototype where
  programId : Address
  registerFn : Nat
  enableFeatureId : Option Address
  name : String
deriving DecidableEq, Repr

/-- The vendored binaries under `elf/`. -/
inductive BundledElf
  | pinocchioToken
  | splToken
  | splToken2022
  | splAssociatedTokenAccount
  | splMemo1
  | splMemo3
  | config
  | addressLookupTable
  | coreBpfStake
deriving DecidableEq, Repr

/-- A precompile of the VM's provider. -/
structure Precompile where
  programId : Address
  feature : Option Address
  verify : List UInt8 → List (List UInt8) → Bool

/-! ### Execution -/

structure TransactionReturnData where
  programId : Address
  data : List UInt8
deriving DecidableEq, Repr

structure InstructionAccount where
  indexInTransaction : Nat
  isSigner : Bool
  isWritable : Bool
deriving DecidableEq, Repr

/-- A frame of the instruction trace; top-level frames have no caller. -/
structure InstructionFrame where
  caller : Option Nat
  nestingLevel : Nat
  programAccountIndex : Nat
  accounts : List InstructionAccount
  data : List UInt8
deriving DecidableEq, Repr

/-- `InvokeContext`, with the `TransactionContext` and log collector it borrows. The keys of a
transaction context never change, so they index its type. -/
structure InvokeContext (keys : List Address) where
  accounts : Fin keys.length → AccountSharedData
  returnData : TransactionReturnData
  trace : List InstructionFrame
  logs : List String
  modifiedEntries : AddressMap ProgramCacheEntry
  computeMeter : Nat

/-- The accounts of a context with their keys, as `ExecutionRecord` lists them. -/
def InvokeContext.pairs {keys : List Address} (context : InvokeContext keys) :
    List (Address × AccountSharedData) :=
  List.ofFn fun index => (keys.get index, context.accounts index)

/-- `EnvironmentConfig` and the budgets an `InvokeContext` is created with. -/
structure EnvironmentConfig where
  blockhash : Hash
  lamportsPerSignature : Nat
  features : FeatureSet
  environments : RuntimeEnvironment
  sysvarCache : SysvarCache
  computeBudget : ComputeBudget
  rent : Rent
  logBytesLimit : Option Nat

/-- What `process_instruction` leaves: its result, the units it consumed, and the context it
mutated in place, whether or not it succeeded. -/
structure InstructionOutcome (keys : List Address) where
  result : Except InstructionError Unit
  computeUnitsConsumed : Nat
  context : InvokeContext keys

inductive SystemAccountKind
  | system
  | nonce
deriving DecidableEq, Repr

/-- `AddressLookupError`. -/
inductive AddressLookupError
  | lookupTableAccountNotFound
  | invalidAccountOwner
  | invalidAccountData
  | invalidLookupIndex
deriving DecidableEq, Repr

/-- An SPL token account, as far as the diagnostics read it. -/
structure TokenAccount where
  mint : Address
  owner : Address
  amount : Nat
deriving DecidableEq, Repr

/-- The functions of the agave, Solana and SPL crates that the VM calls. Each depends only on
the arguments it is given here. -/
structure Agave where
  -- `solana_builtins::BUILTINS`.
  builtins : List BuiltinPrototype
  -- `deserialize_data` of the sysvar's type accepts the account data.
  deserializesSysvar : Sysvar → List UInt8 → Bool
  -- `SysvarCache::fill_missing_entries` keeps the bytes.
  fillsSysvar : Sysvar → List UInt8 → Bool
  -- The slot of an encoded `Clock`.
  clockSlot : List UInt8 → Nat
  -- An encoded `Clock` with its slot replaced.
  withClockSlot : List UInt8 → Nat → List UInt8
  -- A decoded `Rent`.
  rent : List UInt8 → Rent
  defaultRent : Rent
  -- `get_program_data_address`.
  programDataAddress : Address → Address
  -- `ProgramCacheEntry::load`: parses and verifies the ELF under the environment.
  loadElf : RuntimeEnvironment → Address → List UInt8 → Except String Unit
  -- `create_program_runtime_environment`.
  createRuntimeEnvironment : FeatureSet → ComputeBudget → Except String Unit
  -- Registers a syscall with an environment of these features, after those already registered.
  registerSyscall : FeatureSet → List CustomSyscall → CustomSyscall → Except String Unit
  -- `ComputeBudget::new_with_defaults`.
  defaultComputeBudget : Bool → ComputeBudget
  -- The base58 text of an address, and the text of an instruction error.
  addressText : Address → String
  instructionErrorText : InstructionError → String
  raiseCpiNestingLimitTo8 : Address
  replaceSplTokenWithPToken : Address
  increaseTxV1AccountLockLimit : Address
  bundledElf : BundledElf → List UInt8
  -- The data of the account of a feature activated at a slot.
  featureAccountData : Nat → List UInt8
  -- `ReservedAccountKeys`, updated for a feature set.
  reservedAccountKeys : FeatureSet → Finset Address
  -- A legacy message of the instructions, with a default signature for each signer.
  compileMessage : List Instruction → Address → Hash → VersionedTransaction
  -- The checks of `SanitizedTransaction::try_create` that precede the address lookups.
  sanitizeEnvelope : VersionedTransaction → Except TransactionError Unit
  -- The checks of `try_create` once the lookup tables are resolved, under the reserved keys.
  buildSanitized : VersionedTransaction → LoadedAddresses → Finset Address →
    Except TransactionError SanitizedTransaction
  -- `AddressLookupTable::lookup` in the table's data, at a slot, under the slot hashes.
  lookupAddresses : List UInt8 → Nat → List UInt8 → List Nat →
    Except AddressLookupError (List Address)
  -- `SanitizedTransaction::verify`.
  verify : SanitizedTransaction → Except TransactionError Unit
  processComputeBudgetInstructions : SanitizedMessage → FeatureSet →
    Except TransactionError ComputeBudgetLimits
  calculateFee : SanitizedMessage → Nat → Nat → Nat
  -- `SVMStaticMessage::get_durable_nonce`.
  getDurableNonce : SanitizedMessage → Option Address
  -- `DurableNonce::from_blockhash`.
  durableNonce : Hash → Hash
  -- `verify_nonce_account`, answering the authority of the nonce.
  verifyNonceAccount : AccountSharedData → Hash → Option Address
  -- `SVMStaticMessage::get_ix_signers`.
  getIxSigners : SanitizedMessage → Nat → List Address
  -- `get_system_account_kind`.
  systemAccountKind : AccountSharedData → Option SystemAccountKind
  -- `construct_instructions_data`.
  instructionsData : SanitizedMessage → List UInt8
  unpackTokenAccount : List UInt8 → Option TokenAccount
  -- `TokenMint::unpack`, answering the decimals.
  unpackMint : List UInt8 → Option Nat
  -- `InvokeContext::prepare_top_level_instructions`.
  prepareTopLevelInstructions : ∀ {keys : List Address}, EnvironmentConfig → SanitizedMessage →
    InvokeContext keys → Except (Nat × InstructionError) (InvokeContext keys)
  -- `InvokeContext::process_instruction` for the top-level instruction of an index.
  processInstruction : ∀ {keys : List Address}, EnvironmentConfig → ProgramCache →
    SanitizedMessage → Nat → InvokeContext keys → InstructionOutcome keys
  -- `InvokeContext::process_precompile`, given the answer of the precompile.
  processPrecompile : ∀ {keys : List Address}, SanitizedMessage → Nat → Bool →
    InvokeContext keys → InstructionOutcome keys

end Hpsvm
