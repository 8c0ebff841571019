import Hpsvm.Builder

/-!
# A sample runtime

An executable instance of the runtime the model is parameterized by, with the transfer of the
system program as its one instruction that moves lamports, and VMs built on it. Like agave's, the
transfer debits the source before the credit that can still overflow, and leaves the debit in the
context when it does.
-/

namespace Hpsvm.Sample

/-- The registration of the system program's entrypoint. -/
def systemFn : Nat := 1

/-- The units the system program charges. -/
def transferUnits : Nat := 150

variable {keys : List Address}

def setLamports (context : InvokeContext keys) (index : Fin keys.length) (lamports : Nat) :
    InvokeContext keys :=
  { context with
    accounts := Function.update context.accounts index
      { context.accounts index with lamports := lamports } }

/-- A system transfer between two accounts of the context. -/
def transfer (context : InvokeContext keys) (source target : Fin keys.length) (amount : Nat) :
    InstructionOutcome keys :=
  if (context.accounts source).lamports < amount then
    ⟨.error (.custom 1), transferUnits, context⟩
  else
    let debited := setLamports context source ((context.accounts source).lamports - amount)
    if 2 ^ 64 ≤ (debited.accounts target).lamports + amount then
      ⟨.error .arithmeticOverflow, transferUnits, debited⟩
    else
      ⟨.ok (), transferUnits,
        setLamports debited target ((debited.accounts target).lamports + amount)⟩

/-- Decodes a transfer: source and target among the writable accounts, then the amount. -/
def processSystem (message : SanitizedMessage) (instruction : CompiledInstruction)
    (context : InvokeContext keys) : InstructionOutcome keys :=
  match instruction.accounts, instruction.data with
  | source :: target :: _, [2, amount] =>
    if bounds : source < keys.length ∧ target < keys.length then
      if message.isWritable source && message.isWritable target then
        transfer context ⟨source, bounds.1⟩ ⟨target, bounds.2⟩ amount.toNat
      else ⟨.error .invalidAccountData, transferUnits, context⟩
    else ⟨.error .invalidAccountData, transferUnits, context⟩
  | _, _ => ⟨.error .invalidAccountData, transferUnits, context⟩

/-- Loaded programs and the other builtins succeed without touching an account; a program without
an entry is not supported. -/
def processInstruction (_ : EnvironmentConfig) (cache : ProgramCache) (message : SanitizedMessage)
    (index : Nat) (context : InvokeContext keys) : InstructionOutcome keys :=
  match message.instructions[index]? with
  | none => ⟨.error .invalidAccountData, 0, context⟩
  | some instruction =>
    match cache.find (message.accountKeys.getD instruction.programIdIndex 0) with
    | some (.builtin registerFn) =>
      if registerFn = systemFn then processSystem message instruction context
      else ⟨.ok (), 1, context⟩
    | some (.loaded _ _ _) => ⟨.ok (), 1, context⟩
    | some (.closedTombstone _) => ⟨.error .unsupportedProgramId, 0, context⟩
    | none => ⟨.error .unsupportedProgramId, 0, context⟩

/-- The writable flag of a static key, before reserved keys and programs are demoted. -/
def writableByHeader (header : MessageHeader) (staticLen index : Nat) : Bool :=
  if index < header.numRequiredSignatures then
    decide (index < header.numRequiredSignatures - header.numReadonlySignedAccounts)
  else decide (index < staticLen - header.numReadonlyUnsignedAccounts)

def buildSanitized (tx : VersionedTransaction) (loaded : LoadedAddresses)
    (reserved : Finset Address) : Except TransactionError SanitizedTransaction :=
  let accountKeys := tx.staticAccountKeys ++ loaded.writable ++ loaded.readonly
  let flags := ((List.range tx.staticAccountKeys.length).map
      (writableByHeader tx.header tx.staticAccountKeys.length)) ++
    loaded.writable.map (fun _ => true) ++ loaded.readonly.map fun _ => false
  let invoked (index : Nat) : Bool :=
    tx.instructions.any fun instruction => instruction.programIdIndex == index
  .ok
    { message :=
        { accountKeys := accountKeys
          writable := (accountKeys.zip flags).zipIdx.map fun ((key, flag), index) =>
            flag && decide (key ∉ reserved) && !invoked index
          recentBlockhash := tx.recentBlockhash
          instructions := tx.instructions
          addressTableLookups := tx.addressTableLookups }
      signature := tx.signatures.headD 0 }

/-- An ELF loads if it starts with the ELF magic byte. -/
def loadElf (_ : RuntimeEnvironment) (_ : Address) (elf : List UInt8) : Except String Unit :=
  if elf.head? = some 0x7f then .ok () else .error "invalid ELF header"

def computeBudget : ComputeBudget := ⟨1_400_000, 32_768, 5, 64⟩

/-- A lookup table's data are the last bytes of the addresses it lists. -/
def lookupAddresses (table : List UInt8) (indexes : List Nat) :
    Except AddressLookupError (List Address) :=
  indexes.mapM fun index =>
    match table[index]? with
    | some byte => .ok (BitVec.ofNat 256 byte.toNat)
    | none => .error .invalidLookupIndex

/-- Compiles an instruction whose accounts are all writable and unsigned, apart from the payer. -/
def compileMessage (instructions : List Instruction) (payer : Address) (blockhash : Hash) :
    VersionedTransaction :=
  let metas := instructions.flatMap fun instruction =>
    instruction.accounts.map fun account => account.pubkey
  let writable := (metas.filter fun pubkey => pubkey != payer).dedup
  let programs := (instructions.map fun instruction => instruction.programId).dedup
  let keys := payer :: writable ++ programs
  { version := .legacy
    signatures := [0]
    header := ⟨1, 0, programs.length⟩
    staticAccountKeys := keys
    recentBlockhash := blockhash
    instructions := instructions.map fun instruction =>
      ⟨keys.idxOf instruction.programId,
        instruction.accounts.map fun account => keys.idxOf account.pubkey, instruction.data⟩
    addressTableLookups := [] }

def agave : Agave where
  builtins := [⟨Ids.systemProgram, systemFn, none, "system_program"⟩]
  deserializesSysvar := fun _ data => !data.isEmpty
  fillsSysvar := fun _ data => !data.isEmpty
  clockSlot := fun data => (data.headD 0).toNat
  withClockSlot := fun data slot => UInt8.ofNat slot :: data.drop 1
  rent := fun _ => ⟨fun _ => 0⟩
  defaultRent := ⟨fun _ => 0⟩
  programDataAddress := fun programId => programId ^^^ (1 <<< 255)
  loadElf := loadElf
  createRuntimeEnvironment := fun _ _ => .ok ()
  registerSyscall := fun _ _ _ => .ok ()
  defaultComputeBudget := fun _ => computeBudget
  addressText := fun _ => "address"
  instructionErrorText := fun _ => "instruction error"
  raiseCpiNestingLimitTo8 := 0x5eed
  replaceSplTokenWithPToken := 0x5eef
  increaseTxV1AccountLockLimit := 0x5eee
  bundledElf := fun _ => [0x7f]
  featureAccountData := fun slot => [1, UInt8.ofNat slot]
  reservedAccountKeys := fun _ => {Ids.systemProgram, Sysvar.clock.id, Sysvar.rent.id}
  compileMessage := compileMessage
  sanitizeEnvelope := fun _ => .ok ()
  buildSanitized := buildSanitized
  lookupAddresses := fun table _ _ indexes => lookupAddresses table indexes
  verify := fun _ => .ok ()
  processComputeBudgetInstructions := fun _ _ => .ok ⟨200_000, 32_768, 0⟩
  calculateFee := fun _ lamportsPerSignature prioritizationFee =>
    lamportsPerSignature + prioritizationFee
  getDurableNonce := fun _ => none
  durableNonce := fun blockhash => blockhash + 1
  verifyNonceAccount := fun _ _ => none
  getIxSigners := fun _ _ => []
  systemAccountKind := fun account =>
    if account.owner = Ids.systemProgram ∧ account.data = [] then some .system else none
  instructionsData := fun message => message.instructions.flatMap fun ix => ix.data
  unpackTokenAccount := fun _ => none
  unpackMint := fun _ => none
  prepareTopLevelInstructions := fun _ _ context => .ok context
  processInstruction := processInstruction
  processPrecompile := fun _ _ verified context =>
    ⟨if verified then .ok () else .error (.custom 0), 0, context⟩

/-! ### Sample VMs -/

def environment : RuntimeEnvironment := ⟨⟨∅⟩, none, []⟩

def systemAccount (lamports : Nat) : AccountSharedData :=
  { AccountSharedData.default with lamports := lamports }

/-- The overlay of a VM with the system program, the clock and the rent sysvar, and the given
accounts. -/
def overlay (entries : List (Address × AccountSharedData)) : AddressMap AccountSharedData :=
  ([(Ids.systemProgram, builtinAccount), (Sysvar.clock.id, sysvarAccount [0]),
      (Sysvar.rent.id, sysvarAccount [1])] ++ entries).foldl
    (fun inner (key, account) => inner.insert key account) ∅

def accounts (entries : List (Address × AccountSharedData)) (source : AccountSource) :
    Accounts where
  source := source
  cache := ⟨overlay entries, ∅⟩
  programsCache := (ProgramCache.new 0).replenish Ids.systemProgram (.builtin systemFn)
  sysvarCache := Accounts.fillSysvarCache agave (overlay entries)
  environments := environment
  journal := []

/-- A VM with sysvars, history and the default fee, without diagnostics. -/
def vm (entries : List (Address × AccountSharedData)) (source : AccountSource) : Svm where
  accounts := accounts entries source
  history := .new
  version :=
    { featureSet := ⟨∅⟩
      lamportsPerSignature := 5000
      computeBudget := none
      logBytesLimit := some 10_000
      sigverify := true
      blockhashCheck := true
      computeDiagnostics := false }
  blockEnv := ⟨0xb10c, 0⟩
  materialized := { builtins := true, sysvars := true }
  precompiles := []
  loadsStandardPrecompiles := false
  customSyscalls := []
  reservedAccountKeys := {Ids.systemProgram, Sysvar.clock.id, Sysvar.rent.id}
  airdropPubkey := 0xa1d

/-- A genesis whose feature set is empty, with a byte for every sysvar. -/
def genesis : Genesis where
  defaultFeatures := ⟨∅⟩
  allEnabled := ⟨∅⟩
  emptyEnvironment := environment
  blockhash := 0xb10c
  lamportsPerSignature := 5000
  precompiles := []
  sysvarData := fun _ _ slot _ => [UInt8.ofNat slot]
  slotHistoryData := [0]

/-- A legacy transaction of one signer: `writable` keys after the payer, then the system program,
with transfers between key indexes. -/
def transferTx (signature : Signature) (payer : Address) (writable : List Address)
    (transfers : List (List Nat × UInt8)) : VersionedTransaction where
  version := .legacy
  signatures := [signature]
  header := ⟨1, 0, 1⟩
  staticAccountKeys := payer :: writable ++ [Ids.systemProgram]
  recentBlockhash := 0xb10c
  instructions := transfers.map fun (indexes, amount) =>
    ⟨writable.length + 1, indexes, [2, amount]⟩
  addressTableLookups := []

end Hpsvm.Sample
