import Hpsvm.AccountsDb.Overlay

/-!
# Loading programs and rebuilding the caches

`load_program`, `rebuild_sysvar_cache` and `rebuild_program_cache` of `accounts_db.rs`. An
entry is built here; looking it up in the process-wide store of verified executables (`Residency`)
gives the same `ProgramCacheEntry` as long as no environment is given an address the store has
entries under.
-/

namespace Hpsvm

/-- `is_cached_program_account`. -/
def isCachedProgramAccount (pubkey : Address) (account : AccountSharedData) : Bool :=
  account.executable && pubkey != Ids.systemProgram && account.owner != Ids.nativeLoader

namespace UpgradeableLoaderState

def sizeOfProgramdataMetadata : Nat := 45

def sizeOfProgram : Nat := 36

/-- The bincode form of `UpgradeableLoaderState::Program`. -/
def serializeProgram (programdataAddress : Address) : List UInt8 :=
  2 :: 0 :: 0 :: 0 :: programdataAddress.toBytes

/-- Reads a state that is `UpgradeableLoaderState::Program`, ignoring trailing bytes. -/
def deserializeProgram : List UInt8 → Option Address
  | 2 :: 0 :: 0 :: 0 :: rest =>
    if 32 ≤ rest.length then some (Address.ofBytes (rest.take 32)) else none
  | _ => none

/-- The bincode form of `UpgradeableLoaderState::ProgramData` without an upgrade authority. -/
def serializeProgramData (slot : Nat) : List UInt8 :=
  3 :: 0 :: 0 :: 0 :: ((List.range 8).map fun index => UInt8.ofNat (slot / 256 ^ index)) ++ [0]

theorem deserializeProgram_serializeProgram (programdataAddress : Address) :
    deserializeProgram (serializeProgram programdataAddress) = some programdataAddress := by
  have length := Address.length_toBytes programdataAddress
  have all : programdataAddress.toBytes.take 32 = programdataAddress.toBytes :=
    List.take_of_length_le (by omega)
  simp [deserializeProgram, serializeProgram, length, all, Address.ofBytes_toBytes]

end UpgradeableLoaderState

/-- `LoaderV4State::program_data_offset()`. -/
def loaderV4ProgramDataOffset : Nat := 48

/-- The account whose bytes an upgradeable program account refers to. -/
def programdataAddress? (account : AccountSharedData) : Option Address :=
  if account.owner = Ids.bpfLoaderUpgradeable then
    UpgradeableLoaderState.deserializeProgram account.data
  else none

namespace Accounts

variable (agave : Agave)

/-! ### Sysvars -/

/-- `sysvar_cache.get_clock()`, as far as its slot. -/
def clockSlot? (db : Accounts) : Option Nat := (db.sysvarCache .clock).map agave.clockSlot

def currentSlot (db : Accounts) : Nat := (db.clockSlot? agave).getD 0

/-- `sysvar_cache.get_rent()`. -/
def rent? (db : Accounts) : Option Rent := (db.sysvarCache .rent).map agave.rent

def minimumBalanceForRentExemption (db : Accounts) (dataLen : Nat) : Nat :=
  max 1 (((db.rent? agave).getD agave.defaultRent).minimumBalance dataLen)

/-- `SysvarCache::fill_missing_entries` on an empty cache, reading the overlay only. -/
def fillSysvarCache (inner : AddressMap AccountSharedData) : SysvarCache := fun sysvar =>
  match inner[sysvar.id]? with
  | some account => if agave.fillsSysvar sysvar account.data then some account.data else none
  | none => none

/-- Without a clock the program cache keeps its slot. -/
def rebuildSysvarCache (db : Accounts) : Accounts :=
  let sysvarCache := fillSysvarCache agave db.cache.inner
  let slot := ((sysvarCache .clock).map agave.clockSlot).getD db.programsCache.slot
  { db with sysvarCache := sysvarCache, programsCache := db.programsCache.setSlot slot }

/-! ### Programs -/

/-- Builds the entry of an ELF under the database's environment. -/
def loadElf (db : Accounts) (loader : Address) (elf : List UInt8) :
    Except InstructionError ProgramCacheEntry :=
  match agave.loadElf db.environments loader elf with
  | .ok () => .ok (.loaded db.environments loader elf)
  | .error _ => .error .invalidAccountData

def loadProgram (db : Accounts) (programAccount : AccountSharedData) :
    Except InstructionError ProgramCacheEntry :=
  match db.clockSlot? agave with
  | none => .error .invalidAccountData
  | some slot =>
    if programAccount.owner = Ids.bpfLoader ∨ programAccount.owner = Ids.bpfLoaderDeprecated then
      db.loadElf agave programAccount.owner programAccount.data
    else if programAccount.owner = Ids.bpfLoaderUpgradeable then
      match UpgradeableLoaderState.deserializeProgram programAccount.data with
      | none => .error .invalidAccountData
      | some programdataAddress =>
        match db.getAccount programdataAddress with
        | none => .ok (.closedTombstone slot)
        | some account =>
          if UpgradeableLoaderState.sizeOfProgramdataMetadata ≤ account.data.length then
            db.loadElf agave programAccount.owner
              (account.data.drop UpgradeableLoaderState.sizeOfProgramdataMetadata)
          else .error .invalidAccountData
    else if programAccount.owner = Ids.loaderV4 then
      if loaderV4ProgramDataOffset ≤ programAccount.data.length then
        db.loadElf agave Ids.loaderV4 (programAccount.data.drop loaderV4ProgramDataOffset)
      else .error .invalidAccountData
    else .error .incorrectProgramId

/-- The overlay's program accounts, in the order `rebuild_program_cache` visits them. -/
def programAccounts (db : Accounts) : List (Address × AccountSharedData) :=
  db.cache.inner.toList.filter fun (pubkey, account) => isCachedProgramAccount pubkey account

/-- The first loop of `rebuild_program_cache`. -/
def replenishBuiltins (inner : AddressMap AccountSharedData) (cache : ProgramCache) :
    List BuiltinPrototype → ProgramCache
  | [] => cache
  | builtin :: rest =>
    replenishBuiltins inner
      (if inner.contains builtin.programId then
        cache.replenish builtin.programId (.builtin builtin.registerFn)
      else cache) rest

/-- The second loop of `rebuild_program_cache`. -/
def replenishPrograms (db : Accounts) (cache : ProgramCache) :
    List (Address × AccountSharedData) → Except InstructionError ProgramCache
  | [] => .ok cache
  | (pubkey, account) :: rest =>
    match db.loadProgram agave account with
    | .error error => .error error
    | .ok entry => replenishPrograms db (cache.replenish pubkey entry) rest

/-- The cache `rebuild_program_cache` publishes. -/
def rebuiltProgramCache (db : Accounts) : Except InstructionError ProgramCache :=
  replenishPrograms agave db
    (replenishBuiltins db.cache.inner (ProgramCache.new (db.currentSlot agave)) agave.builtins)
    db.programAccounts

/-- The cache is published only once every program account has loaded. -/
def rebuildProgramCache (db : Accounts) : Except InstructionError Unit × Accounts :=
  match db.rebuiltProgramCache agave with
  | .error error => (.error error, db)
  | .ok cache => (.ok (), { db with programsCache := cache })

end Accounts

end Hpsvm
