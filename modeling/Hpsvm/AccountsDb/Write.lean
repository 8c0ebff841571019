import Hpsvm.AccountsDb.Load
import Hpsvm.Foundation.TwoPointer

/-!
# Writing accounts

The checked writes of `accounts_db.rs`: `add_account`, `remove_account`, the staging of a
transaction's accounts by `sync_accounts`, and the two prewarm operations. A fallible `&mut self`
method answers its result together with the database it leaves, also when it fails.
-/

namespace Hpsvm

/-- `validate_sysvar_account`. -/
def validateSysvarAccount (agave : Agave) (pubkey : Address) (account : AccountSharedData) :
    Except InvalidSysvarDataError Unit :=
  match Sysvar.at? pubkey with
  | none => .ok ()
  | some sysvar =>
    if agave.deserializesSysvar sysvar account.data then .ok () else .error sysvar

/-- The test of `sync_accounts` for `UpgradeableLoaderState::ProgramData`. -/
def isProgramdata (account : AccountSharedData) : Bool :=
  account.owner == Ids.bpfLoaderUpgradeable && account.data.head? == some 3

/-- The two-pointer partition of `sync_accounts`: `front` is the block before `write`, `back` the
block between `write` and `read`. Swapping moves the first account of `back` behind it. -/
def partitionProgramdata (front back : List (Address × AccountSharedData)) :
    List (Address × AccountSharedData) → List (Address × AccountSharedData)
  | [] => front ++ back
  | pair :: rest =>
    if isProgramdata pair.2 then
      match back with
      | [] => partitionProgramdata (front ++ [pair]) [] rest
      | first :: back => partitionProgramdata (front ++ [pair]) (back ++ [first]) rest
    else partitionProgramdata front (back ++ [pair]) rest

/-- The same partition as the loop runs it, in place. -/
def partitionInPlace (accounts : List (Address × AccountSharedData)) :
    List (Address × AccountSharedData) :=
  (Foundation.TwoPointer.partition (fun pair => isProgramdata pair.2) accounts.toArray).toList

namespace Accounts

variable (agave : Agave)

/-- The overlay mutation of `add_account`, once its checks have passed. -/
def writeAccount (db : Accounts) (pubkey : Address) (account : AccountSharedData) : Accounts :=
  { db.recordJournal pubkey with cache := db.cache.store pubkey account }

def hadCachedProgram (db : Accounts) (pubkey : Address) : Bool :=
  match db.cache.inner[pubkey]? with
  | some existing => isCachedProgramAccount pubkey existing
  | none => false

def hasCachedProgram (pubkey : Address) (account : AccountSharedData) : Bool :=
  account.lamports != 0 && isCachedProgramAccount pubkey account

/-- The part of `add_account` that can fail before anything is written. -/
def checkAccount (db : Accounts) (pubkey : Address) (account : AccountSharedData) :
    Except HpsvmError (Option ProgramCacheEntry) :=
  if isManagedSysvarAccount pubkey && account.lamports != 0 then
    match validateSysvarAccount agave pubkey account with
    | .error error => .error (.invalidSysvarData error)
    | .ok () => loadEntry
  else loadEntry
where
  loadEntry : Except HpsvmError (Option ProgramCacheEntry) :=
    if hasCachedProgram pubkey account then
      match db.loadProgram agave account with
      | .error error => .error (.instruction error)
      | .ok entry => .ok (some entry)
    else .ok none

/-- A written or removed sysvar account leaves or reaches the sysvar cache at once. -/
def refreshSysvars (db : Accounts) (pubkey : Address) : Accounts :=
  if isManagedSysvarAccount pubkey then db.rebuildSysvarCache agave else db

def addAccount (db : Accounts) (pubkey : Address) (account : AccountSharedData) :
    Except HpsvmError Unit × Accounts :=
  match db.checkAccount agave pubkey account with
  | .error error => (.error error, db)
  | .ok programEntry =>
    let written := (db.writeAccount pubkey account).refreshSysvars agave pubkey
    match programEntry with
    | some entry =>
      (.ok (), { written with programsCache := written.programsCache.replenish pubkey entry })
    | none =>
      if db.hadCachedProgram pubkey then
        -- The rebuild can fail after the account was written.
        match written.rebuildProgramCache agave with
        | (.error error, written) => (.error (.instruction error), written)
        | (.ok (), rebuilt) => (.ok (), rebuilt)
      else (.ok (), written)

def removeAccount (db : Accounts) (pubkey : Address) : Accounts :=
  let removed : Accounts := { db.recordJournal pubkey with cache := db.cache.drop pubkey }
  { removed with programsCache := removed.programsCache.removeEntry pubkey }.refreshSysvars
    agave pubkey

/-- The loop of `sync_accounts`, which stops at the first account that is refused. -/
def addAccounts (db : Accounts) : List (Address × AccountSharedData) →
    Except HpsvmError Unit × Accounts
  | [] => (.ok (), db)
  | (address, account) :: rest =>
    match db.addAccount agave address account with
    | (.error error, db) => (.error error, db)
    | (.ok (), db) => addAccounts db rest

def syncAccounts (db : Accounts) (accounts : List (Address × AccountSharedData)) :
    Except HpsvmError Unit × Accounts :=
  db.addAccounts agave (partitionProgramdata [] [] accounts)

/-! ### Prewarming -/

/-- The addresses `prewarm` asks the source for, each once. -/
def missingAddresses (db : Accounts) : List Address → List Address → List Address
  | seen, [] => seen
  | seen, address :: rest =>
    if db.cache.inner.contains address || decide (address ∈ db.cache.removed) ||
        seen.contains address then
      missingAddresses db seen rest
    else missingAddresses db (seen ++ [address]) rest

/-- Inserts what the source answered, key by key; absent accounts leave no tombstone. -/
def insertLoaded (db : Accounts) : List (Address × Option AccountSharedData) → Accounts
  | [] => db
  | (address, some account) :: rest => insertLoaded (db.addAccountNoChecks address account) rest
  | (_, none) :: rest => insertLoaded db rest

def prewarm (db : Accounts) (addresses : List Address) : Except DbError Unit × Accounts :=
  match db.missingAddresses [] addresses with
  | [] => (.ok (), db)
  | missing =>
    match db.source.getAccounts missing with
    | .error error => (.error (DbError.ofAccountSource error), db)
    | .ok loaded => (.ok (), db.insertLoaded (missing.zip loaded))

/-- The programs `prewarm_programs` loads: no cache entry yet, and a program account in the
overlay. -/
def programsToResolve (db : Accounts) (programIds : List Address) :
    List (Address × AccountSharedData) :=
  programIds.filterMap fun programId =>
    if (db.programsCache.find programId).isSome then none
    else match db.cache.inner[programId]? with
      | none => none
      | some account =>
        if isCachedProgramAccount programId account then some (programId, account) else none

/-- Loads the programs in turn; the ones before a failure stay in the cache. -/
def resolvePrograms (db : Accounts) : List (Address × AccountSharedData) →
    Except DbError Unit × Accounts
  | [] => (.ok (), db)
  | (programId, account) :: rest =>
    match db.loadProgram agave account with
    | .error source => (.error (DbError.nonFatal (.prewarmProgram programId source)), db)
    | .ok entry =>
      resolvePrograms { db with programsCache := db.programsCache.replenish programId entry } rest

def prewarmPrograms (db : Accounts) (programIds : List Address) : Except DbError Unit × Accounts :=
  db.resolvePrograms agave (db.programsToResolve programIds)

end Accounts

end Hpsvm
