import Hpsvm.Foundation.UndoLog
import Hpsvm.Runtime

/-!
# The account overlay

The database of `accounts_db.rs`: an overlay of written and removed accounts over an external
source, the journal that undoes overlay writes, and the caches derived from the overlay.
-/

namespace Hpsvm

/-- `CacheDb`: the accounts written over the source, and the addresses removed from it. -/
structure CacheDb where
  inner : AddressMap AccountSharedData
  removed : Finset Address

/-- `JournalEntry::Account`: the state of one address before a mutation. -/
structure JournalEntry where
  address : Address
  previous : Option AccountSharedData
  wasRemoved : Bool
deriving DecidableEq, Repr

namespace CacheDb

def empty : CacheDb := ⟨∅, ∅⟩

/-- Writes an account and lifts its tombstone. -/
def put (cache : CacheDb) (pubkey : Address) (account : AccountSharedData) : CacheDb :=
  ⟨cache.inner.insert pubkey account, cache.removed.erase pubkey⟩

/-- Removes an account and leaves a tombstone. -/
def drop (cache : CacheDb) (pubkey : Address) : CacheDb :=
  ⟨cache.inner.erase pubkey, insert pubkey cache.removed⟩

/-- The write of `add_account`: an account without lamports is removed. -/
def store (cache : CacheDb) (pubkey : Address) (account : AccountSharedData) : CacheDb :=
  if account.lamports = 0 then cache.drop pubkey else cache.put pubkey account

/-- The entry `record_journal` pushes. -/
def journalEntry (cache : CacheDb) (pubkey : Address) : JournalEntry :=
  ⟨pubkey, cache.inner[pubkey]?, decide (pubkey ∈ cache.removed)⟩

end CacheDb

/-- One round of the loop in `rollback`. -/
def JournalEntry.undo (entry : JournalEntry) (cache : CacheDb) : CacheDb where
  inner := match entry.previous with
    | some account => cache.inner.insert entry.address account
    | none => cache.inner.erase entry.address
  removed :=
    if entry.wasRemoved then insert entry.address cache.removed
    else cache.removed.erase entry.address

namespace CacheDb

theorem eq_of_lookups {cache cache' : CacheDb}
    (inner : ∀ key : Address, cache.inner[key]? = cache'.inner[key]?)
    (removed : ∀ key, key ∈ cache.removed ↔ key ∈ cache'.removed) : cache = cache' := by
  obtain ⟨accounts, tombstones⟩ := cache
  obtain ⟨accounts', tombstones'⟩ := cache'
  obtain rfl : accounts = accounts' := Std.ExtTreeMap.ext_getElem? inner
  obtain rfl : tombstones = tombstones' := Finset.ext removed
  rfl

-- Undoing restores the one address the entry is about, whatever was written to it since.
private theorem undo_of_agree (cache cache' : CacheDb) (pubkey : Address)
    (inner : ∀ other : Address, pubkey ≠ other → cache'.inner[other]? = cache.inner[other]?)
    (removed : ∀ other, pubkey ≠ other → (other ∈ cache'.removed ↔ other ∈ cache.removed)) :
    (cache.journalEntry pubkey).undo cache' = cache := by
  refine eq_of_lookups ?_ ?_
  · intro other
    simp only [JournalEntry.undo, journalEntry]
    by_cases same : pubkey = other
    · subst same
      cases found : cache.inner[pubkey]? <;> simp
    · cases found : cache.inner[pubkey]? <;> simpa [same] using inner other same
  · intro other
    simp only [JournalEntry.undo, journalEntry]
    by_cases same : pubkey = other
    · subst same
      by_cases member : pubkey ∈ cache.removed <;> simp [member]
    · have differ : other ≠ pubkey := fun equal => same equal.symm
      by_cases member : pubkey ∈ cache.removed <;> simpa [member, differ] using removed other same

theorem undo_put (cache : CacheDb) (pubkey : Address) (account : AccountSharedData) :
    (cache.journalEntry pubkey).undo (cache.put pubkey account) = cache := by
  refine undo_of_agree cache _ pubkey ?_ ?_
  · intro other differ
    simp [put, differ]
  · intro other differ
    simp [put, Ne.symm differ]

theorem undo_drop (cache : CacheDb) (pubkey : Address) :
    (cache.journalEntry pubkey).undo (cache.drop pubkey) = cache := by
  refine undo_of_agree cache _ pubkey ?_ ?_
  · intro other differ
    simp [drop, differ]
  · intro other differ
    simp [drop, Ne.symm differ]

theorem undo_store (cache : CacheDb) (pubkey : Address) (account : AccountSharedData) :
    (cache.journalEntry pubkey).undo (cache.store pubkey account) = cache := by
  unfold store
  split
  · exact undo_drop cache pubkey
  · exact undo_put cache pubkey account

@[simp] theorem put_inner (cache : CacheDb) (pubkey : Address) (account : AccountSharedData) :
    (cache.put pubkey account).inner = cache.inner.insert pubkey account := rfl

@[simp] theorem drop_inner (cache : CacheDb) (pubkey : Address) :
    (cache.drop pubkey).inner = cache.inner.erase pubkey := rfl

@[simp] theorem store_inner_getElem? (cache : CacheDb) (pubkey other : Address)
    (account : AccountSharedData) :
    (cache.store pubkey account).inner[other]? =
      if pubkey = other then account.visible else cache.inner[other]? := by
  unfold store AccountSharedData.visible
  split <;> simp

theorem mem_removed_store {cache : CacheDb} {pubkey other : Address} {account : AccountSharedData} :
    other ∈ (cache.store pubkey account).removed ↔
      if pubkey = other then account.lamports = 0 else other ∈ cache.removed := by
  unfold store
  split
  next empty =>
    by_cases same : pubkey = other
    · simp [drop, same, empty]
    · simp [drop, same, Ne.symm same]
  next funded =>
    by_cases same : pubkey = other
    · simp [put, same, funded]
    · simp [put, same, Ne.symm same]

end CacheDb

/-- `Accounts`. The program cache is held by value: `Accounts` describes one VM, and the sharing
of the cache between clones is a layer above it. -/
structure Accounts where
  source : AccountSource
  cache : CacheDb
  programsCache : ProgramCache
  sysvarCache : SysvarCache
  environments : RuntimeEnvironment
  journal : List JournalEntry

namespace Accounts

def getAccountRef (db : Accounts) (pubkey : Address) : Option AccountSharedData :=
  db.cache.inner[pubkey]?

/-- The overlay first, then the tombstones, then the source. -/
def tryGetAccount (db : Accounts) (pubkey : Address) :
    Except AccountSourceError (Option AccountSharedData) :=
  match db.getAccountRef pubkey with
  | some account => .ok (some account)
  | none => if pubkey ∈ db.cache.removed then .ok none else db.source.getAccount pubkey

/-- A source failure reads as a missing account. -/
def getAccount (db : Accounts) (pubkey : Address) : Option AccountSharedData :=
  match db.tryGetAccount pubkey with
  | .ok account => account
  | .error _ => none

/-! ### The journal -/

def recordJournal (db : Accounts) (pubkey : Address) : Accounts :=
  { db with journal := db.cache.journalEntry pubkey :: db.journal }

def checkpoint (db : Accounts) : Nat := db.journal.length

def rollback (db : Accounts) (checkpoint : Nat) : Accounts :=
  let (journal, cache) :=
    Foundation.UndoLog.unwind JournalEntry.undo checkpoint db.journal db.cache
  { db with journal := journal, cache := cache }

/-- The database `db'` was reached from `db` by journaled overlay writes. -/
def Journaled (db db' : Accounts) : Prop :=
  Foundation.UndoLog.Extends JournalEntry.undo db.journal db.cache db'.journal db'.cache

theorem Journaled.refl (db : Accounts) : Journaled db db :=
  Foundation.UndoLog.Extends.refl

theorem Journaled.trans {first second third : Accounts} (left : Journaled first second)
    (right : Journaled second third) : Journaled first third :=
  Foundation.UndoLog.Extends.trans left right

/-- Rolling back to a checkpoint restores overlay, tombstones and journal, and leaves the
caches as the writes left them. -/
theorem rollback_checkpoint {db db' : Accounts} (writes : Journaled db db') :
    db'.rollback db.checkpoint = { db' with journal := db.journal, cache := db.cache } := by
  have restored := Foundation.UndoLog.Extends.unwind_eq writes
  simp only [rollback, checkpoint, restored]

/-! ### Unchecked writes -/

def addAccountNoChecks (db : Accounts) (pubkey : Address) (account : AccountSharedData) :
    Accounts :=
  { db.recordJournal pubkey with cache := db.cache.put pubkey account }

/-- `add_builtin_account`: the same journaled write, without the checks of `add_account`. -/
def addBuiltinAccount (db : Accounts) (address : Address) (data : AccountSharedData) : Accounts :=
  db.addAccountNoChecks address data

/-! ### Reads after a write -/

/-- A read sees only the source and what the overlay holds for its address. -/
theorem tryGetAccount_congr {db db' : Accounts} {pubkey : Address}
    (source : db'.source = db.source)
    (inner : db'.cache.inner[pubkey]? = db.cache.inner[pubkey]?)
    (removed : pubkey ∈ db'.cache.removed ↔ pubkey ∈ db.cache.removed) :
    db'.tryGetAccount pubkey = db.tryGetAccount pubkey := by
  simp only [tryGetAccount, getAccountRef, source, inner, removed]

theorem getAccount_congr {db db' : Accounts} {pubkey : Address}
    (same : db'.tryGetAccount pubkey = db.tryGetAccount pubkey) :
    db'.getAccount pubkey = db.getAccount pubkey := by
  simp only [getAccount, same]

theorem tryGetAccount_put_self {db : Accounts} {cache : CacheDb} {pubkey : Address}
    {account : AccountSharedData} (written : db.cache = cache.put pubkey account) :
    db.tryGetAccount pubkey = .ok (some account) := by
  simp [tryGetAccount, getAccountRef, written]

theorem tryGetAccount_store_self {db : Accounts} {cache : CacheDb} {pubkey : Address}
    {account : AccountSharedData} (written : db.cache = cache.store pubkey account) :
    db.tryGetAccount pubkey = .ok account.visible := by
  unfold CacheDb.store at written
  unfold AccountSharedData.visible
  split at written
  next empty => simp [tryGetAccount, getAccountRef, written, CacheDb.drop, empty]
  next funded => simp [tryGetAccount_put_self written, funded]

theorem tryGetAccount_store_of_ne {db db' : Accounts} {pubkey other : Address}
    {account : AccountSharedData} (source : db'.source = db.source)
    (written : db'.cache = db.cache.store pubkey account) (differ : pubkey ≠ other) :
    db'.tryGetAccount other = db.tryGetAccount other := by
  have differ' : other ≠ pubkey := Ne.symm differ
  refine tryGetAccount_congr source ?_ ?_
  · simp [written, differ]
  · rw [written]
    unfold CacheDb.store
    split
    · simp [CacheDb.drop, differ']
    · simp [CacheDb.put, differ']

end Accounts

end Hpsvm
