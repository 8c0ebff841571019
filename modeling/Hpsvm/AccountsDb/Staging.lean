import Hpsvm.AccountsDb.Write
import Hpsvm.Foundation.Writes

/-!
# What a staged write leaves

One case analysis of `add_account`, and from it what staging a list of accounts does to the
journal, to the accounts read afterwards, and to the caches.
-/

namespace Hpsvm

open Foundation (TwoPointer.Moves TwoPointer.partition_induct TwoPointer.partition_perm Writes.last)

/-- A round of the loop takes the recursion one account further. -/
theorem partitionProgramdata_move {front back rest front' back' : List (Address × AccountSharedData)}
    {pair : Address × AccountSharedData}
    (moved : TwoPointer.Moves (fun pair => isProgramdata pair.2) front back pair front' back') :
    partitionProgramdata front back (pair :: rest) = partitionProgramdata front' back' rest := by
  rw [partitionProgramdata.eq_def]
  cases moved with
  | grows passes => simp [passes]
  | swaps passes => simp [passes]
  | stays fails => simp [fails]

theorem partitionInPlace_eq (accounts : List (Address × AccountSharedData)) :
    partitionInPlace accounts = partitionProgramdata [] [] accounts := by
  -- The recursion goes on from the blocks of the loop to the same end.
  obtain ⟨front, back, equal, same⟩ := @TwoPointer.partition_induct _
    (fun pair : Address × AccountSharedData => isProgramdata pair.2) accounts.toArray
    (fun front back rest => partitionProgramdata [] [] accounts =
      partitionProgramdata front back rest)
    (fun _ _ _ _ _ _ moved same => same.trans (partitionProgramdata_move moved)) rfl
  rw [partitionInPlace, equal, same, partitionProgramdata]

/-- Partitioning only reorders the accounts. -/
theorem partitionProgramdata_perm (accounts : List (Address × AccountSharedData)) :
    (partitionProgramdata [] [] accounts).Perm accounts := by
  rw [← partitionInPlace_eq]
  exact TwoPointer.partition_perm _ accounts.toArray

namespace Accounts

variable (agave : Agave)

/-! ### Fields of the intermediate databases -/

@[simp] theorem rebuildSysvarCache_cache (db : Accounts) :
    (db.rebuildSysvarCache agave).cache = db.cache := rfl

@[simp] theorem rebuildSysvarCache_journal (db : Accounts) :
    (db.rebuildSysvarCache agave).journal = db.journal := rfl

@[simp] theorem rebuildSysvarCache_source (db : Accounts) :
    (db.rebuildSysvarCache agave).source = db.source := rfl

@[simp] theorem rebuildSysvarCache_environments (db : Accounts) :
    (db.rebuildSysvarCache agave).environments = db.environments := rfl

@[simp] theorem refreshSysvars_cache (db : Accounts) (pubkey : Address) :
    (db.refreshSysvars agave pubkey).cache = db.cache := by
  unfold refreshSysvars
  split <;> rfl

@[simp] theorem refreshSysvars_journal (db : Accounts) (pubkey : Address) :
    (db.refreshSysvars agave pubkey).journal = db.journal := by
  unfold refreshSysvars
  split <;> rfl

@[simp] theorem refreshSysvars_source (db : Accounts) (pubkey : Address) :
    (db.refreshSysvars agave pubkey).source = db.source := by
  unfold refreshSysvars
  split <;> rfl

@[simp] theorem refreshSysvars_environments (db : Accounts) (pubkey : Address) :
    (db.refreshSysvars agave pubkey).environments = db.environments := by
  unfold refreshSysvars
  split <;> rfl

theorem refreshSysvars_of_unmanaged (db : Accounts) {pubkey : Address}
    (unmanaged : isManagedSysvarAccount pubkey = false) :
    db.refreshSysvars agave pubkey = db := by
  simp [refreshSysvars, unmanaged]

/-- The database between the overlay write of `add_account` and its cache update. -/
def written (db : Accounts) (pubkey : Address) (account : AccountSharedData) : Accounts :=
  (db.writeAccount pubkey account).refreshSysvars agave pubkey

@[simp] theorem written_cache (db : Accounts) (pubkey : Address) (account : AccountSharedData) :
    (db.written agave pubkey account).cache = db.cache.store pubkey account := by
  simp [written, writeAccount]

@[simp] theorem written_journal (db : Accounts) (pubkey : Address) (account : AccountSharedData) :
    (db.written agave pubkey account).journal = db.cache.journalEntry pubkey :: db.journal := by
  simp [written, writeAccount, recordJournal]

@[simp] theorem written_source (db : Accounts) (pubkey : Address) (account : AccountSharedData) :
    (db.written agave pubkey account).source = db.source := by
  simp [written, writeAccount, recordJournal]

@[simp] theorem written_environments (db : Accounts) (pubkey : Address)
    (account : AccountSharedData) :
    (db.written agave pubkey account).environments = db.environments := by
  simp [written, writeAccount, recordJournal]

/-! ### One write -/

/-- Everything `add_account` can do. -/
theorem addAccount_cases (db : Accounts) (pubkey : Address) (account : AccountSharedData) :
    (∃ error, db.checkAccount agave pubkey account = .error error ∧
      db.addAccount agave pubkey account = (.error error, db)) ∨
    (∃ entry, db.checkAccount agave pubkey account = .ok (some entry) ∧
      db.addAccount agave pubkey account =
        (.ok (), { db.written agave pubkey account with
          programsCache := (db.written agave pubkey account).programsCache.replenish
            pubkey entry })) ∨
    (db.checkAccount agave pubkey account = .ok none ∧ db.hadCachedProgram pubkey = true ∧
      ∃ error, (db.written agave pubkey account).rebuiltProgramCache agave = .error error ∧
        db.addAccount agave pubkey account =
          (.error (.instruction error), db.written agave pubkey account)) ∨
    (db.checkAccount agave pubkey account = .ok none ∧ db.hadCachedProgram pubkey = true ∧
      ∃ cache, (db.written agave pubkey account).rebuiltProgramCache agave = .ok cache ∧
        db.addAccount agave pubkey account =
          (.ok (), { db.written agave pubkey account with programsCache := cache })) ∨
    (db.checkAccount agave pubkey account = .ok none ∧ db.hadCachedProgram pubkey = false ∧
      db.addAccount agave pubkey account = (.ok (), db.written agave pubkey account)) := by
  unfold addAccount written
  cases checked : db.checkAccount agave pubkey account with
  | error error => exact .inl ⟨error, rfl, rfl⟩
  | ok programEntry =>
    cases programEntry with
    | some entry => exact .inr (.inl ⟨entry, rfl, rfl⟩)
    | none =>
      cases had : db.hadCachedProgram pubkey with
      | false => exact .inr (.inr (.inr (.inr ⟨rfl, rfl, rfl⟩)))
      | true =>
        cases rebuilt : ((db.writeAccount pubkey account).refreshSysvars agave
            pubkey).rebuiltProgramCache agave with
        | error error =>
          refine .inr (.inr (.inl ⟨rfl, rfl, error, rfl, ?_⟩))
          simp [rebuildProgramCache, rebuilt]
        | ok cache =>
          refine .inr (.inr (.inr (.inl ⟨rfl, rfl, cache, rfl, ?_⟩)))
          simp [rebuildProgramCache, rebuilt]

/-- `add_account` takes the account: its checks pass, and where it replaces a program every program
that is left still loads. -/
def Accepts (db : Accounts) (pubkey : Address) (account : AccountSharedData) : Prop :=
  match db.checkAccount agave pubkey account with
  | .error _ => False
  | .ok (some _) => True
  | .ok none => db.hadCachedProgram pubkey = true →
      ∃ cache, (db.written agave pubkey account).rebuiltProgramCache agave = .ok cache

theorem addAccount_ok_iff (db : Accounts) (pubkey : Address) (account : AccountSharedData) :
    (db.addAccount agave pubkey account).1 = .ok () ↔ db.Accepts agave pubkey account := by
  unfold Accepts
  rcases db.addAccount_cases agave pubkey account with
    ⟨error, checked, added⟩ | ⟨entry, checked, added⟩ | ⟨checked, had, error, rebuilt, added⟩ |
      ⟨checked, had, cache, rebuilt, added⟩ | ⟨checked, had, added⟩
  · simp [added, checked]
  · simp [added, checked]
  · simp [added, checked, had, rebuilt]
  · simp [added, checked, had, rebuilt]
  · simp [added, checked, had]

/-- A write keeps the source and the environments, and its overlay part is the same whatever
happens to the caches. -/
structure Wrote (db : Accounts) (pubkey : Address) (account : AccountSharedData)
    (db' : Accounts) : Prop where
  cache : db'.cache = db.cache.store pubkey account
  journal : db'.journal = db.cache.journalEntry pubkey :: db.journal
  source : db'.source = db.source
  environments : db'.environments = db.environments

theorem addAccount_unchanged_or_wrote (db : Accounts) (pubkey : Address)
    (account : AccountSharedData) :
    (∃ error, db.addAccount agave pubkey account = (.error error, db)) ∨
      Wrote db pubkey account (db.addAccount agave pubkey account).2 := by
  rcases db.addAccount_cases agave pubkey account with
    ⟨error, -, added⟩ | ⟨entry, -, added⟩ | ⟨-, -, error, -, added⟩ | ⟨-, -, cache, -, added⟩ |
      ⟨-, -, added⟩
  · exact .inl ⟨error, added⟩
  all_goals
    right
    rw [added]
    exact ⟨by simp, by simp, by simp, by simp⟩

theorem wrote_of_addAccount {db db' : Accounts} {pubkey : Address} {account : AccountSharedData}
    (added : db.addAccount agave pubkey account = (.ok (), db')) :
    Wrote db pubkey account db' := by
  rcases db.addAccount_unchanged_or_wrote agave pubkey account with ⟨error, refused⟩ | wrote
  · rw [refused] at added
    cases added
  · rwa [added] at wrote

theorem Wrote.journaled {db db' : Accounts} {pubkey : Address} {account : AccountSharedData}
    (wrote : Wrote db pubkey account db') : Journaled db db' := by
  unfold Journaled
  rw [wrote.journal, wrote.cache]
  refine .record ?_
  rw [CacheDb.undo_store]
  exact .refl

theorem journaled_addAccount (db : Accounts) (pubkey : Address) (account : AccountSharedData) :
    Journaled db (db.addAccount agave pubkey account).2 := by
  rcases db.addAccount_unchanged_or_wrote agave pubkey account with ⟨error, refused⟩ | wrote
  · rw [refused]
    exact .refl db
  · exact wrote.journaled

theorem Wrote.tryGetAccount {db db' : Accounts} {pubkey : Address} {account : AccountSharedData}
    (wrote : Wrote db pubkey account db') (other : Address) :
    db'.tryGetAccount other =
      if pubkey = other then .ok account.visible else db.tryGetAccount other := by
  split
  next same =>
    subst same
    exact tryGetAccount_store_self wrote.cache
  next differ => exact tryGetAccount_store_of_ne wrote.source wrote.cache differ

/-! ### A list of writes -/

/-- What every write of a list keeps, the list keeps, also when it stops at a refused write. -/
theorem addAccounts_induct {motive : Accounts → Prop} {db : Accounts}
    {accounts : List (Address × AccountSharedData)} (start : motive db)
    (step : ∀ pair ∈ accounts, ∀ db, motive db → motive (db.addAccount agave pair.1 pair.2).2) :
    motive (db.addAccounts agave accounts).2 := by
  induction accounts generalizing db with
  | nil => exact start
  | cons pair rest ih =>
    obtain ⟨address, account⟩ := pair
    have first := step (address, account) List.mem_cons_self db start
    unfold addAccounts
    split
    next error left refused => rwa [refused] at first
    next taken added =>
      rw [added] at first
      exact ih first fun pair member => step pair (List.mem_cons_of_mem _ member)

theorem journaled_addAccounts (db : Accounts) (accounts : List (Address × AccountSharedData)) :
    Journaled db (db.addAccounts agave accounts).2 := by
  refine addAccounts_induct agave (.refl db) ?_
  intro pair _ next journaled
  exact journaled.trans (next.journaled_addAccount agave pair.1 pair.2)

/-- Staging is undone by rolling back to the checkpoint taken before it. -/
theorem journaled_syncAccounts (db : Accounts) (accounts : List (Address × AccountSharedData)) :
    Journaled db (db.syncAccounts agave accounts).2 :=
  db.journaled_addAccounts agave _

theorem addAccounts_cons_ok {db db' : Accounts} {address : Address} {account : AccountSharedData}
    {rest : List (Address × AccountSharedData)}
    (added : db.addAccounts agave ((address, account) :: rest) = (.ok (), db')) :
    ∃ next, db.addAccount agave address account = (.ok (), next) ∧
      next.addAccounts agave rest = (.ok (), db') := by
  unfold addAccounts at added
  split at added
  · cases added
  next next equal => exact ⟨next, equal, added⟩

/-- Every account of a list is taken at its turn. -/
def AcceptsAll (db : Accounts) : List (Address × AccountSharedData) → Prop
  | [] => True
  | (address, account) :: rest =>
    db.Accepts agave address account ∧ AcceptsAll (db.addAccount agave address account).2 rest

theorem addAccounts_ok_iff (db : Accounts) (accounts : List (Address × AccountSharedData)) :
    (db.addAccounts agave accounts).1 = .ok () ↔ db.AcceptsAll agave accounts := by
  induction accounts generalizing db with
  | nil => simp [addAccounts, AcceptsAll]
  | cons pair rest ih =>
    obtain ⟨address, account⟩ := pair
    have first := db.addAccount_ok_iff agave address account
    unfold addAccounts AcceptsAll
    split
    next error left refused => simp [← first, refused]
    next taken added => simp [← first, added, ih taken]

/-- `sync_accounts` takes every account, in the order it stages them. -/
def AcceptsStaging (db : Accounts) (accounts : List (Address × AccountSharedData)) : Prop :=
  db.AcceptsAll agave (partitionProgramdata [] [] accounts)

theorem syncAccounts_ok_iff (db : Accounts) (accounts : List (Address × AccountSharedData)) :
    (db.syncAccounts agave accounts).1 = .ok () ↔ db.AcceptsStaging agave accounts :=
  db.addAccounts_ok_iff agave _

/-- After an accepted list of writes an account reads as the last write to it, whatever source
stands behind the overlay. -/
theorem tryGetAccount_addAccounts_over (source : AccountSource) {db db' : Accounts}
    {accounts : List (Address × AccountSharedData)}
    (added : db.addAccounts agave accounts = (.ok (), db')) (other : Address) :
    ({ db' with source := source } : Accounts).tryGetAccount other =
      match Writes.last accounts other with
      | some account => .ok account.visible
      | none => ({ db with source := source } : Accounts).tryGetAccount other := by
  induction accounts generalizing db with
  | nil =>
    cases added
    rfl
  | cons pair rest ih =>
    obtain ⟨address, account⟩ := pair
    obtain ⟨next, first, remaining⟩ := addAccounts_cons_ok agave added
    have wrote := wrote_of_addAccount agave first
    have behind : Wrote { db with source := source } address account { next with source := source } :=
      ⟨wrote.cache, wrote.journal, rfl, wrote.environments⟩
    rw [ih remaining, Writes.last]
    cases later : Writes.last rest other with
    | some value => rfl
    | none =>
      simp only [behind.tryGetAccount other]
      split <;> rfl

/-- A write that is refused, or fails after the overlay changed, still keeps what lies outside
the overlay and the caches. -/
theorem addAccount_keeps (db : Accounts) (pubkey : Address) (account : AccountSharedData) :
    (db.addAccount agave pubkey account).2.source = db.source ∧
      (db.addAccount agave pubkey account).2.environments = db.environments := by
  rcases db.addAccount_unchanged_or_wrote agave pubkey account with ⟨error, refused⟩ | wrote
  · rw [refused]
    exact ⟨rfl, rfl⟩
  · exact ⟨wrote.source, wrote.environments⟩

theorem addAccounts_keeps (db : Accounts) (accounts : List (Address × AccountSharedData)) :
    (db.addAccounts agave accounts).2.source = db.source ∧
      (db.addAccounts agave accounts).2.environments = db.environments := by
  refine addAccounts_induct agave (motive := fun next => next.source = db.source ∧
    next.environments = db.environments) ⟨rfl, rfl⟩ ?_
  intro pair _ next kept
  obtain ⟨source, environments⟩ := next.addAccount_keeps agave pair.1 pair.2
  exact ⟨source.trans kept.1, environments.trans kept.2⟩

theorem syncAccounts_keeps (db : Accounts) (accounts : List (Address × AccountSharedData)) :
    (db.syncAccounts agave accounts).2.source = db.source ∧
      (db.syncAccounts agave accounts).2.environments = db.environments :=
  db.addAccounts_keeps agave _

/-- Rolling interrupted or finished staging back restores every account. -/
theorem tryGetAccount_rollback_syncAccounts (db : Accounts)
    (accounts : List (Address × AccountSharedData)) (pubkey : Address) :
    ((db.syncAccounts agave accounts).2.rollback db.checkpoint).tryGetAccount pubkey =
      db.tryGetAccount pubkey := by
  rw [rollback_checkpoint (db.journaled_syncAccounts agave accounts)]
  exact tryGetAccount_congr (db.syncAccounts_keeps agave accounts).1 rfl Iff.rfl

/-- The copy of an account that staging writes last, if it is staged at all. -/
def stagedCopy (accounts : List (Address × AccountSharedData)) (pubkey : Address) :
    Option AccountSharedData :=
  Writes.last (partitionProgramdata [] [] accounts) pubkey

theorem mem_partitionProgramdata {accounts : List (Address × AccountSharedData)}
    {pair : Address × AccountSharedData} :
    pair ∈ partitionProgramdata [] [] accounts ↔ pair ∈ accounts :=
  (partitionProgramdata_perm accounts).mem_iff

theorem mem_of_stagedCopy {accounts : List (Address × AccountSharedData)} {pubkey : Address}
    {account : AccountSharedData} (staged : stagedCopy accounts pubkey = some account) :
    (pubkey, account) ∈ accounts :=
  mem_partitionProgramdata.1 (Foundation.Writes.mem_of_last staged)

theorem stagedCopy_eq_none_iff {accounts : List (Address × AccountSharedData)}
    {pubkey : Address} : stagedCopy accounts pubkey = none ↔ pubkey ∉ accounts.map Prod.fst := by
  have perm := (partitionProgramdata_perm accounts).map Prod.fst
  rw [stagedCopy, Foundation.Writes.last_eq_none_iff, perm.mem_iff]

theorem tryGetAccount_addAccounts {db db' : Accounts}
    {accounts : List (Address × AccountSharedData)}
    (added : db.addAccounts agave accounts = (.ok (), db')) (other : Address) :
    db'.tryGetAccount other =
      match Writes.last accounts other with
      | some account => .ok account.visible
      | none => db.tryGetAccount other := by
  have kept : db'.source = db.source := by
    have keeps := (db.addAccounts_keeps agave accounts).1
    rwa [added] at keeps
  have same : ({ db' with source := db.source } : Accounts) = db' := by rw [← kept]
  have read := tryGetAccount_addAccounts_over agave db.source added other
  rwa [same] at read

/-- Accepted staging makes an account read as the copy staged last. -/
theorem getAccount_syncAccounts {db db' : Accounts}
    {accounts : List (Address × AccountSharedData)}
    (synced : db.syncAccounts agave accounts = (.ok (), db')) (pubkey : Address) :
    db'.getAccount pubkey =
      match stagedCopy accounts pubkey with
      | some account => account.visible
      | none => db.getAccount pubkey := by
  unfold getAccount stagedCopy
  rw [tryGetAccount_addAccounts agave synced pubkey]
  cases Writes.last (partitionProgramdata [] [] accounts) pubkey <;> rfl

/-! ### Writes that leave the caches alone -/

/-- A write of a plain account over nothing executable. -/
structure Quiet (db : Accounts) (pubkey : Address) (account : AccountSharedData) : Prop where
  unmanaged : isManagedSysvarAccount pubkey = false
  plain : account.executable = false
  overlaid : ∀ existing, db.cache.inner[pubkey]? = some existing → existing.executable = false

theorem Quiet.hadCachedProgram_eq {db : Accounts} {pubkey : Address} {account : AccountSharedData}
    (quiet : Quiet db pubkey account) : db.hadCachedProgram pubkey = false := by
  unfold hadCachedProgram
  cases found : db.cache.inner[pubkey]? with
  | none => rfl
  | some existing => simp [isCachedProgramAccount, quiet.overlaid existing found]

theorem Quiet.checkAccount_eq {db : Accounts} {pubkey : Address} {account : AccountSharedData}
    (quiet : Quiet db pubkey account) : db.checkAccount agave pubkey account = .ok none := by
  have fresh : hasCachedProgram pubkey account = false := by
    simp [hasCachedProgram, isCachedProgramAccount, quiet.plain]
  simp [checkAccount, checkAccount.loadEntry, quiet.unmanaged, fresh]

theorem addAccount_of_quiet {db : Accounts} {pubkey : Address} {account : AccountSharedData}
    (quiet : Quiet db pubkey account) :
    db.addAccount agave pubkey account = (.ok (), db.writeAccount pubkey account) := by
  simp [addAccount, quiet.checkAccount_eq agave, quiet.hadCachedProgram_eq,
    refreshSysvars_of_unmanaged agave _ quiet.unmanaged]

theorem Quiet.after_write {db : Accounts} {pubkey other : Address}
    {account later : AccountSharedData} (plain : account.executable = false)
    (quiet : Quiet db other later) : Quiet (db.writeAccount pubkey account) other later := by
  refine ⟨quiet.unmanaged, quiet.plain, ?_⟩
  intro existing found
  simp only [writeAccount, CacheDb.store_inner_getElem?] at found
  split at found
  · obtain ⟨-, rfl⟩ := AccountSharedData.visible_eq_some found
    exact plain
  · exact quiet.overlaid existing found

/-- Quiet writes are all accepted and leave both caches as they are. -/
theorem addAccounts_of_quiet {db : Accounts} {accounts : List (Address × AccountSharedData)}
    (quiet : ∀ pair ∈ accounts, Quiet db pair.1 pair.2) :
    ∃ db', db.addAccounts agave accounts = (.ok (), db') ∧
      db'.programsCache = db.programsCache ∧ db'.sysvarCache = db.sysvarCache := by
  induction accounts generalizing db with
  | nil => exact ⟨db, rfl, rfl, rfl⟩
  | cons pair rest ih =>
    obtain ⟨address, account⟩ := pair
    have first : Quiet db address account := quiet _ List.mem_cons_self
    obtain ⟨db', added, programs, sysvars⟩ := @ih (db.writeAccount address account)
      fun pair member => (quiet pair (List.mem_cons_of_mem _ member)).after_write first.plain
    refine ⟨db', ?_, programs, sysvars⟩
    rw [addAccounts, addAccount_of_quiet agave first]
    exact added

end Accounts

end Hpsvm
