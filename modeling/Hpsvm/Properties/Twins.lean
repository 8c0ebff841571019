import Hpsvm.Properties.Atomicity
import Hpsvm.Properties.Footprint
import Hpsvm.Properties.InStep
import Hpsvm.Properties.SysvarRuns

/-!
# VMs that differ in their airdrop account

Every new VM draws an airdrop key of its own. Two VMs that are set up alike hold the same accounts
at every other address, and an execution that stays away from both keys cannot tell them apart. The
relation also lets the cache entries of some programs differ, since clones share a program cache
that the VM itself did not fill.
-/

namespace Hpsvm

open Foundation

/-- The account is not at one of the keys, and neither are the bytes of the program it is. -/
structure AvoidsKeys (keys : List Address) (pubkey : Address) (account : AccountSharedData) :
    Prop where
  outside : pubkey ∉ keys
  apart : isCachedProgramAccount pubkey account = true →
    ∀ programdata, programdataAddress? account = some programdata → programdata ∉ keys

theorem AvoidsKeys.of_plain {keys : List Address} {pubkey : Address} {account : AccountSharedData}
    (outside : pubkey ∉ keys) (plain : isCachedProgramAccount pubkey account = false) :
    AvoidsKeys keys pubkey account := by
  refine ⟨outside, ?_⟩
  rw [plain]
  nofun

/-! ### Overlays -/

namespace CacheDb

/-- The overlays are the same outside the keys. At the keys they hold inert accounts. -/
structure Twins (agave : Agave) (keys : List Address) (cache cache' : CacheDb) : Prop where
  inner : ∀ pubkey ∉ keys, cache'.inner[pubkey]? = cache.inner[pubkey]?
  removed : ∀ pubkey ∉ keys, (pubkey ∈ cache'.removed ↔ pubkey ∈ cache.removed)
  inert : ∀ pubkey ∈ keys, ∀ account,
    cache.inner[pubkey]? = some account ∨ cache'.inner[pubkey]? = some account →
      Accounts.Inert agave pubkey account
  avoids : ∀ pubkey account, cache.inner[pubkey]? = some account →
    isCachedProgramAccount pubkey account = true →
      ∀ programdata, programdataAddress? account = some programdata → programdata ∉ keys

namespace Twins

variable {agave : Agave} {keys : List Address} {cache cache' : CacheDb}

theorem put (twins : Twins agave keys cache cache') {pubkey : Address} {account : AccountSharedData}
    (avoids : AvoidsKeys keys pubkey account) :
    Twins agave keys (cache.put pubkey account) (cache'.put pubkey account) := by
  constructor
  · intro other outside
    simp only [put_inner, AddressMap.getElem?_insert, twins.inner other outside]
  · intro other outside
    simp only [CacheDb.put, Finset.mem_erase, twins.removed other outside]
  · intro other inside existing there
    have differ : pubkey ≠ other := by
      rintro rfl
      exact avoids.outside inside
    simp only [put_inner, AddressMap.getElem?_insert, if_neg differ] at there
    exact twins.inert other inside existing there
  · intro other existing found program
    simp only [put_inner, AddressMap.getElem?_insert] at found
    split at found
    next same =>
      subst same
      cases found
      exact avoids.apart program
    · exact twins.avoids other existing found program

theorem drop (twins : Twins agave keys cache cache') {pubkey : Address} (outside : pubkey ∉ keys) :
    Twins agave keys (cache.drop pubkey) (cache'.drop pubkey) := by
  constructor
  · intro other clear
    simp only [drop_inner, AddressMap.getElem?_erase, twins.inner other clear]
  · intro other clear
    simp only [CacheDb.drop, Finset.mem_insert, twins.removed other clear]
  · intro other inside existing there
    have differ : pubkey ≠ other := by
      rintro rfl
      exact outside inside
    simp only [drop_inner, AddressMap.getElem?_erase, if_neg differ] at there
    exact twins.inert other inside existing there
  · intro other existing found program
    simp only [drop_inner, AddressMap.getElem?_erase] at found
    split at found
    · cases found
    · exact twins.avoids other existing found program

theorem store (twins : Twins agave keys cache cache') {pubkey : Address}
    {account : AccountSharedData} (avoids : AvoidsKeys keys pubkey account) :
    Twins agave keys (cache.store pubkey account) (cache'.store pubkey account) := by
  unfold CacheDb.store
  split
  · exact twins.drop avoids.outside
  · exact twins.put avoids

/-- Each side may write an inert account at a key of its own. -/
theorem put_own (twins : Twins agave keys cache cache') {key key' : Address}
    {account : AccountSharedData} (own : key ∈ keys) (own' : key' ∈ keys)
    (inert : ∀ pubkey ∈ keys, Accounts.Inert agave pubkey account) :
    Twins agave keys (cache.put key account) (cache'.put key' account) := by
  have differ : ∀ {own other : Address}, own ∈ keys → other ∉ keys → own ≠ other := by
    rintro own other inside outside rfl
    exact outside inside
  constructor
  · intro other outside
    simp only [put_inner, AddressMap.getElem?_insert, if_neg (differ own outside),
      if_neg (differ own' outside), twins.inner other outside]
  · intro other outside
    simp only [CacheDb.put, Finset.mem_erase, twins.removed other outside,
      (differ own outside).symm, (differ own' outside).symm, ne_eq, not_false_eq_true, true_and]
  · intro other inside existing there
    simp only [put_inner, AddressMap.getElem?_insert] at there
    -- What either side holds at a key is the new account or was there before.
    rcases there with found | found
    · split at found
      · cases found
        exact inert other inside
      · exact twins.inert other inside existing (.inl found)
    · split at found
      · cases found
        exact inert other inside
      · exact twins.inert other inside existing (.inr found)
  · intro other existing found program
    simp only [put_inner, AddressMap.getElem?_insert] at found
    split at found
    next same =>
      subst same
      cases found
      rw [(inert key own).no_program] at program
      cases program
    · exact twins.avoids other existing found program

end Twins

end CacheDb

/-! ### Databases -/

namespace Accounts

/-- The databases are the same outside the keys and the cache entries of the programs; if they are
settled, their program caches have the same slot. -/
structure Twins (agave : Agave) (keys : List Address) (programs : Set Address) (settled : Prop)
    (db db' : Accounts) : Prop where
  source : db'.source = db.source
  sysvars : db'.sysvarCache = db.sysvarCache
  environments : db'.environments = db.environments
  overlay : db.cache.Twins agave keys db'.cache
  entries : ∀ program ∉ programs, db'.programsCache.find program = db.programsCache.find program
  slot : settled → db'.programsCache.slot = db.programsCache.slot

namespace Twins

variable {agave : Agave} {keys : List Address} {programs : Set Address} {settled : Prop}
  {db db' : Accounts}

theorem tryGetAccount_eq (twins : Twins agave keys programs settled db db') {pubkey : Address}
    (outside : pubkey ∉ keys) : db'.tryGetAccount pubkey = db.tryGetAccount pubkey :=
  tryGetAccount_congr twins.source (twins.overlay.inner pubkey outside)
    (twins.overlay.removed pubkey outside)

theorem currentSlot_eq (twins : Twins agave keys programs settled db db') :
    db'.currentSlot agave = db.currentSlot agave := by
  simp only [currentSlot, clockSlot?, twins.sysvars]

theorem minimumBalance_eq (twins : Twins agave keys programs settled db db') (dataLen : Nat) :
    db'.minimumBalanceForRentExemption agave dataLen =
      db.minimumBalanceForRentExemption agave dataLen := by
  simp only [minimumBalanceForRentExemption, rent?, twins.sysvars]

/-- Settled databases without such programs have the same program cache. -/
theorem programsCache_eq (twins : Twins agave keys ∅ True db db') :
    db'.programsCache = db.programsCache := by
  have slot := twins.slot trivial
  have entries : db'.programsCache.entries = db.programsCache.entries := by
    apply Std.ExtTreeMap.ext_getElem?
    intro program
    exact twins.entries program (Set.notMem_empty program)
  cases found : db.programsCache
  cases found' : db'.programsCache
  rw [found, found'] at slot entries
  simp only at slot entries
  rw [slot, entries]

theorem looksAlike (twins : Twins agave keys programs settled db db') : LooksAlike agave db db' := by
  intro pubkey
  by_cases inside : pubkey ∈ keys
  · exact .inr (twins.overlay.inert pubkey inside)
  · exact .inl (twins.overlay.inner pubkey inside)

theorem loadProgram_eq (twins : Twins agave keys programs settled db db')
    {account : AccountSharedData}
    (apart : ∀ programdata, programdataAddress? account = some programdata → programdata ∉ keys) :
    db'.loadProgram agave account = db.loadProgram agave account := by
  apply loadProgram_congr agave account
  · intro programdata refers
    exact getAccount_congr (twins.tryGetAccount_eq (apart programdata refers))
  · rw [twins.sysvars]
  · exact twins.environments

theorem rebuiltProgramCache_eq (twins : Twins agave keys programs settled db db') :
    db'.rebuiltProgramCache agave = db.rebuiltProgramCache agave := by
  apply twins.looksAlike.rebuiltProgramCache_eq twins.sysvars
  rintro ⟨pubkey, account⟩ listed
  obtain ⟨found, program⟩ := List.mem_filter.1 listed
  rw [Std.ExtTreeMap.mem_toList_iff_getElem?_eq_some] at found
  exact twins.loadProgram_eq (twins.overlay.avoids pubkey account found program)

theorem checkAccount_eq (twins : Twins agave keys programs settled db db') {pubkey : Address}
    {account : AccountSharedData} (avoids : AvoidsKeys keys pubkey account) :
    db'.checkAccount agave pubkey account = db.checkAccount agave pubkey account := by
  have loads : checkAccount.loadEntry agave db' pubkey account =
      checkAccount.loadEntry agave db pubkey account := by
    unfold checkAccount.loadEntry
    by_cases program : hasCachedProgram pubkey account = true
    · have cached : isCachedProgramAccount pubkey account = true := (Bool.and_eq_true_iff.1 program).2
      rw [if_pos program, if_pos program, twins.loadProgram_eq (avoids.apart cached)]
    · rw [if_neg program, if_neg program]
  simp only [checkAccount, loads]

/-! ### Writes -/

theorem writeAccount (twins : Twins agave keys programs settled db db') {pubkey : Address}
    {account : AccountSharedData} (avoids : AvoidsKeys keys pubkey account) :
    Twins agave keys programs settled (db.writeAccount pubkey account)
      (db'.writeAccount pubkey account) :=
  ⟨twins.source, twins.sysvars, twins.environments, twins.overlay.store avoids, twins.entries,
    twins.slot⟩

theorem addAccountNoChecks (twins : Twins agave keys programs settled db db') {pubkey : Address}
    {account : AccountSharedData} (avoids : AvoidsKeys keys pubkey account) :
    Twins agave keys programs settled (db.addAccountNoChecks pubkey account)
      (db'.addAccountNoChecks pubkey account) :=
  ⟨twins.source, twins.sysvars, twins.environments, twins.overlay.put avoids, twins.entries,
    twins.slot⟩

/-- Unchecked writes in turn. -/
theorem foldl_addAccountNoChecks {Item : Type} (twins : Twins agave keys programs settled db db')
    {items : List Item} (address : Item → Address) (account : Item → AccountSharedData)
    (avoids : ∀ item ∈ items, AvoidsKeys keys (address item) (account item)) :
    Twins agave keys programs settled
      (items.foldl (fun db item => db.addAccountNoChecks (address item) (account item)) db)
      (items.foldl (fun db item => db.addAccountNoChecks (address item) (account item)) db') := by
  induction items generalizing db db' with
  | nil => exact twins
  | cons item rest ih =>
    apply ih
    · exact twins.addAccountNoChecks (avoids item List.mem_cons_self)
    · exact fun other member => avoids other (List.mem_cons_of_mem _ member)

/-- The same program cache on both sides. -/
theorem with_programs (twins : Twins agave keys programs settled db db') (cache : ProgramCache) :
    Twins agave keys programs settled { db with programsCache := cache }
      { db' with programsCache := cache } :=
  ⟨twins.source, twins.sysvars, twins.environments, twins.overlay, fun _ _ => rfl, fun _ => rfl⟩

/-- A program that is loaded again has the same entry on both sides. -/
theorem replenish (twins : Twins agave keys programs settled db db') (programId : Address)
    (entry : ProgramCacheEntry) :
    Twins agave keys (programs \ {programId}) settled
      { db with programsCache := db.programsCache.replenish programId entry }
      { db' with programsCache := db'.programsCache.replenish programId entry } := by
  refine ⟨twins.source, twins.sysvars, twins.environments, twins.overlay, ?_, twins.slot⟩
  intro program outside
  simp only [ProgramCache.find_replenish]
  split
  · rfl
  next differ =>
    apply twins.entries
    intro member
    exact outside ⟨member, fun same => differ same.symm⟩

theorem mono (twins : Twins agave keys programs settled db db') {others : Set Address}
    (more : programs ⊆ others) : Twins agave keys others settled db db' :=
  ⟨twins.source, twins.sysvars, twins.environments, twins.overlay,
    fun program outside => twins.entries program fun member => outside (more member), twins.slot⟩

theorem rebuildSysvarCache (twins : Twins agave keys programs settled db db') :
    Twins agave keys programs settled (db.rebuildSysvarCache agave)
      (db'.rebuildSysvarCache agave) := by
  have filled := twins.looksAlike.fillSysvarCache_eq
  refine ⟨twins.source, filled, twins.environments, twins.overlay, twins.entries, ?_⟩
  intro slots
  simp only [Accounts.rebuildSysvarCache, ProgramCache.setSlot, filled, twins.slot slots]

theorem written (twins : Twins agave keys programs settled db db') {pubkey : Address}
    {account : AccountSharedData} (avoids : AvoidsKeys keys pubkey account) :
    Twins agave keys programs settled (db.written agave pubkey account)
      (db'.written agave pubkey account) := by
  unfold Accounts.written refreshSysvars
  split
  · exact (twins.writeAccount avoids).rebuildSysvarCache
  · exact twins.writeAccount avoids

/-- `add_account` answers the same and leaves twins. -/
theorem addAccount (twins : Twins agave keys programs settled db db') {pubkey : Address}
    {account : AccountSharedData} (avoids : AvoidsKeys keys pubkey account) :
    Lockstep.Answers (Twins agave keys programs settled) (db.addAccount agave pubkey account)
      (db'.addAccount agave pubkey account) := by
  have written := twins.written avoids
  apply addAccount_inStep agave (twins.checkAccount_eq avoids)
    (twins.looksAlike.hadCachedProgram_eq pubkey) written.rebuiltProgramCache_eq twins written
  · intro entry _
    exact (written.replenish pubkey entry).mono Set.sdiff_subset
  · intro cache
    exact written.with_programs cache

end Twins

/-- Once a clock was written the program cache has its slot. -/
theorem slot_of_addAccount {agave : Agave} (fills : Svm.FillsClock agave) {db left : Accounts}
    {clock : AccountSharedData} (funded : clock.lamports ≠ 0)
    (added : db.addAccount agave Sysvar.clock.id clock = (.ok (), left)) :
    left.programsCache.slot = agave.clockSlot clock.data := by
  have managed : isManagedSysvarAccount Sysvar.clock.id = true := by
    simp [isManagedSysvarAccount, Sysvar.at?_id]
  have found : (db.written agave Sysvar.clock.id clock).cache.inner[Sysvar.clock.id]? =
      some clock := by
    simp [AccountSharedData.visible, funded]
  -- The check that comes first makes sure that the clock fills the sysvar cache.
  have refreshed : ∀ {entry}, db.checkAccount agave Sysvar.clock.id clock = .ok entry →
      (db.written agave Sysvar.clock.id clock).programsCache.slot = agave.clockSlot clock.data ∧
        (db.written agave Sysvar.clock.id clock).currentSlot agave = agave.clockSlot clock.data := by
    intro entry checked
    have filled := fills clock.data (decodes_of_checkAccount agave checked funded)
    obtain ⟨mirror, slot⟩ := written_of_managed agave managed fun other there => by
      rw [found] at there
      cases there
      exact filled
    exact ⟨slot clock found, currentSlot_of_mirror agave mirror found filled⟩
  rcases db.addAccount_cases agave Sysvar.clock.id clock with
    ⟨error, -, failed⟩ | ⟨entry, checked, done⟩ | ⟨-, -, error, -, failed⟩ |
      ⟨checked, -, cache, rebuilt, done⟩ | ⟨checked, -, done⟩
  · rw [failed] at added
    cases added
  · rw [done] at added
    cases added
    exact (refreshed checked).1
  · rw [failed] at added
    cases added
  · rw [done] at added
    cases added
    rw [← (refreshed checked).2, ← slot_rebuiltProgramCache agave rebuilt]
  · rw [done] at added
    cases added
    exact (refreshed checked).1

end Accounts

/-! ### VMs -/

namespace Svm

/-- The addresses of a VM's feature accounts and precompiles. -/
def configuredAddresses (vm : Svm) : List Address :=
  vm.version.featureSet.active.keys ++ vm.precompiles.map fun precompile => precompile.programId

/-- The VMs have twin databases and each its airdrop key; everything else is the same. -/
inductive Twins (agave : Agave) (keys : List Address) (programs : Set Address) (settled : Prop)
    (vm : Svm) : Svm → Prop
  | intro (accounts : Accounts) (key : Address) (own : vm.airdropPubkey ∈ keys ∧ key ∈ keys)
      (clear : ∀ address ∈ vm.configuredAddresses, address ∉ keys)
      (alike : vm.accounts.Twins agave keys programs settled accounts) :
      Twins agave keys programs settled vm { vm with accounts := accounts, airdropPubkey := key }

/-- The addresses that a new VM writes, its airdrop key apart. -/
def installedAddresses (agave : Agave) (genesis : Genesis) : List Address :=
  Sysvar.all.map Sysvar.id ++ [Ids.slotHistory] ++
    agave.builtins.map (fun builtin => builtin.programId) ++ genesis.allEnabled.active.keys ++
      bundledAddresses agave ++ genesis.precompiles.map fun precompile => precompile.programId

/-- A program is written without its accounts meeting a key. -/
theorem avoidsKeys_of_programAccountsFor {agave : Agave} {keys : List Address} {db : Accounts}
    {programId loaderId : Address} {programBytes : List UInt8}
    {writes : List (Address × AccountSharedData)}
    (outside : ∀ address ∈ programAddresses agave programId loaderId, address ∉ keys)
    (listed : programAccountsFor agave db programId programBytes loaderId = some writes) :
    ∀ pair ∈ writes, AvoidsKeys keys pair.1 pair.2 := by
  intro pair member
  refine ⟨outside _ (mem_programAddresses agave listed pair member), ?_⟩
  intro program programdata refers
  unfold programAccountsFor at listed
  by_cases upgradeable : loaderId = Ids.bpfLoaderUpgradeable
  · simp only [upgradeable, if_true, Option.some.injEq] at listed
    subst listed
    simp only [List.mem_cons, List.not_mem_nil, or_false] at member
    rcases member with rfl | rfl
    · -- The programdata account is not executable.
      simp [isCachedProgramAccount, programdataAccount] at program
    · simp only [programdataAddress?, if_true,
        UpgradeableLoaderState.deserializeProgram_serializeProgram, Option.some.injEq] at refers
      subst refers
      apply outside
      simp [programAddresses, upgradeable]
  · simp only [upgradeable, if_false] at listed
    split at listed
    · cases listed
      rw [List.mem_singleton.1 member] at refers
      simp [programdataAddress?, upgradeable] at refers
    · cases listed

namespace Twins

variable {agave : Agave} {keys : List Address} {programs : Set Address} {settled : Prop}
  {vm vm' : Svm}

theorem accounts (twins : Twins agave keys programs settled vm vm') :
    vm.accounts.Twins agave keys programs settled vm'.accounts := by
  cases twins with
  | intro accounts key own clear alike => exact alike

theorem version_eq (twins : Twins agave keys programs settled vm vm') :
    vm'.version = vm.version := by
  cases twins
  rfl

theorem blockEnv_eq (twins : Twins agave keys programs settled vm vm') :
    vm'.blockEnv = vm.blockEnv := by
  cases twins
  rfl

theorem mono (twins : Twins agave keys programs settled vm vm') {others : Set Address}
    (more : programs ⊆ others) : Twins agave keys others settled vm vm' := by
  cases twins with
  | intro accounts key own clear alike => exact .intro accounts key own clear (alike.mono more)

theorem marked (twins : Twins agave keys programs settled vm vm')
    (mark : MaterializedState → MaterializedState) :
    Twins agave keys programs settled { vm with materialized := mark vm.materialized }
      { vm' with materialized := mark vm'.materialized } := by
  cases twins with
  | intro accounts key own clear alike => exact .intro accounts key own clear alike

theorem withAccounts (twins : Twins agave keys programs settled vm vm') {others : Set Address}
    {later : Prop} {db db' : Accounts} (alike : db.Twins agave keys others later db') :
    Twins agave keys others later (vm.withAccounts db) (vm'.withAccounts db') := by
  cases twins with
  | intro accounts key own clear _ => exact .intro db' key own clear alike

theorem syncBlockEnvSlot (twins : Twins agave keys programs settled vm vm') :
    Twins agave keys programs settled (vm.syncBlockEnvSlot agave) (vm'.syncBlockEnvSlot agave) := by
  have slot := twins.accounts.currentSlot_eq
  cases twins with
  | intro accounts key own clear alike =>
    have same : { vm with accounts := accounts, airdropPubkey := key }.syncBlockEnvSlot agave =
        { vm.syncBlockEnvSlot agave with accounts := accounts, airdropPubkey := key } := by
      simp only [Svm.syncBlockEnvSlot] at slot ⊢
      rw [slot]
    rw [same]
    exact .intro accounts key own clear alike

/-! ### Accounts and sysvars -/

theorem setAccount (twins : Twins agave keys programs settled vm vm') {address : Address}
    {account : AccountSharedData} (avoids : AvoidsKeys keys address account) :
    Lockstep.Answers (Twins agave keys programs settled) (vm.setAccount agave address account)
      (vm'.setAccount agave address account) := by
  unfold Svm.setAccount
  rcases (twins.accounts.addAccount avoids).cases with
    ⟨error, left, left', added, added', next⟩ | ⟨left, left', added, added', next⟩
  · rw [added, added']
    exact ⟨rfl, twins.withAccounts next⟩
  · rw [added, added']
    exact ⟨rfl, (twins.withAccounts next).syncBlockEnvSlot⟩

theorem setAccounts (twins : Twins agave keys programs settled vm vm')
    {accounts : List (Address × AccountSharedData)}
    (avoids : ∀ pair ∈ accounts, AvoidsKeys keys pair.1 pair.2) :
    Lockstep.Answers (Twins agave keys programs settled) (vm.setAccounts agave accounts)
      (vm'.setAccounts agave accounts) := by
  induction accounts generalizing vm vm' with
  | nil => exact ⟨rfl, twins⟩
  | cons pair rest ih =>
    have others := fun other member => avoids other (List.mem_cons_of_mem _ member)
    unfold Svm.setAccounts
    rcases (twins.setAccount (avoids pair List.mem_cons_self)).cases with
      ⟨error, left, left', set, set', next⟩ | ⟨left, left', set, set', next⟩
    · simp only [set, set']
      exact ⟨rfl, next⟩
    · simp only [set, set']
      exact ih next others

/-- Where an operation is expected to succeed, both sides panic or neither does. -/
theorem expectOk {outcome outcome' : Except HpsvmError Unit × Svm}
    (answers : Lockstep.Answers (Twins agave keys programs settled) outcome outcome') :
    Option.Rel (Twins agave keys programs settled) (expectOk outcome) (expectOk outcome') := by
  rcases answers.cases with ⟨error, left, left', rfl, rfl, -⟩ | ⟨left, left', rfl, rfl, next⟩
  · exact .none
  · exact .some next

theorem setSysvar (twins : Twins agave keys programs settled vm vm') {sysvar : Sysvar}
    (outside : sysvar.id ∉ keys) (data : List UInt8) :
    Option.Rel (Twins agave keys programs settled) (Svm.expectOk (vm.setSysvar agave sysvar data))
      (Svm.expectOk (vm'.setSysvar agave sysvar data)) :=
  expectOk (twins.setAccount (.of_plain outside rfl))

/-- Warping writes the clock, which settles the slot of both program caches. -/
theorem warpToSlot (twins : Twins agave keys programs settled vm vm') (fills : FillsClock agave)
    (outside : Sysvar.clock.id ∉ keys) (slot : Nat) :
    Option.Rel (Twins agave keys programs True) (vm.warpToSlot agave slot)
      (vm'.warpToSlot agave slot) := by
  have clocks : vm'.clock? agave = vm.clock? agave := by
    simp only [clock?, Accounts.getAccountRef, twins.accounts.overlay.inner _ outside]
  simp only [Svm.warpToSlot, clocks]
  cases vm.clock? agave with
  | none => exact .none
  | some clock =>
    simp only [Option.bind_some, Svm.setSysvar, Svm.setAccount]
    have avoids : AvoidsKeys keys Sysvar.clock.id
        (sysvarAccount (agave.withClockSlot clock slot)) := .of_plain outside rfl
    rcases (twins.accounts.addAccount avoids).cases with
      ⟨error, left, left', added, added', next⟩ | ⟨left, left', added, added', next⟩
    · simp only [added, added']
      exact .none
    · simp only [added, added']
      have funded : (sysvarAccount (agave.withClockSlot clock slot)).lamports ≠ 0 := one_ne_zero
      have slots : left'.programsCache.slot = left.programsCache.slot := by
        rw [Accounts.slot_of_addAccount fills funded added,
          Accounts.slot_of_addAccount fills funded added']
      have settles : left.Twins agave keys programs True left' :=
        ⟨next.source, next.sysvars, next.environments, next.overlay, next.entries, fun _ => slots⟩
      exact .some (twins.withAccounts settles).syncBlockEnvSlot

/-! ### Programs, builtins and precompiles -/

/-- A program that is added has the same entry on both sides afterwards. -/
theorem addProgramInternal (twins : Twins agave keys programs settled vm vm')
    {programId loaderId : Address}
    (outside : ∀ address ∈ programAddresses agave programId loaderId, address ∉ keys)
    (programBytes : List UInt8) :
    Option.Rel (Twins agave keys (programs \ {programId}) settled)
      (Svm.expectOk (vm.addProgramInternal agave programId programBytes loaderId))
      (Svm.expectOk (vm'.addProgramInternal agave programId programBytes loaderId)) := by
  have same : programAccountsFor agave vm'.accounts programId programBytes loaderId =
      programAccountsFor agave vm.accounts programId programBytes loaderId := by
    simp only [programAccountsFor, programdataAccount, twins.accounts.currentSlot_eq,
      twins.accounts.minimumBalance_eq]
  simp only [Svm.addProgramInternal, same]
  cases listed : programAccountsFor agave vm.accounts programId programBytes loaderId with
  | none => exact .none
  | some writes =>
    have written := twins.accounts.foldl_addAccountNoChecks Prod.fst Prod.snd
      (avoidsKeys_of_programAccountsFor outside listed)
    simp only [written.environments]
    cases agave.loadElf _ loaderId programBytes with
    | error reason => exact .none
    | ok done =>
      obtain ⟨source, sysvars, -, overlay, entries, slot⟩ := written.replenish programId _
      exact .some (twins.withAccounts ⟨source, sysvars, rfl, overlay, entries, slot⟩)

theorem addBundledPrograms (twins : Twins agave keys programs settled vm vm')
    {bundled : List BundledProgram}
    (outside : ∀ program ∈ bundled,
      ∀ address ∈ programAddresses agave program.programId program.loaderId, address ∉ keys) :
    Option.Rel (Twins agave keys programs settled) (vm.addBundledPrograms agave bundled)
      (vm'.addBundledPrograms agave bundled) := by
  induction bundled generalizing vm vm' with
  | nil => exact .some twins
  | cons program rest ih =>
    apply Lockstep.bind (twins.addProgramInternal (outside program List.mem_cons_self) _)
    intro next next' related
    apply ih
    · exact related.mono Set.sdiff_subset
    · exact fun other member => outside other (List.mem_cons_of_mem _ member)

theorem refreshRuntimeEnvironments (twins : Twins agave keys programs settled vm vm') :
    Option.Rel (Twins agave keys programs settled) (vm.refreshRuntimeEnvironments agave)
      (vm'.refreshRuntimeEnvironments agave) := by
  cases twins with
  | intro accounts key own clear alike =>
    simp only [Svm.refreshRuntimeEnvironments, tryRefreshRuntimeEnvironments]
    cases agave.createRuntimeEnvironment vm.version.featureSet _ with
    | error reason => exact .none
    | ok created =>
      cases registerSyscalls agave vm.version.featureSet [] vm.customSyscalls with
      | error error => exact .none
      | ok syscalls =>
        exact .some (.intro _ key own clear
          ⟨alike.source, alike.sysvars, rfl, alike.overlay, alike.entries, alike.slot⟩)

theorem installBuiltins (features : FeatureSet) {builtins : List BuiltinPrototype}
    {db db' : Accounts} (alike : db.Twins agave keys programs settled db')
    (outside : ∀ builtin ∈ builtins, builtin.programId ∉ keys) :
    (installBuiltins features db builtins).Twins agave keys programs settled
      (installBuiltins features db' builtins) := by
  induction builtins generalizing db db' with
  | nil => exact alike
  | cons builtin rest ih =>
    have others := fun other member => outside other (List.mem_cons_of_mem _ member)
    have plain : isCachedProgramAccount builtin.programId (createLoadableAccount builtin.name) =
        false := by
      simp [isCachedProgramAccount, createLoadableAccount]
    have first := ((alike.replenish builtin.programId (.builtin builtin.registerFn)).mono
      Set.sdiff_subset).addAccountNoChecks (.of_plain (outside builtin List.mem_cons_self) plain)
    unfold Svm.installBuiltins
    cases builtin.enableFeatureId with
    | none => exact ih first others
    | some feature =>
      by_cases active : features.isActive feature = true
      · simp only [active, if_true]
        exact ih first others
      · simp only [active, Bool.false_eq_true, if_false]
        exact ih alike others

theorem loadBuiltins (twins : Twins agave keys programs settled vm vm')
    (outside : ∀ builtin ∈ agave.builtins, builtin.programId ∉ keys) :
    Option.Rel (Twins agave keys programs settled) (vm.loadBuiltins agave)
      (vm'.loadBuiltins agave) := by
  have marked := twins.marked fun state => { state with builtins := true }
  apply Lockstep.map marked.refreshRuntimeEnvironments
  intro next next' related
  rw [related.version_eq]
  exact related.withAccounts (installBuiltins _ related.accounts outside)

theorem clear (twins : Twins agave keys programs settled vm vm') :
    ∀ address ∈ vm.configuredAddresses, address ∉ keys := by
  cases twins with
  | intro accounts key own clear alike => exact clear

theorem loadPrecompiles (twins : Twins agave keys programs settled vm vm') :
    Option.Rel (Twins agave keys programs settled) (vm.loadPrecompiles agave)
      (vm'.loadPrecompiles agave) := by
  have same : vm'.precompiles.filter (fun precompile =>
        (vm'.findPrecompile precompile.programId).isSome) =
      vm.precompiles.filter fun precompile => (vm.findPrecompile precompile.programId).isSome := by
    cases twins
    rfl
  simp only [Svm.loadPrecompiles, same]
  apply expectOk (twins.setAccounts _)
  intro pair listed
  obtain ⟨precompile, enabled, rfl⟩ := List.mem_map.1 listed
  apply AvoidsKeys.of_plain
  · apply twins.clear
    exact List.mem_append_right _ (List.mem_map_of_mem (List.mem_filter.1 enabled).1)
  · simp [isCachedProgramAccount, precompileAccount]

/-! ### The other parts of a new VM -/

/-- The airdrop accounts are where the databases differ. -/
theorem setLamports (twins : Twins agave keys programs settled vm vm')
    (unmanaged : ∀ key ∈ keys, isManagedSysvarAccount key = false)
    (outside : ∀ builtin ∈ agave.builtins, builtin.programId ∉ keys) (lamports : Nat) :
    Twins agave keys programs settled (vm.setLamports lamports) (vm'.setLamports lamports) := by
  have inert : ∀ key ∈ keys,
      Accounts.Inert agave key { AccountSharedData.default with lamports := lamports } := by
    intro key own
    refine ⟨unmanaged key own, ?_, rfl⟩
    rintro builtin listed rfl
    exact outside builtin listed own
  cases twins with
  | intro accounts key own clear alike =>
    exact .intro _ key own clear ⟨alike.source, alike.sysvars, alike.environments,
      alike.overlay.put_own own.1 own.2 inert, alike.entries, alike.slot⟩

theorem materializeFeatureAccounts (twins : Twins agave keys programs settled vm vm') :
    Twins agave keys programs settled (vm.materializeFeatureAccounts agave)
      (vm'.materializeFeatureAccounts agave) := by
  have balance := twins.accounts.minimumBalance_eq featureSize
  cases twins with
  | intro accounts key own clear alike =>
    simp only [Svm.materializeFeatureAccounts] at balance ⊢
    rw [balance]
    refine .intro _ key own clear ?_
    apply alike.foldl_addAccountNoChecks
    rintro ⟨feature, slot⟩ listed
    apply AvoidsKeys.of_plain
    · apply clear
      unfold configuredAddresses
      rw [← Std.ExtTreeMap.map_fst_toList_eq_keys]
      exact List.mem_append_left _ (List.mem_map_of_mem listed)
    · rfl

theorem setPrecompiles (twins : Twins agave keys programs settled vm vm') :
    Option.Rel (Twins agave keys programs settled) (vm.setPrecompiles agave)
      (vm'.setPrecompiles agave) := by
  cases twins with
  | intro accounts key own clear alike =>
    have marked : Twins agave keys programs settled { vm with loadsStandardPrecompiles := true }
        { { vm with accounts := accounts, airdropPubkey := key } with
          loadsStandardPrecompiles := true } :=
      .intro accounts key own clear alike
    exact marked.loadPrecompiles

theorem loadDefaultPrograms (twins : Twins agave keys programs settled vm vm')
    (outside : ∀ address ∈ bundledAddresses agave, address ∉ keys) :
    Option.Rel (Twins agave keys programs settled) (vm.loadDefaultPrograms agave)
      (vm'.loadDefaultPrograms agave) := by
  have marked := twins.marked fun state => { state with defaultPrograms := true }
  have spl : splPrograms agave vm'.version.featureSet = splPrograms agave vm.version.featureSet := by
    rw [twins.version_eq]
  simp only [Svm.loadDefaultPrograms, spl]
  apply marked.addBundledPrograms
  intro program listed address written
  exact outside address (mem_bundledAddresses agave _ program listed address written)

theorem setFirstSysvars (twins : Twins agave keys programs settled vm vm') (genesis : Genesis)
    (outside : ∀ sysvar : Sysvar, sysvar.id ∉ keys) (sysvars : List Sysvar) :
    Option.Rel (Twins agave keys programs settled) (vm.setFirstSysvars agave genesis sysvars)
      (vm'.setFirstSysvars agave genesis sysvars) := by
  induction sysvars generalizing vm vm' with
  | nil => exact .some twins
  | cons sysvar rest ih =>
    simp only [Svm.setFirstSysvars, twins.version_eq, twins.blockEnv_eq,
      twins.accounts.currentSlot_eq]
    apply Lockstep.bind (twins.setSysvar (outside sysvar) _)
    intro next next' related
    exact ih related

theorem addStakeHistory (twins : Twins agave keys programs settled vm vm') (genesis : Genesis)
    (outside : Sysvar.stakeHistory.id ∉ keys) :
    Option.Rel (Twins agave keys programs settled) (vm.addStakeHistory agave genesis)
      (vm'.addStakeHistory agave genesis) := by
  simp only [Svm.addStakeHistory, twins.version_eq, twins.blockEnv_eq,
    twins.accounts.currentSlot_eq]
  generalize genesis.sysvarData .stakeHistory vm.version.featureSet
    (vm.accounts.currentSlot agave) vm.blockEnv.latestBlockhash = data
  have avoids : AvoidsKeys keys Sysvar.stakeHistory.id (sysvarAccount data) :=
    .of_plain outside rfl
  rcases (twins.accounts.addAccount avoids).cases with
    ⟨error, left, left', added, added', -⟩ | ⟨left, left', added, added', next⟩
  · simp only [added, added']
    exact .none
  · simp only [added, added']
    exact .some (twins.withAccounts next)

theorem setSysvars (twins : Twins agave keys programs settled vm vm') (genesis : Genesis)
    (outside : ∀ sysvar : Sysvar, sysvar.id ∉ keys) (slotHistory : Ids.slotHistory ∉ keys) :
    Option.Rel (Twins agave keys programs settled) (vm.setSysvars agave genesis)
      (vm'.setSysvars agave genesis) := by
  have marked := twins.marked fun state => { state with sysvars := true }
  apply Lockstep.bind (marked.setFirstSysvars genesis outside _)
  intro filled filled' related
  apply Lockstep.bind (expectOk (related.setAccount (.of_plain slotHistory rfl)))
  intro next next' related
  exact related.addStakeHistory genesis (outside .stakeHistory)

end Twins

/-- An execution that stays away from the keys does not tell settled twins apart. -/
theorem Twins.executeReadonly_eq {agave : Agave} {keys : List Address} {vm vm' : Svm}
    {tx : VersionedTransaction} (twins : Twins agave keys ∅ True vm vm')
    (away : ∀ address ∈ vm.executionReads agave tx, address ∉ keys) :
    vm'.executeReadonly agave tx = vm.executeReadonly agave tx := by
  have alike := twins.accounts
  apply executeReadonly_congr
  · constructor
    · cases twins
      rfl
    · exact alike.programsCache_eq
    · exact alike.sysvars
    · exact alike.environments
  · intro address listed
    exact alike.tryGetAccount_eq (away address listed)
  · intro sanitized _ _
    cases twins
    rfl

/-! ### New VMs -/

section

variable (agave : Agave) (genesis : Genesis)

/-- A VM with all features and nothing installed. -/
def bare (key : Address) : Svm :=
  { newInner agave genesis key with
    version := { (newInner agave genesis key).version with featureSet := genesis.allEnabled }
    reservedAccountKeys := agave.reservedAccountKeys genesis.allEnabled }

/-- What `HPSVM::new` installs in it, step by step. -/
def furnish (lamports : Nat) (vm : Svm) : Option Svm :=
  (vm.loadBuiltins agave).bind fun vm =>
    ((vm.setLamports lamports).setSysvars agave genesis).bind fun vm =>
      ((vm.materializeFeatureAccounts agave).loadDefaultPrograms agave).bind fun vm =>
        (vm.setPrecompiles agave).bind fun vm =>
          some ((vm.setSigverify true).setBlockhashCheck true)

/-- The plan of `HPSVM::new`, with the lamports of the airdrop account left open. -/
def programTestPlan (lamports : Nat) : BuildPlan :=
  { featureSet := some genesis.allEnabled
    lamports := some lamports
    includeSysvars := true
    includeFeatureAccounts := true
    includeBuiltins := true
    includeDefaultPrograms := true
    includePrecompiles := true
    sigverify := some true
    blockhashCheck := some true }

theorem build_programTestPlan (lamports : Nat) (key : Address) :
    (programTestPlan genesis lamports).build agave genesis key =
      ((bare agave genesis key).furnish agave genesis lamports).map .ok := by
  obtain ⟨outcome, configured, started⟩ :=
    (programTestPlan genesis lamports).configure_newInner agave genesis key
  cases started rfl
  unfold BuildPlan.build
  rw [configured]
  rfl

theorem exists_new_eq_furnish :
    ∃ lamports, ∀ key, Svm.new agave genesis key =
      (bare agave genesis key).furnish agave genesis lamports := by
  obtain ⟨lamports, plan⟩ : ∃ lamports,
      BuildPlan.withProgramTestDefaults genesis {} = programTestPlan genesis lamports := ⟨_, rfl⟩
  refine ⟨lamports, fun key => ?_⟩
  unfold Svm.new
  rw [plan, build_programTestPlan]
  cases (bare agave genesis key).furnish agave genesis lamports with
  | none => rfl
  | some vm => rfl

end

/-- Two new VMs are twins, whatever their airdrop keys, as long as these are not used otherwise. -/
theorem twins_new {agave : Agave} {genesis : Genesis} {keys : List Address} {key key' : Address}
    (own : key ∈ keys) (own' : key' ∈ keys)
    (fresh : ∀ address ∈ installedAddresses agave genesis, address ∉ keys) :
    Option.Rel (Twins agave keys ∅ True) (Svm.new agave genesis key)
      (Svm.new agave genesis key') := by
  simp only [installedAddresses, List.forall_mem_append, List.forall_mem_map,
    List.forall_mem_singleton] at fresh
  obtain ⟨⟨⟨⟨⟨known, slotHistory⟩, builtins⟩, features⟩, bundled⟩, precompiles⟩ := fresh
  have sysvars : ∀ sysvar : Sysvar, sysvar.id ∉ keys := fun sysvar =>
    known sysvar (Sysvar.mem_all sysvar)
  have clear : ∀ address ∈ (bare agave genesis key).configuredAddresses, address ∉ keys :=
    List.forall_mem_append.2 ⟨features, List.forall_mem_map.2 precompiles⟩
  have unmanaged : ∀ key ∈ keys, isManagedSysvarAccount key = false := by
    intro key own
    by_contra managed
    obtain ⟨sysvar, found⟩ := Option.isSome_iff_exists.1 (Bool.not_eq_false _ ▸ managed)
    exact sysvars sysvar (Sysvar.id_of_at? found ▸ own)
  obtain ⟨lamports, news⟩ := exists_new_eq_furnish agave genesis
  rw [news, news]
  -- Without accounts the VMs differ in the key alone, and each step of `build` keeps that.
  have bares : Twins agave keys ∅ True (bare agave genesis key) (bare agave genesis key') := by
    refine .intro (Accounts.new genesis) key' ⟨own, own'⟩ clear ?_
    refine ⟨rfl, rfl, rfl, ?_, fun _ _ => rfl, fun _ => rfl⟩
    constructor
    · exact fun _ _ => rfl
    · exact fun _ _ => Iff.rfl
    · rintro pubkey - account (found | found)
      · simp [bare, newInner, Accounts.new, CacheDb.empty] at found
      · simp [Accounts.new, CacheDb.empty] at found
    · intro pubkey account found
      simp [bare, newInner, Accounts.new, CacheDb.empty] at found
  apply Lockstep.bind (bares.loadBuiltins builtins)
  intro loaded loaded' related
  apply Lockstep.bind ((related.setLamports unmanaged builtins _).setSysvars genesis sysvars
    slotHistory)
  intro filled filled' related
  apply Lockstep.bind (related.materializeFeatureAccounts.loadDefaultPrograms bundled)
  intro added added' related
  apply Lockstep.bind related.setPrecompiles
  intro complete complete' related
  cases related with
  | intro accounts key own clear alike => exact .some (.intro accounts key own clear alike)

end Svm

end Hpsvm
