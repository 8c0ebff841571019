import Hpsvm.Operations
import Hpsvm.Properties.BatchSerial
import Hpsvm.Properties.CoherentRuns
import Hpsvm.Properties.FeatureSets

/-!
# Sysvars and slots over a run

A VM keeps three copies of its slot: in the clock account, in the block environment and in the
program cache. It also mirrors the sysvar accounts of its overlay in the sysvar cache. The checked
writes of the database keep the mirror, and the operations built on them keep the slots together.
The unchecked writes (of builtins, programs and feature accounts) rely on not touching a sysvar,
which nothing enforces.
-/

namespace Hpsvm

open Foundation

namespace Accounts

variable (agave : Agave)

/-- What separates the databases is no sysvar: the overlay holds the same sysvar accounts, they
are mirrored alike, and the program cache has its slot, or the current one, which a rebuild gives
it. -/
structure KeepsSysvars (db db' : Accounts) : Prop where
  overlay : ∀ sysvar : Sysvar, db'.cache.inner[sysvar.id]? = db.cache.inner[sysvar.id]?
  mirror : db'.sysvarCache = db.sysvarCache
  slot : db'.programsCache.slot = db.programsCache.slot ∨
    db'.programsCache.slot = db.currentSlot agave

theorem currentSlot_congr {db db' : Accounts} (mirror : db'.sysvarCache = db.sysvarCache) :
    db'.currentSlot agave = db.currentSlot agave := by
  simp only [currentSlot, clockSlot?, mirror]

/-- A clock that decodes gives a mirrored database its slot. -/
theorem currentSlot_of_mirror {db : Accounts} {clock : AccountSharedData}
    (mirror : db.sysvarCache = fillSysvarCache agave db.cache.inner)
    (found : db.cache.inner[Sysvar.clock.id]? = some clock)
    (decodes : agave.fillsSysvar .clock clock.data = true) :
    db.currentSlot agave = agave.clockSlot clock.data := by
  have mirrored : db.sysvarCache .clock = some clock.data := by
    simp [mirror, fillSysvarCache, found, decodes]
  simp [currentSlot, clockSlot?, mirrored]

namespace KeepsSysvars

variable {agave} {db db' db'' : Accounts}

theorem refl (db : Accounts) : KeepsSysvars agave db db := ⟨fun _ => rfl, rfl, .inl rfl⟩

theorem trans (left : KeepsSysvars agave db db') (right : KeepsSysvars agave db' db'') :
    KeepsSysvars agave db db'' := by
  refine ⟨fun sysvar => (right.overlay sysvar).trans (left.overlay sysvar),
    right.mirror.trans left.mirror, ?_⟩
  rcases right.slot with kept | current
  · rw [kept]
    exact left.slot
  · exact .inr (current.trans (currentSlot_congr agave left.mirror))

theorem fillSysvarCache_eq (keeps : KeepsSysvars agave db db') :
    fillSysvarCache agave db'.cache.inner = fillSysvarCache agave db.cache.inner := by
  funext sysvar
  simp only [fillSysvarCache, keeps.overlay sysvar]

/-- Rolling back what touched no sysvar leaves a database that differs in no sysvar either. -/
theorem rollback (keeps : KeepsSysvars agave db db') (writes : Journaled db db') :
    KeepsSysvars agave db (db'.rollback db.checkpoint) := by
  rw [rollback_checkpoint writes]
  exact ⟨fun _ => rfl, keeps.mirror, keeps.slot⟩

end KeepsSysvars

theorem ne_id_of_unmanaged {pubkey : Address} (unmanaged : isManagedSysvarAccount pubkey = false)
    (sysvar : Sysvar) : pubkey ≠ sysvar.id := by
  rintro rfl
  rw [isManagedSysvarAccount, Sysvar.at?_id] at unmanaged
  cases unmanaged

theorem keepsSysvars_addAccountNoChecks (db : Accounts) {pubkey : Address}
    (unmanaged : isManagedSysvarAccount pubkey = false) (account : AccountSharedData) :
    KeepsSysvars agave db (db.addAccountNoChecks pubkey account) := by
  refine ⟨?_, rfl, .inl rfl⟩
  intro sysvar
  simp [addAccountNoChecks, ne_id_of_unmanaged unmanaged sysvar]

theorem keepsSysvars_foldl_addAccountNoChecks {Item : Type} (db : Accounts) {items : List Item}
    {pubkey : Item → Address} (account : Item → AccountSharedData)
    (unmanaged : ∀ item ∈ items, isManagedSysvarAccount (pubkey item) = false) :
    KeepsSysvars agave db
      (items.foldl (fun db item => db.addAccountNoChecks (pubkey item) (account item)) db) := by
  induction items generalizing db with
  | nil => exact .refl db
  | cons item rest ih =>
    have first := db.keepsSysvars_addAccountNoChecks agave (unmanaged item List.mem_cons_self)
      (account item)
    exact first.trans (ih _ fun item member => unmanaged item (List.mem_cons_of_mem _ member))

theorem keepsSysvars_foldl_removeAccount (db : Accounts) {addresses : List Address}
    (unmanaged : ∀ address ∈ addresses, isManagedSysvarAccount address = false) :
    KeepsSysvars agave db
      (addresses.foldl (fun db address => db.removeAccount agave address) db) := by
  induction addresses generalizing db with
  | nil => exact .refl db
  | cons address rest ih =>
    have here := unmanaged address List.mem_cons_self
    have first : KeepsSysvars agave db (db.removeAccount agave address) := by
      unfold removeAccount
      rw [refreshSysvars_of_unmanaged agave _ here]
      refine ⟨?_, rfl, .inl rfl⟩
      intro sysvar
      simp [ne_id_of_unmanaged here sysvar]
    exact first.trans (ih _ fun address member => unmanaged address (List.mem_cons_of_mem _ member))

/-! ### The slot of a rebuilt program cache -/

theorem slot_replenishBuiltins (inner : AddressMap AccountSharedData) (cache : ProgramCache)
    (builtins : List BuiltinPrototype) :
    (replenishBuiltins inner cache builtins).slot = cache.slot := by
  induction builtins generalizing cache with
  | nil => rfl
  | cons builtin rest ih =>
    rw [replenishBuiltins, ih]
    split
    · rfl
    · rfl

theorem slot_replenishPrograms {db : Accounts} {cache cache' : ProgramCache}
    {programs : List (Address × AccountSharedData)}
    (done : replenishPrograms agave db cache programs = .ok cache') : cache'.slot = cache.slot := by
  induction programs generalizing cache with
  | nil =>
    cases done
    rfl
  | cons program rest ih =>
    obtain ⟨pubkey, account⟩ := program
    unfold replenishPrograms at done
    split at done
    · cases done
    · have others := ih done
      exact others

theorem slot_rebuiltProgramCache {db : Accounts} {cache : ProgramCache}
    (rebuilt : db.rebuiltProgramCache agave = .ok cache) : cache.slot = db.currentSlot agave := by
  rw [slot_replenishPrograms agave rebuilt, slot_replenishBuiltins]
  rfl

theorem keepsSysvars_rebuildProgramCache (db : Accounts) :
    KeepsSysvars agave db (db.rebuildProgramCache agave).2 := by
  unfold rebuildProgramCache
  split
  · exact .refl db
  next cache rebuilt => exact ⟨fun _ => rfl, rfl, .inr (slot_rebuiltProgramCache agave rebuilt)⟩

/-! ### Checked writes away from the sysvars -/

theorem keepsSysvars_written (db : Accounts) {pubkey : Address}
    (unmanaged : isManagedSysvarAccount pubkey = false) (account : AccountSharedData) :
    KeepsSysvars agave db (db.written agave pubkey account) := by
  unfold written
  rw [refreshSysvars_of_unmanaged agave _ unmanaged]
  refine ⟨?_, rfl, .inl rfl⟩
  intro sysvar
  simp [writeAccount, ne_id_of_unmanaged unmanaged sysvar]

theorem keepsSysvars_addAccount (db : Accounts) {pubkey : Address}
    (unmanaged : isManagedSysvarAccount pubkey = false) (account : AccountSharedData) :
    KeepsSysvars agave db (db.addAccount agave pubkey account).2 := by
  have wrote := db.keepsSysvars_written agave unmanaged account
  rcases db.addAccount_cases agave pubkey account with
    ⟨error, -, added⟩ | ⟨entry, -, added⟩ | ⟨-, -, error, -, added⟩ |
      ⟨-, -, cache, rebuilt, added⟩ | ⟨-, -, added⟩
  · rw [added]
    exact .refl db
  · rw [added]
    exact ⟨wrote.overlay, wrote.mirror, wrote.slot⟩
  · rw [added]
    exact wrote
  · rw [added]
    refine ⟨wrote.overlay, wrote.mirror, .inr ?_⟩
    exact (slot_rebuiltProgramCache agave rebuilt).trans (currentSlot_congr agave wrote.mirror)
  · rw [added]
    exact wrote

theorem keepsSysvars_addAccounts (db : Accounts) {accounts : List (Address × AccountSharedData)}
    (unmanaged : ∀ pair ∈ accounts, isManagedSysvarAccount pair.1 = false) :
    KeepsSysvars agave db (db.addAccounts agave accounts).2 := by
  refine addAccounts_induct agave (.refl db) ?_
  intro pair member next kept
  exact kept.trans (next.keepsSysvars_addAccount agave (unmanaged pair member) pair.2)

theorem keepsSysvars_syncAccounts (db : Accounts) {accounts : List (Address × AccountSharedData)}
    (unmanaged : ∀ pair ∈ accounts, isManagedSysvarAccount pair.1 = false) :
    KeepsSysvars agave db (db.syncAccounts agave accounts).2 :=
  db.keepsSysvars_addAccounts agave fun pair member =>
    unmanaged pair (mem_partitionProgramdata.1 member)

/-! ### Checked writes of sysvars -/

/-- Before its cache update, the write of a sysvar has refreshed the mirror and the slot. -/
theorem written_of_managed {db : Accounts} {pubkey : Address} {account : AccountSharedData}
    (managed : isManagedSysvarAccount pubkey = true)
    (fills : ∀ clock, (db.written agave pubkey account).cache.inner[Sysvar.clock.id]? = some clock →
      agave.fillsSysvar .clock clock.data = true) :
    (db.written agave pubkey account).sysvarCache =
        fillSysvarCache agave (db.written agave pubkey account).cache.inner ∧
      ∀ clock, (db.written agave pubkey account).cache.inner[Sysvar.clock.id]? = some clock →
        (db.written agave pubkey account).programsCache.slot = agave.clockSlot clock.data := by
  have refreshed : db.written agave pubkey account =
      (db.writeAccount pubkey account).rebuildSysvarCache agave := by
    simp only [written, refreshSysvars, managed, if_true]
  rw [refreshed] at fills ⊢
  refine ⟨rfl, ?_⟩
  intro clock found
  have decodes := fills clock found
  rw [rebuildSysvarCache_cache] at found
  simp [rebuildSysvarCache, ProgramCache.setSlot, fillSysvarCache, found, decodes]

/-- A clock that passed the check decodes. -/
theorem decodes_of_checkAccount {db : Accounts} {account : AccountSharedData}
    {entry : Option ProgramCacheEntry}
    (checked : db.checkAccount agave Sysvar.clock.id account = .ok entry)
    (funded : account.lamports ≠ 0) : agave.deserializesSysvar .clock account.data = true := by
  have managed : isManagedSysvarAccount Sysvar.clock.id = true := by
    simp [isManagedSysvarAccount, Sysvar.at?_id]
  have funded' : (account.lamports != 0) = true := by simpa using funded
  unfold checkAccount validateSysvarAccount at checked
  simp only [managed, funded', Bool.and_self, if_true, Sysvar.at?_id] at checked
  by_contra refused
  simp [refused] at checked

/-! ### Prewarming -/

/-- Every sysvar among the addresses is overlaid, so prewarming does not ask the source for it. -/
def OverlaysSysvars (db : Accounts) (addresses : List Address) : Prop :=
  ∀ address ∈ addresses, isManagedSysvarAccount address = true →
    db.cache.inner.contains address = true

theorem KeepsSysvars.overlaysSysvars {db db' : Accounts} (keeps : KeepsSysvars agave db db')
    {addresses : List Address} (overlays : db.OverlaysSysvars addresses) :
    db'.OverlaysSysvars addresses := by
  intro address member managed
  obtain ⟨sysvar, found⟩ := Option.isSome_iff_exists.1 managed
  have same := keeps.overlay sysvar
  rw [Sysvar.id_of_at? found] at same
  have here := overlays address member managed
  rw [Std.ExtTreeMap.contains_eq_isSome_getElem?] at here ⊢
  rwa [same]

theorem keepsSysvars_prewarm (db : Accounts) {addresses : List Address}
    (overlays : db.OverlaysSysvars addresses) :
    KeepsSysvars agave db (db.prewarm addresses).2 := by
  refine prewarm_induct ?_ (.refl db)
  intro current address account answered kept
  obtain ⟨listed, absent, -⟩ := answered.unknown
  refine kept.trans (current.keepsSysvars_addAccountNoChecks agave ?_ account)
  by_contra managed
  have here := overlays address listed (by simpa using managed)
  rw [Std.ExtTreeMap.contains_eq_isSome_getElem?, absent] at here
  cases here

theorem keepsSysvars_prewarmPrograms (db : Accounts) (programIds : List Address) :
    KeepsSysvars agave db (db.prewarmPrograms agave programIds).2 := by
  obtain ⟨programsCache, slot, equal⟩ := db.prewarmPrograms_keeps agave programIds
  rw [equal]
  exact ⟨fun _ => rfl, rfl, .inl slot⟩

end Accounts

/-! ### What keeps a VM in sync -/

/-- The transaction names no sysvar as writable, whatever its lookup tables hold. Agave demotes the
reserved keys of a message to read-only, and the sysvars are among them. -/
def VersionedTransaction.SparesSysvars (agave : Agave) (tx : VersionedTransaction)
    (reserved : Finset Address) : Prop :=
  ∀ (db : Accounts) loaded sanitized, db.loadAddresses agave (Svm.lookupsOf tx) = .ok loaded →
    agave.buildSanitized tx loaded reserved = .ok sanitized →
    ∀ index key, sanitized.message.accountKeys[index]? = some key →
      sanitized.message.isWritable index = true → isManagedSysvarAccount key = false

namespace Svm

variable (agave : Agave)

/-- The sysvar cache is what a rebuild would fill it with, and where there is a clock, the block
environment and the program cache have its slot. -/
structure SysvarCoherent (vm : Svm) : Prop where
  mirror : vm.accounts.sysvarCache = (vm.accounts.rebuildSysvarCache agave).sysvarCache
  slots : ∀ clock, vm.accounts.cache.inner[Sysvar.clock.id]? = some clock →
    vm.blockEnv.slot = agave.clockSlot clock.data ∧
      vm.accounts.programsCache.slot = agave.clockSlot clock.data

/-- Moreover the clock decodes. -/
structure Synced (vm : Svm) : Prop where
  coherent : vm.SysvarCoherent agave
  decodes : ∀ clock, vm.accounts.cache.inner[Sysvar.clock.id]? = some clock →
    agave.fillsSysvar .clock clock.data = true

/-- The VM has its database left alone as far as sysvars go, and its slot or the current one. -/
structure KeepsSysvars (vm vm' : Svm) : Prop where
  accounts : vm.accounts.KeepsSysvars agave vm'.accounts
  slot : vm'.blockEnv.slot = vm.blockEnv.slot ∨ vm'.blockEnv.slot = vm.accounts.currentSlot agave
  reserved : vm'.reservedAccountKeys = vm.reservedAccountKeys

namespace KeepsSysvars

variable {agave} {vm vm' vm'' : Svm}

theorem refl (vm : Svm) : KeepsSysvars agave vm vm := ⟨.refl _, .inl rfl, rfl⟩

theorem trans (left : KeepsSysvars agave vm vm') (right : KeepsSysvars agave vm' vm'') :
    KeepsSysvars agave vm vm'' := by
  refine ⟨left.accounts.trans right.accounts, ?_, right.reserved.trans left.reserved⟩
  rcases right.slot with kept | current
  · rw [kept]
    exact left.slot
  · exact .inr (current.trans (Accounts.currentSlot_congr agave left.accounts.mirror))

end KeepsSysvars

theorem Synced.currentSlot_eq {vm : Svm} (synced : vm.Synced agave) {clock : AccountSharedData}
    (found : vm.accounts.cache.inner[Sysvar.clock.id]? = some clock) :
    vm.accounts.currentSlot agave = agave.clockSlot clock.data :=
  Accounts.currentSlot_of_mirror agave synced.coherent.mirror found (synced.decodes clock found)

/-- What touches no sysvar keeps a VM in sync. -/
theorem Synced.keeps {vm vm' : Svm} (synced : vm.Synced agave)
    (keeps : KeepsSysvars agave vm vm') : vm'.Synced agave := by
  have clocks := keeps.accounts.overlay .clock
  refine ⟨⟨?_, ?_⟩, ?_⟩
  · rw [keeps.accounts.mirror, synced.coherent.mirror]
    exact keeps.accounts.fillSysvarCache_eq.symm
  · intro clock found
    rw [clocks] at found
    obtain ⟨block, programs⟩ := synced.coherent.slots clock found
    have current := synced.currentSlot_eq agave found
    constructor
    · rcases keeps.slot with kept | moved
      · rw [kept, block]
      · rw [moved, current]
    · rcases keeps.accounts.slot with kept | moved
      · rw [kept, programs]
      · rw [moved, current]
  · intro clock found
    rw [clocks] at found
    exact synced.decodes clock found

/-! ### Setting accounts -/

theorem keepsSysvars_setAccount (vm : Svm) {address : Address}
    (unmanaged : isManagedSysvarAccount address = false) (account : AccountSharedData) :
    KeepsSysvars agave vm (vm.setAccount agave address account).2 := by
  have kept := vm.accounts.keepsSysvars_addAccount agave unmanaged account
  unfold setAccount
  split
  next error left refused =>
    rw [refused] at kept
    exact ⟨kept, .inl rfl, rfl⟩
  next left written =>
    rw [written] at kept
    exact ⟨kept, .inr (Accounts.currentSlot_congr agave kept.mirror), rfl⟩

theorem synced_syncBlockEnvSlot {vm : Svm}
    (mirror : vm.accounts.sysvarCache = Accounts.fillSysvarCache agave vm.accounts.cache.inner)
    (decodes : ∀ clock, vm.accounts.cache.inner[Sysvar.clock.id]? = some clock →
      agave.fillsSysvar .clock clock.data = true)
    (programs : ∀ clock, vm.accounts.cache.inner[Sysvar.clock.id]? = some clock →
      vm.accounts.programsCache.slot = agave.clockSlot clock.data) :
    (vm.syncBlockEnvSlot agave).Synced agave := by
  refine ⟨⟨mirror, ?_⟩, decodes⟩
  intro clock found
  exact ⟨Accounts.currentSlot_of_mirror agave mirror found (decodes clock found),
    programs clock found⟩

/-- The clock that an account database accepts fills the sysvar cache. -/
def FillsClock : Prop :=
  ∀ data, agave.deserializesSysvar .clock data = true → agave.fillsSysvar .clock data = true

/-- A sysvar can be set, unless the clock replaces a program: then the rebuild of the program cache
can fail after the clock was written, and the block environment keeps its slot. -/
theorem Synced.setAccount {vm : Svm} (fills : FillsClock agave) (synced : vm.Synced agave)
    {address : Address} {account : AccountSharedData}
    (plain : address = Sysvar.clock.id → vm.accounts.hadCachedProgram address = false) :
    (vm.setAccount agave address account).2.Synced agave := by
  by_cases managed : isManagedSysvarAccount address = true
  · -- The clock that is left was checked now, or was there before.
    have decodes : ∀ entry, vm.accounts.checkAccount agave address account = .ok entry →
        ∀ clock, (vm.accounts.written agave address account).cache.inner[Sysvar.clock.id]? =
          some clock → agave.fillsSysvar .clock clock.data = true := by
      intro entry checked clock found
      rw [Accounts.written_cache, CacheDb.store_inner_getElem?] at found
      by_cases same : address = Sysvar.clock.id
      · subst same
        rw [if_pos rfl] at found
        obtain ⟨funded, rfl⟩ := AccountSharedData.visible_eq_some found
        exact fills _ (Accounts.decodes_of_checkAccount agave checked funded)
      · rw [if_neg same] at found
        exact synced.decodes clock found
    unfold Svm.setAccount
    rcases vm.accounts.addAccount_cases agave address account with
      ⟨error, -, added⟩ | ⟨entry, checked, added⟩ | ⟨checked, had, error, -, added⟩ |
        ⟨checked, -, cache, rebuilt, added⟩ | ⟨checked, -, added⟩
    · rw [added]
      exact synced
    · obtain ⟨mirror, slot⟩ := Accounts.written_of_managed agave managed (decodes _ checked)
      rw [added]
      exact synced_syncBlockEnvSlot agave mirror (decodes _ checked) slot
    · -- The write failed late, so it was not the clock's, and the clock is the one before.
      obtain ⟨mirror, slot⟩ := Accounts.written_of_managed agave managed (decodes _ checked)
      rw [added]
      refine ⟨⟨mirror, fun clock found => ⟨?_, slot clock found⟩⟩, decodes _ checked⟩
      have other : address ≠ Sysvar.clock.id := by
        intro same
        rw [plain same] at had
        cases had
      simp only [withAccounts, Accounts.written_cache, CacheDb.store_inner_getElem?, other,
        if_false] at found
      exact (synced.coherent.slots clock found).1
    · obtain ⟨mirror, -⟩ := Accounts.written_of_managed agave managed (decodes _ checked)
      rw [added]
      refine synced_syncBlockEnvSlot agave mirror (decodes _ checked) ?_
      intro clock found
      have current := Accounts.currentSlot_of_mirror agave mirror found (decodes _ checked clock found)
      exact (Accounts.slot_rebuiltProgramCache agave rebuilt).trans current
    · obtain ⟨mirror, slot⟩ := Accounts.written_of_managed agave managed (decodes _ checked)
      rw [added]
      exact synced_syncBlockEnvSlot agave mirror (decodes _ checked) slot
  · exact synced.keeps agave (vm.keepsSysvars_setAccount agave (by simpa using managed) account)

/-- No program is, or is put, at the clock's address. -/
def ClearsClock (vm : Svm) (accounts : List (Address × AccountSharedData)) : Prop :=
  ∀ pair ∈ accounts, pair.1 = Sysvar.clock.id →
    vm.accounts.hadCachedProgram Sysvar.clock.id = false ∧
      Accounts.hasCachedProgram pair.1 pair.2 = false

theorem Synced.setAccounts {vm : Svm} (fills : FillsClock agave) (synced : vm.Synced agave)
    {accounts : List (Address × AccountSharedData)} (clears : vm.ClearsClock accounts) :
    (vm.setAccounts agave accounts).2.Synced agave := by
  induction accounts generalizing vm with
  | nil => exact synced
  | cons pair rest ih =>
    obtain ⟨address, account⟩ := pair
    have first : (vm.setAccount agave address account).2.Synced agave := by
      refine synced.setAccount agave fills ?_
      rintro rfl
      exact (clears _ List.mem_cons_self rfl).1
    unfold Svm.setAccounts
    split
    next error left refused => rwa [refused] at first
    next left set =>
      rw [set] at first
      refine ih first ?_
      intro pair member same
      obtain ⟨had, plain⟩ := clears pair (List.mem_cons_of_mem _ member) same
      refine ⟨?_, plain⟩
      -- The account just set is no program either, if it is the clock's.
      have wrote : vm.accounts.Wrote address account left.accounts := by
        unfold Svm.setAccount at set
        split at set
        · cases set
        next db added =>
          cases set
          exact Accounts.wrote_of_addAccount agave added
      unfold Accounts.hadCachedProgram at had ⊢
      rw [wrote.cache, CacheDb.store_inner_getElem?]
      by_cases here : address = Sysvar.clock.id
      · have fresh := (clears _ List.mem_cons_self here).2
        subst here
        unfold Accounts.hasCachedProgram at fresh
        rw [if_pos rfl]
        unfold AccountSharedData.visible
        by_cases empty : account.lamports = 0
        · simp [empty]
        · simpa [empty] using fresh
      · rw [if_neg here]
        exact had

theorem keepsSysvars_setAccounts (vm : Svm) {accounts : List (Address × AccountSharedData)}
    (unmanaged : ∀ pair ∈ accounts, isManagedSysvarAccount pair.1 = false) :
    KeepsSysvars agave vm (vm.setAccounts agave accounts).2 := by
  induction accounts generalizing vm with
  | nil => exact .refl vm
  | cons pair rest ih =>
    obtain ⟨address, account⟩ := pair
    have first := vm.keepsSysvars_setAccount agave (unmanaged _ List.mem_cons_self) account
    unfold setAccounts
    split
    next error left refused => rwa [refused] at first
    next left set =>
      rw [set] at first
      exact first.trans (ih left fun pair member => unmanaged pair (List.mem_cons_of_mem _ member))

/-! ### Transactions -/

theorem unmanaged_of_spares {vm : Svm} {tx : VersionedTransaction}
    (spares : tx.SparesSysvars agave vm.reservedAccountKeys) :
    ∀ pair ∈ (vm.transactDetached agave tx).postAccounts, isManagedSysvarAccount pair.1 = false := by
  intro pair member
  obtain ⟨sanitized, done, index, listed, writable⟩ := writable_of_postAccounts agave member
  obtain ⟨loaded, loads, built⟩ := built_of_sanitize agave done
  exact spares vm.accounts loaded sanitized loads built index pair.1 listed writable

theorem unmanaged_of_delta {vm : Svm} {tx : VersionedTransaction}
    (spares : tx.SparesSysvars agave vm.reservedAccountKeys) :
    ∀ pair ∈ (vm.stagedDelta agave tx).postAccounts, isManagedSysvarAccount pair.1 = false :=
  fun pair member => unmanaged_of_spares agave spares pair (mem_delta_postAccounts member)

/-- What `transact` leaves, staged or refused. -/
theorem keepsSysvars_transact {vm : Svm} {tx : VersionedTransaction}
    (spares : tx.SparesSysvars agave vm.reservedAccountKeys) :
    (∀ error next, vm.transact agave tx = .error (error, next) → KeepsSysvars agave vm next) ∧
      ∀ executed, vm.transact agave tx = .ok executed → KeepsSysvars agave vm executed.vm := by
  have kept : vm.accounts.KeepsSysvars agave
      (vm.accounts.syncAccounts agave (vm.stagedDelta agave tx).postAccounts).2 :=
    vm.accounts.keepsSysvars_syncAccounts agave (unmanaged_of_delta agave spares)
  have journaled := vm.accounts.journaled_syncAccounts agave (vm.stagedDelta agave tx).postAccounts
  refine ⟨?_, ?_⟩
  · intro error next failed
    rcases transact_eq_error agave failed with rfl | ⟨accounts, synced, rfl⟩
    · exact .refl _
    · rw [synced] at kept journaled
      exact ⟨kept.rollback journaled, .inl rfl, rfl⟩
  · intro executed staged
    obtain ⟨accounts, synced, left, -⟩ := transact_eq_ok agave staged
    rw [synced] at kept
    rw [left]
    exact ⟨kept, .inl rfl, rfl⟩

theorem keepsSysvars_sendTransaction {vm : Svm} {tx : VersionedTransaction}
    (spares : tx.SparesSysvars agave vm.reservedAccountKeys) :
    KeepsSysvars agave vm (vm.sendTransaction agave tx).2 := by
  have kept : vm.accounts.KeepsSysvars agave
      (vm.accounts.syncAccounts agave (vm.stagedDelta agave tx).postAccounts).2 :=
    vm.accounts.keepsSysvars_syncAccounts agave (unmanaged_of_delta agave spares)
  have journaled := vm.accounts.journaled_syncAccounts agave (vm.stagedDelta agave tx).postAccounts
  rw [sendTransaction_staged]
  split
  · exact .refl vm
  · split
    next error left refused =>
      rw [refused] at kept journaled
      exact ⟨kept.rollback journaled, .inl rfl, rfl⟩
    next left synced =>
      rw [synced] at kept
      exact ⟨kept, .inl rfl, rfl⟩

/-- Unstaging goes back to the overlay of before, and refills the mirror from it if anything the
caches hold was staged. -/
theorem keepsSysvars_unstage {vm after : Svm} {tx : VersionedTransaction} {staged : ExecutedTx}
    (synced : vm.Synced agave) (transacted : vm.transact agave tx = .ok staged)
    (unstaged : staged.unstage agave = some after) : KeepsSysvars agave vm after := by
  have on := stagedOn_of_transact agave transacted
  have back := Accounts.rollback_checkpoint on.journaled
  have blockEnv : staged.vm.blockEnv = vm.blockEnv := by rw [on.rest]
  have reserved : staged.vm.reservedAccountKeys = vm.reservedAccountKeys := by rw [on.rest]
  unfold ExecutedTx.unstage at unstaged
  rw [on.checkpoint, back] at unstaged
  simp only at unstaged
  by_cases dirty : staged.cacheDirty = true
  · rw [if_pos dirty] at unstaged
    unfold Accounts.rebuildProgramCache at unstaged
    split at unstaged
    · cases unstaged
    next rebuiltDb rebuilt =>
      split at rebuilt
      · cases rebuilt
      next cache equal =>
        cases rebuilt
        cases unstaged
        have mirror : Accounts.fillSysvarCache agave vm.accounts.cache.inner =
            vm.accounts.sysvarCache := synced.coherent.mirror.symm
        refine ⟨⟨fun _ => rfl, mirror, .inr ?_⟩, .inl (by rw [blockEnv]), reserved⟩
        exact (Accounts.slot_rebuiltProgramCache agave equal).trans
          (Accounts.currentSlot_congr agave mirror)
  · rw [if_neg dirty] at unstaged
    cases unstaged
    obtain ⟨programs, mirror⟩ := on.clean (by simpa using dirty)
    exact ⟨⟨fun _ => rfl, mirror, .inl (by rw [programs])⟩, .inl (by rw [blockEnv]), reserved⟩

theorem keepsSysvars_setSigverify (vm : Svm) (sigverify : Bool) :
    KeepsSysvars agave vm (vm.setSigverify sigverify) := ⟨.refl _, .inl rfl, rfl⟩

theorem keepsSysvars_setAccountSource (vm : Svm) (source : AccountSource) :
    KeepsSysvars agave vm (vm.setAccountSource source) :=
  ⟨⟨fun _ => rfl, rfl, .inl rfl⟩, .inl rfl, rfl⟩

theorem keepsSysvars_processInstructionChain {vm : Svm} {instructions : List Instruction}
    (spares : (vm.instructionChainTransaction agave instructions).SparesSysvars agave
      vm.reservedAccountKeys) :
    KeepsSysvars agave vm (vm.processInstructionChain agave instructions).2 := by
  have sent : KeepsSysvars agave (vm.setSigverify false) ((vm.setSigverify false).sendTransaction
      agave (vm.instructionChainTransaction agave instructions)).2 :=
    keepsSysvars_sendTransaction agave spares
  have back := keepsSysvars_setSigverify agave ((vm.setSigverify false).sendTransaction agave
    (vm.instructionChainTransaction agave instructions)).2 vm.version.sigverify
  exact (vm.keepsSysvars_setSigverify agave false).trans (sent.trans back)

theorem keepsSysvars_airdrop {vm : Svm} {tx : VersionedTransaction}
    (spares : tx.SparesSysvars agave vm.reservedAccountKeys) :
    KeepsSysvars agave vm (vm.airdrop agave tx).2 := by
  have sent : KeepsSysvars agave (vm.setAccountSource .empty)
      ((vm.setAccountSource .empty).sendTransaction agave tx).2 :=
    keepsSysvars_sendTransaction agave spares
  have back := keepsSysvars_setAccountSource agave
    ((vm.setAccountSource .empty).sendTransaction agave tx).2 vm.accounts.source
  exact (vm.keepsSysvars_setAccountSource agave .empty).trans (sent.trans back)

/-! ### Instructions on a clone -/

/-- Of a clone only the program cache stays. -/
theorem keepsSysvars_afterClone {vm working : Svm} (kept : KeepsSysvars agave vm working) :
    KeepsSysvars agave vm (vm.afterClone working) :=
  ⟨⟨fun _ => rfl, rfl, kept.accounts.slot⟩, .inl rfl, rfl⟩

theorem keepsSysvars_processInstructionCase (vm : Svm) {case : InstructionCase} {unique : Address}
    (unmanaged : ∀ pair ∈ case.preAccounts, isManagedSysvarAccount pair.1 = false)
    (payer : isManagedSysvarAccount (case.feePayer unique) = false) :
    KeepsSysvars agave vm (vm.processInstructionCase agave case unique).2 := by
  have prepared : KeepsSysvars agave vm (vm.prepareCase agave case (case.feePayer unique)).2 := by
    have set := (vm.keepsSysvars_setSigverify agave false).trans
      ((vm.setSigverify false).keepsSysvars_setAccounts agave unmanaged)
    unfold prepareCase
    split
    next error working refused => rwa [refused] at set
    next working equal =>
      rw [equal] at set
      split
      · exact set
      · exact set.trans (working.keepsSysvars_setAccount agave payer feePayerAccount)
  unfold processInstructionCase
  simp only
  split
  next error working refused =>
    rw [refused] at prepared
    exact keepsSysvars_afterClone agave prepared
  next working equal =>
    rw [equal] at prepared
    exact keepsSysvars_afterClone agave prepared

theorem keepsSysvars_simulateInstructionChainWithAccounts (vm : Svm)
    {instructions : List Instruction} {preAccounts : List (Address × AccountSharedData)}
    (unmanaged : ∀ pair ∈ preAccounts, isManagedSysvarAccount pair.1 = false) :
    KeepsSysvars agave vm
      (vm.simulateInstructionChainWithAccounts agave instructions preAccounts).2 := by
  have set := vm.keepsSysvars_setAccounts agave unmanaged
  unfold simulateInstructionChainWithAccounts
  split
  next error working refused =>
    rw [refused] at set
    exact keepsSysvars_afterClone agave set
  next working equal =>
    rw [equal] at set
    exact keepsSysvars_afterClone agave (set.trans (working.keepsSysvars_setSigverify agave false))

/-! ### Programs -/

theorem keepsSysvars_addBuiltin (vm : Svm) {programId : Address}
    (unmanaged : isManagedSysvarAccount programId = false) (entrypoint : Nat) :
    KeepsSysvars agave vm (vm.addBuiltin programId entrypoint) := by
  have added := Accounts.keepsSysvars_addAccountNoChecks agave
    { vm.accounts with
      programsCache := vm.accounts.programsCache.replenish programId (.builtin entrypoint) }
    unmanaged builtinAccount
  exact ⟨⟨added.overlay, added.mirror, added.slot⟩, .inl rfl, rfl⟩

/-- The addresses a program is written to under a loader. -/
def programAddresses (programId loaderId : Address) : List Address :=
  if loaderId = Ids.bpfLoaderUpgradeable then [agave.programDataAddress programId, programId]
  else [programId]

theorem mem_programAddresses {db : Accounts} {programId loaderId : Address}
    {programBytes : List UInt8} {writes : List (Address × AccountSharedData)}
    (listed : programAccountsFor agave db programId programBytes loaderId = some writes) :
    ∀ pair ∈ writes, pair.1 ∈ programAddresses agave programId loaderId := by
  intro pair member
  unfold programAccountsFor at listed
  unfold programAddresses
  by_cases upgradeable : loaderId = Ids.bpfLoaderUpgradeable
  · simp only [upgradeable, if_true, Option.some.injEq] at listed ⊢
    subst listed
    simp only [List.mem_cons, List.not_mem_nil, or_false] at member
    rcases member with rfl | rfl <;> simp
  · simp only [upgradeable, if_false] at listed ⊢
    split at listed
    · cases listed
      simp only [List.mem_singleton] at member
      simp [member]
    · cases listed

theorem keepsSysvars_addProgramInternal (vm : Svm) {programId loaderId : Address}
    (programBytes : List UInt8)
    (unmanaged : ∀ address ∈ programAddresses agave programId loaderId,
      isManagedSysvarAccount address = false) :
    KeepsSysvars agave vm (vm.addProgramInternal agave programId programBytes loaderId).2 := by
  unfold addProgramInternal
  split
  · exact .refl vm
  next writes listed =>
    have written := vm.accounts.keepsSysvars_foldl_addAccountNoChecks agave Prod.snd
      fun pair member => unmanaged _ (mem_programAddresses agave listed pair member)
    simp only
    split
    · exact ⟨written, .inl rfl, rfl⟩
    · exact ⟨⟨written.overlay, written.mirror, written.slot⟩, .inl rfl, rfl⟩

theorem keepsSysvars_addBundledPrograms {vm vm' : Svm} {programs : List BundledProgram}
    (unmanaged : ∀ program ∈ programs,
      ∀ address ∈ programAddresses agave program.programId program.loaderId,
        isManagedSysvarAccount address = false)
    (added : vm.addBundledPrograms agave programs = some vm') : KeepsSysvars agave vm vm' := by
  induction programs generalizing vm with
  | nil =>
    cases added
    exact .refl _
  | cons program rest ih =>
    obtain ⟨next, one, others⟩ := Option.bind_eq_some_iff.1 added
    have first := vm.keepsSysvars_addProgramInternal agave (agave.bundledElf program.elf)
      (unmanaged program List.mem_cons_self)
    rw [expectOk_eq_some one] at first
    exact first.trans (ih (fun program member => unmanaged program (List.mem_cons_of_mem _ member))
      others)

/-! ### Reconfiguring -/

/-- The addresses of the bundled programs and of their programdata. -/
def bundledAddresses : List Address :=
  defaultProgramIds ++ defaultProgramIds.map agave.programDataAddress

/-- The addresses that a change of the feature set writes or removes. -/
def reconfiguredAddresses (vm : Svm) (previous : FeatureSet) : List Address :=
  previous.active.keys ++ vm.version.featureSet.active.keys ++ bundledAddresses agave ++
    agave.builtins.map (fun builtin => builtin.programId) ++
      vm.precompiles.map fun precompile => precompile.programId

/-- A change of the feature set meets no sysvar. -/
def ReconfiguresAside (vm : Svm) (previous : FeatureSet) : Prop :=
  ∀ address ∈ vm.reconfiguredAddresses agave previous, isManagedSysvarAccount address = false

theorem reconfiguresAside_iff {vm : Svm} {previous : FeatureSet} :
    vm.ReconfiguresAside agave previous ↔
      (∀ address ∈ previous.active.keys, isManagedSysvarAccount address = false) ∧
      (∀ address ∈ vm.version.featureSet.active.keys, isManagedSysvarAccount address = false) ∧
      (∀ address ∈ bundledAddresses agave, isManagedSysvarAccount address = false) ∧
      (∀ builtin ∈ agave.builtins, isManagedSysvarAccount builtin.programId = false) ∧
      ∀ precompile ∈ vm.precompiles, isManagedSysvarAccount precompile.programId = false := by
  unfold ReconfiguresAside reconfiguredAddresses
  simp only [List.forall_mem_append, List.forall_mem_map, and_assoc]

theorem keepsSysvars_removeAccounts (vm : Svm) {addresses : List Address}
    (unmanaged : ∀ address ∈ addresses, isManagedSysvarAccount address = false) :
    KeepsSysvars agave vm (vm.removeAccounts agave addresses) :=
  ⟨vm.accounts.keepsSysvars_foldl_removeAccount agave unmanaged, .inl rfl, rfl⟩

theorem keepsSysvars_clearPrograms (vm : Svm) {programIds : List Address}
    (unmanaged : ∀ programId ∈ programIds, isManagedSysvarAccount programId = false ∧
      isManagedSysvarAccount (agave.programDataAddress programId) = false) :
    KeepsSysvars agave vm (vm.clearPrograms agave programIds) := by
  induction programIds generalizing vm with
  | nil => exact .refl vm
  | cons programId rest ih =>
    obtain ⟨program, programdata⟩ := unmanaged programId List.mem_cons_self
    -- Whether or not the programdata goes too.
    have removed : ∀ flag : Bool, ∀ address ∈ (if flag then
        [agave.programDataAddress programId, programId] else [programId]),
        isManagedSysvarAccount address = false := by
      intro flag
      cases flag with
      | true => simp [program, programdata]
      | false => simp [program]
    exact (vm.keepsSysvars_removeAccounts agave (removed _)).trans
      (ih _ fun programId member => unmanaged programId (List.mem_cons_of_mem _ member))

theorem keepsSysvars_cleared {vm : Svm} {previous : FeatureSet}
    (aside : vm.ReconfiguresAside agave previous) :
    KeepsSysvars agave vm (vm.cleared agave previous) := by
  obtain ⟨old, new, bundled, -, -⟩ := (reconfiguresAside_iff agave).1 aside
  simp only [bundledAddresses, List.forall_mem_append, List.forall_mem_map] at bundled
  have spl : ∀ programId ∈ splProgramIds, programId ∈ defaultProgramIds := by
    simp [splProgramIds, defaultProgramIds]
  have features : KeepsSysvars agave vm (if vm.materialized.featureAccounts then
      (vm.clearFeatureAccounts agave previous).materializeFeatureAccounts agave else vm) := by
    split
    · -- The accounts of the old features go, and those of the new ones come.
      rw [← Std.ExtTreeMap.map_fst_toList_eq_keys, List.forall_mem_map] at new
      refine (vm.keepsSysvars_removeAccounts agave old).trans ?_
      exact ⟨Accounts.keepsSysvars_foldl_addAccountNoChecks agave _ _ new, .inl rfl, rfl⟩
    · exact .refl vm
  have clears : ∀ (other : Svm) (flag : Bool) (programIds : List Address),
      (∀ programId ∈ programIds, programId ∈ defaultProgramIds) →
      KeepsSysvars agave other (if flag then other.clearPrograms agave programIds else other) := by
    intro other flag programIds among
    split
    · exact other.keepsSysvars_clearPrograms agave fun programId member =>
        ⟨bundled.1 programId (among programId member), bundled.2 programId (among programId member)⟩
    · exact .refl other
  exact features.trans ((clears _ _ _ fun _ member => member).trans (clears _ _ _ spl))

theorem keepsSysvars_refreshRuntimeEnvironments {vm vm' : Svm}
    (refreshed : vm.refreshRuntimeEnvironments agave = some vm') : KeepsSysvars agave vm vm' := by
  rcases vm.refreshRuntimeEnvironments_cases agave with ⟨failed, -⟩ | ⟨done, -⟩
  · rw [failed] at refreshed
    cases refreshed
  · rw [done] at refreshed
    cases refreshed
    exact ⟨⟨fun _ => rfl, rfl, .inl rfl⟩, .inl rfl, rfl⟩

theorem keepsSysvars_installBuiltins (features : FeatureSet) (db : Accounts)
    {builtins : List BuiltinPrototype}
    (unmanaged : ∀ builtin ∈ builtins, isManagedSysvarAccount builtin.programId = false) :
    db.KeepsSysvars agave (installBuiltins features db builtins) := by
  induction builtins generalizing db with
  | nil => exact .refl db
  | cons builtin rest ih =>
    have others := fun builtin member => unmanaged builtin (List.mem_cons_of_mem _ member)
    have added := Accounts.keepsSysvars_addAccountNoChecks agave
      { db with
        programsCache := db.programsCache.replenish builtin.programId (.builtin builtin.registerFn) }
      (unmanaged builtin List.mem_cons_self) (createLoadableAccount builtin.name)
    have first : db.KeepsSysvars agave _ := ⟨added.overlay, added.mirror, added.slot⟩
    unfold installBuiltins
    cases builtin.enableFeatureId with
    | none => exact first.trans (ih _ others)
    | some feature =>
      by_cases active : features.isActive feature = true
      · simp only [active, if_true]
        exact first.trans (ih _ others)
      · simp only [active, Bool.false_eq_true, if_false]
        exact ih db others

theorem keepsSysvars_reloadBuiltins {vm vm' : Svm}
    (unmanaged : ∀ builtin ∈ agave.builtins, isManagedSysvarAccount builtin.programId = false)
    (reloaded : vm.reloadBuiltins agave = some vm') : KeepsSysvars agave vm vm' := by
  unfold reloadBuiltins at reloaded
  split at reloaded
  · have removed : KeepsSysvars agave vm (vm.clearBuiltinAccounts agave) := by
      refine vm.keepsSysvars_removeAccounts agave ?_
      intro address member
      obtain ⟨builtin, listed, rfl⟩ := List.mem_map.1 member
      exact unmanaged builtin listed
    refine removed.trans ?_
    obtain ⟨refreshed, done, rfl⟩ := Option.map_eq_some_iff.1 reloaded
    have refresh := keepsSysvars_refreshRuntimeEnvironments agave done
    have flagged : KeepsSysvars agave (vm.clearBuiltinAccounts agave) refreshed :=
      ⟨refresh.accounts, refresh.slot, refresh.reserved⟩
    exact flagged.trans
      ⟨keepsSysvars_installBuiltins agave _ refreshed.accounts unmanaged, .inl rfl, rfl⟩
  · split at reloaded
    · cases reloaded
      exact .refl _
    · exact keepsSysvars_refreshRuntimeEnvironments agave reloaded

theorem keepsSysvars_loadPrecompiles {vm vm' : Svm}
    (unmanaged : ∀ precompile ∈ vm.precompiles,
      isManagedSysvarAccount precompile.programId = false)
    (loaded : vm.loadPrecompiles agave = some vm') : KeepsSysvars agave vm vm' := by
  have loaded : expectOk (vm.setAccounts agave (vm.enabledPrecompiles.map fun precompile =>
      (precompile.programId, precompileAccount))) = some vm' := loaded
  have aside : ∀ pair ∈ vm.enabledPrecompiles.map fun precompile =>
      (precompile.programId, precompileAccount), isManagedSysvarAccount pair.1 = false := by
    intro pair member
    obtain ⟨precompile, enabled, rfl⟩ := List.mem_map.1 member
    exact unmanaged precompile (List.mem_of_mem_filter enabled)
  have set := vm.keepsSysvars_setAccounts agave aside
  rwa [expectOk_eq_some loaded] at set

theorem keepsSysvars_reloadPrecompiles {vm vm' : Svm}
    (unmanaged : ∀ precompile ∈ vm.precompiles,
      isManagedSysvarAccount precompile.programId = false)
    (reloaded : vm.reloadPrecompiles agave = some vm') : KeepsSysvars agave vm vm' := by
  unfold reloadPrecompiles at reloaded
  split at reloaded
  · have removed : KeepsSysvars agave vm (vm.clearPrecompileAccounts agave) := by
      refine vm.keepsSysvars_removeAccounts agave ?_
      intro address member
      obtain ⟨precompile, listed, rfl⟩ := List.mem_map.1 member
      exact unmanaged precompile listed
    exact removed.trans (keepsSysvars_loadPrecompiles agave unmanaged reloaded)
  · cases reloaded
    exact .refl _

/-- The bundled programs are written to the addresses listed for them. -/
theorem mem_bundledAddresses (features : FeatureSet) :
    ∀ program ∈ splPrograms agave features ++ nonSplDefaultPrograms,
      ∀ address ∈ programAddresses agave program.programId program.loaderId,
        address ∈ bundledAddresses agave := by
  have listed : ∀ program ∈ splPrograms agave features ++ nonSplDefaultPrograms,
      program.programId ∈ defaultProgramIds := by
    intro program member
    unfold splPrograms at member
    split at member
    · simp only [nonSplDefaultPrograms, List.cons_append, List.nil_append, List.mem_cons,
        List.not_mem_nil, or_false] at member
      rcases member with rfl | rfl | rfl | rfl | rfl | rfl | rfl | rfl <;> simp [defaultProgramIds]
    · simp only [nonSplDefaultPrograms, List.cons_append, List.nil_append, List.mem_cons,
        List.not_mem_nil, or_false] at member
      rcases member with rfl | rfl | rfl | rfl | rfl | rfl | rfl | rfl <;> simp [defaultProgramIds]
  intro program member address written
  have known := listed program member
  unfold programAddresses at written
  unfold bundledAddresses
  split at written
  · simp only [List.mem_cons, List.not_mem_nil, or_false] at written
    rcases written with rfl | rfl
    · exact List.mem_append_right _ (List.mem_map_of_mem known)
    · exact List.mem_append_left _ known
  · rw [List.mem_singleton.1 written]
    exact List.mem_append_left _ known

theorem keepsSysvars_rematerialize {vm vm' : Svm} {previous : FeatureSet}
    (aside : vm.ReconfiguresAside agave previous)
    (done : vm.rematerialize agave previous = some vm') : KeepsSysvars agave vm vm' := by
  obtain ⟨-, -, bundled, builtins, precompiles⟩ := (reconfiguresAside_iff agave).1 aside
  rw [rematerialize_eq] at done
  obtain ⟨first, reloaded, done⟩ := Option.bind_eq_some_iff.1 done
  obtain ⟨second, enabled, done⟩ := Option.bind_eq_some_iff.1 done
  obtain ⟨third, defaults, done⟩ := Option.bind_eq_some_iff.1 done
  -- Neither clearing nor the builtins touch the provider of the precompiles.
  have same : first.precompiles = vm.precompiles := by
    rcases (vm.cleared agave previous).reloadBuiltins_cases agave with
      ⟨failed, -⟩ | ⟨other, equal, -, rest, -⟩
    · rw [failed] at reloaded
      cases reloaded
    · cases equal.symm.trans reloaded
      exact rest.precompiles.trans (vm.sameSetup_cleared agave previous).rest.precompiles
  refine (keepsSysvars_cleared agave aside).trans ?_
  refine (keepsSysvars_reloadBuiltins agave builtins reloaded).trans ?_
  refine (keepsSysvars_reloadPrecompiles agave (same ▸ precompiles) enabled).trans ?_
  have loads : ∀ {vm vm' : Svm} {programs : List BundledProgram},
      (∀ program ∈ programs, program ∈
        splPrograms agave vm.version.featureSet ++ nonSplDefaultPrograms) →
      vm.addBundledPrograms agave programs = some vm' → KeepsSysvars agave vm vm' := by
    intro vm vm' programs among added
    refine keepsSysvars_addBundledPrograms agave ?_ added
    intro program member address written
    exact bundled address (mem_bundledAddresses agave _ program (among program member) address written)
  have middle : KeepsSysvars agave second third := by
    unfold reloadDefaultPrograms at defaults
    split at defaults
    · have kept := loads (fun program member => member) defaults
      exact ⟨kept.accounts, kept.slot, kept.reserved⟩
    · cases defaults
      exact .refl _
  refine middle.trans ?_
  unfold reloadSplPrograms at done
  split at done
  · have kept := loads (fun program member => List.mem_append_left _ member) done
    exact ⟨kept.accounts, kept.slot, kept.reserved⟩
  · cases done
    exact .refl _

theorem keepsSysvars_rebuildPrograms (vm : Svm) :
    KeepsSysvars agave vm (vm.rebuildPrograms agave).2 := by
  have rebuilt := vm.accounts.keepsSysvars_rebuildProgramCache agave
  unfold rebuildPrograms
  split
  next error left failed =>
    rw [failed] at rebuilt
    exact ⟨rebuilt, .inl rfl, rfl⟩
  next left done =>
    rw [done] at rebuilt
    exact ⟨rebuilt, .inl rfl, rfl⟩

theorem Synced.setFeatureSet {vm after : Svm} {featureSet : FeatureSet}
    {result : Except HpsvmError Unit} (synced : vm.Synced agave)
    (aside : (vm.withFeatureSet agave featureSet).ReconfiguresAside agave vm.version.featureSet)
    (set : vm.setFeatureSet agave featureSet = some (result, after)) : after.Synced agave := by
  obtain ⟨rematerialized, done, rest⟩ := Option.map_eq_some_iff.1 set
  have reconfigured : KeepsSysvars agave (vm.withFeatureSet agave featureSet) rematerialized :=
    keepsSysvars_rematerialize agave aside done
  have rebuilt := rematerialized.keepsSysvars_rebuildPrograms agave
  have configured : (vm.withFeatureSet agave featureSet).Synced agave :=
    ⟨⟨synced.coherent.mirror, synced.coherent.slots⟩, synced.decodes⟩
  split at rest
  next left equal =>
    cases rest
    rw [equal] at rebuilt
    exact configured.keeps agave (reconfigured.trans rebuilt)
  next error failed equal =>
    cases rest
    rw [equal] at rebuilt
    have kept := reconfigured.trans rebuilt
    -- The accounts are the ones before, apart from the program cache.
    refine synced.keeps agave (KeepsSysvars.trans ?_ (keepsSysvars_rebuildPrograms agave _))
    exact ⟨⟨fun _ => rfl, rfl, kept.accounts.slot⟩, kept.slot, rfl⟩

theorem keepsSysvars_registerCustomSyscall (vm : Svm) (syscall : CustomSyscall) :
    KeepsSysvars agave vm (vm.registerCustomSyscall agave syscall).2 := by
  rcases tryRefreshRuntimeEnvironments_cases agave
      { vm with customSyscalls := vm.customSyscalls ++ [syscall] } with
    ⟨error, refused⟩ | ⟨environments, refreshed⟩
  · simp only [registerCustomSyscall, refused]
    exact ⟨.refl _, .inl rfl, rfl⟩
  · simp only [registerCustomSyscall, refreshed]
    refine KeepsSysvars.trans ?_ (keepsSysvars_rebuildPrograms agave _)
    exact ⟨⟨fun _ => rfl, rfl, .inl rfl⟩, .inl rfl, rfl⟩

/-! ### Batches -/

theorem mem_stageReadSet {stage : TransactionBatchStage} {transactions : List VersionedTransaction}
    {key : Address} (member : key ∈ stageReadSet stage transactions) :
    ∃ tx ∈ transactions, key ∈ tx.staticAccountKeys := by
  -- The fold only drops what it has already.
  have folded : ∀ (keys union : List Address),
      key ∈ keys.foldl (fun union key => if key ∈ union then union else union ++ [key]) union →
      key ∈ union ∨ key ∈ keys := by
    intro keys
    induction keys with
    | nil => exact fun union member => .inl member
    | cons first rest ih =>
      intro union member
      rcases ih _ member with early | late
      · simp only at early
        by_cases known : first ∈ union
        · rw [if_pos known] at early
          exact .inl early
        · rw [if_neg known, List.mem_append, List.mem_singleton] at early
          rcases early with before | rfl
          · exact .inl before
          · exact .inr List.mem_cons_self
      · exact .inr (List.mem_cons_of_mem _ late)
  rcases folded _ [] member with none_yet | listed
  · cases none_yet
  · obtain ⟨index, -, there⟩ := List.mem_flatMap.1 listed
    split at there
    · cases there
    next tx found => exact ⟨tx, List.mem_of_getElem? found, there⟩

/-- No transaction of the batch writes a sysvar, and the sysvars they name are overlaid. -/
structure BatchSparesSysvars (vm : Svm) (transactions : List VersionedTransaction) : Prop where
  spares : ∀ tx ∈ transactions, tx.SparesSysvars agave vm.reservedAccountKeys
  overlays : ∀ tx ∈ transactions, vm.accounts.OverlaysSysvars tx.staticAccountKeys

theorem KeepsSysvars.batchSparesSysvars {vm vm' : Svm} {transactions : List VersionedTransaction}
    (kept : KeepsSysvars agave vm vm') (batch : vm.BatchSparesSysvars agave transactions) :
    vm'.BatchSparesSysvars agave transactions := by
  refine ⟨?_, fun tx member => kept.accounts.overlaysSysvars agave (batch.overlays tx member)⟩
  rw [kept.reserved]
  exact batch.spares

theorem keepsSysvars_prewarmStage {vm : Svm} {stage : TransactionBatchStage}
    {transactions : List VersionedTransaction} (batch : vm.BatchSparesSysvars agave transactions) :
    KeepsSysvars agave vm (vm.prewarmStage agave (stageReadSet stage transactions)).2 := by
  have overlays : vm.accounts.OverlaysSysvars (stageReadSet stage transactions) := by
    intro address member managed
    obtain ⟨tx, listed, named⟩ := mem_stageReadSet member
    exact batch.overlays tx listed address named managed
  have warmed := vm.accounts.keepsSysvars_prewarm agave overlays
  unfold prewarmStage
  split
  next dbError left failed =>
    rw [failed] at warmed
    exact ⟨warmed, .inl rfl, rfl⟩
  next left done =>
    rw [done] at warmed
    have programs := left.keepsSysvars_prewarmPrograms agave (stageReadSet stage transactions)
    split
    next dbError last failed =>
      rw [failed] at programs
      exact ⟨warmed.trans programs, .inl rfl, rfl⟩
    next last ready =>
      rw [ready] at programs
      exact ⟨warmed.trans programs, .inl rfl, rfl⟩

/-- Merging outcomes of workers that wrote no sysvar, one after the other. -/
theorem keepsSysvars_committed (vm : Svm) {outcomes : List DetachedTx}
    (unmanaged : ∀ detached ∈ outcomes, ∀ pair ∈ detached.postAccounts,
      isManagedSysvarAccount pair.1 = false) :
    KeepsSysvars agave vm
      (outcomes.foldl (fun vm detached => vm.committed agave detached) vm) := by
  induction outcomes generalizing vm with
  | nil => exact .refl vm
  | cons detached rest ih =>
    have first : KeepsSysvars agave vm (vm.committed agave detached) :=
      ⟨vm.accounts.keepsSysvars_syncAccounts agave fun pair member =>
        unmanaged detached List.mem_cons_self pair (mem_delta_postAccounts member), .inl rfl, rfl⟩
    exact first.trans
      (ih _ fun detached member => unmanaged detached (List.mem_cons_of_mem _ member))

theorem keepsSysvars_runStage {vm next : Svm} {schedule : Schedule} {stage : TransactionBatchStage}
    {transactions : List VersionedTransaction} {results : List (Option TransactionResult)}
    {outcome : Except TransactionBatchError (List (Option TransactionResult))}
    (batch : vm.BatchSparesSysvars agave transactions) (listed : stage.Listed transactions)
    (ran : vm.runStage agave schedule stage transactions results = some (outcome, next)) :
    KeepsSysvars agave vm next := by
  have step := stageStep_runStage agave vm schedule listed results
  have warmed : KeepsSysvars agave vm (vm.prewarmStage agave (stageReadSet stage transactions)).2 :=
    keepsSysvars_prewarmStage agave batch
  rw [ran] at step
  cases step with
  | single index tx alone found =>
    exact keepsSysvars_sendTransaction agave (batch.spares tx (List.mem_of_getElem? found))
  | failed error dbError left several prewarm => rwa [prewarm] at warmed
  | parallel warm several prewarm accepts =>
    rw [prewarm] at warmed
    have spared := warmed.batchSparesSysvars agave batch
    rw [merged_stageResults agave listed]
    refine warmed.trans (keepsSysvars_committed agave warm ?_)
    intro detached member
    obtain ⟨tx, picked, rfl⟩ := List.mem_map.1 member
    obtain ⟨index, -, found⟩ := List.mem_filterMap.1 picked
    exact unmanaged_of_spares agave (spared.spares tx (List.mem_of_getElem? found))

theorem keepsSysvars_runStages {vm next : Svm} {schedule : Nat → Schedule}
    {transactions : List VersionedTransaction} {stageIndex : Nat}
    {stages : List TransactionBatchStage} {results : List (Option TransactionResult)}
    {outcome : Except TransactionBatchError (List (Option TransactionResult))}
    (batch : vm.BatchSparesSysvars agave transactions)
    (listed : ∀ stage ∈ stages, stage.Listed transactions)
    (ran : vm.runStages agave schedule transactions stageIndex stages results =
      some (outcome, next)) : KeepsSysvars agave vm next := by
  induction stages generalizing vm stageIndex results with
  | nil =>
    cases ran
    exact .refl _
  | cons stage rest ih =>
    obtain ⟨⟨first, after⟩, one, others⟩ := Option.bind_eq_some_iff.1 ran
    have kept := keepsSysvars_runStage agave batch (listed stage List.mem_cons_self) one
    cases first with
    | error error =>
      cases others
      exact kept
    | ok filled =>
      exact kept.trans (ih (kept.batchSparesSysvars agave batch)
        (fun stage member => listed stage (List.mem_cons_of_mem _ member)) others)

theorem keepsSysvars_sendTransactionBatch {vm next : Svm} {schedule : Nat → Schedule}
    {transactions : List VersionedTransaction}
    {outcome : Except TransactionBatchError TransactionBatchExecutionResult}
    (batch : vm.BatchSparesSysvars agave transactions)
    (sent : vm.sendTransactionBatch agave schedule transactions = some (outcome, next)) :
    KeepsSysvars agave vm next := by
  unfold sendTransactionBatch at sent
  split at sent
  · cases sent
    exact .refl _
  next plan made =>
    obtain ⟨⟨first, after⟩, ran, rest⟩ := Option.bind_eq_some_iff.1 sent
    have kept := keepsSysvars_runStages agave batch (listed_of_planned agave made).1 ran
    cases first with
    | error error =>
      cases rest
      exact kept
    | ok slots =>
      obtain ⟨values, -, same⟩ := Option.map_eq_some_iff.1 rest
      cases same
      exact kept

end Svm

/-! ### Operations -/

/-- The operation keeps clear of the sysvars where it writes unchecked, and the clock's address
holds no program where it sets accounts. -/
def Operation.SparesSysvars (agave : Agave) (vm : Svm) : Operation → Prop
  | .addBuiltin programId _ => isManagedSysvarAccount programId = false
  | .addProgram programId _ =>
    ∀ address ∈ Svm.programAddresses agave programId Ids.bpfLoaderUpgradeable,
      isManagedSysvarAccount address = false
  | .addProgramWithLoader programId _ loaderId =>
    ∀ address ∈ Svm.programAddresses agave programId loaderId, isManagedSysvarAccount address = false
  | .setAccount address _ =>
    address = Sysvar.clock.id → vm.accounts.hadCachedProgram address = false
  | .setSysvar sysvar _ =>
    sysvar.id = Sysvar.clock.id → vm.accounts.hadCachedProgram sysvar.id = false
  | .warpToSlot _ => vm.accounts.hadCachedProgram Sysvar.clock.id = false
  | .setFeatureSet featureSet =>
    (vm.withFeatureSet agave featureSet).ReconfiguresAside agave vm.version.featureSet
  | .registerCustomSyscall _ => True
  | .sendTransaction tx => tx.SparesSysvars agave vm.reservedAccountKeys
  | .transactCommit tx => tx.SparesSysvars agave vm.reservedAccountKeys
  | .transactDiscard tx => tx.SparesSysvars agave vm.reservedAccountKeys
  | .processInstructionCase case unique =>
    (∀ pair ∈ case.preAccounts, isManagedSysvarAccount pair.1 = false) ∧
      isManagedSysvarAccount (case.feePayer unique) = false
  | .simulateInstructionChainWithAccounts _ preAccounts =>
    ∀ pair ∈ preAccounts, isManagedSysvarAccount pair.1 = false

theorem Operation.synced_act (agave : Agave) (fills : Svm.FillsClock agave) {op : Operation}
    {vm next : Svm} {answer : Answer} (synced : vm.Synced agave)
    (spares : op.SparesSysvars agave vm) (acted : op.act agave vm = some (answer, next)) :
    next.Synced agave := by
  cases op with
  | addBuiltin programId entrypoint =>
    cases acted
    exact synced.keeps agave (vm.keepsSysvars_addBuiltin agave spares entrypoint)
  | addProgram programId programBytes =>
    cases acted
    exact synced.keeps agave (vm.keepsSysvars_addProgramInternal agave programBytes spares)
  | addProgramWithLoader programId programBytes loaderId =>
    cases acted
    exact synced.keeps agave (vm.keepsSysvars_addProgramInternal agave programBytes spares)
  | setAccount address account =>
    cases acted
    exact synced.setAccount agave fills spares
  | setSysvar sysvar data =>
    cases acted
    exact synced.setAccount agave fills spares
  | warpToSlot slot =>
    obtain ⟨warped, done, equal⟩ := Option.map_eq_some_iff.1 acted
    cases equal
    obtain ⟨clock, -, set⟩ := Svm.warpToSlot_eq_some agave done
    have kept : (vm.setAccount agave Sysvar.clock.id
        (sysvarAccount (agave.withClockSlot clock slot))).2.Synced agave :=
      synced.setAccount agave fills fun _ => spares
    rwa [set] at kept
  | setFeatureSet featureSet =>
    obtain ⟨⟨result, after⟩, set, equal⟩ := Option.map_eq_some_iff.1 acted
    cases equal
    exact synced.setFeatureSet agave spares set
  | registerCustomSyscall syscall =>
    cases acted
    exact synced.keeps agave (vm.keepsSysvars_registerCustomSyscall agave syscall)
  | sendTransaction tx =>
    cases acted
    exact synced.keeps agave (Svm.keepsSysvars_sendTransaction agave spares)
  | transactCommit tx =>
    obtain ⟨failed, staged⟩ := Svm.keepsSysvars_transact agave spares
    simp only [act] at acted
    split at acted
    next error after refused =>
      cases acted
      exact synced.keeps agave (failed error _ refused)
    next executed taken =>
      cases acted
      have kept := synced.keeps agave (staged executed taken)
      exact ⟨⟨kept.coherent.mirror, kept.coherent.slots⟩, kept.decodes⟩
  | transactDiscard tx =>
    obtain ⟨failed, -⟩ := Svm.keepsSysvars_transact agave spares
    simp only [act] at acted
    split at acted
    next error after refused =>
      cases acted
      exact synced.keeps agave (failed error _ refused)
    next executed taken =>
      simp only [ExecutedTx.discard, Option.map_map, Option.map_eq_some_iff] at acted
      obtain ⟨after, unstaged, equal⟩ := acted
      cases equal
      exact synced.keeps agave (Svm.keepsSysvars_unstage agave synced taken unstaged)
  | processInstructionCase case unique =>
    cases acted
    exact synced.keeps agave (vm.keepsSysvars_processInstructionCase agave spares.1 spares.2)
  | simulateInstructionChainWithAccounts instructions preAccounts =>
    cases acted
    exact synced.keeps agave
      (vm.keepsSysvars_simulateInstructionChainWithAccounts agave spares)

namespace PublicOperation

variable (agave : Agave)

def SparesSysvars (vm : Svm) : PublicOperation → Prop
  | operation op => op.SparesSysvars agave vm
  | transactCommitWith _ tx => tx.SparesSysvars agave vm.reservedAccountKeys
  | processInstructionChainWithAccounts instructions preAccounts =>
    vm.ClearsClock preAccounts ∧ ∀ prepared, vm.setAccounts agave preAccounts = (.ok (), prepared) →
      (prepared.instructionChainTransaction agave instructions).SparesSysvars agave
        prepared.reservedAccountKeys
  | airdrop tx => tx.SparesSysvars agave vm.reservedAccountKeys
  | sendTransactionBatch _ transactions => vm.BatchSparesSysvars agave transactions
  | setLamports _ => isManagedSysvarAccount vm.airdropPubkey = false
  | setPrecompileProvider precompiles =>
    ∀ precompile ∈ precompiles, isManagedSysvarAccount precompile.programId = false
  | _ => True

/-- One step: an operation that spares the sysvars keeps a VM in sync. -/
theorem synced_step (fills : Svm.FillsClock agave) {op : PublicOperation} {vm next : Svm}
    (synced : vm.Synced agave) (spares : op.SparesSysvars agave vm)
    (stepped : op.step agave vm = some next) : next.Synced agave := by
  have unaffected : ∀ vm' : Svm, vm'.accounts = vm.accounts → vm'.blockEnv = vm.blockEnv →
      vm'.reservedAccountKeys = vm.reservedAccountKeys → vm'.Synced agave := by
    intro vm' accounts blockEnv reserved
    refine synced.keeps agave ⟨?_, .inl (by rw [blockEnv]), reserved⟩
    rw [accounts]
    exact .refl _
  cases op with
  | operation op =>
    obtain ⟨⟨answer, after⟩, acted, equal⟩ := Option.map_eq_some_iff.1 stepped
    cases equal
    exact op.synced_act agave fills synced spares acted
  | transactCommitWith sink tx =>
    obtain ⟨failed, staged⟩ := Svm.keepsSysvars_transact agave spares
    simp only [step] at stepped
    split at stepped
    next error after refused =>
      cases stepped
      exact synced.keeps agave (failed error _ refused)
    next executed taken =>
      -- The sink takes every change, or the staged accounts are rolled back.
      obtain ⟨⟨result, after, seen⟩, done, equal⟩ := Option.map_eq_some_iff.1 stepped
      cases equal
      unfold ExecutedTx.commitWith at done
      split at done
      · obtain ⟨left, unstaged, same⟩ := Option.map_eq_some_iff.1 done
        cases same
        exact synced.keeps agave (Svm.keepsSysvars_unstage agave synced taken unstaged)
      · cases done
        have kept := synced.keeps agave (staged executed taken)
        exact ⟨⟨kept.coherent.mirror, kept.coherent.slots⟩, kept.decodes⟩
  | processInstructionChainWithAccounts instructions preAccounts =>
    cases stepped
    obtain ⟨clears, spares⟩ := spares
    have set := synced.setAccounts agave fills clears
    unfold Svm.processInstructionChainWithAccounts
    split
    next error left refused => rwa [refused] at set
    next prepared equal =>
      rw [equal] at set
      exact set.keeps agave
        (Svm.keepsSysvars_processInstructionChain agave (spares prepared equal))
  | airdrop tx =>
    cases stepped
    exact synced.keeps agave (Svm.keepsSysvars_airdrop agave spares)
  | sendTransactionBatch schedule transactions =>
    obtain ⟨⟨outcome, after⟩, sent, equal⟩ := Option.map_eq_some_iff.1 stepped
    cases equal
    exact synced.keeps agave (Svm.keepsSysvars_sendTransactionBatch agave spares sent)
  | expireBlockhash blockhash recentBlockhashes =>
    have expired : ({ vm with blockEnv := { vm.blockEnv with latestBlockhash := blockhash } } :
        Svm).Synced agave :=
      ⟨⟨synced.coherent.mirror, synced.coherent.slots⟩, synced.decodes⟩
    have other : Sysvar.recentBlockhashes.id ≠ Sysvar.clock.id := by decide
    have set : (({ vm with blockEnv := { vm.blockEnv with latestBlockhash := blockhash } } :
        Svm).setSysvar agave .recentBlockhashes recentBlockhashes).2.Synced agave :=
      expired.setAccount agave fills fun same => absurd same other
    rwa [Svm.expectOk_eq_some stepped] at set
  | setLamports lamports =>
    cases stepped
    exact synced.keeps agave
      ⟨vm.accounts.keepsSysvars_addAccountNoChecks agave spares _, .inl rfl, rfl⟩
  | prewarmPrograms programIds =>
    cases stepped
    exact synced.keeps agave
      ⟨vm.accounts.keepsSysvars_prewarmPrograms agave programIds, .inl rfl, rfl⟩
  | setPrecompileProvider precompiles =>
    have kept : Svm.KeepsSysvars agave { vm with precompiles := precompiles } next :=
      Svm.keepsSysvars_loadPrecompiles agave spares stepped
    exact synced.keeps agave ⟨kept.accounts, kept.slot, kept.reserved⟩
  | setAccountSource source =>
    cases stepped
    exact synced.keeps agave (vm.keepsSysvars_setAccountSource agave source)
  | setTransactionHistory capacity =>
    cases stepped
    exact unaffected _ rfl rfl rfl
  | setComputeBudget computeBudget =>
    cases stepped
    exact unaffected _ rfl rfl rfl
  | setSigverify sigverify =>
    cases stepped
    exact unaffected _ rfl rfl rfl
  | setBlockhashCheck check =>
    cases stepped
    exact unaffected _ rfl rfl rfl
  | setComputeDiagnostics enabled =>
    cases stepped
    exact unaffected _ rfl rfl rfl
  | setLogBytesLimit limit =>
    cases stepped
    exact unaffected _ rfl rfl rfl

/-- In a run of operations that spare the sysvars, the sysvar cache mirrors the overlay and the three
slots are one, in every state reached. -/
theorem sysvarCoherent_of_spares (fills : Svm.FillsClock agave) {start : Svm}
    {ops : List PublicOperation} (initial : start.Synced agave)
    (spares : Runs.Along (step agave) (fun op vm => op.SparesSysvars agave vm) ops start) :
    ∀ before after reached, ops = before ++ after →
      Runs.run (step agave) before start = some reached → reached.SysvarCoherent agave := by
  intro before after reached split ran
  have synced : reached.Synced agave := by
    refine Runs.invariant_of_along (Svm.Synced agave) ?_ initial spares split ran
    intro op vm next synced careful stepped
    exact synced_step agave fills synced careful stepped
  exact synced.coherent

end PublicOperation

namespace Sample

theorem fillsClock : Svm.FillsClock agave := fun _ decodes => decodes

theorem payingVm_synced : payingVm.Synced agave := by
  refine ⟨⟨rfl, ?_⟩, ?_⟩
  · intro clock found
    obtain rfl : sysvarAccount [0] = clock := Option.some.inj found
    exact ⟨rfl, rfl⟩
  · intro clock found
    obtain rfl : sysvarAccount [0] = clock := Option.some.inj found
    rfl

theorem plainTx_sparesSysvars (reserved : Finset Address) :
    plainTx.SparesSysvars agave reserved := by
  intro db loaded sanitized loads built index key listed writable
  -- Without lookups the keys of the message are those of the transaction.
  have static : (plainTx.staticAccountKeys.all fun key => !isManagedSysvarAccount key) = true := by
    decide
  cases loads
  cases built
  have named : key ∈ plainTx.staticAccountKeys := by simpa using List.mem_of_getElem? listed
  simpa using List.all_eq_true.1 static key named

def sparing : List PublicOperation :=
  [.operation (.warpToSlot 5), .operation (.sendTransaction plainTx), .expireBlockhash 7 [1],
    .operation (.addBuiltin 0x77 9)]

theorem sparing_spares : Runs.Along (PublicOperation.step agave)
    (fun op vm => op.SparesSysvars agave vm) sparing payingVm := by
  refine ⟨?_, fun next _ => ⟨plainTx_sparesSysvars _, fun next _ => ⟨trivial, fun next _ =>
    ⟨?_, fun _ _ => trivial⟩⟩⟩⟩
  · change payingVm.accounts.hadCachedProgram Sysvar.clock.id = false
    decide
  · change isManagedSysvarAccount 0x77 = false
    decide

theorem sparing_run_coherent :
    (Runs.run (PublicOperation.step agave) sparing payingVm).isSome = true ∧
      ∀ reached, Runs.run (PublicOperation.step agave) sparing payingVm = some reached →
        reached.SysvarCoherent agave :=
  ⟨by decide +kernel, fun reached ran =>
    PublicOperation.sysvarCoherent_of_spares agave fillsClock payingVm_synced sparing_spares sparing
      [] reached (List.append_nil _).symm ran⟩

/-- A builtin at the clock's address replaces the clock behind the sysvar cache. And an instruction
case with a clock among its accounts runs on a clone, but sets the slot of the program cache that
the clone shares. -/
theorem clock_copies_diverge :
    payingVm.SysvarCoherent agave ∧
    (∃ reached, Runs.run (PublicOperation.step agave)
        [.operation (.warpToSlot 5), .operation (.addBuiltin Sysvar.clock.id 9)] payingVm =
          some reached ∧ ¬ reached.SysvarCoherent agave) ∧
    ∃ reached, Runs.run (PublicOperation.step agave)
        [.operation (.processInstructionCase
          ⟨Ids.systemProgram, [], [], [(Sysvar.clock.id, sysvarAccount [5])]⟩ 0x99)] payingVm =
          some reached ∧ ¬ reached.SysvarCoherent agave := by
  refine ⟨payingVm_synced.coherent, ?_, ?_⟩
  · refine ⟨_, rfl, ?_⟩
    intro coherent
    have same := congrFun coherent.mirror .clock
    revert same
    decide +kernel
  · refine ⟨_, rfl, ?_⟩
    intro coherent
    have slots := (coherent.slots (sysvarAccount [0]) rfl).2
    revert slots
    decide +kernel

end Sample

end Hpsvm
