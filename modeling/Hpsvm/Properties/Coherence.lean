import Hpsvm.Properties.CloneIsolation

/-!
# Coherence of the program cache

The entry of an address is what `load_program` computes from the overlay. A write of a programdata
account changes what its program loads to without touching the entry, so coherence is stated up to
a list of stale programs, and each kind of write says which programs it leaves stale. A rebuild
leaves none.
-/

namespace Hpsvm

/-- There is no entry, or a closed one. -/
def Gone : Option ProgramCacheEntry → Prop
  | none => True
  | some (.closedTombstone _) => True
  | some (.builtin _) => False
  | some (.loaded _ _ _) => False

namespace Accounts

variable (agave : Agave)

/-- The account refers to programdata that does not exist. -/
def LacksProgramdata (db : Accounts) (account : AccountSharedData) : Prop :=
  ∃ address, programdataAddress? account = some address ∧ db.getAccount address = none

/-- The entry is the one a program account loads to, up to the slot of a tombstone. -/
structure Reflects (db : Accounts) (account : AccountSharedData)
    (entry : Option ProgramCacheEntry) : Prop where
  closed : db.LacksProgramdata account → Gone entry
  loaded : ¬ db.LacksProgramdata account → entry = (db.loadProgram agave account).toOption

/-- The entry of an executable account that no loader owns: a builtin's, or none. One that was
installed there has to be there still. -/
structure ServesBuiltin (installed : Option Nat) (entry : Option ProgramCacheEntry) : Prop where
  native : Gone entry ∨ ∃ registerFn, entry = some (.builtin registerFn)
  kept : ∀ registerFn, installed = some registerFn → entry = some (.builtin registerFn)

/-- The entry of one address fits the overlay. -/
def CoherentAt (installed : Address → Option Nat) (db : Accounts) (pubkey : Address) : Prop :=
  match db.cache.inner[pubkey]? with
  | none => Gone (db.programsCache.find pubkey)
  | some account =>
    if isCachedProgramAccount pubkey account then
      db.Reflects agave account (db.programsCache.find pubkey)
    else if account.executable then
      ServesBuiltin (installed pubkey) (db.programsCache.find pubkey)
    else Gone (db.programsCache.find pubkey)

/-- Coherence but for stale programs. -/
structure CoherentExcept (stale : List Address) (installed : Address → Option Nat)
    (db : Accounts) : Prop where
  programs : ∀ pubkey ∈ stale, db.hadCachedProgram pubkey = true
  others : ∀ pubkey, pubkey ∉ stale → db.CoherentAt agave installed pubkey

/-- The program cache is coherent with the overlay. -/
def Coherent (installed : Address → Option Nat) (db : Accounts) : Prop :=
  ∀ pubkey, db.CoherentAt agave installed pubkey

theorem coherentExcept_nil_iff {installed : Address → Option Nat} {db : Accounts} :
    db.CoherentExcept agave [] installed ↔ db.Coherent agave installed := by
  constructor
  · intro coherent pubkey
    exact coherent.others pubkey (by simp)
  · intro coherent
    exact ⟨by simp, fun pubkey _ => coherent pubkey⟩

/-! ### What an entry depends on -/

/-- Loading reads the programdata and needs a clock; the slot of the clock only shows in a
tombstone. -/
theorem reflects_congr {db db' : Accounts} {account : AccountSharedData}
    {entry : Option ProgramCacheEntry}
    (reads : ∀ address, programdataAddress? account = some address →
      db'.getAccount address = db.getAccount address)
    (clock : (db'.clockSlot? agave).isSome = (db.clockSlot? agave).isSome)
    (environments : db'.environments = db.environments)
    (reflects : db.Reflects agave account entry) : db'.Reflects agave account entry := by
  have same : db'.LacksProgramdata account ↔ db.LacksProgramdata account := by
    unfold LacksProgramdata
    constructor
    · rintro ⟨address, refers, missing⟩
      exact ⟨address, refers, by rw [← reads address refers, missing]⟩
    · rintro ⟨address, refers, missing⟩
      exact ⟨address, refers, by rw [reads address refers, missing]⟩
  refine ⟨fun lacks => reflects.closed (same.1 lacks), ?_⟩
  intro present
  have present' : ¬ db.LacksProgramdata account := fun lacks => present (same.2 lacks)
  rw [reflects.loaded present']
  have elf : ∀ loader bytes, db'.loadElf agave loader bytes = db.loadElf agave loader bytes := by
    intro loader bytes
    simp only [loadElf, environments]
  unfold loadProgram
  simp only [elf]
  cases slot : db.clockSlot? agave with
  | none =>
    have missing : db'.clockSlot? agave = none := by simpa [slot] using clock
    rw [missing]
  | some before =>
    rw [slot] at clock
    obtain ⟨after, slot'⟩ := Option.isSome_iff_exists.1 clock
    rw [slot']
    simp only
    split
    · rfl
    · split
      next upgradeable =>
        cases refers : UpgradeableLoaderState.deserializeProgram account.data with
        | none => rfl
        | some address =>
          have refers' : programdataAddress? account = some address := by
            simp [programdataAddress?, upgradeable, refers]
          simp only [reads address refers']
          -- The two slots meet only in the tombstone of programdata that is gone.
          cases found : db.getAccount address with
          | none => exact absurd ⟨address, refers', found⟩ present'
          | some programdata => rfl
      · rfl

/-- Nothing that the entry of an address depends on has changed. -/
structure Alike (db db' : Accounts) (pubkey : Address) : Prop where
  account : db'.cache.inner[pubkey]? = db.cache.inner[pubkey]?
  entry : db'.programsCache.find pubkey = db.programsCache.find pubkey
  reads : ∀ account address, db.cache.inner[pubkey]? = some account →
    isCachedProgramAccount pubkey account = true → programdataAddress? account = some address →
    db'.getAccount address = db.getAccount address

theorem coherentAt_congr {installed : Address → Option Nat} {db db' : Accounts} {pubkey : Address}
    (alike : Alike db db' pubkey)
    (clock : (db'.clockSlot? agave).isSome = (db.clockSlot? agave).isSome)
    (environments : db'.environments = db.environments)
    (coherent : db.CoherentAt agave installed pubkey) : db'.CoherentAt agave installed pubkey := by
  unfold CoherentAt at coherent ⊢
  rw [alike.account, alike.entry]
  cases found : db.cache.inner[pubkey]? with
  | none => simpa only [found] using coherent
  | some account =>
    simp only [found] at coherent ⊢
    split
    next program =>
      rw [if_pos program] at coherent
      exact reflects_congr agave (fun address => alike.reads account address found program) clock
        environments coherent
    next plain => rwa [if_neg plain] at coherent

/-- Only the executable accounts that no loader owns look at what was installed. -/
theorem coherentAt_installed {installed installed' : Address → Option Nat} {db : Accounts}
    {pubkey : Address}
    (same : ∀ account, db.cache.inner[pubkey]? = some account → account.executable = true →
      isCachedProgramAccount pubkey account = false → installed' pubkey = installed pubkey)
    (coherent : db.CoherentAt agave installed pubkey) : db.CoherentAt agave installed' pubkey := by
  unfold CoherentAt at coherent ⊢
  cases found : db.cache.inner[pubkey]? with
  | none => simpa only [found] using coherent
  | some account =>
    simp only [found] at coherent ⊢
    split
    next program => rwa [if_pos program] at coherent
    next plain =>
      rw [if_neg plain] at coherent
      split
      next executable =>
        rw [if_pos executable] at coherent
        rwa [same account found executable (by simpa using plain)]
      next data => rwa [if_neg data] at coherent

/-! ### Rebuilding -/

theorem find_replenishBuiltins_congr {inner : AddressMap AccountSharedData}
    {cache cache' : ProgramCache} {pubkey : Address} (builtins : List BuiltinPrototype)
    (same : cache.find pubkey = cache'.find pubkey) :
    (replenishBuiltins inner cache builtins).find pubkey =
      (replenishBuiltins inner cache' builtins).find pubkey := by
  induction builtins generalizing cache cache' with
  | nil => exact same
  | cons builtin rest ih =>
    unfold replenishBuiltins
    apply ih
    split
    · simp only [ProgramCache.find_replenish, same]
    · exact same

/-- The first loop adds entries for present builtins only. -/
theorem find_replenishBuiltins (inner : AddressMap AccountSharedData) (cache : ProgramCache)
    (builtins : List BuiltinPrototype) (pubkey : Address) :
    (inner.contains pubkey = true ∧ ∃ builtin ∈ builtins, builtin.programId = pubkey ∧
      (replenishBuiltins inner cache builtins).find pubkey =
        some (.builtin builtin.registerFn)) ∨
    (replenishBuiltins inner cache builtins).find pubkey = cache.find pubkey := by
  induction builtins generalizing cache with
  | nil => exact .inr rfl
  | cons builtin rest ih =>
    unfold replenishBuiltins
    rcases ih (if inner.contains builtin.programId then
        cache.replenish builtin.programId (.builtin builtin.registerFn) else cache) with
      ⟨present, other, member, named, found⟩ | same
    · exact .inl ⟨present, other, List.mem_cons_of_mem _ member, named, found⟩
    · rw [same]
      split
      next present =>
        by_cases named : builtin.programId = pubkey
        · subst named
          refine .inl ⟨present, builtin, List.mem_cons_self, rfl, ?_⟩
          simp
        · right
          simp [named]
      · exact .inr rfl

/-- The second loop sets the entry of every program it visits. -/
theorem find_replenishPrograms {db : Accounts} {cache cache' : ProgramCache}
    {programs : List (Address × AccountSharedData)}
    (replenished : db.replenishPrograms agave cache programs = .ok cache') (pubkey : Address) :
    (∃ account entry, (pubkey, account) ∈ programs ∧ db.loadProgram agave account = .ok entry ∧
      cache'.find pubkey = some entry) ∨
    (pubkey ∉ programs.map Prod.fst ∧ cache'.find pubkey = cache.find pubkey) := by
  induction programs generalizing cache with
  | nil =>
    cases replenished
    exact .inr ⟨by simp, rfl⟩
  | cons program rest ih =>
    obtain ⟨other, account⟩ := program
    unfold replenishPrograms at replenished
    cases loads : db.loadProgram agave account with
    | error error => simp [loads] at replenished
    | ok entry =>
      simp only [loads] at replenished
      rcases ih replenished with ⟨account', entry', member, loads', found⟩ | ⟨missing, same⟩
      · exact .inl ⟨account', entry', List.mem_cons_of_mem _ member, loads', found⟩
      · by_cases named : other = pubkey
        · subst named
          refine .inl ⟨account, entry, List.mem_cons_self, loads, ?_⟩
          simp [same]
        · refine .inr ⟨?_, ?_⟩
          · simpa [missing] using fun same => named same.symm
          · simp [same, named]

theorem mem_programAccounts {db : Accounts} {pubkey : Address} {account : AccountSharedData} :
    (pubkey, account) ∈ db.programAccounts ↔
      db.cache.inner[pubkey]? = some account ∧ isCachedProgramAccount pubkey account = true := by
  simp [programAccounts, Std.ExtTreeMap.mem_toList_iff_getElem?_eq_some]

/-- A rebuild finds every builtin again: none was installed that agave does not know, and no plain
account sits where agave knows one. -/
structure BuiltinsSound (installed : Address → Option Nat) (db : Accounts) : Prop where
  executable : ∀ builtin ∈ agave.builtins, ∀ account,
    db.cache.inner[builtin.programId]? = some account → account.executable = true
  kept : ∀ pubkey registerFn account, installed pubkey = some registerFn →
    db.cache.inner[pubkey]? = some account → account.executable = true →
    isCachedProgramAccount pubkey account = false →
    (replenishBuiltins db.cache.inner (ProgramCache.new 0) agave.builtins).find pubkey =
      some (.builtin registerFn)

/-- Programdata that is gone loads to a tombstone. -/
theorem gone_of_loadProgram {db : Accounts} {account : AccountSharedData}
    {entry : ProgramCacheEntry} (lacks : db.LacksProgramdata account)
    (loads : db.loadProgram agave account = .ok entry) : Gone (some entry) := by
  obtain ⟨address, refers, missing⟩ := lacks
  unfold programdataAddress? at refers
  split at refers
  next upgradeable =>
    unfold loadProgram at loads
    split at loads
    · cases loads
    · -- The three loaders differ, so only the upgradeable branch is left.
      simp only [upgradeable, refers, missing] at loads
      rw [if_neg (by decide)] at loads
      cases loads
      trivial
  · cases refers

/-- A rebuilt cache is coherent. -/
theorem coherent_of_rebuilt {installed : Address → Option Nat} {db : Accounts}
    {cache : ProgramCache} (rebuilt : db.rebuiltProgramCache agave = .ok cache)
    (sound : db.BuiltinsSound agave installed) :
    Coherent agave installed { db with programsCache := cache } := by
  intro pubkey
  have programs := find_replenishPrograms agave rebuilt pubkey
  have builtins := find_replenishBuiltins db.cache.inner (ProgramCache.new (db.currentSlot agave))
    agave.builtins pubkey
  rw [ProgramCache.find_new] at builtins
  unfold CoherentAt
  simp only
  cases found : db.cache.inner[pubkey]? with
  | none =>
    -- Neither loop visits an address without an account.
    rcases programs with ⟨account, -, member, -⟩ | ⟨-, same⟩
    · rw [mem_programAccounts, found] at member
      cases member.1
    · rcases builtins with ⟨present, -⟩ | same'
      · rw [Std.ExtTreeMap.contains_eq_isSome_getElem?, found] at present
        cases present
      · simp only [same, same', Gone]
  | some account =>
    simp only
    split
    next program =>
      rcases programs with ⟨account', entry, member, loads, set⟩ | ⟨missing, -⟩
      · rw [mem_programAccounts, found] at member
        cases member.1
        rw [set]
        refine ⟨fun lacks => gone_of_loadProgram agave lacks loads, fun _ => ?_⟩
        exact congrArg Except.toOption loads.symm
      · exact absurd (List.mem_map_of_mem (mem_programAccounts.2 ⟨found, program⟩)) missing
    next plain =>
      rcases programs with ⟨account', -, member, -⟩ | ⟨-, same⟩
      · rw [mem_programAccounts, found] at member
        cases member.1
        exact absurd member.2 plain
      · rw [same]
        split
        next executable =>
          refine ⟨?_, ?_⟩
          · rcases builtins with ⟨-, builtin, -, -, set⟩ | same'
            · exact .inr ⟨builtin.registerFn, set⟩
            · rw [same']
              exact .inl trivial
          · intro registerFn there
            have slotless : (replenishBuiltins db.cache.inner
                (ProgramCache.new (db.currentSlot agave)) agave.builtins).find pubkey =
                (replenishBuiltins db.cache.inner (ProgramCache.new 0) agave.builtins).find pubkey :=
              find_replenishBuiltins_congr agave.builtins (by simp)
            rw [slotless]
            exact sound.kept pubkey registerFn account there found executable (by simpa using plain)
        next data =>
          rcases builtins with ⟨-, builtin, member, named, -⟩ | same'
          · subst named
            exact absurd (sound.executable builtin member account found) data
          · simp only [same', Gone]

/-! ### Writing one account -/

/-- The programs of the overlay whose programdata the address is. -/
def dependents (db : Accounts) (pubkey : Address) : List Address :=
  (db.programAccounts.filter fun program => programdataAddress? program.2 == some pubkey).map
    Prod.fst

/-- The programs whose programdata a write changes. -/
def disturbed (db : Accounts) (pubkey : Address) (account : AccountSharedData) : List Address :=
  if db.getAccount pubkey = account.visible then [] else db.dependents pubkey

/-- The stale programs after `add_account` took an account: a program is loaded with its write, and
a rebuild loads all. -/
def staleAfter (db : Accounts) (stale : List Address) (pubkey : Address)
    (account : AccountSharedData) : List Address :=
  if hasCachedProgram pubkey account then
    (stale ++ db.disturbed pubkey account).filter fun program => program != pubkey
  else if db.hadCachedProgram pubkey then []
  else stale ++ db.disturbed pubkey account

/-- `add_account` takes the account, the clock stays set or unset, a rebuild finds the builtins
again, and a builtin's account is not replaced by a plain one. -/
structure KeepsCoherence (installed : Address → Option Nat) (db : Accounts) (pubkey : Address)
    (account : AccountSharedData) : Prop where
  taken : db.Accepts agave pubkey account
  clock : isManagedSysvarAccount pubkey = true →
    (fillSysvarCache agave (db.cache.store pubkey account).inner .clock).isSome =
      (db.sysvarCache .clock).isSome
  other_programdata : hasCachedProgram pubkey account = true →
    programdataAddress? account ≠ some pubkey
  rebuild : hasCachedProgram pubkey account = false → db.hadCachedProgram pubkey = true →
    (db.written agave pubkey account).BuiltinsSound agave installed
  builtin_stays : ∀ registerFn, db.programsCache.find pubkey = some (.builtin registerFn) →
    hasCachedProgram pubkey account = false →
    account.lamports ≠ 0 ∧ account.executable = true
  builtin_known : (∀ registerFn, db.programsCache.find pubkey ≠ some (.builtin registerFn)) →
    installed pubkey = none ∨ account.executable = false ∨ account.lamports = 0

theorem hadCachedProgram_iff {db : Accounts} {pubkey : Address} :
    db.hadCachedProgram pubkey = true ↔ ∃ account, (pubkey, account) ∈ db.programAccounts := by
  unfold hadCachedProgram
  simp only [mem_programAccounts]
  cases db.cache.inner[pubkey]? with
  | none => simp
  | some account => simp

theorem mem_dependents {db : Accounts} {pubkey programId : Address} :
    programId ∈ db.dependents pubkey ↔ ∃ account, db.cache.inner[programId]? = some account ∧
      isCachedProgramAccount programId account = true ∧
        programdataAddress? account = some pubkey := by
  simp [dependents, mem_programAccounts, and_assoc]

theorem mem_dependents_of_disturbed {db : Accounts} {pubkey programId : Address}
    {account : AccountSharedData} (disturbs : programId ∈ db.disturbed pubkey account) :
    programId ∈ db.dependents pubkey := by
  unfold disturbed at disturbs
  split at disturbs
  · cases disturbs
  · exact disturbs

theorem hadCachedProgram_of_disturbed {db : Accounts} {pubkey programId : Address}
    {account : AccountSharedData} (disturbs : programId ∈ db.disturbed pubkey account) :
    db.hadCachedProgram programId = true := by
  obtain ⟨program, found, cached, -⟩ := mem_dependents.1 (mem_dependents_of_disturbed disturbs)
  exact hadCachedProgram_iff.2 ⟨program, mem_programAccounts.2 ⟨found, cached⟩⟩

theorem checkAccount_isSome {db : Accounts} {pubkey : Address} {account : AccountSharedData}
    {entry : Option ProgramCacheEntry} (checked : db.checkAccount agave pubkey account = .ok entry) :
    (entry.isSome = hasCachedProgram pubkey account) ∧
      ∀ value, entry = some value → db.loadProgram agave account = .ok value := by
  have loading : checkAccount.loadEntry agave db pubkey account = .ok entry := by
    unfold checkAccount at checked
    split at checked
    · split at checked
      · cases checked
      · exact checked
    · exact checked
  unfold checkAccount.loadEntry at loading
  split at loading
  next program =>
    split at loading
    · cases loading
    next value loads =>
      cases loading
      exact ⟨program.symm, fun value' same => by cases same; exact loads⟩
  next plain =>
    cases loading
    exact ⟨by simpa using plain, fun value same => nomatch same⟩

/-- The sysvar half of a write: the clock stays set or unset. -/
theorem written_clock {installed : Address → Option Nat} {db : Accounts} {pubkey : Address}
    {account : AccountSharedData} (keeps : db.KeepsCoherence agave installed pubkey account) :
    ((db.written agave pubkey account).clockSlot? agave).isSome =
      (db.clockSlot? agave).isSome := by
  unfold clockSlot? written refreshSysvars
  split
  next managed => simpa [rebuildSysvarCache, writeAccount] using keeps.clock managed
  · rfl

@[simp] theorem find_written (db : Accounts) (pubkey : Address) (account : AccountSharedData)
    (programId : Address) :
    (db.written agave pubkey account).programsCache.find programId =
      db.programsCache.find programId := by
  unfold written refreshSysvars
  split <;> rfl

/-- A write leaves the entries of all programs coherent that do not read what it changes. -/
theorem alike_of_write {db db' : Accounts} {pubkey programId : Address}
    {account : AccountSharedData} (wrote : Wrote db pubkey account db')
    (entry : db'.programsCache.find programId = db.programsCache.find programId)
    (differ : programId ≠ pubkey) (undisturbed : programId ∉ db.disturbed pubkey account) :
    Alike db db' programId := by
  refine ⟨?_, entry, ?_⟩
  · rw [wrote.cache, CacheDb.store_inner_getElem?, if_neg (Ne.symm differ)]
  · intro program address found cached refers
    have read := wrote.tryGetAccount address
    by_cases same : pubkey = address
    · subst same
      rw [if_pos rfl] at read
      -- The program reads the written address, so the write did not change it.
      have unchanged : db.getAccount pubkey = account.visible := by
        by_contra changed
        apply undisturbed
        rw [disturbed, if_neg changed]
        exact mem_dependents.2 ⟨program, found, cached, refers⟩
      rw [unchanged, getAccount, read]
    · rw [if_neg same] at read
      exact getAccount_congr read

/-- What stays coherent when one address is written and its entry is settled. -/
theorem coherentExcept_of_write {installed : Address → Option Nat} {stale : List Address}
    {db db' : Accounts} {pubkey : Address} {account : AccountSharedData}
    (wrote : Wrote db pubkey account db')
    (entries : ∀ programId, programId ≠ pubkey →
      db'.programsCache.find programId = db.programsCache.find programId)
    (clock : (db'.clockSlot? agave).isSome = (db.clockSlot? agave).isSome)
    (programs : ∀ programId ∈ stale, db.hadCachedProgram programId = true)
    (others : ∀ programId, programId ≠ pubkey → programId ∉ stale →
      db.CoherentAt agave installed programId)
    (settled : db'.CoherentAt agave installed pubkey) :
    db'.CoherentExcept agave
      ((stale ++ db.disturbed pubkey account).filter fun program => program != pubkey)
      installed := by
  refine ⟨?_, ?_⟩
  · intro programId member
    simp only [List.mem_filter, List.mem_append, bne_iff_ne] at member
    obtain ⟨affected, differ⟩ := member
    have before : db.hadCachedProgram programId = true :=
      affected.elim (programs programId) hadCachedProgram_of_disturbed
    unfold hadCachedProgram at before ⊢
    rwa [wrote.cache, CacheDb.store_inner_getElem?, if_neg (Ne.symm differ)]
  · intro programId missing
    by_cases same : programId = pubkey
    · rwa [same]
    · simp only [List.mem_filter, List.mem_append, bne_iff_ne, not_and, not_not] at missing
      have fresh : programId ∉ stale := fun member => same (missing (.inl member))
      have undisturbed : programId ∉ db.disturbed pubkey account :=
        fun member => same (missing (.inr member))
      exact coherentAt_congr agave
        (alike_of_write wrote (entries programId same) same undisturbed) clock wrote.environments
        (others programId same fresh)

/-- A program that `add_account` took has the entry it loaded. -/
theorem coherentAt_of_program {installed : Address → Option Nat} {db db' : Accounts}
    {pubkey : Address} {account : AccountSharedData} {entry : ProgramCacheEntry}
    (wrote : Wrote db pubkey account db') (program : hasCachedProgram pubkey account = true)
    (loads : db.loadProgram agave account = .ok entry)
    (found : db'.programsCache.find pubkey = some entry)
    (clock : (db'.clockSlot? agave).isSome = (db.clockSlot? agave).isSome)
    (other : programdataAddress? account ≠ some pubkey) :
    db'.CoherentAt agave installed pubkey := by
  simp only [hasCachedProgram, Bool.and_eq_true, bne_iff_ne] at program
  obtain ⟨funded, cached⟩ := program
  have there : db'.cache.inner[pubkey]? = some account := by
    simp [wrote.cache, AccountSharedData.visible, funded]
  have before : db.Reflects agave account (some entry) :=
    ⟨fun lacks => gone_of_loadProgram agave lacks loads,
      fun _ => congrArg Except.toOption loads.symm⟩
  unfold CoherentAt
  simp only [there, cached, if_true, found]
  refine reflects_congr agave ?_ clock wrote.environments before
  intro address refers
  have differ : pubkey ≠ address := fun same => other (same ▸ refers)
  have read := wrote.tryGetAccount address
  rw [if_neg differ] at read
  exact getAccount_congr read

/-- Where no program was and none comes, the entry stays: a builtin's, or none. -/
theorem coherentAt_of_plain {installed : Address → Option Nat} {db db' : Accounts}
    {pubkey : Address} {account : AccountSharedData} (wrote : Wrote db pubkey account db')
    (same : db'.programsCache.find pubkey = db.programsCache.find pubkey)
    (keeps : db.KeepsCoherence agave installed pubkey account)
    (fresh : hasCachedProgram pubkey account = false) (had : db.hadCachedProgram pubkey = false)
    (coherent : db.CoherentAt agave installed pubkey) :
    db'.CoherentAt agave installed pubkey := by
  -- Before the write the entry was gone, or a builtin's under an executable account.
  have before : Gone (db.programsCache.find pubkey) ∨
      ∃ registerFn, db.programsCache.find pubkey = some (.builtin registerFn) ∧
        ∀ other, installed pubkey = some other → other = registerFn := by
    unfold CoherentAt at coherent
    unfold hadCachedProgram at had
    cases found : db.cache.inner[pubkey]? with
    | none =>
      simp only [found] at coherent
      exact .inl coherent
    | some existing =>
      simp only [found] at coherent had
      simp only [had, Bool.false_eq_true, if_false] at coherent
      split at coherent
      · refine coherent.native.imp_right ?_
        rintro ⟨registerFn, entry⟩
        refine ⟨registerFn, entry, ?_⟩
        intro other there
        have kept := coherent.kept other there
        rw [entry] at kept
        cases kept
        rfl
      · exact .inl coherent
  have there : db'.cache.inner[pubkey]? = account.visible := by simp [wrote.cache]
  unfold CoherentAt
  rw [there, same]
  rcases before with gone | ⟨registerFn, entry, matching⟩
  · have absent : ∀ registerFn, db.programsCache.find pubkey ≠ some (.builtin registerFn) := by
      intro registerFn entry
      rw [entry] at gone
      exact gone
    by_cases funded : account.lamports = 0
    · simpa only [AccountSharedData.visible, funded, if_true] using gone
    · have plain : isCachedProgramAccount pubkey account = false := by
        simpa [hasCachedProgram, funded] using fresh
      simp only [AccountSharedData.visible, funded, plain, Bool.false_eq_true, if_false]
      split
      next executable =>
        refine ⟨.inl gone, ?_⟩
        intro registerFn there
        have known := keeps.builtin_known absent
        simp [there, executable, funded] at known
      · exact gone
  · obtain ⟨funded, executable⟩ := keeps.builtin_stays registerFn entry fresh
    have plain : isCachedProgramAccount pubkey account = false := by
      simpa [hasCachedProgram, funded] using fresh
    simp only [AccountSharedData.visible, funded, plain, executable, Bool.false_eq_true, if_false,
      if_true, entry]
    refine ⟨.inr ⟨registerFn, rfl⟩, ?_⟩
    intro other there
    rw [matching other there]

theorem filter_stale {db : Accounts} {stale : List Address} {pubkey : Address}
    (programs : ∀ program ∈ stale, db.hadCachedProgram program = true)
    (had : db.hadCachedProgram pubkey = false) :
    (stale.filter fun program => program != pubkey) = stale := by
  refine List.filter_eq_self.2 fun program member => ?_
  rw [bne_iff_ne]
  rintro rfl
  rw [programs _ member] at had
  cases had

/-- One careful write. -/
theorem coherentExcept_addAccount {installed : Address → Option Nat} {stale : List Address}
    {db : Accounts} {pubkey : Address} {account : AccountSharedData}
    (coherent : db.CoherentExcept agave stale installed)
    (keeps : db.KeepsCoherence agave installed pubkey account) :
    (db.addAccount agave pubkey account).1 = .ok () ∧
      (db.addAccount agave pubkey account).2.CoherentExcept agave
        (db.staleAfter stale pubkey account) installed := by
  have taken := (db.addAccount_ok_iff agave pubkey account).2 keeps.taken
  refine ⟨taken, ?_⟩
  have clock := written_clock agave keeps
  have wrote : Wrote db pubkey account (db.written agave pubkey account) :=
    ⟨by simp, by simp, by simp, by simp⟩
  unfold staleAfter
  rcases db.addAccount_cases agave pubkey account with
    ⟨error, checked, added⟩ | ⟨entry, checked, added⟩ | ⟨checked, had, error, rebuilt, added⟩ |
      ⟨checked, had, cache, rebuilt, added⟩ | ⟨checked, had, added⟩
  · rw [added] at taken
    cases taken
  · -- A program: its entry is the one just built from the account.
    obtain ⟨program, loads⟩ := checkAccount_isSome agave checked
    have program : hasCachedProgram pubkey account = true := program.symm
    rw [added, if_pos program]
    have wrote' : Wrote db pubkey account { db.written agave pubkey account with
        programsCache := (db.written agave pubkey account).programsCache.replenish pubkey entry } :=
      ⟨wrote.cache, wrote.journal, wrote.source, wrote.environments⟩
    refine coherentExcept_of_write agave wrote' ?_ clock coherent.programs
      (fun programId _ => coherent.others programId) ?_
    · intro programId differ
      simp [Ne.symm differ]
    · exact coherentAt_of_program agave wrote' program (loads entry rfl) (by simp) clock
        (keeps.other_programdata program)
  · rw [added] at taken
    cases taken
  · -- A plain account over a program: the whole cache is built anew, and nothing stays stale.
    obtain ⟨fresh, -⟩ := checkAccount_isSome agave checked
    have fresh : hasCachedProgram pubkey account = false := fresh.symm
    simp only [added, fresh, had, Bool.false_eq_true, if_false, if_true]
    exact (coherentExcept_nil_iff agave).2
      (coherent_of_rebuilt agave rebuilt (keeps.rebuild fresh had))
  · -- A plain account over a plain one: programs that refer to it keep entries built from the old.
    obtain ⟨fresh, -⟩ := checkAccount_isSome agave checked
    have fresh : hasCachedProgram pubkey account = false := fresh.symm
    simp only [added, fresh, had, Bool.false_eq_true, if_false]
    have unlisted : pubkey ∉ stale := by
      intro member
      rw [coherent.programs pubkey member] at had
      cases had
    have all : ∀ program ∈ stale ++ db.disturbed pubkey account,
        db.hadCachedProgram program = true := fun program member =>
      (List.mem_append.1 member).elim (coherent.programs program) hadCachedProgram_of_disturbed
    rw [← filter_stale all had]
    refine coherentExcept_of_write agave wrote (fun programId _ => by simp) clock
      coherent.programs (fun programId _ => coherent.others programId) ?_
    exact coherentAt_of_plain agave wrote (by simp) keeps fresh had (coherent.others pubkey unlisted)

/-! ### Writing a list of accounts -/

/-- Every account of a list is written carefully at its turn, and none is left stale. -/
def KeepsCoherenceAll (installed : Address → Option Nat) (db : Accounts) (stale : List Address) :
    List (Address × AccountSharedData) → Prop
  | [] => stale = []
  | (address, account) :: rest =>
    db.KeepsCoherence agave installed address account ∧
      KeepsCoherenceAll installed (db.addAccount agave address account).2
        (db.staleAfter stale address account) rest

theorem coherent_addAccounts {installed : Address → Option Nat} {stale : List Address}
    {db : Accounts} {accounts : List (Address × AccountSharedData)}
    (coherent : db.CoherentExcept agave stale installed)
    (keeps : db.KeepsCoherenceAll agave installed stale accounts) :
    (db.addAccounts agave accounts).1 = .ok () ∧
      (db.addAccounts agave accounts).2.Coherent agave installed := by
  induction accounts generalizing db stale with
  | nil =>
    subst keeps
    exact ⟨rfl, (coherentExcept_nil_iff agave).1 coherent⟩
  | cons pair rest ih =>
    obtain ⟨address, account⟩ := pair
    obtain ⟨first, others⟩ := keeps
    obtain ⟨taken, next⟩ := coherentExcept_addAccount agave coherent first
    have remaining := ih next others
    unfold addAccounts
    split
    next error left refused =>
      rw [refused] at taken
      cases taken
    next left added => rwa [added] at remaining

/-! ### Plain writes -/

/-- A plain account over nothing executable, where the cache has no entry. -/
theorem Quiet.keepsCoherence {installed : Address → Option Nat} {db : Accounts} {pubkey : Address}
    {account : AccountSharedData} (quiet : Quiet db pubkey account)
    (entryless : db.programsCache.find pubkey = none) :
    db.KeepsCoherence agave installed pubkey account := by
  have fresh : hasCachedProgram pubkey account = false := by
    simp [hasCachedProgram, isCachedProgramAccount, quiet.plain]
  refine ⟨?_, ?_, ?_, ?_, ?_, ?_⟩
  · rw [← addAccount_ok_iff, addAccount_of_quiet agave quiet]
  · simp [quiet.unmanaged]
  · simp [fresh]
  · intro _ had
    obtain ⟨existing, member⟩ := hadCachedProgram_iff.1 had
    obtain ⟨found, cached⟩ := mem_programAccounts.1 member
    simp [isCachedProgramAccount, quiet.overlaid existing found] at cached
  · simp [entryless]
  · intro _
    exact .inr (.inl quiet.plain)

/-- A plain account makes no new dependents. -/
theorem dependents_writeAccount {db : Accounts} {pubkey other programId : Address}
    {account : AccountSharedData} (plain : account.executable = false)
    (depends : programId ∈ (db.writeAccount pubkey account).dependents other) :
    programId ∈ db.dependents other := by
  obtain ⟨program, found, cached, refers⟩ := mem_dependents.1 depends
  simp only [writeAccount, CacheDb.store_inner_getElem?] at found
  split at found
  · obtain ⟨-, rfl⟩ := AccountSharedData.visible_eq_some found
    simp [isCachedProgramAccount, plain] at cached
  · exact mem_dependents.2 ⟨program, found, cached, refers⟩

/-- Plain accounts that are no program's programdata can be written in any number. -/
theorem keepsCoherenceAll_of_quiet {installed : Address → Option Nat} {db : Accounts}
    {accounts : List (Address × AccountSharedData)}
    (quiet : ∀ pair ∈ accounts, Quiet db pair.1 pair.2)
    (apart : ∀ pair ∈ accounts,
      db.programsCache.find pair.1 = none ∧ db.dependents pair.1 = []) :
    db.KeepsCoherenceAll agave installed [] accounts := by
  induction accounts generalizing db with
  | nil => rfl
  | cons pair rest ih =>
    obtain ⟨address, account⟩ := pair
    have first : Quiet db address account := quiet _ List.mem_cons_self
    obtain ⟨entryless, alone⟩ := apart _ List.mem_cons_self
    have none_stale : db.staleAfter [] address account = [] := by
      have undisturbed : db.disturbed address account = [] := by
        unfold disturbed
        split
        · rfl
        · exact alone
      simp [staleAfter, undisturbed]
    refine ⟨first.keepsCoherence agave entryless, ?_⟩
    rw [none_stale, addAccount_of_quiet agave first]
    refine ih ?_ ?_
    · intro pair member
      exact (quiet pair (List.mem_cons_of_mem _ member)).after_write first.plain
    · intro pair member
      obtain ⟨entryless, alone⟩ := apart pair (List.mem_cons_of_mem _ member)
      refine ⟨entryless, List.eq_nil_iff_forall_not_mem.2 ?_⟩
      intro programId depends
      have before := dependents_writeAccount first.plain depends
      rw [alone] at before
      cases before

end Accounts

end Hpsvm
