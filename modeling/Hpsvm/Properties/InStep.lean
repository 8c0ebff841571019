import Hpsvm.Foundation.Lockstep
import Hpsvm.Properties.Discard

/-!
# Writes in step

Two databases that are written alike stay related if the relation makes their overlays look the same
to the caches. What `add_account` needs of such a relation is stated once here.
-/

namespace Hpsvm

open Foundation (Lockstep.Answers)

namespace Accounts

/-- An account that the caches do not look at. -/
structure Inert (agave : Agave) (pubkey : Address) (account : AccountSharedData) : Prop where
  unmanaged : isManagedSysvarAccount pubkey = false
  not_builtin : ∀ builtin ∈ agave.builtins, builtin.programId ≠ pubkey
  no_program : isCachedProgramAccount pubkey account = false

/-! ### Overlays that look the same to the caches -/

/-- The overlays differ in inert accounts only. -/
def LooksAlike (agave : Agave) (db db' : Accounts) : Prop :=
  ∀ pubkey : Address, db'.cache.inner[pubkey]? = db.cache.inner[pubkey]? ∨
    ∀ account, db.cache.inner[pubkey]? = some account ∨ db'.cache.inner[pubkey]? = some account →
      Inert agave pubkey account

namespace LooksAlike

variable {agave : Agave} {db db' : Accounts}

/-- Where no inert account can be, the overlays are the same. -/
theorem inner_eq (alike : LooksAlike agave db db') {pubkey : Address}
    (special : ∀ account, ¬ Inert agave pubkey account) :
    db'.cache.inner[pubkey]? = db.cache.inner[pubkey]? := by
  rcases alike pubkey with same | inert
  · exact same
  · -- An account on either side would be inert.
    cases found : db.cache.inner[pubkey]? with
    | some account => exact absurd (inert account (.inl found)) (special account)
    | none =>
      cases there : db'.cache.inner[pubkey]? with
      | some account => exact absurd (inert account (.inr there)) (special account)
      | none => rfl

theorem fillSysvarCache_eq (alike : LooksAlike agave db db') :
    fillSysvarCache agave db'.cache.inner = fillSysvarCache agave db.cache.inner := by
  funext sysvar
  have same : db'.cache.inner[sysvar.id]? = db.cache.inner[sysvar.id]? := by
    apply alike.inner_eq
    intro account inert
    have managed := inert.unmanaged
    simp [isManagedSysvarAccount, Sysvar.at?_id] at managed
  simp only [fillSysvarCache, same]

theorem programAccount_iff (alike : LooksAlike agave db db') {pubkey : Address}
    {account : AccountSharedData} (cached : isCachedProgramAccount pubkey account = true) :
    db'.cache.inner[pubkey]? = some account ↔ db.cache.inner[pubkey]? = some account := by
  rcases alike pubkey with same | inert
  · rw [same]
  · have impossible : ¬ (db.cache.inner[pubkey]? = some account ∨
        db'.cache.inner[pubkey]? = some account) := by
      intro there
      rw [(inert account there).no_program] at cached
      cases cached
    constructor
    · intro there
      exact absurd (.inr there) impossible
    · intro found
      exact absurd (.inl found) impossible

theorem programAccounts_eq (alike : LooksAlike agave db db') :
    db'.programAccounts = db.programAccounts := by
  unfold programAccounts
  apply AddressMap.filter_toList_eq
  intro pubkey account cached
  exact alike.programAccount_iff cached

theorem hadCachedProgram_eq (alike : LooksAlike agave db db') (pubkey : Address) :
    db'.hadCachedProgram pubkey = db.hadCachedProgram pubkey := by
  have had_iff : ∀ db : Accounts, db.hadCachedProgram pubkey = true ↔
      ∃ account, db.cache.inner[pubkey]? = some account ∧
        isCachedProgramAccount pubkey account = true := by
    intro db
    unfold hadCachedProgram
    cases db.cache.inner[pubkey]? with
    | none => simp
    | some account => simp
  rw [Bool.eq_iff_iff, had_iff, had_iff]
  constructor
  · rintro ⟨account, there, cached⟩
    exact ⟨account, (alike.programAccount_iff cached).1 there, cached⟩
  · rintro ⟨account, found, cached⟩
    exact ⟨account, (alike.programAccount_iff cached).2 found, cached⟩

theorem replenishBuiltins_eq (alike : LooksAlike agave db db') (cache : ProgramCache)
    {builtins : List BuiltinPrototype} (listed : ∀ builtin ∈ builtins, builtin ∈ agave.builtins) :
    replenishBuiltins db'.cache.inner cache builtins =
      replenishBuiltins db.cache.inner cache builtins := by
  induction builtins generalizing cache with
  | nil => rfl
  | cons builtin rest ih =>
    have same : db'.cache.inner[builtin.programId]? = db.cache.inner[builtin.programId]? := by
      apply alike.inner_eq
      intro account inert
      exact inert.not_builtin builtin (listed builtin List.mem_cons_self) rfl
    simp only [replenishBuiltins, Std.ExtTreeMap.contains_eq_isSome_getElem?, same]
    exact ih _ fun other member => listed other (List.mem_cons_of_mem _ member)

/-- A rebuild gives the same program cache if the program accounts load alike. -/
theorem rebuiltProgramCache_eq (alike : LooksAlike agave db db')
    (sysvars : db'.sysvarCache = db.sysvarCache)
    (loads : ∀ program ∈ db.programAccounts,
      db'.loadProgram agave program.2 = db.loadProgram agave program.2) :
    db'.rebuiltProgramCache agave = db.rebuiltProgramCache agave := by
  simp only [rebuiltProgramCache, currentSlot, clockSlot?, sysvars, alike.programAccounts_eq,
    alike.replenishBuiltins_eq _ fun _ member => member]
  exact replenishPrograms_congr agave _ loads

end LooksAlike

/-! ### The rule for a write -/

variable (agave : Agave) {R : Accounts → Accounts → Prop}

/-- `add_account` decides by its checks, by what it replaces and by the rebuild. Where these agree it
answers alike, and relates what it leaves. -/
theorem addAccount_inStep {db db' : Accounts} {pubkey : Address} {account : AccountSharedData}
    (checks : db'.checkAccount agave pubkey account = db.checkAccount agave pubkey account)
    (had : db'.hadCachedProgram pubkey = db.hadCachedProgram pubkey)
    (rebuilt : (db'.written agave pubkey account).rebuiltProgramCache agave =
      (db.written agave pubkey account).rebuiltProgramCache agave)
    (refused : R db db')
    (written : R (db.written agave pubkey account) (db'.written agave pubkey account))
    (replenishes : ∀ entry, db.checkAccount agave pubkey account = .ok (some entry) →
      R { db.written agave pubkey account with
          programsCache := (db.written agave pubkey account).programsCache.replenish pubkey entry }
        { db'.written agave pubkey account with
          programsCache := (db'.written agave pubkey account).programsCache.replenish pubkey entry })
    (rebuilds : ∀ cache, R { db.written agave pubkey account with programsCache := cache }
      { db'.written agave pubkey account with programsCache := cache }) :
    Lockstep.Answers R (db.addAccount agave pubkey account)
      (db'.addAccount agave pubkey account) := by
  -- The case of the first database fixes the branch of the second.
  rcases db.addAccount_cases agave pubkey account with
    ⟨error, checked, added⟩ | ⟨entry, checked, added⟩ | ⟨checked, program, error, failed, added⟩ |
      ⟨checked, program, cache, done, added⟩ | ⟨checked, plain, added⟩
  · have added' : db'.addAccount agave pubkey account = (.error error, db') := by
      simp only [addAccount, checks, checked]
    rw [added, added']
    exact ⟨rfl, refused⟩
  · have added' : db'.addAccount agave pubkey account =
        (.ok (), { db'.written agave pubkey account with
          programsCache := (db'.written agave pubkey account).programsCache.replenish
            pubkey entry }) := by
      simp only [addAccount, checks, checked, Accounts.written]
    rw [added, added']
    exact ⟨rfl, replenishes entry checked⟩
  · have added' : db'.addAccount agave pubkey account =
        (.error (.instruction error), db'.written agave pubkey account) := by
      rw [failed, Accounts.written] at rebuilt
      simp only [addAccount, checks, checked, had, program, if_true, rebuildProgramCache, rebuilt,
        Accounts.written]
    rw [added, added']
    exact ⟨rfl, written⟩
  · have added' : db'.addAccount agave pubkey account =
        (.ok (), { db'.written agave pubkey account with programsCache := cache }) := by
      rw [done, Accounts.written] at rebuilt
      simp only [addAccount, checks, checked, had, program, if_true, rebuildProgramCache, rebuilt,
        Accounts.written]
    rw [added, added']
    exact ⟨rfl, rebuilds cache⟩
  · have added' : db'.addAccount agave pubkey account =
        (.ok (), db'.written agave pubkey account) := by
      simp only [addAccount, checks, checked, had, plain, Bool.false_eq_true, if_false,
        Accounts.written]
    rw [added, added']
    exact ⟨rfl, written⟩

/-- A list of writes keeps a relation that each of them keeps. -/
theorem addAccounts_inStep {accounts : List (Address × AccountSharedData)}
    (step : ∀ write ∈ accounts, ∀ db db', R db db' →
      Lockstep.Answers R (db.addAccount agave write.1 write.2)
        (db'.addAccount agave write.1 write.2))
    {db db' : Accounts} (related : R db db') :
    Lockstep.Answers R (db.addAccounts agave accounts) (db'.addAccounts agave accounts) := by
  induction accounts generalizing db db' with
  | nil => exact ⟨rfl, related⟩
  | cons write rest ih =>
    obtain ⟨address, account⟩ := write
    have others := fun other member => step other (List.mem_cons_of_mem _ member)
    unfold addAccounts
    rcases (step (address, account) List.mem_cons_self db db' related).cases with
      ⟨error, left, left', added, added', next⟩ | ⟨left, left', added, added', next⟩
    · simp only at added added'
      rw [added, added']
      exact ⟨rfl, next⟩
    · simp only at added added'
      rw [added, added']
      exact ih others next

end Accounts

end Hpsvm
