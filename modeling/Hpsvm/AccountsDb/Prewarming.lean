import Hpsvm.AccountsDb.Staging
import Mathlib.Tactic.Tauto

/-!
# What prewarming leaves

One case analysis of `prewarm`, and from it a rule for invariants: what every insertion of an account
the overlay did not decide about keeps, the whole prewarm keeps.
-/

namespace Hpsvm.Accounts

/-! ### The addresses it asks for -/

/-- Neither cached nor tombstoned. -/
def Unknown (db : Accounts) (address : Address) : Prop :=
  db.cache.inner[address]? = none ∧ address ∉ db.cache.removed

/-- The addresses of one round of the loop that are kept. -/
theorem missingAddresses_cons (db : Accounts) (seen rest : List Address) (address : Address) :
    (db.Unknown address ∧ address ∉ seen ∧
      db.missingAddresses seen (address :: rest) = db.missingAddresses (seen ++ [address]) rest) ∨
    (¬ (db.Unknown address ∧ address ∉ seen) ∧
      db.missingAddresses seen (address :: rest) = db.missingAddresses seen rest) := by
  have kept : (db.cache.inner.contains address || decide (address ∈ db.cache.removed) ||
      seen.contains address) = true ↔ ¬ (db.Unknown address ∧ address ∉ seen) := by
    simp only [Unknown, Bool.or_eq_true, decide_eq_true_eq, List.contains_iff_mem,
      Std.ExtTreeMap.contains_eq_isSome_getElem?, Option.isSome_iff_ne_none, ne_eq]
    tauto
  rw [missingAddresses]
  split
  next known => exact .inr ⟨kept.1 known, rfl⟩
  next unknown =>
    have missing := not_not.1 fun known => unknown (kept.2 known)
    exact .inl ⟨missing.1, missing.2, rfl⟩

theorem mem_missingAddresses_iff {db : Accounts} {seen addresses : List Address}
    {address : Address} :
    address ∈ db.missingAddresses seen addresses ↔
      address ∈ seen ∨ address ∈ addresses ∧ db.Unknown address := by
  induction addresses generalizing seen with
  | nil => simp [missingAddresses]
  | cons first rest ih =>
    rcases db.missingAddresses_cons seen rest first with ⟨unknown, _, equal⟩ | ⟨known, equal⟩
    · rw [equal, ih, List.mem_append, List.mem_singleton, List.mem_cons]
      constructor
      · rintro ((before | rfl) | later)
        · exact .inl before
        · exact .inr ⟨.inl rfl, unknown⟩
        · exact .inr ⟨.inr later.1, later.2⟩
      · rintro (before | ⟨rfl | later, missing⟩)
        · exact .inl (.inl before)
        · exact .inl (.inr rfl)
        · exact .inr ⟨later, missing⟩
    · rw [equal, ih, List.mem_cons]
      constructor
      · exact Or.imp_right fun later => ⟨.inr later.1, later.2⟩
      · rintro (before | ⟨rfl | later, missing⟩)
        · exact .inl before
        · -- It is missing and yet not kept, so it was seen.
          exact .inl (not_not.1 fun unseen => known ⟨missing, unseen⟩)
        · exact .inr ⟨later, missing⟩

/-- At the start of the loop nothing has been seen. -/
theorem mem_missingAddresses {db : Accounts} {addresses : List Address} {address : Address} :
    address ∈ db.missingAddresses [] addresses ↔ address ∈ addresses ∧ db.Unknown address := by
  rw [mem_missingAddresses_iff]
  exact or_iff_right List.not_mem_nil

/-! ### What it inserts -/

/-- An invariant of the insertions. -/
theorem insertLoaded_induct {holds : Accounts → Prop} {db : Accounts}
    {loaded : List (Address × Option AccountSharedData)}
    (insert : ∀ current address account, (address, some account) ∈ loaded →
      holds current → holds (current.addAccountNoChecks address account))
    (initial : holds db) : holds (db.insertLoaded loaded) := by
  induction loaded generalizing db with
  | nil => exact initial
  | cons pair rest ih =>
    have others := fun current address account member =>
      insert current address account (List.mem_cons_of_mem pair member)
    obtain ⟨address, answer⟩ := pair
    cases answer with
    | none => exact ih others initial
    | some account => exact ih others (insert db address account List.mem_cons_self initial)

/-- Everything `prewarm` can do: ask for nothing, fail, or insert what the source answered. -/
theorem prewarm_cases (db : Accounts) (addresses : List Address) :
    (db.missingAddresses [] addresses = [] ∧ db.prewarm addresses = (.ok (), db)) ∨
    (∃ error, db.source.getAccounts (db.missingAddresses [] addresses) = .error error ∧
      db.prewarm addresses = (.error (DbError.ofAccountSource error), db)) ∨
    ∃ loaded, db.source.getAccounts (db.missingAddresses [] addresses) = .ok loaded ∧
      db.prewarm addresses =
        (.ok (), db.insertLoaded ((db.missingAddresses [] addresses).zip loaded)) := by
  unfold prewarm
  cases db.missingAddresses [] addresses with
  | nil => exact .inl ⟨rfl, rfl⟩
  | cons first rest =>
    cases answer : db.source.getAccounts (first :: rest) with
    | error error => exact .inr (.inl ⟨error, rfl, by simp only [answer]⟩)
    | ok loaded => exact .inr (.inr ⟨loaded, rfl, by simp only [answer]⟩)

/-- The account is the source's answer to the prewarm of these addresses. -/
def Answered (db : Accounts) (addresses : List Address) (address : Address)
    (account : AccountSharedData) : Prop :=
  ∃ loaded, db.source.getAccounts (db.missingAddresses [] addresses) = .ok loaded ∧
    (address, some account) ∈ (db.missingAddresses [] addresses).zip loaded

theorem Answered.unknown {db : Accounts} {addresses : List Address} {address : Address}
    {account : AccountSharedData} (answered : db.Answered addresses address account) :
    address ∈ addresses ∧ db.Unknown address := by
  obtain ⟨loaded, _, member⟩ := answered
  exact mem_missingAddresses.1 (List.of_mem_zip member).1

/-- What the insertion of every answered account keeps, the prewarm keeps, done or failed. -/
theorem prewarm_induct {holds : Accounts → Prop} {db : Accounts} {addresses : List Address}
    (insert : ∀ current address account, db.Answered addresses address account →
      holds current → holds (current.addAccountNoChecks address account))
    (initial : holds db) : holds (db.prewarm addresses).2 := by
  rcases db.prewarm_cases addresses with ⟨_, equal⟩ | ⟨_, _, equal⟩ | ⟨loaded, answered, equal⟩
  · rwa [equal]
  · rwa [equal]
  · rw [equal]
    refine insertLoaded_induct ?_ initial
    intro current address account member
    exact insert current address account ⟨loaded, answered, member⟩

/-! ### Programs -/

/-- Loading programs only fills the program cache, and leaves its slot. -/
theorem resolvePrograms_keeps (agave : Agave) (db : Accounts)
    (programs : List (Address × AccountSharedData)) :
    ∃ programsCache, programsCache.slot = db.programsCache.slot ∧
      (db.resolvePrograms agave programs).2 = { db with programsCache } := by
  induction programs generalizing db with
  | nil => exact ⟨db.programsCache, rfl, rfl⟩
  | cons program rest ih =>
    obtain ⟨programId, account⟩ := program
    unfold resolvePrograms
    split
    · exact ⟨db.programsCache, rfl, rfl⟩
    next entry loaded =>
      obtain ⟨programsCache, slot, equal⟩ :=
        ih { db with programsCache := db.programsCache.replenish programId entry }
      exact ⟨programsCache, slot, equal⟩

theorem prewarmPrograms_keeps (agave : Agave) (db : Accounts) (programIds : List Address) :
    ∃ programsCache, programsCache.slot = db.programsCache.slot ∧
      (db.prewarmPrograms agave programIds).2 = { db with programsCache } :=
  db.resolvePrograms_keeps agave (db.programsToResolve programIds)

end Hpsvm.Accounts
