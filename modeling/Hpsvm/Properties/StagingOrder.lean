import Hpsvm.AccountsDb.Staging
import Hpsvm.SampleRuntime

/-!
# The order of staging

`sync_accounts` moves the programdata accounts of a transaction to the front before it writes them.
Writes to different addresses commute, so the overlay does not show in which order they came.
-/

namespace Hpsvm

/-! ### Writes to an overlay -/

namespace CacheDb

/-- The accounts written one after the other. -/
def storeAll (cache : CacheDb) (accounts : List (Address × AccountSharedData)) : CacheDb :=
  accounts.foldl (fun cache pair => cache.store pair.1 pair.2) cache

theorem store_comm (cache : CacheDb) {pubkey other : Address} (differ : pubkey ≠ other)
    (account later : AccountSharedData) :
    (cache.store pubkey account).store other later =
      (cache.store other later).store pubkey account := by
  refine eq_of_lookups ?_ ?_
  · intro key
    simp only [store_inner_getElem?]
    by_cases here : pubkey = key
    · subst here
      simp [Ne.symm differ]
    · simp [here]
  · intro key
    simp only [mem_removed_store]
    by_cases here : pubkey = key
    · subst here
      simp [Ne.symm differ]
    · simp [here]

/-- Accounts at distinct addresses can be written in any order. -/
theorem storeAll_perm (cache : CacheDb) {accounts reordered : List (Address × AccountSharedData)}
    (perm : reordered.Perm accounts) (distinct : (accounts.map Prod.fst).Nodup) :
    cache.storeAll reordered = cache.storeAll accounts := by
  refine perm.foldl_eq' ?_ cache
  intro first member second member' before
  by_cases same : first.1 = second.1
  · -- One address is one account of the list.
    rw [List.inj_on_of_nodup_map distinct (perm.mem_iff.1 member) (perm.mem_iff.1 member') same]
  · exact before.store_comm same first.2 second.2

end CacheDb

namespace Accounts

variable (agave : Agave)

/-- Accounts that were all taken are in the overlay. -/
theorem cache_addAccounts {db db' : Accounts} {accounts : List (Address × AccountSharedData)}
    (added : db.addAccounts agave accounts = (.ok (), db')) :
    db'.cache = db.cache.storeAll accounts := by
  induction accounts generalizing db with
  | nil =>
    cases added
    rfl
  | cons pair rest ih =>
    obtain ⟨next, first, others⟩ := addAccounts_cons_ok agave added
    rw [ih others, (wrote_of_addAccount agave first).cache]
    rfl

/-- The pass of `sync_accounts` reorders the accounts: programdata accounts come first and stay in
their order. Where the addresses are distinct, accounts that are all taken leave the overlay that
writing them in the order of the list leaves, be it unchecked or account by account. -/
theorem staging_partitions_in_place (db : Accounts)
    (accounts : List (Address × AccountSharedData)) :
    db.syncAccounts agave accounts = db.addAccounts agave (partitionInPlace accounts) ∧
    (partitionInPlace accounts).Perm accounts ∧
    (partitionInPlace accounts).Pairwise (fun earlier later =>
      isProgramdata later.2 = true → isProgramdata earlier.2 = true) ∧
    ((partitionInPlace accounts).filter fun pair => isProgramdata pair.2) =
      (accounts.filter fun pair => isProgramdata pair.2) ∧
    ((accounts.map Prod.fst).Nodup → ∀ db', db.syncAccounts agave accounts = (.ok (), db') →
      db'.cache = db.cache.storeAll accounts ∧
      ∀ other, db.addAccounts agave accounts = (.ok (), other) → db'.cache = other.cache) := by
  have perm : (partitionInPlace accounts).Perm accounts :=
    Foundation.TwoPointer.partition_perm _ accounts.toArray
  have order : db.syncAccounts agave accounts = db.addAccounts agave (partitionInPlace accounts) := by
    rw [partitionInPlace_eq]
    rfl
  refine ⟨order, perm, ?_, ?_, ?_⟩
  · exact Foundation.TwoPointer.pairwise_partition _ accounts.toArray
  · exact Foundation.TwoPointer.filter_partition _ accounts.toArray
  · intro distinct db' synced
    rw [order] at synced
    have stored : db'.cache = db.cache.storeAll accounts := by
      rw [cache_addAccounts agave synced]
      exact db.cache.storeAll_perm perm distinct
    refine ⟨stored, fun other added => ?_⟩
    rw [stored, cache_addAccounts agave added]

end Accounts

namespace Sample

/-- A program, its programdata with an ELF, and an account that was closed, as a transaction leaves
them. -/
def deployment : List (Address × AccountSharedData) :=
  [(0x11, systemAccount 5),
    (0x50, ⟨1, UpgradeableLoaderState.serializeProgram 0x51, Ids.bpfLoaderUpgradeable, true, 0⟩),
    (0x51, ⟨1, UpgradeableLoaderState.serializeProgramData 0 ++ List.replicate 32 0 ++ [0x7f],
      Ids.bpfLoaderUpgradeable, false, 0⟩),
    (0x22, systemAccount 0)]

/-- The programdata changes places with the first account, and the program loads. -/
theorem deployment_staged :
    (partitionInPlace deployment).map Prod.fst = [0x51, 0x50, 0x11, 0x22] ∧
    ∃ db', (accounts [] .empty).syncAccounts agave deployment = (.ok (), db') ∧
      db'.cache = (accounts [] .empty).cache.storeAll deployment := by
  have taken : ((accounts [] .empty).syncAccounts agave deployment).1 = .ok () := by decide +kernel
  have synced : (accounts [] .empty).syncAccounts agave deployment =
      (.ok (), ((accounts [] .empty).syncAccounts agave deployment).2) := Prod.ext taken rfl
  refine ⟨by decide +kernel, _, synced, ?_⟩
  have staged := (accounts [] .empty).staging_partitions_in_place agave deployment
  exact (staged.2.2.2.2 (by decide +kernel) _ synced).1

end Sample

end Hpsvm
