import Hpsvm.Fixture.Snapshot

/-!
# Comparing the accounts of two snapshots

`compare_accounts` goes through the accounts of the left snapshot and looks each one up on the right,
and then makes sure that the right snapshot lists no other address. The two passes are not alike, but
with one account at each address they decide together whether the snapshots, read as maps from
addresses to accounts, are equal on the scope.
-/

namespace Hpsvm

/-- The map that a list of accounts is collected into. -/
def accountMap (accounts : List AccountSnapshot) : AddressMap AccountSnapshot :=
  accounts.foldl (fun entries account => entries.insert account.address account) ∅

theorem getElem?_accountMap (accounts : List AccountSnapshot) (address : Address) :
    (accountMap accounts)[address]? = lastAt accounts address := by
  induction accounts using List.reverseRecOn with
  | nil => simp [accountMap, lastAt]
  | append_singleton accounts last ih =>
    unfold accountMap at ih
    unfold accountMap lastAt
    rw [List.foldl_concat, AddressMap.getElem?_insert, ih, List.reverse_concat, List.find?_cons]
    by_cases same : last.address = address
    · simp [same]
    · rw [if_neg same, beq_false_of_ne same]
      rfl

namespace ExecutionSnapshot

/-- One account at each address. -/
def Distinct (snapshot : ExecutionSnapshot) : Prop :=
  (snapshot.postAccounts.map AccountSnapshot.address).Nodup

/-- The accounts of a snapshot that are in the scope of a comparison. -/
def accountsIn (snapshot : ExecutionSnapshot) (scope : AccountCompareScope) :
    AddressMap AccountSnapshot :=
  (accountMap snapshot.postAccounts).filter fun address _ => scope.shouldCompare address

theorem Distinct.lastAt_eq_some_iff {snapshot : ExecutionSnapshot} (distinct : snapshot.Distinct)
    {address : Address} {account : AccountSnapshot} :
    lastAt snapshot.postAccounts address = some account ↔
      account ∈ snapshot.postAccounts ∧ account.address = address := by
  constructor
  · exact Hpsvm.lastAt_eq_some
  · rintro ⟨member, rfl⟩
    obtain ⟨last, found⟩ := exists_lastAt member
    obtain ⟨listed, same⟩ := Hpsvm.lastAt_eq_some found
    rw [found, List.inj_on_of_nodup_map distinct listed member same]

theorem Distinct.of_perm {snapshot other : ExecutionSnapshot} (distinct : snapshot.Distinct)
    (perm : other.postAccounts.Perm snapshot.postAccounts) : other.Distinct :=
  (perm.map AccountSnapshot.address).nodup_iff.2 distinct

theorem accountsIn_eq_iff {left right : ExecutionSnapshot} {scope : AccountCompareScope} :
    left.accountsIn scope = right.accountsIn scope ↔
      ∀ address, scope.shouldCompare address = true →
        lastAt left.postAccounts address = lastAt right.postAccounts address := by
  have entry : ∀ (snapshot : ExecutionSnapshot) (address : Address),
      (snapshot.accountsIn scope)[address]? =
        if scope.shouldCompare address then lastAt snapshot.postAccounts address else none := by
    intro snapshot address
    rw [accountsIn, Std.ExtTreeMap.getElem?_filter', getElem?_accountMap]
    cases scope.shouldCompare address with
    | true => cases lastAt snapshot.postAccounts address <;> rfl
    | false => cases lastAt snapshot.postAccounts address <;> rfl
  constructor
  · intro same address covered
    have equal := congrArg (fun entries : AddressMap AccountSnapshot => entries[address]?) same
    simpa only [entry, covered, if_true] using equal
  · intro alike
    apply Std.ExtTreeMap.ext_getElem?
    intro address
    rw [entry, entry]
    split
    next covered => exact alike address covered
    · rfl

/-- The accounts of a snapshot are in scope as one map, in whatever order they are listed. -/
theorem Distinct.accountsIn_perm {snapshot other : ExecutionSnapshot}
    (distinct : snapshot.Distinct) (perm : other.postAccounts.Perm snapshot.postAccounts)
    (scope : AccountCompareScope) : other.accountsIn scope = snapshot.accountsIn scope := by
  rw [accountsIn_eq_iff]
  intro address _
  ext account
  rw [distinct.lastAt_eq_some_iff, (distinct.of_perm perm).lastAt_eq_some_iff, perm.mem_iff]

/-! ### The two passes -/

theorem compareAccounts_eq_true_iff {left right : ExecutionSnapshot} {scope : AccountCompareScope} :
    compareAccounts left right scope = true ↔
      (∀ account ∈ left.postAccounts, scope.shouldCompare account.address = true →
        lastAt right.postAccounts account.address = some account) ∧
      ∀ account ∈ right.postAccounts, scope.shouldCompare account.address = true →
        ∃ other ∈ left.postAccounts, other.address = account.address := by
  simp only [compareAccounts, Bool.and_eq_true, List.all_eq_true, Bool.or_eq_true,
    Bool.not_eq_true', beq_iff_eq, List.any_eq_false, Bool.not_eq_false, List.contains_iff_mem,
    List.mem_map, not_and, or_iff_not_imp_left]

/-- The accounts on the left need distinct addresses, or one of two at an address is missed on the
right. -/
theorem Distinct.compareAccounts_iff {left right : ExecutionSnapshot} (distinct : left.Distinct)
    {scope : AccountCompareScope} :
    compareAccounts left right scope = true ↔ left.accountsIn scope = right.accountsIn scope := by
  rw [compareAccounts_eq_true_iff, accountsIn_eq_iff]
  constructor
  · rintro ⟨found, listed⟩ address covered
    cases read : lastAt left.postAccounts address with
    | some account =>
      obtain ⟨member, rfl⟩ := distinct.lastAt_eq_some_iff.1 read
      exact (found account member covered).symm
    | none =>
      -- The second pass: an account on the right would be listed on the left as well.
      cases read' : lastAt right.postAccounts address with
      | none => rfl
      | some account =>
        obtain ⟨member, rfl⟩ := Hpsvm.lastAt_eq_some read'
        obtain ⟨other, there, same⟩ := listed account member covered
        obtain ⟨last, present⟩ := exists_lastAt there
        rw [same, read] at present
        cases present
  · intro alike
    constructor
    · intro account member covered
      rw [← alike account.address covered]
      exact distinct.lastAt_eq_some_iff.2 ⟨member, rfl⟩
    · intro account member covered
      obtain ⟨last, present⟩ := exists_lastAt member
      rw [← alike account.address covered] at present
      obtain ⟨there, same⟩ := Hpsvm.lastAt_eq_some present
      exact ⟨last, there, same⟩

/-- Comparing accounts decides the equality of account maps, so it is an equivalence that does not
depend on the order of the accounts. -/
theorem compare_accounts_decides_map_equality (scope : AccountCompareScope)
    (left right third : ExecutionSnapshot) (distinct : left.Distinct)
    (distinct' : right.Distinct) :
    (compareAccounts left right scope = true ↔ left.accountsIn scope = right.accountsIn scope) ∧
    compareAccounts left left scope = true ∧
    compareAccounts right left scope = compareAccounts left right scope ∧
    (compareAccounts left right scope = true → compareAccounts right third scope = true →
      compareAccounts left third scope = true) ∧
    ∀ left' right' : ExecutionSnapshot, left'.postAccounts.Perm left.postAccounts →
      right'.postAccounts.Perm right.postAccounts →
      compareAccounts left' right' scope = compareAccounts left right scope := by
  refine ⟨distinct.compareAccounts_iff, distinct.compareAccounts_iff.2 rfl, ?_, ?_, ?_⟩
  · rw [Bool.eq_iff_iff, distinct.compareAccounts_iff, distinct'.compareAccounts_iff]
    exact eq_comm
  · intro first second
    exact distinct.compareAccounts_iff.2 ((distinct.compareAccounts_iff.1 first).trans
      (distinct'.compareAccounts_iff.1 second))
  · intro left' right' perm perm'
    rw [Bool.eq_iff_iff, distinct.compareAccounts_iff,
      (distinct.of_perm perm).compareAccounts_iff, distinct.accountsIn_perm perm,
      distinct'.accountsIn_perm perm']

end ExecutionSnapshot

namespace Sample

/-- A snapshot that records nothing but accounts, by address and lamports. -/
def accountsSnapshot (accounts : List (Address × Nat)) : ExecutionSnapshot where
  status := .success
  included := true
  computeUnitsConsumed := 0
  fee := 0
  logs := []
  returnData := none
  innerInstructions := []
  postAccounts := accounts.map fun (address, lamports) => ⟨address, lamports, 0, false, 0, []⟩

/-- Two snapshots that list three accounts in different orders and differ at 0x33. -/
theorem reordered_accounts_compare_equal :
    compareAccounts (accountsSnapshot [(0x11, 5), (0x22, 7), (0x33, 1)])
        (accountsSnapshot [(0x22, 7), (0x33, 2), (0x11, 5)]) (.allExcept [0x33, 0x33]) = true ∧
      (accountsSnapshot [(0x11, 5), (0x22, 7), (0x33, 1)]).accountsIn (.allExcept [0x33, 0x33]) =
        (accountsSnapshot [(0x22, 7), (0x33, 2), (0x11, 5)]).accountsIn (.allExcept [0x33, 0x33]) := by
  have passes : compareAccounts (accountsSnapshot [(0x11, 5), (0x22, 7), (0x33, 1)])
      (accountsSnapshot [(0x22, 7), (0x33, 2), (0x11, 5)]) (.allExcept [0x33, 0x33]) = true := by
    decide
  exact ⟨passes, (ExecutionSnapshot.compare_accounts_decides_map_equality _ _ _
    (accountsSnapshot []) (by unfold ExecutionSnapshot.Distinct; decide)
    (by unfold ExecutionSnapshot.Distinct; decide)).1.1 passes⟩

end Sample

end Hpsvm
