import Hpsvm.Foundation.RoundTrip
import Hpsvm.Foundation.Writes
import Hpsvm.SvmInstruction

/-!
# What `write_back` keeps

Every position of an instruction is compared with the account as the positions before it left it. So
an account that is listed several times ends as its last copy, whether the handler changed that copy
or not.
-/

namespace Hpsvm

open Foundation (bind_eq_ok_iff pure_eq_ok_iff Writes.last Writes.last_eq_none_iff
  Writes.mem_of_last Writes.exists_last)

variable {keys : List Address} {δ : Type}

namespace SvmInstructionAccount

/-- The copies agree in what is written back. -/
structure SameFields (first second : SvmInstructionAccount) : Prop where
  lamports : first.lamports = second.lamports
  data : first.data = second.data
  owner : first.owner = second.owner

/-- The account with the fields of the copy. -/
def writtenTo (copy : SvmInstructionAccount) (account : AccountSharedData) : AccountSharedData :=
  { account with lamports := copy.lamports, data := copy.data, owner := copy.owner }

end SvmInstructionAccount

/-! ### One position -/

/-- A step that ends with the given value of an account and leaves the others alone. The account is
not touched if it had that value already. -/
structure WritesTo (index : Fin keys.length) (account : AccountSharedData)
    (before after : BuiltinState keys δ) : Prop where
  accounts : after.context.accounts = Function.update before.context.accounts index account
  touched : ∀ other, other ≠ index → after.touched other = before.touched other
  same : account = before.context.accounts index → after.touched = before.touched

theorem WritesTo.trans {index : Fin keys.length} {first second : AccountSharedData}
    {before middle after : BuiltinState keys δ} (earlier : WritesTo index first before middle)
    (later : WritesTo index second middle after)
    (back : second = before.context.accounts index → first = before.context.accounts index) :
    WritesTo index second before after := by
  constructor
  · rw [later.accounts, earlier.accounts, Function.update_idem]
  · intro other differ
    rw [later.touched other differ, earlier.touched other differ]
  · intro unchanged
    have first_same := back unchanged
    rw [later.same, earlier.same first_same]
    rw [earlier.accounts, Function.update_self, unchanged, first_same]

namespace CheckedSetters

variable {setters : CheckedSetters δ} {frame : InstructionFrame} {account : InstructionAccount}

/-- A field that is written without an error has the value of the copy. -/
theorem writesTo_of_writeField {φ : Type} [DecidableEq φ]
    {check : InstructionFrame → InstructionAccount → AccountSharedData → δ → φ →
      Except InstructionError δ}
    {get : AccountSharedData → φ} {set : AccountSharedData → φ → AccountSharedData}
    {index : Fin keys.length} {value : φ} {before after : BuiltinState keys δ}
    (put : ∀ account, set account (get account) = account)
    (got : ∀ account value, get (set account value) = value)
    (done : (writeField frame account check get set index value).run before = .ok () after) :
    WritesTo index (set (before.context.accounts index) value) before after := by
  simp only [EStateM.run, writeField] at done
  split at done
  next differs =>
    split at done
    · cases done
    next counts stored =>
      cases done
      constructor
      · rfl
      · intro other distinct
        exact Function.update_of_ne distinct _ _
      · intro unchanged
        -- A stored value differs from the one before.
        have same := congrArg get unchanged
        rw [got] at same
        exact absurd same.symm differs
  next equal =>
    cases done
    rw [← not_not.1 equal, put]
    exact ⟨(Function.update_eq_self _ _).symm, fun _ _ => rfl, fun _ => rfl⟩

end CheckedSetters

namespace SvmInstructionCtx

variable {setters : CheckedSetters δ} {frame : InstructionFrame}

theorem run_bind_eq_ok {α β : Type} {first : BuiltinProgram keys δ α}
    {next : α → BuiltinProgram keys δ β} {before after : BuiltinState keys δ} {result : β}
    (done : (first >>= next).run before = .ok result after) :
    ∃ value middle, first.run before = .ok value middle ∧
      (next value).run middle = .ok result after := by
  simp only [EStateM.run, Bind.bind, EStateM.bind] at done ⊢
  cases ran : first before with
  | error error middle =>
    rw [ran] at done
    cases done
  | ok value middle =>
    rw [ran] at done
    exact ⟨value, middle, rfl, done⟩

theorem index_of_tryBorrow {state : BuiltinState keys δ} {account : InstructionAccount}
    {index : Fin keys.length} (borrowed : state.tryBorrowInstructionAccount account = .ok index) :
    account.indexInTransaction = index := by
  unfold BuiltinState.tryBorrowInstructionAccount at borrowed
  split at borrowed
  · split at borrowed
    · cases borrowed
    · cases borrowed
      rfl
  · cases borrowed

/-- A position that is written back leaves its account with the fields of the copy. -/
theorem writesTo_of_writeBackAccount {account : InstructionAccount} {copy : SvmInstructionAccount}
    {before after : BuiltinState keys δ}
    (done : (writeBackAccount setters frame account copy).run before = .ok () after) :
    ∃ index : Fin keys.length, account.indexInTransaction = index ∧
      WritesTo index (copy.writtenTo (before.context.accounts index)) before after := by
  simp only [EStateM.run, writeBackAccount] at done
  split at done
  · cases done
  next index borrowed =>
    refine ⟨index, index_of_tryBorrow borrowed, ?_⟩
    obtain ⟨_, charged, lamports, done⟩ := run_bind_eq_ok done
    obtain ⟨_, filled, data, owner⟩ := run_bind_eq_ok done
    have first := CheckedSetters.writesTo_of_writeField (fun _ => rfl) (fun _ _ => rfl) lamports
    have second := CheckedSetters.writesTo_of_writeField (fun _ => rfl) (fun _ _ => rfl) data
    rw [first.accounts, Function.update_self] at second
    have both := first.trans second ?_
    · have third := CheckedSetters.writesTo_of_writeField (fun _ => rfl) (fun _ _ => rfl) owner
      rw [both.accounts, Function.update_self] at third
      apply both.trans third
      -- If all three fields are as they were, so are the first two.
      intro unchanged
      have lamports_same : copy.lamports = (before.context.accounts index).lamports :=
        congrArg AccountSharedData.lamports unchanged
      have data_same : copy.data = (before.context.accounts index).data :=
        congrArg AccountSharedData.data unchanged
      rw [lamports_same, data_same]
    · intro unchanged
      have lamports_same : copy.lamports = (before.context.accounts index).lamports :=
        congrArg AccountSharedData.lamports unchanged
      rw [lamports_same]

/-! ### The loop -/

/-- The copies with the accounts they are written to, in order. -/
def writesOf (accounts : List InstructionAccount) (copies : List SvmInstructionAccount) :
    List (Nat × SvmInstructionAccount) :=
  (accounts.zip copies).map fun (account, copy) => (account.indexInTransaction, copy)

/-- What a round of the loop takes. -/
theorem writeBackFrom_cons_ok {ctx : SvmInstructionCtx} {index : Nat} {account : InstructionAccount}
    {rest : List InstructionAccount} {before after : BuiltinState keys δ}
    (done : (writeBackFrom setters frame ctx index (account :: rest)).run before = .ok () after) :
    ∃ copy middle, ctx.accounts.drop index = copy :: ctx.accounts.drop (index + 1) ∧
      (writeBackAccount setters frame account copy).run before = .ok () middle ∧
      (writeBackFrom setters frame ctx (index + 1) rest).run middle = .ok () after := by
  unfold writeBackFrom at done
  split at done
  · cases done
  next copy found =>
    obtain ⟨_, middle, first, later⟩ := run_bind_eq_ok done
    obtain ⟨inside, same⟩ := List.getElem?_eq_some_iff.1 found
    exact ⟨copy, middle, by rw [List.drop_eq_getElem_cons inside, same], first, later⟩

/-- The loop leaves every account with the fields of its last copy. -/
theorem accounts_of_writeBackFrom {ctx : SvmInstructionCtx} {index : Nat}
    {rest : List InstructionAccount} {before after : BuiltinState keys δ}
    (done : (writeBackFrom setters frame ctx index rest).run before = .ok () after)
    (account : Fin keys.length) :
    after.context.accounts account =
      match Writes.last (writesOf rest (ctx.accounts.drop index)) account with
      | some copy => copy.writtenTo (before.context.accounts account)
      | none => before.context.accounts account := by
  induction rest generalizing index before with
  | nil =>
    cases done
    rfl
  | cons position rest ih =>
    obtain ⟨copy, middle, copies, first, later⟩ := writeBackFrom_cons_ok done
    obtain ⟨target, same, wrote⟩ := writesTo_of_writeBackAccount first
    have lives : middle.context.accounts account =
        if account = target then copy.writtenTo (before.context.accounts account)
        else before.context.accounts account := by
      rw [wrote.accounts, Function.update_apply]
      split
      next equal => rw [equal]
      · rfl
    have listed : position.indexInTransaction = account ↔ account = target := by
      rw [same, Fin.val_inj, eq_comm]
    rw [ih later, lives, copies]
    simp only [writesOf, List.zip_cons_cons, List.map_cons, Writes.last, listed]
    cases Writes.last ((rest.zip (ctx.accounts.drop (index + 1))).map _) account.val with
    | some last =>
      -- A later copy overwrites all that this one wrote.
      simp only
      split <;> rfl
    | none =>
      simp only
      split <;> rfl

/-- An account whose copies all have its fields is not touched. -/
theorem touched_of_writeBackFrom {ctx : SvmInstructionCtx} {index : Nat}
    {rest : List InstructionAccount} {before after : BuiltinState keys δ}
    (done : (writeBackFrom setters frame ctx index rest).run before = .ok () after)
    {account : Fin keys.length}
    (same : ∀ copy, (account.val, copy) ∈ writesOf rest (ctx.accounts.drop index) →
      copy.writtenTo (before.context.accounts account) = before.context.accounts account) :
    after.touched account = before.touched account := by
  induction rest generalizing index before with
  | nil =>
    cases done
    rfl
  | cons position rest ih =>
    obtain ⟨copy, middle, copies, first, later⟩ := writeBackFrom_cons_ok done
    obtain ⟨target, listed, wrote⟩ := writesTo_of_writeBackAccount first
    rw [copies] at same
    have kept : middle.context.accounts account = before.context.accounts account ∧
        middle.touched account = before.touched account := by
      by_cases equal : account = target
      · subst equal
        have unchanged := same copy (by
          rw [← listed]
          exact List.mem_cons_self)
        rw [wrote.accounts, Function.update_self, wrote.same unchanged]
        exact ⟨unchanged, rfl⟩
      · rw [wrote.accounts, Function.update_of_ne equal, wrote.touched account equal]
        exact ⟨rfl, rfl⟩
    rw [ih later, kept.2]
    intro copy member
    rw [kept.1]
    exact same copy (List.mem_cons_of_mem _ member)

/-- All positions have a copy. -/
theorem length_of_writeBackFrom {ctx : SvmInstructionCtx} {index : Nat}
    {rest : List InstructionAccount} {before after : BuiltinState keys δ}
    (done : (writeBackFrom setters frame ctx index rest).run before = .ok () after) :
    rest.length ≤ (ctx.accounts.drop index).length := by
  induction rest generalizing index before with
  | nil => exact Nat.zero_le _
  | cons position rest ih =>
    obtain ⟨copy, middle, copies, -, later⟩ := writeBackFrom_cons_ok done
    rw [copies]
    exact Nat.succ_le_succ (ih later)

/-! ### Positions -/

/-- The account stands at the position. -/
def ListedAt (accounts : List InstructionAccount) (account position : Nat) : Prop :=
  ∃ listed, accounts[position]? = some listed ∧ listed.indexInTransaction = account

/-- The handler left the copy at the position as it was taken. -/
def UntouchedAt (taken ctx : SvmInstructionCtx) (position : Nat) : Prop :=
  ∃ old new, taken.accounts[position]? = some old ∧ ctx.accounts[position]? = some new ∧
    new.SameFields old

/-- The position has the only copy of the account that the handler changed. -/
structure OnlyChange (frame : InstructionFrame) (taken ctx : SvmInstructionCtx)
    (account position : Nat) : Prop where
  listed : ListedAt frame.accounts account position
  changed : ¬ UntouchedAt taken ctx position
  others : ∀ other, other ≠ position → ListedAt frame.accounts account other →
    UntouchedAt taken ctx other

/-- An only change of an account is kept, and an account that no copy changes is not written. -/
structure KeepsUpdates (frame : InstructionFrame) (taken ctx : SvmInstructionCtx)
    (before after : BuiltinState keys δ) : Prop where
  updated : ∀ (account : Fin keys.length) position copy,
    OnlyChange frame taken ctx account position → ctx.accounts[position]? = some copy →
    after.context.accounts account = copy.writtenTo (before.context.accounts account)
  untouched : ∀ account : Fin keys.length,
    (∀ position, ListedAt frame.accounts account position → UntouchedAt taken ctx position) →
    after.context.accounts account = before.context.accounts account ∧
      after.touched account = before.touched account

theorem mem_writesOf_of_listedAt {accounts : List InstructionAccount}
    {copies : List SvmInstructionAccount} {account position : Nat}
    (enough : accounts.length ≤ copies.length) (listed : ListedAt accounts account position) :
    ∃ copy, copies[position]? = some copy ∧ (account, copy) ∈ writesOf accounts copies := by
  obtain ⟨entry, stands, same⟩ := listed
  have inside : position < copies.length :=
    (List.getElem?_eq_some_iff.1 stands).1.trans_le enough
  have holds : copies[position]? = some copies[position] := List.getElem?_eq_getElem inside
  refine ⟨copies[position], holds, List.mem_map.2 ⟨(entry, copies[position]), ?_, ?_⟩⟩
  · exact List.mem_of_getElem? (List.getElem?_zip_eq_some.2 ⟨stands, holds⟩)
  · simp only [same]

theorem listedAt_of_mem_writesOf {accounts : List InstructionAccount}
    {copies : List SvmInstructionAccount} {account : Nat} {copy : SvmInstructionAccount}
    (member : (account, copy) ∈ writesOf accounts copies) :
    ∃ position, ListedAt accounts account position ∧ copies[position]? = some copy := by
  obtain ⟨⟨entry, other⟩, paired, same⟩ := List.mem_map.1 member
  obtain ⟨rfl, rfl⟩ := Prod.mk.inj same
  obtain ⟨position, found⟩ := List.mem_iff_getElem?.1 paired
  obtain ⟨stands, holds⟩ := List.getElem?_zip_eq_some.1 found
  exact ⟨position, ⟨entry, stands, rfl⟩, holds⟩

/-- The last copy of an account stands at its last position. -/
theorem position_of_last {accounts : List InstructionAccount} {copies : List SvmInstructionAccount}
    {account : Nat} {copy : SvmInstructionAccount} (enough : accounts.length ≤ copies.length)
    (found : Writes.last (writesOf accounts copies) account = some copy) :
    ∃ position, ListedAt accounts account position ∧ copies[position]? = some copy ∧
      ∀ later, position < later → ¬ ListedAt accounts account later := by
  induction accounts generalizing copies with
  | nil => cases found
  | cons first rest ih =>
    cases copies with
    | nil => cases enough
    | cons head tail =>
      have shorter : rest.length ≤ tail.length := Nat.le_of_succ_le_succ enough
      simp only [writesOf, List.zip_cons_cons, List.map_cons, Writes.last] at found
      cases behind : Writes.last ((rest.zip tail).map fun (account, copy) =>
          (account.indexInTransaction, copy)) account with
      | some last =>
        rw [behind] at found
        cases found
        obtain ⟨position, ⟨listed, stands, same⟩, holds, final⟩ := ih shorter behind
        refine ⟨position + 1, ⟨listed, stands, same⟩, holds, ?_⟩
        intro later beyond
        obtain ⟨before, rfl⟩ := Nat.exists_eq_add_one_of_ne_zero (Nat.ne_zero_of_lt beyond)
        exact final before (Nat.lt_of_succ_lt_succ beyond)
      | none =>
        rw [behind] at found
        simp only at found
        split at found
        next same =>
          cases found
          refine ⟨0, ⟨first, rfl, same⟩, rfl, ?_⟩
          -- The account stands nowhere behind the first position.
          rintro later beyond ⟨listed, stands, equal⟩
          obtain ⟨before, rfl⟩ := Nat.exists_eq_add_one_of_ne_zero (Nat.ne_zero_of_lt beyond)
          obtain ⟨copy, -, member⟩ := mem_writesOf_of_listedAt shorter ⟨listed, stands, equal⟩
          exact Writes.last_eq_none_iff.1 behind (List.mem_map.2 ⟨_, member, rfl⟩)
        · cases found

/-! ### Copies as they are taken -/

/-- A copy is taken with the fields of its account. -/
theorem fields_of_takeAccounts {state : BuiltinState keys δ} {accounts : List InstructionAccount}
    {taken : List SvmInstructionAccount} (done : takeAccounts state accounts = .ok taken)
    {account : Fin keys.length} {position : Nat} (listed : ListedAt accounts account position) :
    ∃ old, taken[position]? = some old ∧
      old.writtenTo (state.context.accounts account) = state.context.accounts account := by
  induction accounts generalizing taken position with
  | nil =>
    obtain ⟨entry, stands, -⟩ := listed
    cases stands
  | cons first rest ih =>
    simp only [takeAccounts, bind_eq_ok_iff, pure_eq_ok_iff] at done
    obtain ⟨index, borrowed, others, further, rfl⟩ := done
    obtain ⟨entry, stands, same⟩ := listed
    cases position with
    | zero =>
      cases stands
      obtain rfl : account = index := Fin.val_inj.1 (same.symm.trans (index_of_tryBorrow borrowed))
      exact ⟨_, rfl, rfl⟩
    | succ position => exact ih further ⟨entry, stands, same⟩

theorem untouchedAt_iff {before : BuiltinState keys δ} {taken ctx : SvmInstructionCtx}
    (done : fromInvokeContext frame before = .ok taken) {account : Fin keys.length} {position : Nat}
    (listed : ListedAt frame.accounts account position) {copy : SvmInstructionAccount}
    (holds : ctx.accounts[position]? = some copy) :
    UntouchedAt taken ctx position ↔
      copy.writtenTo (before.context.accounts account) = before.context.accounts account := by
  have copied : takeAccounts before frame.accounts = .ok taken.accounts := by
    unfold fromInvokeContext at done
    split at done
    · cases done
    · obtain ⟨accounts, copied, built⟩ := bind_eq_ok_iff.1 done
      cases built
      exact copied
  obtain ⟨old, found, fields⟩ := fields_of_takeAccounts copied listed
  constructor
  · rintro ⟨other, new, found', holds', same⟩
    obtain rfl : other = old := Option.some.inj (found'.symm.trans found)
    obtain rfl : new = copy := Option.some.inj (holds'.symm.trans holds)
    rw [← fields]
    simp only [SvmInstructionAccount.writtenTo, same.lamports, same.data, same.owner]
  · intro unchanged
    have equal := unchanged.trans fields.symm
    exact ⟨old, copy, found, holds, congrArg AccountSharedData.lamports equal,
      congrArg AccountSharedData.data equal, congrArg AccountSharedData.owner equal⟩

/-- An only change is kept exactly if it stands at the last position of its account. -/
theorem keepsUpdates_iff {before after : BuiltinState keys δ} {taken ctx : SvmInstructionCtx}
    (done : fromInvokeContext frame before = .ok taken)
    (wrote : (ctx.writeBack setters frame).run before = .ok () after) :
    KeepsUpdates frame taken ctx before after ↔
      ∀ (account : Fin keys.length) position, OnlyChange frame taken ctx account position →
        ∀ later, position < later → ¬ ListedAt frame.accounts account later := by
  have enough := length_of_writeBackFrom wrote
  have reads := accounts_of_writeBackFrom wrote
  rw [List.drop_zero] at enough reads
  -- Where an account stands at all, its last copy is the one that is left.
  have final : ∀ {account : Fin keys.length} {position},
      ListedAt frame.accounts account position →
      ∃ last copy, ListedAt frame.accounts account last ∧ ctx.accounts[last]? = some copy ∧
        (∀ later, last < later → ¬ ListedAt frame.accounts account later) ∧
        after.context.accounts account = copy.writtenTo (before.context.accounts account) := by
    intro account position listed
    obtain ⟨_, -, member⟩ := mem_writesOf_of_listedAt enough listed
    obtain ⟨copy, found⟩ := Writes.exists_last member
    obtain ⟨last, stands, holds, behind⟩ := position_of_last enough found
    refine ⟨last, copy, stands, holds, behind, ?_⟩
    rw [reads account, found]
  constructor
  · intro keeps account position only later beyond again
    obtain ⟨last, copy, stands, holds, behind, left⟩ := final only.listed
    obtain ⟨changed, held, -⟩ := mem_writesOf_of_listedAt enough only.listed
    -- The change stands before the last position, so the copy there is an untouched one.
    have differ : last ≠ position := by
      rintro rfl
      exact behind later beyond again
    have unchanged := (untouchedAt_iff done stands holds).1 (only.others last differ stands)
    apply only.changed
    rw [untouchedAt_iff done only.listed held, ← keeps.updated account position changed only held,
      left, unchanged]
  · intro onlyLast
    constructor
    · intro account position copy only held
      obtain ⟨last, other, stands, holds, behind, left⟩ := final only.listed
      have same : last = position := by
        rcases lt_trichotomy last position with earlier | same | later
        · exact absurd only.listed (behind position earlier)
        · exact same
        · exact absurd stands (onlyLast account position only last later)
      subst same
      obtain rfl : other = copy := Option.some.inj (holds.symm.trans held)
      exact left
    · intro account untouched
      have same : ∀ copy, (account.val, copy) ∈ writesOf frame.accounts ctx.accounts →
          copy.writtenTo (before.context.accounts account) = before.context.accounts account := by
        intro copy member
        obtain ⟨position, listed, holds⟩ := listedAt_of_mem_writesOf member
        exact (untouchedAt_iff done listed holds).1 (untouched position listed)
      refine ⟨?_, touched_of_writeBackFrom wrote (by rwa [List.drop_zero])⟩
      rw [reads account]
      cases found : Writes.last (writesOf frame.accounts ctx.accounts) account.val with
      | none => rfl
      | some copy => exact same copy (Writes.mem_of_last found)

end SvmInstructionCtx

namespace BuiltinState

/-- The state with another reading of the compute meter. -/
def withMeter (state : BuiltinState keys δ) (units : Nat) : BuiltinState keys δ :=
  { state with context := { state.context with computeMeter := units } }

end BuiltinState

/-- Copies do not depend on the compute meter. -/
theorem takeAccounts_withMeter (state : BuiltinState keys δ) (units : Nat)
    (accounts : List InstructionAccount) :
    SvmInstructionCtx.takeAccounts (state.withMeter units) accounts =
      SvmInstructionCtx.takeAccounts state accounts := by
  induction accounts with
  | nil => rfl
  | cons account rest ih =>
    simp only [SvmInstructionCtx.takeAccounts, ih]
    rfl

/-- What a successful run of the entrypoint goes through. -/
theorem entrypoint_ok {setters : CheckedSetters δ} {computeUnits : Nat}
    {handler : SvmInstructionCtx → Except InstructionError SvmInstructionCtx}
    {frame : InstructionFrame} {before after : BuiltinState keys δ}
    (done : (svmInstructionEntrypoint setters computeUnits handler frame).run before =
      .ok () after) :
    ∃ units taken ctx, SvmInstructionCtx.fromInvokeContext frame (before.withMeter units) = .ok taken ∧
      handler taken = .ok ctx ∧
      (ctx.writeBack setters frame).run (before.withMeter units) = .ok () after := by
  obtain ⟨_, charged, consumed, done⟩ := SvmInstructionCtx.run_bind_eq_ok done
  have metered : ∃ units, charged = before.withMeter units := by
    unfold chargeUnits at consumed
    split at consumed
    · simp only [EStateM.run, consumeChecked] at consumed
      split at consumed
      · cases consumed
      · cases consumed
        exact ⟨_, rfl⟩
    · cases consumed
      exact ⟨_, rfl⟩
  obtain ⟨units, rfl⟩ := metered
  obtain ⟨state, middle, read, done⟩ := SvmInstructionCtx.run_bind_eq_ok done
  cases read
  split at done
  · cases done
  next taken copied =>
    split at done
    · cases done
    next ctx handled => exact ⟨units, taken, ctx, copied, handled, done⟩

/-- A builtin that returns keeps the changes of its handler exactly if the only change of an account
is made in its last copy. -/
theorem macro_builtin_keeps_updates_iff (setters : CheckedSetters δ) (computeUnits : Nat)
    (handler : SvmInstructionCtx → Except InstructionError SvmInstructionCtx)
    (frame : InstructionFrame) (before after : BuiltinState keys δ)
    (done : (svmInstructionEntrypoint setters computeUnits handler frame).run before =
      .ok () after) :
    ∃ taken ctx, SvmInstructionCtx.fromInvokeContext frame before = .ok taken ∧
      handler taken = .ok ctx ∧
      (SvmInstructionCtx.KeepsUpdates frame taken ctx before after ↔
        ∀ (account : Fin keys.length) position,
          SvmInstructionCtx.OnlyChange frame taken ctx account position →
          ∀ later, position < later → ¬ SvmInstructionCtx.ListedAt frame.accounts account later) := by
  obtain ⟨units, taken, ctx, copied, handled, wrote⟩ := entrypoint_ok done
  refine ⟨taken, ctx, ?_, handled, ?_⟩
  · unfold SvmInstructionCtx.fromInvokeContext at copied ⊢
    simpa only [takeAccounts_withMeter] using copied
  · rw [← SvmInstructionCtx.keepsUpdates_iff copied wrote]
    exact ⟨fun keeps => ⟨keeps.updated, keeps.untouched⟩,
      fun keeps => ⟨keeps.updated, keeps.untouched⟩⟩

namespace Sample

/-- The program that owns an account may write it where it is listed as writable. -/
def ownerSetters : CheckedSetters Unit where
  setLamports := fun _ account _ _ _ =>
    if account.isWritable then .ok () else .error .invalidAccountData
  setDataFromSlice := fun _ account live _ _ =>
    if account.isWritable ∧ live.owner = 0x77 then .ok () else .error .invalidAccountData
  setOwner := fun _ account live _ _ =>
    if account.isWritable ∧ live.owner = 0x77 then .ok () else .error .invalidAccountData

/-- An account of the program `0x77`, and the program. -/
def builtinState : BuiltinState [(0x33 : Address), 0x77] Unit where
  context :=
    { accounts := fun _ => ⟨100, [0], 0x77, false, 0⟩
      returnData := ⟨0, []⟩
      trace := []
      logs := []
      modifiedEntries := ∅
      computeMeter := 1000 }
  touched := fun _ => false
  borrowed := fun _ => false
  counts := ()

/-- The handler marks the data of its first account. -/
def markFirst (ctx : SvmInstructionCtx) : Except InstructionError SvmInstructionCtx :=
  match ctx.accounts with
  | [] => .error .missingAccount
  | first :: rest => .ok { ctx with accounts := { first with data := [0xab] } :: rest }

/-- An instruction that lists the account at the given number of positions. -/
def markFrame (positions : Nat) : InstructionFrame where
  caller := none
  nestingLevel := 0
  programAccountIndex := 1
  accounts := List.replicate positions ⟨0, false, true⟩
  data := []

/-- The mark is made in the first of two copies and overwritten by the second, which the handler did
not touch. -/
theorem untouched_copy_overwrites_mark :
    (match (svmInstructionEntrypoint ownerSetters 150 markFirst (markFrame 2)).run builtinState with
      | .ok () after => decide ((after.context.accounts ⟨0, by decide⟩).data = [0])
      | .error _ _ => false) = true ∧
    ((SvmInstructionCtx.fromInvokeContext (markFrame 2) builtinState).bind markFirst).map
      (fun ctx => ctx.accounts.map SvmInstructionAccount.data) = .ok [[0xab], [0]] := by
  decide

/-- With one copy the mark stays. -/
theorem single_copy_keeps_mark :
    ∃ after taken ctx,
      (svmInstructionEntrypoint ownerSetters 150 markFirst (markFrame 1)).run builtinState =
        .ok () after ∧
      SvmInstructionCtx.KeepsUpdates (markFrame 1) taken ctx builtinState after := by
  have returns : (match (svmInstructionEntrypoint ownerSetters 150 markFirst (markFrame 1)).run
        builtinState with
      | .ok () _ => true
      | .error _ _ => false) = true := by
    decide
  split at returns
  next after done =>
    obtain ⟨taken, ctx, -, -, keeps⟩ := macro_builtin_keeps_updates_iff ownerSetters 150 markFirst
      (markFrame 1) builtinState after done
    refine ⟨after, taken, ctx, done, keeps.2 ?_⟩
    rintro account position only later beyond ⟨listed, stands, -⟩
    have inside : later < 1 := (List.getElem?_eq_some_iff.1 stands).1
    omega
  · cases returns

end Sample

end Hpsvm
