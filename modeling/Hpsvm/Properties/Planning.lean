import Hpsvm.Batch
import Hpsvm.SampleRuntime

/-!
# Plans and the order of conflicting transactions

A plan is the greedy staging of the transactions' lock sets: a partition into stages without
conflicts. The planner joins the conflict-free stage with the fewest locks, wherever it lies, so an
earlier conflicting transaction may end in a later stage.
-/

namespace Hpsvm

open Foundation (GreedyStages.plan GreedyStages.placeAll GreedyStages.At GreedyStages.Planned
  GreedyStages.Ordered GreedyStages.JoinsLast GreedyStages.planned_plan
  GreedyStages.ordered_plan_iff GreedyStages.members_plan_perm GreedyStages.heads_plan_ascend
  GreedyStages.card_le_length GreedyStages.exists_conflicts)

/-- The plan runs the transaction `index` in the stage `place`. -/
def TransactionBatchPlan.RunsIn (plan : TransactionBatchPlan) (place index : Nat) : Prop :=
  ∃ stage, plan.stages[place]? = some stage ∧ index ∈ stage.transactionIndexes

namespace Svm

variable (agave : Agave)

/-- The lock set a transaction is planned with. -/
def lockSet? (vm : Svm) (tx : VersionedTransaction) : Option TransactionLockSet :=
  match vm.sanitizeTransactionForBatch agave tx with
  | .ok sanitized => some (.fromTransaction sanitized.message (lookupsOf tx))
  | .error _ => none

/-- Scheduling succeeds exactly with the greedy stages of the transactions' lock sets. -/
theorem scheduleFrom_eq_ok_iff {vm : Svm} {index : Nat} {txs : List VersionedTransaction}
    {stages scheduled : List ScheduledTransactionBatchStage} :
    vm.scheduleFrom agave index txs stages = .ok scheduled ↔
      ∃ locks, txs.map (vm.lockSet? agave) = locks.map some ∧
        scheduled = GreedyStages.placeAll TransactionLockSet.locking index locks stages := by
  induction txs generalizing index stages with
  | nil =>
    constructor
    · intro done
      cases done
      exact ⟨[], rfl, rfl⟩
    · rintro ⟨locks, none, rfl⟩
      cases locks with
      | nil => rfl
      | cons => cases none
  | cons tx rest ih =>
    unfold scheduleFrom
    cases sanitized : vm.sanitizeTransactionForBatch agave tx with
    | error source =>
      -- One transaction that cannot be sanitized refuses the whole schedule.
      have missing : vm.lockSet? agave tx = none := by simp [lockSet?, sanitized]
      constructor
      · intro done
        cases done
      · rintro ⟨locks, listed, -⟩
        cases locks with
        | nil => cases listed
        | cons => simp [missing] at listed
    | ok sanitizedTx =>
      have found : vm.lockSet? agave tx =
          some (.fromTransaction sanitizedTx.message (lookupsOf tx)) := by
        simp [lockSet?, sanitized]
      simp only [ih]
      constructor
      · rintro ⟨locks, listed, rfl⟩
        exact ⟨.fromTransaction sanitizedTx.message (lookupsOf tx) :: locks,
          by simp [found, listed], rfl⟩
      · rintro ⟨locks, listed, rfl⟩
        cases locks with
        | nil => cases listed
        | cons first others =>
          simp only [List.map_cons, found, List.cons.injEq, Option.some.injEq] at listed
          obtain ⟨rfl, listed⟩ := listed
          exact ⟨others, listed, rfl⟩

/-- A plan is the greedy staging of the lock sets, stage by stage. -/
theorem planTransactionBatch_eq_ok {vm : Svm} {txs : List VersionedTransaction}
    {plan : TransactionBatchPlan} (planned : vm.planTransactionBatch agave txs = .ok plan) :
    ∃ locks, txs.map (vm.lockSet? agave) = locks.map some ∧
      vm.scheduleFrom agave 0 txs [] =
        .ok (GreedyStages.plan TransactionLockSet.locking locks) ∧
      plan.stages = (GreedyStages.plan TransactionLockSet.locking locks).map
        fun stage => ⟨stage.members⟩ := by
  unfold planTransactionBatch at planned
  split at planned
  · cases planned
  next stages scheduled =>
    cases planned
    obtain ⟨locks, listed, rfl⟩ := (scheduleFrom_eq_ok_iff agave).1 scheduled
    exact ⟨locks, listed, scheduled, rfl⟩

theorem runsIn_iff {plan : TransactionBatchPlan} {stages : List ScheduledTransactionBatchStage}
    (same : plan.stages = stages.map fun stage => ⟨stage.members⟩) {place index : Nat} :
    plan.RunsIn place index ↔ GreedyStages.At stages place index := by
  unfold TransactionBatchPlan.RunsIn GreedyStages.At
  rw [same]
  simp only [List.getElem?_map, Option.map_eq_some_iff]
  constructor
  · rintro ⟨stage, ⟨scheduled, listed, rfl⟩, member⟩
    exact ⟨scheduled, listed, member⟩
  · rintro ⟨scheduled, listed, member⟩
    exact ⟨⟨scheduled.members⟩, ⟨scheduled, listed, rfl⟩, member⟩

/-! ### A conflict-free partition -/

/-- The transaction locks the account for writing. -/
def Writes (vm : Svm) (tx : VersionedTransaction) (key : Address) : Prop :=
  ∃ sanitized, vm.sanitizeTransactionForBatch agave tx = .ok sanitized ∧
    ∃ index, sanitized.message.accountKeys[index]? = some key ∧
      sanitized.message.isWritable index = true

/-- The transaction locks the account for reading, as it does with its lookup tables. -/
def Reads (vm : Svm) (tx : VersionedTransaction) (key : Address) : Prop :=
  ∃ sanitized, vm.sanitizeTransactionForBatch agave tx = .ok sanitized ∧
    ((∃ index, sanitized.message.accountKeys[index]? = some key ∧
      sanitized.message.isWritable index = false) ∨ ∃ lookup ∈ lookupsOf tx, lookup.accountKey = key)

/-- One of the transactions writes an account that the other reads or writes. -/
def Conflicting (vm : Svm) (tx tx' : VersionedTransaction) : Prop :=
  ∃ key, (vm.Writes agave tx key ∧ (vm.Reads agave tx' key ∨ vm.Writes agave tx' key)) ∨
    (vm.Reads agave tx key ∧ vm.Writes agave tx' key)

theorem Conflicting.symm {vm : Svm} {tx tx' : VersionedTransaction}
    (conflict : vm.Conflicting agave tx tx') : vm.Conflicting agave tx' tx := by
  obtain ⟨key, ⟨writes, reads | writes'⟩ | ⟨reads, writes'⟩⟩ := conflict
  · exact ⟨key, .inr ⟨reads, writes⟩⟩
  · exact ⟨key, .inl ⟨writes', .inr writes⟩⟩
  · exact ⟨key, .inl ⟨writes', .inl reads⟩⟩

theorem writes_iff {vm : Svm} {tx : VersionedTransaction} {key : Address} :
    vm.Writes agave tx key ↔ ∃ lockSet, vm.lockSet? agave tx = some lockSet ∧
      key ∈ lockSet.writable := by
  unfold Writes lockSet?
  cases vm.sanitizeTransactionForBatch agave tx with
  | error source => simp
  | ok sanitized =>
    simp [TransactionLockSet.fromTransaction, List.mem_zipIdx_iff_getElem?]

theorem reads_iff {vm : Svm} {tx : VersionedTransaction} {key : Address} :
    vm.Reads agave tx key ↔ ∃ lockSet, vm.lockSet? agave tx = some lockSet ∧
      key ∈ lockSet.readonly := by
  unfold Reads lockSet?
  cases vm.sanitizeTransactionForBatch agave tx with
  | error source => simp
  | ok sanitized =>
    simp [TransactionLockSet.fromTransaction, List.mem_zipIdx_iff_getElem?]

/-- The planner's test on lock sets finds exactly the conflicts. -/
theorem conflicting_iff {vm : Svm} {tx tx' : VersionedTransaction}
    {lockSet lockSet' : TransactionLockSet} (owns : vm.lockSet? agave tx = some lockSet)
    (owns' : vm.lockSet? agave tx' = some lockSet') :
    vm.Conflicting agave tx tx' ↔ lockSet.conflictsWith lockSet' = true := by
  simp only [Conflicting, writes_iff, reads_iff, owns, owns', Option.some.injEq, exists_eq_left',
    TransactionLockSet.conflictsWith, Bool.or_eq_true, decide_eq_true_eq, ne_eq,
    ← Finset.not_nonempty_iff_eq_empty, not_not, Finset.Nonempty, Finset.mem_inter,
    Finset.mem_union, exists_or]
  constructor
  · rintro (⟨key, writes, reads | writes'⟩ | conflict)
    · exact .inl ⟨key, writes, .inr reads⟩
    · exact .inl ⟨key, writes, .inl writes'⟩
    · exact .inr conflict
  · rintro (⟨key, writes, writes' | reads⟩ | conflict)
    · exact .inl ⟨key, writes, .inr writes'⟩
    · exact .inl ⟨key, writes, .inl reads⟩
    · exact .inr conflict

/-- The stages hold every transaction exactly once, in ascending order within a stage and from head
to head, and the transactions of a stage do not conflict. -/
structure ConflictFreePartition (vm : Svm) (txs : List VersionedTransaction)
    (plan : TransactionBatchPlan) : Prop where
  partition : (plan.stages.flatMap TransactionBatchStage.transactionIndexes).Perm
    (List.range txs.length)
  ascending : ∀ stage ∈ plan.stages, stage.transactionIndexes.Pairwise (· < ·)
  heads : ∃ heads : List Nat, plan.stages.map (fun stage => stage.transactionIndexes.head?) =
    heads.map some ∧ heads.Pairwise (· < ·)
  apart : ∀ stage ∈ plan.stages, ∀ first ∈ stage.transactionIndexes,
    ∀ second ∈ stage.transactionIndexes, first ≠ second → ∀ tx tx', txs[first]? = some tx →
      txs[second]? = some tx' → ¬ vm.Conflicting agave tx tx'

theorem conflict_free_partition {vm : Svm} {txs : List VersionedTransaction}
    {plan : TransactionBatchPlan} (planned : vm.planTransactionBatch agave txs = .ok plan) :
    vm.ConflictFreePartition agave txs plan := by
  obtain ⟨locks, listed, -, same⟩ := planTransactionBatch_eq_ok agave planned
  have staged := GreedyStages.planned_plan TransactionLockSet.locking locks
  have length : locks.length = txs.length := by simpa using (congrArg List.length listed).symm
  constructor
  · rw [same, ← length, List.flatMap_map]
    exact GreedyStages.members_plan_perm TransactionLockSet.locking locks
  · intro stage member
    rw [same] at member
    obtain ⟨scheduled, present, rfl⟩ := List.mem_map.1 member
    exact staged.ascending scheduled present
  · obtain ⟨heads, first, ascend⟩ := GreedyStages.heads_plan_ascend TransactionLockSet.locking locks
    refine ⟨heads, ?_, ascend⟩
    rw [same, List.map_map]
    exact first
  · intro stage member first one second two differ tx tx' present present' conflict
    obtain ⟨place, there⟩ := List.mem_iff_getElem?.1 member
    have at_first := (runsIn_iff same).1 ⟨stage, there, one⟩
    have at_second := (runsIn_iff same).1 ⟨stage, there, two⟩
    -- Both transactions are planned, so both have a lock set.
    have owned : ∀ (index : Nat) (tx : VersionedTransaction), txs[index]? = some tx →
        ∃ lockSet, vm.lockSet? agave tx = some lockSet ∧ locks[index]? = some lockSet := by
      intro index tx present
      have found := congrArg (fun items => items[index]?) listed
      simp only [List.getElem?_map, present, Option.map_some] at found
      obtain ⟨lockSet, owns, equal⟩ := Option.map_eq_some_iff.1 found.symm
      exact ⟨lockSet, equal.symm, owns⟩
    obtain ⟨lockSet, owns, located⟩ := owned first tx present
    obtain ⟨lockSet', owns', located'⟩ := owned second tx' present'
    rcases Nat.lt_or_gt_of_ne differ with before | after
    · have apart := staged.apart place first second lockSet lockSet' at_first at_second before located
        located'
      rw [TransactionLockSet.locking_conflicts] at apart
      rw [conflicting_iff agave owns owns', apart] at conflict
      cases conflict
    · have apart := staged.apart place second first lockSet' lockSet at_second at_first after located'
        located
      rw [TransactionLockSet.locking_conflicts] at apart
      have reversed := conflict.symm
      rw [conflicting_iff agave owns' owns, apart] at reversed
      cases reversed

/-! ### The order of conflicting transactions -/

/-- Conflicting transactions run in stages of the caller's order. -/
def KeepsSubmissionOrder (vm : Svm) (txs : List VersionedTransaction)
    (plan : TransactionBatchPlan) : Prop :=
  ∀ (first second : Nat) (tx tx' : VersionedTransaction) (lockSet lockSet' : TransactionLockSet)
    (place place' : Nat), first < second → txs[first]? = some tx → txs[second]? = some tx' →
    vm.lockSet? agave tx = some lockSet → vm.lockSet? agave tx' = some lockSet' →
    lockSet.conflictsWith lockSet' = true →
    plan.RunsIn place first → plan.RunsIn place' second → place < place'

/-- When a transaction joins a stage, no stage behind that one conflicts with it. -/
def JoinsLastConflict (vm : Svm) (txs : List VersionedTransaction) : Prop :=
  ∀ before tx after, txs = before ++ tx :: after →
    ∀ stages lockSet chosen, vm.scheduleFrom agave 0 before [] = .ok stages →
      vm.lockSet? agave tx = some lockSet → bestFitStage stages lockSet = some chosen →
      ∀ (place : Nat) (stage : ScheduledTransactionBatchStage), chosen < place →
        stages[place]? = some stage → stage.locks.conflictsWith lockSet = false

theorem getElem?_lockSets {vm : Svm} {txs : List VersionedTransaction}
    {locks : List TransactionLockSet} (listed : txs.map (vm.lockSet? agave) = locks.map some)
    {index : Nat} {lockSet : TransactionLockSet} :
    locks[index]? = some lockSet ↔
      ∃ tx, txs[index]? = some tx ∧ vm.lockSet? agave tx = some lockSet := by
  have same := congrArg (fun items => items[index]?) listed
  simp only [List.getElem?_map] at same
  constructor
  · intro found
    rw [found] at same
    obtain ⟨tx, present, owns⟩ := Option.map_eq_some_iff.1 same
    exact ⟨tx, present, owns⟩
  · rintro ⟨tx, present, owns⟩
    rw [present, Option.map_some, owns] at same
    obtain ⟨other, found, equal⟩ := Option.map_eq_some_iff.1 same.symm
    rw [found, Option.some.inj equal]

/-- A batch applies conflicting transactions in the order they were given exactly when no transaction
joins a stage in front of one it conflicts with. -/
theorem keeps_submission_order_iff {vm : Svm} {txs : List VersionedTransaction}
    {plan : TransactionBatchPlan} (planned : vm.planTransactionBatch agave txs = .ok plan) :
    vm.KeepsSubmissionOrder agave txs plan ↔ vm.JoinsLastConflict agave txs := by
  obtain ⟨locks, listed, -, same⟩ := planTransactionBatch_eq_ok agave planned
  have ordered : vm.KeepsSubmissionOrder agave txs plan ↔
      GreedyStages.Ordered TransactionLockSet.locking locks
        (GreedyStages.plan TransactionLockSet.locking locks) := by
    constructor
    · intro keeps first second lockSet lockSet' place place' earlier found found' conflict one two
      rw [TransactionLockSet.locking_conflicts] at conflict
      obtain ⟨tx, present, owns⟩ := (getElem?_lockSets agave listed).1 found
      obtain ⟨tx', present', owns'⟩ := (getElem?_lockSets agave listed).1 found'
      exact keeps first second tx tx' lockSet lockSet' place place' earlier present present' owns
        owns' conflict ((runsIn_iff same).2 one) ((runsIn_iff same).2 two)
    · intro ordered first second tx tx' lockSet lockSet' place place' earlier present present' owns
        owns' conflict one two
      rw [← TransactionLockSet.locking_conflicts] at conflict
      exact ordered first second lockSet lockSet' place place' earlier
        ((getElem?_lockSets agave listed).2 ⟨tx, present, owns⟩)
        ((getElem?_lockSets agave listed).2 ⟨tx', present', owns'⟩) conflict
        ((runsIn_iff same).1 one) ((runsIn_iff same).1 two)
  rw [ordered, GreedyStages.ordered_plan_iff]
  -- A split of the transactions and the split of their lock sets at the same place.
  constructor
  · rintro steps before tx after rfl stages lockSet chosen scheduled owns found place stage behind
      present
    obtain ⟨earlier, listed', rfl⟩ := (scheduleFrom_eq_ok_iff agave).1 scheduled
    simp only [List.map_append, List.map_cons, listed', owns] at listed
    obtain ⟨first, rest, split, front, back⟩ := List.map_eq_append_iff.1 listed.symm
    obtain ⟨own, later, rfl, equal, -⟩ := List.map_eq_cons_iff.1 back
    cases equal
    have same_front : first = earlier := List.map_injective_iff.2 (Option.some_injective _) front
    subst same_front
    rw [← TransactionLockSet.locking_conflicts]
    exact steps first lockSet later split chosen found place stage behind present
  · rintro joins before lockSet after rfl chosen found place stage behind present
    simp only [List.map_append, List.map_cons] at listed
    obtain ⟨first, rest, rfl, front, back⟩ := List.map_eq_append_iff.1 listed
    obtain ⟨tx, later, rfl, owns, -⟩ := List.map_eq_cons_iff.1 back
    have scheduled : vm.scheduleFrom agave 0 first [] =
        .ok (GreedyStages.plan TransactionLockSet.locking before) :=
      (scheduleFrom_eq_ok_iff agave).2 ⟨before, front, rfl⟩
    rw [TransactionLockSet.locking_conflicts]
    exact joins first tx later rfl _ lockSet chosen scheduled owns found place stage behind present

/-! ### The number of stages -/

/-- A plan has at least as many stages as there are transactions that all conflict with each other, and
at most one more than some transaction has earlier ones it conflicts with. -/
theorem plan_size_bounds {vm : Svm} {txs : List VersionedTransaction} {plan : TransactionBatchPlan}
    (planned : vm.planTransactionBatch agave txs = .ok plan) :
    (∀ rivals : Finset Nat, (∀ index ∈ rivals, index < txs.length) →
      (∀ first ∈ rivals, ∀ second ∈ rivals, first < second → ∀ tx tx', txs[first]? = some tx →
        txs[second]? = some tx' → vm.Conflicting agave tx tx') →
      rivals.card ≤ plan.stages.length) ∧
    (txs ≠ [] → ∃ last tx, txs[last]? = some tx ∧ ∃ earlier : Finset Nat,
      plan.stages.length = earlier.card + 1 ∧ ∀ index ∈ earlier, index < last ∧
        ∃ other, txs[index]? = some other ∧ vm.Conflicting agave other tx) := by
  obtain ⟨locks, listed, -, same⟩ := planTransactionBatch_eq_ok agave planned
  have length : locks.length = txs.length := by simpa using (congrArg List.length listed).symm
  have stages : plan.stages.length = (GreedyStages.plan TransactionLockSet.locking locks).length := by
    rw [same, List.length_map]
  refine ⟨?_, ?_⟩
  · intro rivals items conflicting
    rw [stages]
    refine GreedyStages.card_le_length locks rivals (by rw [length]; exact items) ?_
    intro first one second two before own other found found'
    obtain ⟨tx, present, owns⟩ := (getElem?_lockSets agave listed).1 found
    obtain ⟨tx', present', owns'⟩ := (getElem?_lockSets agave listed).1 found'
    rw [TransactionLockSet.locking_conflicts, ← conflicting_iff agave owns owns']
    exact conflicting first one second two before tx tx' present present'
  · intro some
    -- The first transaction opens a stage, so there is one.
    obtain ⟨count, more⟩ : ∃ count,
        (GreedyStages.plan TransactionLockSet.locking locks).length = count + 1 := by
      refine Nat.exists_eq_add_one.2 ?_
      have first : 0 < locks.length := by
        rw [length]
        exact List.length_pos_iff.2 some
      obtain ⟨place, there⟩ :=
        ((GreedyStages.planned_plan TransactionLockSet.locking locks).covered 0).2 first
      exact Nat.zero_lt_of_lt there.lt_length
    obtain ⟨last, own, found, earlier, card, conflicts⟩ :=
      GreedyStages.exists_conflicts locks more
    obtain ⟨tx, present, owns⟩ := (getElem?_lockSets agave listed).1 found
    refine ⟨last, tx, present, earlier, by rw [stages, more, card], ?_⟩
    intro index member
    obtain ⟨before, other, found', conflict⟩ := conflicts index member
    obtain ⟨tx', present', owns'⟩ := (getElem?_lockSets agave listed).1 found'
    rw [TransactionLockSet.locking_conflicts, ← conflicting_iff agave owns' owns] at conflict
    exact ⟨before, tx', present', conflict⟩

end Svm

namespace Sample

def planningVm : Svm :=
  vm [(0x11, systemAccount 1_000_000), (0x12, systemAccount 1_000_000),
    (0x13, systemAccount 1_000_000)] .empty

/-- Three transfers that write 0xa, then 0xa and 0xb, then 0xb. -/
def chainTxs : List VersionedTransaction :=
  [transferTx 1 0x11 [0xa] [([0, 1], 64)], transferTx 2 0x12 [0xa, 0xb] [([0, 2], 64)],
    transferTx 3 0x13 [0xb] [([0, 1], 64)]]

/-- The third transfer conflicts with the second only, and joins the stage of the first. -/
theorem third_transfer_overtakes_second :
    ∃ plan, planningVm.planTransactionBatch agave chainTxs = .ok plan ∧
      ¬ planningVm.KeepsSubmissionOrder agave chainTxs plan := by
  refine ⟨⟨[⟨[0, 2]⟩, ⟨[1]⟩]⟩, by decide, ?_⟩
  intro keeps
  have second : planningVm.lockSet? agave (transferTx 2 0x12 [0xa, 0xb] [([0, 2], 64)]) =
      some ⟨{0}, {0x12, 0xa, 0xb}⟩ := by decide
  have third : planningVm.lockSet? agave (transferTx 3 0x13 [0xb] [([0, 1], 64)]) =
      some ⟨{0}, {0x13, 0xb}⟩ := by decide
  have conflict : TransactionLockSet.conflictsWith ⟨{0}, {0x12, 0xa, 0xb}⟩ ⟨{0}, {0x13, 0xb}⟩ =
      true := by decide
  have before := keeps 1 2 _ _ _ _ 1 0 (by decide) rfl rfl second third conflict
    ⟨⟨[1]⟩, rfl, by decide⟩ ⟨⟨[0, 2]⟩, rfl, by decide⟩
  omega

/-- Two transfers to the same account. -/
def rivalTxs : List VersionedTransaction :=
  [transferTx 1 0x11 [0xa] [([0, 1], 64)], transferTx 2 0x12 [0xa] [([0, 1], 64)]]

theorem rival_transfers_keep_order :
    planningVm.planTransactionBatch agave rivalTxs = .ok ⟨[⟨[0]⟩, ⟨[1]⟩]⟩ ∧
      planningVm.KeepsSubmissionOrder agave rivalTxs ⟨[⟨[0]⟩, ⟨[1]⟩]⟩ := by
  have planned : planningVm.planTransactionBatch agave rivalTxs = .ok ⟨[⟨[0]⟩, ⟨[1]⟩]⟩ := by
    decide
  refine ⟨planned, (Svm.keeps_submission_order_iff agave planned).2 ?_⟩
  intro before tx after split stages lockSet chosen scheduled owns found place stage behind present
  -- At most one stage is open when a transaction is placed, so none lies behind the chosen one.
  have short : stages.length ≤ 1 := by
    match before, split with
    | [], _ =>
      cases scheduled
      decide
    | [_], split =>
      cases split
      cases scheduled
      decide
    | _ :: _ :: before, split =>
      have long := congrArg List.length split
      simp only [rivalTxs, List.length_cons, List.length_nil, List.length_append] at long
      omega
  have inside := (List.getElem?_eq_some_iff.1 present).1
  omega

/-- Two stages: the first and third transfer do not conflict. -/
theorem chain_conflict_free :
    planningVm.planTransactionBatch agave chainTxs = .ok ⟨[⟨[0, 2]⟩, ⟨[1]⟩]⟩ ∧
      planningVm.ConflictFreePartition agave chainTxs ⟨[⟨[0, 2]⟩, ⟨[1]⟩]⟩ := by
  have planned : planningVm.planTransactionBatch agave chainTxs = .ok ⟨[⟨[0, 2]⟩, ⟨[1]⟩]⟩ := by
    decide
  exact ⟨planned, Svm.conflict_free_partition agave planned⟩

/-- The rival transfers need a stage each. -/
theorem rival_plan_size :
    planningVm.planTransactionBatch agave rivalTxs = .ok ⟨[⟨[0]⟩, ⟨[1]⟩]⟩ ∧
      ∃ last tx, rivalTxs[last]? = some tx ∧ ∃ earlier : Finset Nat, 2 = earlier.card + 1 ∧
        ∀ index ∈ earlier, index < last ∧
          ∃ other, rivalTxs[index]? = some other ∧ planningVm.Conflicting agave other tx := by
  have planned : planningVm.planTransactionBatch agave rivalTxs = .ok ⟨[⟨[0]⟩, ⟨[1]⟩]⟩ := by
    decide
  exact ⟨planned, (Svm.plan_size_bounds agave planned).2 (by decide)⟩

end Sample

end Hpsvm
