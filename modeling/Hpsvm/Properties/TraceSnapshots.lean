import Hpsvm.TraceMetrics

/-!
# Snapshots of trace metrics

What a snapshot shows depends on the traces alone: neither on the order in which threads record them
nor on the order in which the hash table lists its entries. Each traced program has one row, which
holds the sums and maxima over its traces, cut off at the largest `usize`.
-/

namespace Hpsvm

/-- The trace is recorded, for this program. -/
def VmTrace.countsFor (programId : Address) (trace : VmTrace) : Bool :=
  trace.registerFrames != 0 && trace.programKey.toOption == some programId

namespace TraceMetricsCollector

/-- The table after the traces. -/
def collected (traces : List VmTrace) : TraceMetricsCollector :=
  afterInvocation ∅ traces true

/-! ### One row -/

def usizeMax : Nat := 2 ^ 64 - 1

/-- The largest of a number over the traces. -/
def largest (number : VmTrace → Nat) (traces : List VmTrace) : Nat :=
  (traces.map number).foldl max 0

/-- The row of a program: what its traces come to. -/
def tally (programId : Address) (traces : List VmTrace) : ProgramTraceMetrics :=
  let own := traces.filter (VmTrace.countsFor programId)
  { programId := programId
    invocations := min own.length usizeMax
    cpiInvocations := min (own.countP fun trace => 1 < trace.stackHeight) usizeMax
    totalRegisterFrames := min (own.map VmTrace.registerFrames).sum usizeMax
    maxRegisterFrames := largest VmTrace.registerFrames own
    maxStackHeight := largest VmTrace.stackHeight own
    totalInstructionAccounts := min (own.map VmTrace.instructionAccounts).sum usizeMax
    maxInstructionAccounts := largest VmTrace.instructionAccounts own }

theorem saturatingAdd_min (sum more : Nat) :
    saturatingAdd (min sum usizeMax) more = min (sum + more) usizeMax := by
  simp only [saturatingAdd, usizeMax]
  omega

theorem largest_append (number : VmTrace → Nat) (traces : List VmTrace) (trace : VmTrace) :
    largest number (traces ++ [trace]) = max (largest number traces) (number trace) := by
  simp [largest]

theorem largest_perm (number : VmTrace → Nat) {traces traces' : List VmTrace}
    (same : traces.Perm traces') : largest number traces = largest number traces' :=
  (same.map number).foldl_eq 0

theorem tally_append_of_counts {programId : Address} {trace : VmTrace}
    (counts : trace.countsFor programId = true) (traces : List VmTrace) :
    tally programId (traces ++ [trace]) = (tally programId traces).add trace := by
  simp only [tally, ProgramTraceMetrics.add, List.filter_append, List.filter_cons, counts,
    List.filter_nil, if_true, largest_append, saturatingAdd_min, List.length_append,
    List.length_singleton, List.map_append, List.sum_append, List.map_singleton,
    List.sum_singleton, List.countP_append, List.countP_singleton]
  by_cases nested : 1 < trace.stackHeight
  · simp [nested]
  · simp [nested]

theorem tally_append_of_skipped {programId : Address} {trace : VmTrace}
    (skipped : trace.countsFor programId = false) (traces : List VmTrace) :
    tally programId (traces ++ [trace]) = tally programId traces := by
  simp [tally, skipped]

theorem tally_nil (programId : Address) : tally programId [] = .new programId := rfl

/-- Traces of other programs leave the row of a program empty. -/
theorem tally_of_untraced {programId : Address} {traces : List VmTrace}
    (untraced : traces.any (VmTrace.countsFor programId) = false) :
    tally programId traces = .new programId := by
  have none : traces.filter (VmTrace.countsFor programId) = [] := by
    simpa [List.filter_eq_nil_iff] using untraced
  rw [← tally_nil]
  simp only [tally, none, List.filter_nil]

theorem tally_perm (programId : Address) {traces traces' : List VmTrace}
    (same : traces.Perm traces') : tally programId traces = tally programId traces' := by
  have own := same.filter (VmTrace.countsFor programId)
  simp only [tally, own.length_eq, own.countP_eq, (own.map VmTrace.registerFrames).sum_eq,
    (own.map VmTrace.instructionAccounts).sum_eq, largest_perm _ own]

/-! ### The table -/

/-- Recording a trace touches the row of its program. -/
theorem getElem?_recordTrace (metrics : TraceMetricsCollector) (trace : VmTrace)
    (programId : Address) :
    (metrics.recordTrace trace).2[programId]? =
      if trace.countsFor programId then some ((metrics[programId]?.getD (.new programId)).add trace)
      else metrics[programId]? := by
  unfold recordTrace VmTrace.countsFor
  split
  next empty => simp [empty]
  next full =>
    cases trace.programKey with
    | error error => simp [Except.toOption]
    | ok other =>
      by_cases same : other = programId
      · subst same
        simp [full, Except.toOption]
      · simp [same, Except.toOption]

/-- The table holds the rows of the traced programs. -/
theorem getElem?_collected (traces : List VmTrace) (programId : Address) :
    (collected traces)[programId]? =
      if traces.any (VmTrace.countsFor programId) then some (tally programId traces) else none := by
  induction traces using List.reverseRecOn with
  | nil => simp [collected, afterInvocation]
  | append_singleton traces trace ih =>
    have step : collected (traces ++ [trace]) = ((collected traces).recordTrace trace).2 := by
      simp [collected, afterInvocation]
    rw [step, getElem?_recordTrace, ih, List.any_append]
    cases counts : trace.countsFor programId with
    | false => simp [counts, tally_append_of_skipped counts]
    | true =>
      -- The first trace of a program starts from an empty row.
      cases before : traces.any (VmTrace.countsFor programId) with
      | false => simp [counts, tally_append_of_counts counts, tally_of_untraced before]
      | true => simp [counts, tally_append_of_counts counts]

/-- The values of the table, in the order of the keys. -/
def rows (metrics : TraceMetricsCollector) : List ProgramTraceMetrics :=
  metrics.toList.map Prod.snd

theorem mem_rows_collected {traces : List VmTrace} {row : ProgramTraceMetrics} :
    row ∈ rows (collected traces) ↔
      (∃ trace ∈ traces, trace.countsFor row.programId = true) ∧
        row = tally row.programId traces := by
  simp only [rows, List.mem_map, Prod.exists, exists_eq_right,
    Std.ExtTreeMap.mem_toList_iff_getElem?_eq_some, getElem?_collected, Option.ite_none_right_eq_some,
    List.any_eq_true, Option.some.injEq]
  constructor
  · rintro ⟨programId, traced, rfl⟩
    exact ⟨traced, rfl⟩
  · rintro ⟨traced, same⟩
    exact ⟨row.programId, traced, same.symm⟩

/-- No program has two rows. -/
theorem pairwise_rows_collected (traces : List VmTrace) :
    (rows (collected traces)).Pairwise fun left right => left.programId ≠ right.programId := by
  refine List.pairwise_map.2 (Std.ExtTreeMap.distinct_keys_toList.imp_of_mem ?_)
  intro left right isLeft isRight distinct same
  have key : ∀ entry ∈ (collected traces).toList, entry.2.programId = entry.1 := by
    intro entry member
    rw [Std.ExtTreeMap.mem_toList_iff_getElem?_eq_some, getElem?_collected,
      Option.ite_none_right_eq_some] at member
    rw [← Option.some.inj member.2]
    rfl
  rw [key left isLeft, key right isRight] at same
  exact distinct (by simp [same])

theorem collected_perm {traces traces' : List VmTrace} (same : traces.Perm traces') :
    collected traces = collected traces' := by
  refine Std.ExtTreeMap.ext_getElem? fun programId => ?_
  rw [getElem?_collected, getElem?_collected, same.any_eq, tally_perm programId same]

/-! ### The order of the rows -/

/-- More of a number comes first. -/
theorem transCmp_descending (number : ProgramTraceMetrics → Nat) :
    Std.TransCmp fun left right => compare (number right) (number left) :=
  @Std.TransCmp.opposite _ (compareOn number) inferInstance

instance transCmp_ranking : Std.TransCmp ranking :=
  have := transCmp_descending ProgramTraceMetrics.totalRegisterFrames
  have := transCmp_descending ProgramTraceMetrics.invocations
  inferInstanceAs (Std.TransCmp (compareLex
    (fun left right => compare right.totalRegisterFrames left.totalRegisterFrames)
    (compareLex (fun left right => compare right.invocations left.invocations)
      (compareOn ProgramTraceMetrics.programId))))

/-- Rows of the same rank are of the same program. -/
theorem programId_eq_of_ranking {left right : ProgramTraceMetrics}
    (equal : ranking left right = .eq) : left.programId = right.programId := by
  simp only [ranking, Ordering.then_eq_eq] at equal
  exact Std.LawfulEqCmp.eq_of_compare equal.2.2

theorem perm_snapshot (values : List ProgramTraceMetrics) : (snapshot values).Perm values :=
  List.mergeSort_perm values _

theorem pairwise_isLE_snapshot (values : List ProgramTraceMetrics) :
    (snapshot values).Pairwise fun left right => (ranking left right).isLE = true := by
  refine List.pairwise_mergeSort ?_ ?_ values
  · intro first second third below above
    exact Std.TransCmp.isLE_trans below above
  · intro left right
    rw [@Std.OrientedCmp.eq_swap _ ranking _ right left]
    cases ranking left right <;> rfl

/-- Rows of distinct programs are listed strictly by rank. -/
theorem pairwise_snapshot {values : List ProgramTraceMetrics}
    (distinct : values.Pairwise fun left right => left.programId ≠ right.programId) :
    (snapshot values).Pairwise fun left right => ranking left right = .lt := by
  have distinct' := (perm_snapshot values).symm.pairwise distinct fun other => other.symm
  refine List.Pairwise.imp₂ ?_ (pairwise_isLE_snapshot values) distinct'
  intro left right isLE other
  cases rank : ranking left right with
  | lt => rfl
  | eq => exact absurd (programId_eq_of_ranking rank) other
  | gt => simp [rank] at isLE

/-- Sorting forgets the order of the listing. -/
theorem snapshot_perm {values values' : List ProgramTraceMetrics} (same : values.Perm values')
    (distinct : values.Pairwise fun left right => left.programId ≠ right.programId) :
    snapshot values = snapshot values' := by
  have distinct' := same.pairwise distinct fun other => other.symm
  refine List.Perm.eq_of_pairwise ?_ (pairwise_snapshot distinct) (pairwise_snapshot distinct')
    ((perm_snapshot values).trans (same.trans (perm_snapshot values').symm))
  intro left right _ _ below above
  exact absurd above (Std.OrientedCmp.not_lt_of_lt below)

/-! ### Snapshots -/

/-- Two threads' ways to record the same traces, and two listings of the table, give one snapshot: a
row for each traced program, with the sums and maxima of its traces, strictly by rank. -/
theorem snapshot_of_traces {traces traces' : List VmTrace} (same : traces.Perm traces')
    {values values' : List ProgramTraceMetrics} (listed : values.Perm (rows (collected traces)))
    (listed' : values'.Perm (rows (collected traces'))) :
    snapshot values = snapshot values' ∧
      (snapshot values).Pairwise (fun left right => ranking left right = .lt) ∧
      ∀ row, row ∈ snapshot values ↔
        (∃ trace ∈ traces, trace.countsFor row.programId = true) ∧
          row = tally row.programId traces := by
  have distinct := listed.symm.pairwise (pairwise_rows_collected traces) fun other => other.symm
  refine ⟨?_, pairwise_snapshot distinct, ?_⟩
  · rw [← collected_perm same] at listed'
    exact snapshot_perm (listed.trans listed'.symm) distinct
  · intro row
    rw [(perm_snapshot values).mem_iff, listed.mem_iff, mem_rows_collected]

end TraceMetricsCollector

namespace Sample

/-- An invocation that calls another program, which calls back, and a precompile without frames. -/
def callTraces : List VmTrace :=
  [⟨7, .ok 1, 1, 3⟩, ⟨4, .ok 2, 2, 2⟩, ⟨2, .ok 1, 3, 1⟩, ⟨0, .ok 3, 1, 0⟩]

theorem callTraces_snapshot :
    TraceMetricsCollector.snapshot (TraceMetricsCollector.collected callTraces).rows =
        TraceMetricsCollector.snapshot
          (TraceMetricsCollector.collected callTraces.reverse).rows.reverse ∧
      (⟨1, 2, 1, 9, 7, 3, 4, 3⟩ : ProgramTraceMetrics) ∈
        TraceMetricsCollector.snapshot (TraceMetricsCollector.collected callTraces).rows := by
  obtain ⟨same, -, holds⟩ := TraceMetricsCollector.snapshot_of_traces
    (List.reverse_perm callTraces).symm (List.Perm.refl _) (List.reverse_perm _)
  exact ⟨same, (holds _).2 ⟨⟨_, List.mem_cons_self, by decide⟩, by decide⟩⟩

end Sample

end Hpsvm
