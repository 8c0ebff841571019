import Hpsvm.Fixture.Snapshot
import Hpsvm.Foundation.RoundTrip

/-!
# The attribution of inner instructions

`extract_instruction_trace_data` files every frame of a trace that some other frame called under the
top-level frame at the end of its chain of callers. Its two loops are modelled here as they run, with
the accesses that could panic and the rounds that could go on for ever, and shown to compute
`extractInstructionTraceData` on every trace that is recorded caller first.
-/

namespace Hpsvm

open Foundation

/-! ### The loops -/

inductive TraceFault
  | outOfBounds
  | outOfFuel
deriving DecidableEq, Repr

/-- `index_of_caller_instruction`, which is `u16::MAX` for a top-level frame. -/
def InstructionFrame.callerIndex (frame : InstructionFrame) : Nat := frame.caller.getD 65535

/-- `while ancestor >= num_top_level { ancestor = frames[ancestor].index_of_caller_instruction }`. -/
def findAncestor (frames : List InstructionFrame) : Nat → Nat → Except TraceFault Nat
  | 0, ancestor => if ancestor < numTopLevel frames then .ok ancestor else .error .outOfFuel
  | fuel + 1, ancestor =>
    if ancestor < numTopLevel frames then .ok ancestor
    else match frames[ancestor]? with
      | none => .error .outOfBounds
      | some frame => findAncestor frames fuel frame.callerIndex

/-- `all_inner_instructions[ancestor].push(inner_instruction)`. -/
def pushInner (groups : List (List InnerInstruction)) (ancestor : Nat) (inner : InnerInstruction) :
    Except TraceFault (List (List InnerInstruction)) :=
  if ancestor < groups.length then .ok (groups.modify ancestor fun group => group ++ [inner])
  else .error .outOfBounds

/-- One round of the loop over the frames. -/
def traceRound (keys : List Address) (frames : List InstructionFrame) (fuel : Nat)
    (state : List (List InnerInstruction) × List ExecutedInstruction)
    (entry : InstructionFrame × Nat) :
    Except TraceFault (List (List InnerInstruction) × List ExecutedInstruction) := do
  let executed := state.2 ++ [executedInstruction keys entry.1]
  if entry.2 < numTopLevel frames then
    return (state.1, executed)
  else
    let ancestor ← findAncestor frames fuel entry.2
    let groups ← pushInner state.1 ancestor (innerInstruction entry.1)
    return (groups, executed)

/-- `extract_instruction_trace_data` as it runs, with so many rounds for each search. -/
def runTraceExtraction (keys : List Address) (frames : List InstructionFrame) (fuel : Nat) :
    Except TraceFault (List (List InnerInstruction) × List ExecutedInstruction) :=
  frames.zipIdx.foldlM (traceRound keys frames fuel) (List.replicate (numTopLevel frames) [], [])

/-! ### Callers -/

/-- The top-level frames come first, and every later frame is called by an earlier one. -/
def CallersFirst (frames : List InstructionFrame) : Prop :=
  ∀ entry ∈ frames.zipIdx, numTopLevel frames ≤ entry.2 →
    ∃ caller ∈ entry.1.caller, caller < entry.2

instance instDecidableCallersFirst (frames : List InstructionFrame) :
    Decidable (CallersFirst frames) :=
  inferInstanceAs (Decidable (∀ entry ∈ frames.zipIdx, numTopLevel frames ≤ entry.2 →
    ∃ caller ∈ entry.1.caller, caller < entry.2))

/-- The top-level frame that following callers leads to. -/
inductive RootOf (frames : List InstructionFrame) : Nat → Nat → Prop
  | top {index : Nat} (first : index < numTopLevel frames) : RootOf frames index index
  | call {index caller root : Nat} {frame : InstructionFrame}
      (later : numTopLevel frames ≤ index) (found : frames[index]? = some frame)
      (called : frame.caller = some caller) (above : RootOf frames caller root) :
      RootOf frames index root

namespace RootOf

variable {frames : List InstructionFrame} {index root : Nat}

theorem lt_numTopLevel (rooted : RootOf frames index root) : root < numTopLevel frames := by
  induction rooted with
  | top first => exact first
  | call _ _ _ _ ih => exact ih

theorem unique {other : Nat} (rooted : RootOf frames index root) (too : RootOf frames index other) :
    root = other := by
  induction rooted with
  | top first =>
    cases too with
    | top _ => rfl
    | call later _ _ _ => omega
  | call later found called _ ih =>
    cases too with
    | top first => omega
    | call _ found' called' above' =>
      rw [found] at found'
      cases found'
      rw [called] at called'
      cases called'
      exact ih above'

/-- The searches of the code and of the model end at the root. Each round moves to a smaller index,
so the index bounds the rounds. -/
theorem exists_of_lt (ordered : CallersFirst frames) (index : Nat) :
    ∀ rounds, index < frames.length → index ≤ rounds →
      ∃ root, RootOf frames index root ∧ findAncestor frames rounds index = .ok root ∧
        topLevelAncestor frames rounds index = some root := by
  induction index using Nat.strong_induction_on with
  | _ index ih =>
    intro rounds inside enough
    by_cases first : index < numTopLevel frames
    · refine ⟨index, .top first, ?_, ?_⟩
      · cases rounds <;> rw [findAncestor, if_pos first]
      · cases rounds <;> rw [topLevelAncestor, if_pos first]
    · have found : frames[index]? = some frames[index] := List.getElem?_eq_getElem inside
      obtain ⟨caller, named, below⟩ :=
        ordered (frames[index], index) (List.mem_zipIdx_iff_getElem?.2 found) (Nat.le_of_not_lt first)
      have called : frames[index].caller = some caller := Option.mem_def.1 named
      obtain ⟨rounds, rfl⟩ : ∃ left, rounds = left + 1 := ⟨rounds - 1, by omega⟩
      obtain ⟨root, rooted, searched, modelled⟩ := ih caller below rounds (by omega) (by omega)
      refine ⟨root, .call (Nat.le_of_not_lt first) found called rooted, ?_, ?_⟩
      · rw [findAncestor, if_neg first]
        simp only [found, InstructionFrame.callerIndex, called, Option.getD_some]
        exact searched
      · rw [topLevelAncestor, if_neg first]
        simp only [found, called, Option.bind_some]
        exact modelled

theorem topLevelAncestor_eq_iff (ordered : CallersFirst frames) (inside : index < frames.length) :
    topLevelAncestor frames frames.length index = some root ↔ RootOf frames index root := by
  obtain ⟨found, rooted, -, modelled⟩ :=
    exists_of_lt ordered index frames.length inside (Nat.le_of_lt inside)
  rw [modelled, Option.some.injEq]
  constructor
  · rintro rfl
    exact rooted
  · exact rooted.unique

end RootOf

/-! ### The accumulating lists -/

/-- The frames that are filed under a top-level frame. -/
def filedUnder (frames : List InstructionFrame) (top : Nat) (entry : InstructionFrame × Nat) : Bool :=
  decide (numTopLevel frames ≤ entry.2) &&
    topLevelAncestor frames frames.length entry.2 == some top

/-- The lists after some of the frames. -/
def groupsOf (frames : List InstructionFrame) (entries : List (InstructionFrame × Nat)) :
    List (List InnerInstruction) :=
  (List.range (numTopLevel frames)).map fun top =>
    (entries.filter (filedUnder frames top)).map fun entry => innerInstruction entry.1

theorem extractInstructionTraceData_eq (keys : List Address) (frames : List InstructionFrame) :
    extractInstructionTraceData keys frames =
      (groupsOf frames frames.zipIdx, frames.map (executedInstruction keys)) := rfl

variable {frames : List InstructionFrame} {entries : List (InstructionFrame × Nat)}

theorem groupsOf_concat_top {entry : InstructionFrame × Nat} (first : entry.2 < numTopLevel frames) :
    groupsOf frames (entries ++ [entry]) = groupsOf frames entries := by
  have skipped : ∀ top, filedUnder frames top entry = false := by
    intro top
    simp [filedUnder, first]
  simp [groupsOf, List.filter_append, skipped]

theorem groupsOf_concat_later {entry : InstructionFrame × Nat} {root : Nat}
    (later : numTopLevel frames ≤ entry.2)
    (rooted : topLevelAncestor frames frames.length entry.2 = some root) :
    groupsOf frames (entries ++ [entry]) =
      (groupsOf frames entries).modify root fun group => group ++ [innerInstruction entry.1] := by
  apply List.ext_getElem?
  intro top
  rw [List.getElem?_modify]
  by_cases bound : top < numTopLevel frames
  · have filed : filedUnder frames top entry = decide (root = top) := by
      simp only [filedUnder, later, decide_true, Bool.true_and, rooted]
      exact Bool.eq_iff_iff.2 (by simp)
    simp only [groupsOf, List.getElem?_map, List.getElem?_range bound, Option.map_some,
      List.filter_append, List.filter_cons, List.filter_nil, filed, List.map_append,
      decide_eq_true_eq]
    split <;> simp
  · simp [groupsOf, bound]

theorem length_groupsOf : (groupsOf frames entries).length = numTopLevel frames := by
  simp [groupsOf]

/-- A round files a frame under its root. -/
theorem traceRound_eq (keys : List Address) (ordered : CallersFirst frames) {fuel : Nat}
    (enough : frames.length ≤ fuel) {entry : InstructionFrame × Nat}
    (inside : entry.2 < frames.length) (executed : List ExecutedInstruction) :
    traceRound keys frames fuel (groupsOf frames entries, executed) entry =
      .ok (groupsOf frames (entries ++ [entry]),
        executed ++ [executedInstruction keys entry.1]) := by
  unfold traceRound
  by_cases first : entry.2 < numTopLevel frames
  · rw [if_pos first, groupsOf_concat_top first]
    rfl
  · obtain ⟨root, rooted, searched, -⟩ :=
      RootOf.exists_of_lt ordered entry.2 fuel inside (by omega)
    have modelled := (RootOf.topLevelAncestor_eq_iff ordered inside).2 rooted
    have pushed : pushInner (groupsOf frames entries) root (innerInstruction entry.1) =
        .ok (groupsOf frames (entries ++ [entry])) := by
      rw [pushInner, length_groupsOf, if_pos rooted.lt_numTopLevel,
        groupsOf_concat_later (Nat.le_of_not_lt first) modelled]
    rw [if_neg first]
    simp only [searched, pushed, bind, Except.bind]
    rfl

/-- The invariant of the loop, for the frames it has gone through. -/
theorem traceRounds_eq (keys : List Address) (ordered : CallersFirst frames) {fuel : Nat}
    (enough : frames.length ≤ fuel) (done : ∀ entry ∈ entries, entry.2 < frames.length) :
    entries.foldlM (traceRound keys frames fuel) (List.replicate (numTopLevel frames) [], []) =
      .ok (groupsOf frames entries, entries.map fun entry => executedInstruction keys entry.1) := by
  induction entries using List.reverseRecOn with
  | nil =>
    have empty : groupsOf frames [] = List.replicate (numTopLevel frames) [] := by
      simp [groupsOf]
    rw [empty]
    rfl
  | append_singleton entries last ih =>
    have before := ih fun entry member => done entry (List.mem_append_left _ member)
    have inside := done last (List.mem_append_right _ List.mem_cons_self)
    rw [List.foldlM_append, before]
    simp only [bind, Except.bind, List.foldlM_cons, List.foldlM_nil,
      traceRound_eq keys ordered enough inside, List.map_append, List.map_cons, List.map_nil]
    rfl

/-- With as many rounds as there are frames, the code computes what the model does. -/
theorem runTraceExtraction_eq (keys : List Address) (ordered : CallersFirst frames) {fuel : Nat}
    (enough : frames.length ≤ fuel) :
    runTraceExtraction keys frames fuel = .ok (extractInstructionTraceData keys frames) := by
  have inside : ∀ entry ∈ frames.zipIdx, entry.2 < frames.length := by
    intro entry member
    exact List.snd_lt_of_mem_zipIdx member
  have executed : (frames.zipIdx.map fun entry => executedInstruction keys entry.1) =
      frames.map (executedInstruction keys) := by
    change frames.zipIdx.map (executedInstruction keys ∘ Prod.fst) = _
    rw [← List.map_map, List.zipIdx_map_fst]
  rw [runTraceExtraction, traceRounds_eq keys ordered enough inside, executed,
    extractInstructionTraceData_eq]

/-! ### Flattened lists -/

/-- An inner instruction as a snapshot has it, with the top-level instruction it is filed under. -/
def InnerInstruction.under (inner : InnerInstruction) (outer : Nat) : InnerInstructionSnapshot :=
  ⟨inner.stackHeight, inner.instruction.programIdIndex, inner.instruction.accounts,
    inner.instruction.data, outer⟩

/-- Of lists that are numbered from `start` on, one has the number. -/
theorem flatMap_zipIdx_eq {α β : Type} (keep : List α → List β) (nothing : keep [] = [])
    (groups : List (List α)) (start outer : Nat) :
    ((groups.zipIdx start).flatMap fun entry => if entry.2 = start + outer then keep entry.1 else []) =
      keep (groups.getD outer []) := by
  induction groups generalizing start outer with
  | nil => simp [nothing]
  | cons group rest ih =>
    rw [List.zipIdx_cons, List.flatMap_cons]
    cases outer with
    | zero =>
      have others : ((rest.zipIdx (start + 1)).flatMap fun entry =>
          if entry.2 = start + 0 then keep entry.1 else []) = [] := by
        rw [List.flatMap_eq_nil_iff]
        intro entry member
        have after := List.le_snd_of_mem_zipIdx member
        rw [if_neg (by omega)]
      rw [others, List.append_nil, if_pos (Nat.add_zero start).symm]
      rfl
    | succ outer =>
      have next := ih (start + 1) outer
      rw [Nat.add_right_comm, Nat.add_assoc] at next
      rw [next, if_neg (by omega), List.nil_append]
      rfl

/-- What is filed under a top-level instruction before flattening is so afterwards. -/
theorem filter_flattenInnerInstructions (groups : List (List InnerInstruction)) (outer : Nat) :
    (flattenInnerInstructions groups).filter (fun inner => inner.outerInstructionIndex == outer) =
      (groups.getD outer []).map fun inner => inner.under outer := by
  have numbered := flatMap_zipIdx_eq
    (fun group : List InnerInstruction => group.map fun inner => inner.under outer) rfl groups 0 outer
  rw [Nat.zero_add] at numbered
  rw [← numbered, flattenInnerInstructions, List.filter_flatMap]
  refine List.flatMap_congr ?_
  rintro ⟨group, index⟩ _
  simp only [List.filter_map, Function.comp_def]
  by_cases same : index = outer
  · subst same
    simp [InnerInstruction.under]
  · simp [same]

/-! ### Attribution -/

/-- Every later frame of a trace is filed once, in order, under the top-level frame at the end of its
chain of callers, and flattening keeps it there. -/
theorem trace_attributes_inner_calls (keys : List Address) (frames : List InstructionFrame)
    (ordered : CallersFirst frames) (fuel : Nat) (enough : frames.length ≤ fuel) :
    ∃ members : Nat → List (InstructionFrame × Nat),
      runTraceExtraction keys frames fuel = .ok
        ((List.range (numTopLevel frames)).map fun top =>
          (members top).map fun entry => innerInstruction entry.1,
        frames.map (executedInstruction keys)) ∧
      (∀ top, (members top).Sublist frames.zipIdx ∧ ∀ frame index, (frame, index) ∈ members top ↔
        numTopLevel frames ≤ index ∧ frames[index]? = some frame ∧ RootOf frames index top) ∧
      (∀ index < frames.length, ∃! top, RootOf frames index top) ∧
      ∀ groups trace, runTraceExtraction keys frames fuel = .ok (groups, trace) →
        ∀ top, (flattenInnerInstructions groups).filter
            (fun inner => inner.outerInstructionIndex == top) =
          (members top).map fun entry => (innerInstruction entry.1).under top := by
  have ran := runTraceExtraction_eq keys ordered enough
  rw [extractInstructionTraceData_eq] at ran
  refine ⟨fun top => frames.zipIdx.filter (filedUnder frames top), ran, ?_, ?_, ?_⟩
  · intro top
    refine ⟨List.filter_sublist, fun frame index => ?_⟩
    rw [List.mem_filter, List.mem_zipIdx_iff_getElem?]
    constructor
    · rintro ⟨found, filed⟩
      simp only [filedUnder, Bool.and_eq_true, decide_eq_true_eq, beq_iff_eq] at filed
      obtain ⟨inside, _⟩ := List.getElem?_eq_some_iff.1 found
      exact ⟨filed.1, found, (RootOf.topLevelAncestor_eq_iff ordered inside).1 filed.2⟩
    · rintro ⟨later, found, rooted⟩
      obtain ⟨inside, _⟩ := List.getElem?_eq_some_iff.1 found
      refine ⟨found, ?_⟩
      simp only [filedUnder, Bool.and_eq_true, decide_eq_true_eq, beq_iff_eq]
      exact ⟨later, (RootOf.topLevelAncestor_eq_iff ordered inside).2 rooted⟩
  · intro index inside
    obtain ⟨root, rooted, -, -⟩ :=
      RootOf.exists_of_lt ordered index index inside (Nat.le_refl index)
    exact ⟨root, rooted, fun other too => (rooted.unique too).symm⟩
  · intro groups trace extracted top
    cases ran.symm.trans extracted
    rw [filter_flattenInnerInstructions]
    by_cases bound : top < numTopLevel frames
    · simp [groupsOf, bound]
    · -- No frame has such a root.
      have none : frames.zipIdx.filter (filedUnder frames top) = [] := by
        rw [List.filter_eq_nil_iff]
        rintro entry member filed
        simp only [filedUnder, Bool.and_eq_true, decide_eq_true_eq, beq_iff_eq] at filed
        have inside := List.snd_lt_of_mem_zipIdx member
        exact bound ((RootOf.topLevelAncestor_eq_iff ordered inside).1 filed.2).lt_numTopLevel
      simp [groupsOf, bound, none]

namespace Sample

def tracedFrame (caller : Option Nat) (nestingLevel : Nat) (data : List UInt8) : InstructionFrame :=
  ⟨caller, nestingLevel, 0, [], data⟩

/-- Two instructions: the second one calls a program that calls another, and then the first one
calls a program. -/
def nestedTrace : List InstructionFrame :=
  [tracedFrame none 0 [0], tracedFrame none 0 [1], tracedFrame (some 1) 1 [2],
    tracedFrame (some 2) 2 [3], tracedFrame (some 0) 1 [4]]

theorem nested_trace_attributed :
    CallersFirst nestedTrace ∧ ∃ members : Nat → List (InstructionFrame × Nat),
      runTraceExtraction [0x99] nestedTrace 5 = .ok
        ((List.range 2).map fun top => (members top).map fun entry => innerInstruction entry.1,
        nestedTrace.map (executedInstruction [0x99])) ∧
      (tracedFrame (some 2) 2 [3], 3) ∈ members 1 := by
  have ordered : CallersFirst nestedTrace := by decide
  obtain ⟨members, ran, filed, -, -⟩ :=
    trace_attributes_inner_calls [0x99] nestedTrace ordered 5 (by decide)
  refine ⟨ordered, members, ran, ((filed 1).2 _ _).2 ⟨by decide, rfl, ?_⟩⟩
  exact .call (by decide) rfl rfl (.call (by decide) rfl rfl (.top (by decide)))

end Sample

end Hpsvm
