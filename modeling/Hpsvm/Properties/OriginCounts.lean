import Hpsvm.Properties.InspectedRuns

/-!
# Counting by origin

What filters and counters make of a run. A filtered inspector follows the executions whose origin the
filter allows, and no other. The counters of an `OriginCountingInspector` are sums over these
executions, each for its own origin: the stages of a batch count for neither, although some of them
run on the VM itself.

The counters attribute an instruction to the origin that was asked about last. That is its own
origin because a VM consults once for each execution, before the first hook.
-/

namespace Hpsvm

open Foundation.Unwinding

/-! ### Filters -/

namespace InspectorImpl

variable {σ : Type} (inner : InspectorImpl σ) (filter : OriginFilter)

theorem endures_originFiltered (vm : Svm) (events : List HookEvent) (state : σ) :
    (inner.originFiltered filter).endures vm events state = inner.endures vm events state := by
  induction events generalizing state with
  | nil => rfl
  | cons event rest ih => exact congrArg (!inner.panics vm event state && ·) (ih _)

theorem hear_originFiltered (state : σ) (observation : Observation) :
    (inner.originFiltered filter).hear state observation =
      if filter.allows observation.origin then inner.hear state observation else some state := by
  have hooked : (inner.originFiltered filter).hooked = inner.hooked := rfl
  simp only [hear, endures_originFiltered, hooked]
  by_cases allowed : filter.allows observation.origin = true
  · simp only [originFiltered, allowed, if_true]
  · simp only [originFiltered, allowed, Bool.false_eq_true, if_false]

/-- A filtered inspector follows the executions with an allowed origin. -/
theorem follow_originFiltered (trace : List Observation) (state : σ) :
    (inner.originFiltered filter).follow trace state =
      inner.follow (trace.filter fun observation => filter.allows observation.origin) state := by
  unfold follow
  induction trace generalizing state with
  | nil => rfl
  | cons observation rest ih =>
    rw [List.foldlM_cons, hear_originFiltered]
    by_cases allowed : filter.allows observation.origin = true
    · rw [if_pos allowed, List.filter_cons_of_pos (by simpa using allowed), List.foldlM_cons]
      simp only [ih]
    · rw [if_neg allowed, List.filter_cons_of_neg (by simpa using allowed)]
      exact ih state

variable {inner}

theorem endures_of_calm (calm : ∀ vm event state, inner.panics vm event state = false) (vm : Svm)
    (events : List HookEvent) (state : σ) : inner.endures vm events state = true := by
  induction events generalizing state with
  | nil => rfl
  | cons event rest ih =>
    unfold endures
    rw [calm, ih]
    rfl

end InspectorImpl

/-! ### Counters -/

def HookEvent.isInstructionStart : HookEvent → Bool
  | instructionStart _ _ => true
  | _ => false

/-- The top-level instructions that executions with the origin begin. -/
def startedBy (origin : TransactionOrigin) (trace : List Observation) : Nat :=
  ((trace.filter fun observation => observation.origin = origin).map fun observation =>
    observation.events.countP HookEvent.isInstructionStart).sum

theorem startedBy_cons (origin : TransactionOrigin) (observation : Observation)
    (rest : List Observation) :
    startedBy origin (observation :: rest) =
      (if observation.origin = origin then
        observation.events.countP HookEvent.isInstructionStart else 0) + startedBy origin rest := by
  unfold startedBy
  by_cases same : observation.origin = origin
  · simp [same]
  · simp [same]

namespace OriginCounters

/-- The counters after some executions, from those of the start. -/
def after (trace : List Observation) (counters : OriginCounters) : OriginCounters where
  userInstructions := (counters.userInstructions + startedBy .user trace) % usizeCount
  internalAirdrops := (counters.internalAirdrops + startedBy .internalAirdrop trace) % usizeCount
  lastOrigin := (trace.getLast?.map Observation.origin).or counters.lastOrigin

/-- The counters are `usize` values. -/
def InRange (counters : OriginCounters) : Prop :=
  counters.userInstructions < usizeCount ∧ counters.internalAirdrops < usizeCount

theorem InRange.instructionStart {counters : OriginCounters} (inRange : counters.InRange) :
    counters.instructionStart.InRange := by
  have bounded : ∀ counter, countOne counter < usizeCount := fun _ => Nat.mod_lt _ (by decide)
  unfold OriginCounters.instructionStart
  split
  · exact ⟨bounded _, inRange.2⟩
  · exact ⟨inRange.1, bounded _⟩
  · exact inRange

theorem hook_eq (vm : Svm) (event : HookEvent) (counters : OriginCounters) :
    originCountingInspector.hook vm event counters =
      if event.isInstructionStart then counters.instructionStart else counters := by
  cases event <;> rfl

/-- The hooks of an execution count for the origin that is kept. -/
theorem hooked_eq (vm : Svm) (events : List HookEvent) {counters : OriginCounters}
    (inRange : counters.InRange) :
    originCountingInspector.hooked vm events counters =
      { counters with
        userInstructions := (counters.userInstructions +
          if counters.lastOrigin = some .user then
            events.countP HookEvent.isInstructionStart else 0) % usizeCount
        internalAirdrops := (counters.internalAirdrops +
          if counters.lastOrigin = some .internalAirdrop then
            events.countP HookEvent.isInstructionStart else 0) % usizeCount } := by
  induction events generalizing counters with
  | nil =>
    simp only [InspectorImpl.hooked, List.foldl_nil, List.countP_nil, ite_self, Nat.add_zero,
      Nat.mod_eq_of_lt inRange.1, Nat.mod_eq_of_lt inRange.2]
  | cons event rest ih =>
    have goes : originCountingInspector.hooked vm (event :: rest) counters =
        originCountingInspector.hooked vm rest (originCountingInspector.hook vm event counters) := rfl
    rw [goes, hook_eq]
    cases starts : event.isInstructionStart with
    | false =>
      rw [if_neg Bool.false_ne_true, ih inRange]
      simp only [List.countP_cons, starts, Bool.false_eq_true, if_false, Nat.add_zero]
    | true =>
      rw [if_pos rfl, ih inRange.instructionStart]
      unfold OriginCounters.instructionStart
      split
      next kept => simp [kept, countOne, starts, Nat.add_assoc, Nat.add_comm 1]
      next kept => simp [kept, countOne, starts, Nat.add_assoc, Nat.add_comm 1]
      next user airdrop =>
        rw [if_neg user, if_neg airdrop, if_neg user, if_neg airdrop]

theorem hear_eq (observation : Observation) {counters : OriginCounters}
    (inRange : counters.InRange) :
    originCountingInspector.hear counters observation = some (counters.after [observation]) := by
  have single : ∀ origin, startedBy origin [observation] =
      if observation.origin = origin then
        observation.events.countP HookEvent.isInstructionStart else 0 := by
    intro origin
    rw [startedBy_cons]
    rfl
  have kept : InRange { counters with lastOrigin := some observation.origin } := inRange
  have calm : ∀ vm events state, originCountingInspector.endures vm events state = true :=
    InspectorImpl.endures_of_calm fun _ _ _ => rfl
  have asked : originCountingInspector.acceptsOrigin observation.origin counters =
      OriginCounters.acceptsOrigin observation.origin counters := rfl
  simp only [InspectorImpl.hear, asked, OriginCounters.acceptsOrigin, calm, if_true,
    hooked_eq _ _ kept, after, single]
  cases origin : observation.origin with
  | user => simp [Nat.mod_eq_of_lt inRange.2, origin]
  | internalAirdrop => simp [Nat.mod_eq_of_lt inRange.1, origin]
  | batch stageIndex transactionIndex =>
    simp [Nat.mod_eq_of_lt inRange.1, Nat.mod_eq_of_lt inRange.2, origin]

theorem follow_eq (trace : List Observation) {counters : OriginCounters}
    (inRange : counters.InRange) :
    originCountingInspector.follow trace counters = some (counters.after trace) := by
  induction trace generalizing counters with
  | nil =>
    simp [InspectorImpl.follow, after, startedBy, Nat.mod_eq_of_lt inRange.1,
      Nat.mod_eq_of_lt inRange.2]
  | cons observation rest ih =>
    have bounded : (counters.after [observation]).InRange :=
      ⟨Nat.mod_lt _ (by decide), Nat.mod_lt _ (by decide)⟩
    have goes := ih bounded
    unfold InspectorImpl.follow at goes ⊢
    rw [List.foldlM_cons, hear_eq observation inRange]
    refine goes.trans (congrArg some ?_)
    have none_started : ∀ origin, startedBy origin [] = 0 := fun _ => rfl
    have last : (rest.getLast?.map Observation.origin).or
        (([observation].getLast?.map Observation.origin).or counters.lastOrigin) =
          ((observation :: rest).getLast?.map Observation.origin).or counters.lastOrigin := by
      cases rest with
      | nil => rfl
      | cons next later =>
        rw [List.getLast?_cons_cons, List.getLast?_eq_some_getLast (List.cons_ne_nil next later)]
        rfl
    simp only [after, startedBy_cons, none_started, Nat.add_zero, Nat.mod_add_mod, Nat.add_assoc, last]

end OriginCounters

namespace ObservedOperation

variable {agave : BatchAgave}

/-- A run under a filtered `OriginCountingInspector` returns if the plain run does. Each counter is
then the number of instructions begun by the executions of its origin, if the filter allows that. -/
theorem origin_counters_are_sums (filter : OriginFilter) (ops : List ObservedOperation) (vm : Svm)
    (answers : List ObservedAnswer) (after : ObservedVm OriginCounters) :
    (performAll agave (originCountingInspector.originFiltered filter) ops).run
        ⟨vm, .clean, some {}, .user⟩ = .ok answers after ↔
      ∃ vm', plainAll agave.toAgave ops vm = some (answers, vm') ∧
        after = ⟨vm', .clean, some (OriginCounters.after
          ((observationsAll agave ops vm).filter fun observation =>
            filter.allows observation.origin) {}), .user⟩ := by
  have inRange : OriginCounters.InRange {} := ⟨by decide, by decide⟩
  apply performAll_of_follow
  rw [InspectorImpl.follow_originFiltered]
  exact OriginCounters.follow_eq _ inRange

end ObservedOperation

end Hpsvm
