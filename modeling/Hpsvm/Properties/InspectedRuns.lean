import Hpsvm.Properties.Observations

/-!
# Runs under an inspector

An inspector only observes. A run of a VM with an inspector returns if the run of the VM without one
does and no hook panics on the way; it then gives the same answers and leaves the same VM. What the
inspector becomes is told by the executions of that plain run alone: those on the VM itself, one
after the other, with their origins. The transactions of a parallel stage are not among them, nor
are those that run on a clone.

## Strategy

`Matches` relates a program on an observed VM to a function on the plain VM and to the executions it
offers to the inspector. It is closed under the ways programs are put together, so an operation
matches by going through its definition.
-/

namespace Hpsvm

open Foundation.Unwinding

/-- An execution, as an inspector may hear it. -/
structure Observation where
  origin : TransactionOrigin
  vm : Svm
  events : List HookEvent

namespace InspectorImpl

variable {σ : Type} (inspector : InspectorImpl σ)

/-- None of the hooks panics. -/
def endures (vm : Svm) : List HookEvent → σ → Bool
  | [], _ => true
  | event :: rest, state =>
    !inspector.panics vm event state && endures vm rest (inspector.hook vm event state)

/-- What becomes of the inspector by an execution; `none` if one of its hooks panics. -/
def hear (state : σ) (observation : Observation) : Option σ :=
  let (accepted, state) := inspector.acceptsOrigin observation.origin state
  if accepted then
    if inspector.endures observation.vm observation.events state then
      some (inspector.hooked observation.vm observation.events state)
    else none
  else some state

def follow (trace : List Observation) (state : σ) : Option σ := trace.foldlM inspector.hear state

theorem follow_append (trace later : List Observation) (state : σ) :
    inspector.follow (trace ++ later) state =
      (inspector.follow trace state).bind (inspector.follow later) := by
  simp only [follow, List.foldlM_append]
  rfl

/-! ### One execution -/

theorem hooked_concat (vm : Svm) (events : List HookEvent) (event : HookEvent) (state : σ) :
    inspector.hooked vm (events ++ [event]) state =
      inspector.hook vm event (inspector.hooked vm events state) :=
  List.foldl_concat _ state event events

section Listener

variable (vm : Svm) (origin : TransactionOrigin) (state : σ)

/-- The listener panics where the inspector does, in the state that it has then. -/
theorem hearAll_listener (events heard : List HookEvent) :
    ∃ fired,
      hearAll (some ((inspector.listener vm origin state).consult.after heard)) events =
        (some ((inspector.listener vm origin state).consult.after fired),
          if inspector.endures vm events
            (inspector.hooked vm heard (inspector.acceptsOrigin origin state).2) then none
          else some ()) ∧
      (inspector.endures vm events
          (inspector.hooked vm heard (inspector.acceptsOrigin origin state).2) = true →
        fired = heard ++ events) := by
  induction events generalizing heard with
  | nil => exact ⟨heard, rfl, fun _ => (List.append_nil heard).symm⟩
  | cons event rest ih =>
    have asked : ((inspector.listener vm origin state).consult.after heard).panics
        ((inspector.listener vm origin state).consult.after heard).heard event =
          inspector.panics vm event
            (inspector.hooked vm heard (inspector.acceptsOrigin origin state).2) := rfl
    simp only [hearAll, List.map_cons, interrupt, asked, endures]
    by_cases panicked : inspector.panics vm event
        (inspector.hooked vm heard (inspector.acceptsOrigin origin state).2) = true
    · refine ⟨heard ++ [event], ?_, ?_⟩
      · simp [panicked, Listener.hear]
      · simp [panicked]
    · obtain ⟨fired, hears, all⟩ := ih (heard ++ [event])
      rw [hooked_concat] at hears all
      refine ⟨fired, ?_, ?_⟩
      · simpa [panicked, Listener.hear, hearAll] using hears
      · intro endured
        rw [all (by simpa [panicked] using endured), List.append_assoc]
        rfl

end Listener

section Observe

variable {α : Type} {unwound : Svm → Prop} {vm : Svm} {program : ReadonlyProgram α}
  {events : List HookEvent} {ending : Bool → Option (α × Svm)}

/-- The end of an execution with an origin, from a VM with the inspector in the given state. It ends
like the plain one if the inspector endures it. Otherwise it unwinds, with the inspector in its place
and the origin as it was. -/
def Observed (unwound : Svm → Prop) (origin : TransactionOrigin) (heard : Option σ)
    (ending : Option (α × Svm)) (result : EStateM.Result Unwind (ObservedVm σ) α) : Prop :=
  match heard, ending with
  | some state, some (value, vm) => result = .ok value ⟨vm, .clean, some state, origin⟩
  | _, _ => ∃ after, result = .error .panic after ∧ unwound after.vm ∧
      after.inspectionOrigin = origin ∧ after.inspector.isSome = true

/-- What the listener hears of an execution tells what becomes of the inspector. -/
theorem exists_hearAll_listener (vm : Svm) (origin : TransactionOrigin) (state : σ)
    (events : List HookEvent) :
    ∃ fired stop,
      hearAll (some (inspector.listener vm origin state).consult)
          (if (inspector.acceptsOrigin origin state).1 then events else []) =
        (some ((inspector.listener vm origin state).consult.after fired), stop) ∧
      inspector.hear state ⟨origin, vm, events⟩ =
        if stop.isSome then none
        else some (inspector.hooked vm fired (inspector.acceptsOrigin origin state).2) := by
  cases accepted : (inspector.acceptsOrigin origin state).1 with
  | false =>
    refine ⟨[], none, ?_, ?_⟩
    · rw [Listener.after_nil]
      exact hearAll_nil _
    · simp [hear, accepted, hooked]
  | true =>
    obtain ⟨fired, hears, all⟩ := inspector.hearAll_listener vm origin state events []
    rw [Listener.after_nil] at hears
    refine ⟨fired, _, hears, ?_⟩
    by_cases endured : inspector.endures vm events
        (inspector.hooked vm [] (inspector.acceptsOrigin origin state).2) = true
    · rw [if_pos endured, all endured]
      simp only [hear, accepted, if_true]
      exact if_pos endured
    · rw [if_neg endured]
      simp only [hear, accepted, if_true]
      exact if_neg endured

/-- An execution that consults the inspector runs with the answer of that. -/
theorem run_observe_listening {body : Bool → ReadonlyProgram α} (origin : TransactionOrigin)
    (state : σ) {result : EStateM.Result Unwind SharedVm α} :
    (body (inspector.acceptsOrigin origin state).1).run
        ⟨vm, .clean, some (inspector.listener vm origin state).consult⟩ = result →
      (inspector.observe (listening >>= body)).run ⟨vm, .clean, some state, origin⟩ =
        match result with
        | .ok value shared => .ok value
            ⟨shared.rest, shared.scratch, shared.slot.map (inspector.resumed vm origin state), origin⟩
        | .error payload shared => .error payload
            ⟨shared.rest, shared.scratch, shared.slot.map (inspector.resumed vm origin state),
              origin⟩ := by
  rintro rfl
  rfl

theorem run_observe (consults : Consults unwound vm program events ending)
    (origin : TransactionOrigin) (state : σ) :
    Observed unwound origin (inspector.hear state ⟨origin, vm, events⟩)
      (ending (inspector.acceptsOrigin origin state).1)
      ((inspector.observe program).run ⟨vm, .clean, some state, origin⟩) := by
  obtain ⟨body, rfl, reports⟩ := consults
  have concluded := reports (inspector.acceptsOrigin origin state).1
    (some (inspector.listener vm origin state).consult)
  obtain ⟨fired, stop, hears, heard⟩ := inspector.exists_hearAll_listener vm origin state events
  rw [hears] at concluded
  rw [heard]
  generalize ending (inspector.acceptsOrigin origin state).1 = final at concluded ⊢
  rcases stop with _ | stop
  · rcases final with _ | ⟨value, after⟩
    · obtain ⟨stopped, unwinds, slot, here⟩ := concluded
      refine ⟨_, inspector.run_observe_listening origin state unwinds, here, rfl, ?_⟩
      rw [slot]
      rfl
    · exact inspector.run_observe_listening origin state concluded
  · obtain ⟨stopped, unwinds, slot, here⟩ := concluded
    refine ⟨_, inspector.run_observe_listening origin state unwinds, here, rfl, ?_⟩
    rw [slot]
    rfl

end Observe

/-! ### Programs -/

/-- From a clean scratch the program returns what the plain function does, if the inspector endures
the executions of the trace. It leaves the VM of the plain function, a clean scratch, the inspector
that followed the trace, and the origin. -/
def Matches {α : Type} (origin : TransactionOrigin) (program : ObservedProgram σ α)
    (plain : Svm → Option (α × Svm)) (trace : Svm → List Observation) : Prop :=
  ∀ vm state value after, program.run ⟨vm, .clean, some state, origin⟩ = .ok value after ↔
    ∃ vm' state', plain vm = some (value, vm') ∧ inspector.follow (trace vm) state = some state' ∧
      after = ⟨vm', .clean, some state', origin⟩

section Rules

variable {inspector} {α β : Type} {origin : TransactionOrigin} {program : ObservedProgram σ α}
  {plain : Svm → Option (α × Svm)} {trace : Svm → List Observation}

theorem matches_observe {execution : ReadonlyProgram α} {events : Svm → List HookEvent}
    (consults : ∀ vm, Consults (fun _ => True) vm execution (events vm) fun _ => plain vm) :
    inspector.Matches origin (inspector.observe execution) plain
      fun vm => [⟨origin, vm, events vm⟩] := by
  intro vm state value after
  have ended := inspector.run_observe (consults vm) origin state
  have follows : inspector.follow [⟨origin, vm, events vm⟩] state =
      inspector.hear state ⟨origin, vm, events vm⟩ := by
    simp [follow]
  rw [follows]
  generalize (inspector.observe execution).run ⟨vm, .clean, some state, origin⟩ = result at ended ⊢
  generalize inspector.hear state ⟨origin, vm, events vm⟩ = heard, plain vm = final at ended ⊢
  rcases heard with _ | state'
  · obtain ⟨stopped, rfl, -⟩ := ended
    simp
  · rcases final with _ | ⟨answer, vm'⟩
    · obtain ⟨stopped, rfl, -⟩ := ended
      simp
    · obtain rfl : result = _ := ended
      simp only [EStateM.Result.ok.injEq, Option.some.injEq, Prod.mk.injEq]
      constructor
      · rintro ⟨rfl, rfl⟩
        exact ⟨vm', state', ⟨rfl, rfl⟩, rfl, rfl⟩
      · rintro ⟨_, _, ⟨rfl, rfl⟩, rfl, rfl⟩
        exact ⟨rfl, rfl⟩

theorem run_unobserved (call : Svm → Option (α × Svm)) (observed : ObservedVm σ) :
    (unobserved call).run observed =
      match call observed.vm with
      | none => .error .panic observed
      | some (value, vm) => .ok value { observed with vm := vm } := rfl

theorem matches_unobserved (call : Svm → Option (α × Svm)) :
    inspector.Matches origin (unobserved call) call fun _ => [] := by
  intro vm state value after
  rw [run_unobserved]
  rcases call vm with _ | ⟨answer, vm'⟩
  · simp
  · simp only [EStateM.Result.ok.injEq, Option.some.injEq, Prod.mk.injEq, follow, List.foldlM_nil]
    constructor
    · rintro ⟨rfl, rfl⟩
      exact ⟨vm', state, ⟨rfl, rfl⟩, rfl, rfl⟩
    · rintro ⟨_, _, ⟨rfl, rfl⟩, ⟨⟩, rfl⟩
      exact ⟨rfl, rfl⟩

theorem matches_pure (value : α) :
    inspector.Matches origin (pure value) (fun vm => some (value, vm)) fun _ => [] :=
  matches_unobserved fun vm => some (value, vm)

/-- A program that panics by itself matches a plain one that does. -/
theorem matches_throw : inspector.Matches origin (throw .panic : ObservedProgram σ α)
    (fun _ => none) fun _ => [] :=
  matches_unobserved fun _ => none

theorem Matches.bind {next : α → ObservedProgram σ β} {later : α → Svm → Option (β × Svm)}
    {further : α → Svm → List Observation} (first : inspector.Matches origin program plain trace)
    (second : ∀ value, inspector.Matches origin (next value) (later value) (further value)) :
    inspector.Matches origin (program >>= next)
      (fun vm => (plain vm).bind fun (value, vm) => later value vm)
      fun vm => trace vm ++ (plain vm).elim [] fun (value, vm) => further value vm := by
  intro vm state value after
  rw [EStateM.run_bind]
  constructor
  · intro returned
    cases ran : program.run ⟨vm, .clean, some state, origin⟩ with
    | error payload stopped =>
      rw [ran] at returned
      cases returned
    | ok middle observed =>
      obtain ⟨vm₁, state₁, does, follows, rfl⟩ := (first vm state middle observed).1 ran
      rw [ran] at returned
      obtain ⟨vm₂, state₂, does', follows', rfl⟩ := (second middle vm₁ state₁ value after).1 returned
      refine ⟨vm₂, state₂, ?_, ?_, rfl⟩
      · simp only [does, Option.bind_some, does']
      · simp only [follow_append, follows, Option.bind_some, does, Option.elim_some, follows']
  · rintro ⟨vm₂, state₂, does, follows, rfl⟩
    obtain ⟨⟨middle, vm₁⟩, does₁, does₂⟩ := Option.bind_eq_some_iff.1 does
    rw [follow_append, does₁] at follows
    obtain ⟨state₁, follows₁, follows₂⟩ := Option.bind_eq_some_iff.1 follows
    rw [(first vm state middle _).2 ⟨vm₁, state₁, does₁, follows₁, rfl⟩]
    exact (second middle vm₁ state₁ value _).2 ⟨vm₂, state₂, does₂, follows₂, rfl⟩

theorem Matches.congr {plain' : Svm → Option (α × Svm)} {trace' : Svm → List Observation}
    (matched : inspector.Matches origin program plain trace)
    (same : ∀ vm, plain vm = plain' vm) (traced : ∀ vm, trace vm = trace' vm) :
    inspector.Matches origin program plain' trace' := by
  rwa [← funext same, ← funext traced]

theorem Matches.map (answer : α → β) (matched : inspector.Matches origin program plain trace) :
    inspector.Matches origin (answer <$> program)
      (fun vm => (plain vm).map fun (value, vm) => (answer value, vm)) trace := by
  rw [map_eq_pure_bind]
  apply (matched.bind fun value => matches_pure (answer value)).congr
  · intro vm
    cases plain vm <;> rfl
  · intro vm
    cases plain vm <;> exact List.append_nil _

theorem run_restoring (change : ObservedVm σ → ObservedVm σ)
    (back : ObservedVm σ → ObservedVm σ → ObservedVm σ) (program : ObservedProgram σ α)
    (observed : ObservedVm σ) :
    (Hpsvm.restoring change back program).run observed =
      match program.run (change observed) with
      | .ok value after => .ok value (back observed after)
      | .error payload after => .error payload (back observed after) := rfl

/-- What is changed for a while is changed back in the VM that is left. -/
theorem Matches.restoring {other : TransactionOrigin} {change : ObservedVm σ → ObservedVm σ}
    {back : ObservedVm σ → ObservedVm σ → ObservedVm σ} (enter : Svm → Svm) (restore : Svm → Svm → Svm)
    (matched : inspector.Matches other program plain trace)
    (changes : ∀ vm state,
      change ⟨vm, .clean, some state, origin⟩ = ⟨enter vm, .clean, some state, other⟩)
    (backs : ∀ vm state vm' state',
      back ⟨vm, .clean, some state, origin⟩ ⟨vm', .clean, some state', other⟩ =
        ⟨restore vm vm', .clean, some state', origin⟩) :
    inspector.Matches origin (Hpsvm.restoring change back program)
      (fun vm => (plain (enter vm)).map fun (value, vm') => (value, restore vm vm'))
      fun vm => trace (enter vm) := by
  intro vm state value after
  rw [run_restoring, changes]
  constructor
  · intro returned
    split at returned
    next inner =>
      obtain ⟨vm', state', does, follows, rfl⟩ := (matched _ _ _ _).1 inner
      cases returned
      refine ⟨restore vm vm', state', ?_, follows, backs vm state vm' state'⟩
      simp only [does, Option.map_some]
    · cases returned
  · rintro ⟨vm', state', does, follows, rfl⟩
    obtain ⟨⟨answer, inner⟩, does', same⟩ := Option.map_eq_some_iff.1 does
    cases same
    rw [(matched _ _ _ _).2 ⟨inner, state', does', follows, rfl⟩]
    simp only [backs]

end Rules

end InspectorImpl

/-! ### Operations -/

namespace Inspected

variable (agave : BatchAgave)

/-- The execution of a transaction that is sent. -/
def sent (origin : TransactionOrigin) (tx : VersionedTransaction) (vm : Svm) : Observation :=
  ⟨origin, vm, sendEvents agave vm tx⟩

/-- Only a stage of one transaction runs on the VM itself. -/
def stageObservations (stageIndex : Nat) (stage : TransactionBatchStage)
    (transactions : List VersionedTransaction) (vm : Svm) : List Observation :=
  match stage.transactionIndexes with
  | [index] =>
    transactions[index]?.toList.map fun tx => sent agave (.batch stageIndex index) tx vm
  | _ => []

def stagesObservations (schedule : Nat → Schedule) (transactions : List VersionedTransaction) :
    Nat → List TransactionBatchStage → List (Option TransactionResult) → Svm → List Observation
  | _, [], _, _ => []
  | stageIndex, stage :: rest, results, vm =>
    stageObservations agave stageIndex stage transactions vm ++
      match vm.runStage agave.toAgave (schedule stageIndex) stage transactions results with
      | some (.ok results, vm) =>
        stagesObservations schedule transactions (stageIndex + 1) rest results vm
      | _ => []

end Inspected

namespace ObservedOperation

open Inspected

variable (agave : BatchAgave)

/-- The executions of an operation on the VM itself, with their origins. -/
def observations : ObservedOperation → Svm → List Observation
  | sendTransaction tx, vm => [sent agave .user tx vm]
  | simulateTransaction tx, vm => [⟨.user, vm, executionEvents agave vm tx⟩]
  | tryTransact tx, vm => [⟨.user, vm, executionEvents agave vm tx⟩]
  | transact resolution tx, vm =>
    [⟨.user, vm, executionEvents agave vm tx ++ resolution.events (changesOn agave vm tx)⟩]
  | processInstructionChainWithAccounts instructions preAccounts, vm =>
    match vm.setAccounts agave.toAgave preAccounts with
    | (.error _, _) => []
    | (.ok (), vm) =>
      [sent agave .user (vm.instructionChainTransaction agave.toAgave instructions)
        (vm.setSigverify false)]
  | airdrop tx, vm => [sent agave .internalAirdrop tx (vm.setAccountSource .empty)]
  | sendTransactionBatch schedule transactions, vm =>
    match vm.planTransactionBatch agave.toAgave transactions with
    | .error _ => []
    | .ok plan => stagesObservations agave schedule transactions 0 plan.stages
        (transactions.map fun _ => none) vm
  | other _ _, _ => []

variable {agave} {σ : Type} {inspector : InspectorImpl σ} {origin : TransactionOrigin}

theorem matches_sendTransaction (tx : VersionedTransaction) :
    inspector.Matches origin (inspector.sendTransaction agave tx)
      (fun vm => some (vm.sendTransaction agave.toAgave tx)) fun vm => [sent agave origin tx vm] :=
  InspectorImpl.matches_observe fun _ => consults_sendTransaction trivial fun _ _ => trivial

theorem matches_airdrop (tx : VersionedTransaction) :
    inspector.Matches origin (inspector.airdrop agave tx)
      (fun vm => some (vm.airdrop agave.toAgave tx))
      fun vm => [sent agave .internalAirdrop tx (vm.setAccountSource .empty)] := by
  have inner : inspector.Matches origin
      (withTransactionOrigin .internalAirdrop (inspector.sendTransaction agave tx)) _ _ :=
    (matches_sendTransaction tx).restoring id (fun _ after => after) (fun _ _ => rfl)
      fun _ _ _ _ => rfl
  exact inner.restoring (fun vm => vm.setAccountSource .empty)
    (fun vm after => after.setAccountSource vm.accounts.source) (fun _ _ => rfl) fun _ _ _ _ => rfl

theorem matches_processInstructionChain (instructions : List Instruction) :
    inspector.Matches origin (inspector.processInstructionChain agave instructions)
      (fun vm => some (vm.processInstructionChain agave.toAgave instructions))
      fun vm => [sent agave origin (vm.instructionChainTransaction agave.toAgave instructions)
        (vm.setSigverify false)] := by
  -- The transaction depends on the VM, so each VM has a program of its own.
  intro vm
  have inner : inspector.Matches origin (withoutSigverify (inspector.sendTransaction agave
      (vm.instructionChainTransaction agave.toAgave instructions))) _ _ :=
    (matches_sendTransaction _).restoring (fun vm => vm.setSigverify false)
      (fun vm after => after.setSigverify vm.version.sigverify) (fun _ _ => rfl) fun _ _ _ _ => rfl
  exact inner vm

/-- Only a chain whose accounts could be written is executed. -/
theorem matches_chainOf (instructions : List Instruction) (written : Except HpsvmError Unit) :
    inspector.Matches .user
      (match written with
        | .error _ => pure (.error ⟨.instructionError 0 .invalidAccountData, {}⟩)
        | .ok () => inspector.processInstructionChain agave instructions)
      (fun vm => match written with
        | .error _ => some (.error ⟨.instructionError 0 .invalidAccountData, {}⟩, vm)
        | .ok () => some (vm.processInstructionChain agave.toAgave instructions))
      (fun vm => match written with
        | .error _ => []
        | .ok () => [sent agave .user (vm.instructionChainTransaction agave.toAgave instructions)
            (vm.setSigverify false)]) := by
  rcases written with _ | ⟨⟨⟩⟩
  · exact InspectorImpl.matches_pure _
  · exact matches_processInstructionChain instructions

theorem matches_processInstructionChainWithAccounts (instructions : List Instruction)
    (preAccounts : List (Address × AccountSharedData)) :
    inspector.Matches .user
      (.transaction <$>
        inspector.processInstructionChainWithAccounts agave instructions preAccounts)
      ((processInstructionChainWithAccounts instructions preAccounts).plain agave.toAgave)
      ((processInstructionChainWithAccounts instructions preAccounts).observations agave) := by
  have written : inspector.Matches .user
      (InspectorImpl.unobserved fun vm => some (vm.setAccounts agave.toAgave preAccounts)) _ _ :=
    InspectorImpl.matches_unobserved _
  apply ((written.bind (matches_chainOf instructions)).map _).congr
  · intro vm
    simp only [plain, Svm.processInstructionChainWithAccounts, Option.bind_some]
    rcases vm.setAccounts agave.toAgave preAccounts with ⟨_ | ⟨⟩, after⟩ <;> rfl
  · intro vm
    simp only [observations, List.nil_append, Option.elim_some]
    rcases vm.setAccounts agave.toAgave preAccounts with ⟨_ | ⟨⟩, after⟩ <;> rfl

/-! ### Batches -/

theorem matches_runStage (stageIndex : Nat) (schedule : Schedule) (stage : TransactionBatchStage)
    (transactions : List VersionedTransaction) (results : List (Option TransactionResult)) :
    inspector.Matches origin
      (inspector.runStage agave stageIndex schedule stage transactions results)
      (fun vm => vm.runStage agave.toAgave schedule stage transactions results)
      (stageObservations agave stageIndex stage transactions) := by
  unfold InspectorImpl.runStage
  split
  next index alone =>
    cases found : transactions[index]? with
    | none =>
      apply InspectorImpl.matches_throw.congr
      · intro vm
        simp only [Svm.runStage, alone, found, Option.map_none]
      · intro vm
        simp only [stageObservations, alone, found, Option.toList_none, List.map_nil]
    | some tx =>
      have sends : inspector.Matches origin
          (withTransactionOrigin (.batch stageIndex index) (inspector.sendTransaction agave tx)) _ _ :=
        (matches_sendTransaction tx).restoring id (fun _ after => after) (fun _ _ => rfl)
          fun _ _ _ _ => rfl
      simp only
      apply (sends.bind fun _ => InspectorImpl.matches_pure _).congr
      · intro vm
        simp only [Svm.runStage, alone, found, Option.map_some]
        rfl
      · intro vm
        simp only [stageObservations, alone, found]
        rfl
  next several =>
    apply (InspectorImpl.matches_unobserved _).congr
    · intro vm
      unfold Svm.runStage
      split
      next index alone => exact absurd alone (several index)
      · rfl
    · intro vm
      unfold stageObservations
      split
      next index alone => exact absurd alone (several index)
      · rfl

/-- The stages after one that failed are not executed. -/
theorem matches_stagesAfter {run : List (Option TransactionResult) →
      ObservedProgram σ (Except TransactionBatchError (List (Option TransactionResult)))}
    {plain : List (Option TransactionResult) → Svm →
      Option (Except TransactionBatchError (List (Option TransactionResult)) × Svm)}
    {trace : List (Option TransactionResult) → Svm → List Observation}
    (later : ∀ results, inspector.Matches origin (run results) (plain results) (trace results))
    (answer : Except TransactionBatchError (List (Option TransactionResult))) :
    inspector.Matches origin
      (match answer with
        | .error error => pure (.error error)
        | .ok results => run results)
      (fun vm => match answer with
        | .error error => some (.error error, vm)
        | .ok results => plain results vm)
      (fun vm => match answer with
        | .error _ => []
        | .ok results => trace results vm) := by
  rcases answer with error | results
  · exact InspectorImpl.matches_pure _
  · exact later results

theorem matches_runStages (schedule : Nat → Schedule) (transactions : List VersionedTransaction)
    (stageIndex : Nat) (stages : List TransactionBatchStage)
    (results : List (Option TransactionResult)) :
    inspector.Matches origin
      (inspector.runStages agave schedule transactions stageIndex stages results)
      (fun vm => vm.runStages agave.toAgave schedule transactions stageIndex stages results)
      (stagesObservations agave schedule transactions stageIndex stages results) := by
  induction stages generalizing stageIndex results with
  | nil => exact InspectorImpl.matches_pure _
  | cons stage rest ih =>
    have first : inspector.Matches origin
        (inspector.runStage agave stageIndex (schedule stageIndex) stage transactions results) _ _ :=
      matches_runStage stageIndex (schedule stageIndex) stage transactions results
    apply (first.bind (matches_stagesAfter (ih (stageIndex + 1)))).congr
    · intro vm
      rw [Svm.runStages]
      rcases vm.runStage agave.toAgave (schedule stageIndex) stage transactions results with
        _ | ⟨_ | _, after⟩ <;> rfl
    · intro vm
      rw [stagesObservations]
      rcases vm.runStage agave.toAgave (schedule stageIndex) stage transactions results with
        _ | ⟨_ | _, after⟩ <;> rfl

theorem matches_collectResults (plan : TransactionBatchPlan)
    (answer : Except TransactionBatchError (List (Option TransactionResult))) :
    inspector.Matches origin (InspectorImpl.collectResults plan answer)
      (fun vm => match answer with
        | .error error => some (.error error, vm)
        | .ok results => (results.mapM id).map fun results => (.ok ⟨plan, results⟩, vm))
      fun _ => [] := by
  rcases answer with error | results
  · exact InspectorImpl.matches_pure _
  · simp only [InspectorImpl.collectResults]
    cases results.mapM id with
    | none => exact InspectorImpl.matches_throw
    | some results => exact InspectorImpl.matches_pure _

theorem matches_sendTransactionBatch (schedule : Nat → Schedule)
    (transactions : List VersionedTransaction) :
    inspector.Matches origin (inspector.sendTransactionBatch agave schedule transactions)
      (fun vm => vm.sendTransactionBatch agave.toAgave schedule transactions)
      ((sendTransactionBatch schedule transactions).observations agave) := by
  intro vm state value after
  have ran : (inspector.sendTransactionBatch agave schedule transactions).run
      ⟨vm, .clean, some state, origin⟩ =
        match vm.planTransactionBatch agave.toAgave transactions with
        | .error error => .ok (.error error) ⟨vm, .clean, some state, origin⟩
        | .ok plan => (inspector.runStages agave schedule transactions 0 plan.stages
            (transactions.map fun _ => none) >>= InspectorImpl.collectResults plan).run
              ⟨vm, .clean, some state, origin⟩ := by
    have read : (get : ObservedProgram σ (ObservedVm σ)).run ⟨vm, .clean, some state, origin⟩ =
        .ok ⟨vm, .clean, some state, origin⟩ ⟨vm, .clean, some state, origin⟩ := rfl
    simp only [InspectorImpl.sendTransactionBatch, EStateM.run_bind, read]
    cases vm.planTransactionBatch agave.toAgave transactions with
    | error error => rfl
    | ok plan => exact EStateM.run_bind _ _
  rw [ran]
  simp only [Svm.sendTransactionBatch, observations]
  cases vm.planTransactionBatch agave.toAgave transactions with
  | error error => exact InspectorImpl.matches_pure (.error error) vm state value after
  | ok plan =>
    have runs : inspector.Matches origin (inspector.runStages agave schedule transactions 0 plan.stages
        (transactions.map fun _ => none) >>= InspectorImpl.collectResults plan) _ _ :=
      (matches_runStages schedule transactions 0 plan.stages (transactions.map fun _ => none)).bind
        (matches_collectResults plan)
    refine (runs vm state value after).trans ?_
    simp only
    rcases vm.runStages agave.toAgave schedule transactions 0 plan.stages
      (transactions.map fun _ => none) with _ | ⟨_ | results, left⟩
    · simp
    · simp only [Option.bind_some, Option.elim_some, List.append_nil]
    · simp only [Option.bind_some, Option.elim_some, List.append_nil]

theorem matches_perform (op : ObservedOperation) :
    inspector.Matches .user (op.perform agave inspector) (op.plain agave.toAgave)
      (op.observations agave) := by
  cases op with
  | sendTransaction tx => exact (matches_sendTransaction tx).map _
  | simulateTransaction tx =>
    exact (InspectorImpl.matches_observe fun _ => consults_simulateTransaction _ _ _ trivial).map _
  | tryTransact tx =>
    exact (InspectorImpl.matches_observe fun _ => consults_tryTransact _ _ _ trivial).map _
  | transact resolution tx =>
    apply ((InspectorImpl.matches_observe fun _ =>
      consults_transactAnd (fun _ => trivial) resolution).map _).congr
    · intro vm
      simp only [plain, transacted]
      rcases vm.transact agave.toAgave tx with ⟨_, after⟩ | staged
      · rfl
      · rw [Option.map_map]
        rfl
    · exact fun _ => rfl
  | processInstructionChainWithAccounts instructions preAccounts =>
    exact matches_processInstructionChainWithAccounts instructions preAccounts
  | airdrop tx => exact (matches_airdrop tx).map _
  | sendTransactionBatch schedule transactions =>
    exact (matches_sendTransactionBatch schedule transactions).map _
  | other op quiet =>
    exact InspectorImpl.matches_unobserved fun vm =>
      (op.step agave.toAgave vm).map fun vm => (ObservedAnswer.done, vm)

/-! ### Runs -/

/-- The executions of a run on the VM itself. -/
def observationsAll (agave : BatchAgave) : List ObservedOperation → Svm → List Observation
  | [], _ => []
  | op :: rest, vm =>
    op.observations agave vm ++
      (op.plain agave.toAgave vm).elim [] fun (_, vm) => observationsAll agave rest vm

theorem matches_performAll (ops : List ObservedOperation) :
    inspector.Matches .user (performAll agave inspector ops) (plainAll agave.toAgave ops)
      (observationsAll agave ops) := by
  induction ops with
  | nil => exact InspectorImpl.matches_pure []
  | cons op rest ih =>
    exact (matches_perform op).bind fun answer => ih.map fun answers => answer :: answers

/-- A run under an inspector that endures the executions returns if the plain run does. -/
theorem performAll_of_follow {ops : List ObservedOperation} {vm : Svm} {state state' : σ}
    (follows : inspector.follow (observationsAll agave ops vm) state = some state')
    (answers : List ObservedAnswer) (after : ObservedVm σ) :
    (performAll agave inspector ops).run ⟨vm, .clean, some state, .user⟩ = .ok answers after ↔
      ∃ vm', plainAll agave.toAgave ops vm = some (answers, vm') ∧
        after = ⟨vm', .clean, some state', .user⟩ := by
  rw [matches_performAll ops vm]
  constructor
  · rintro ⟨vm', other, does, same, rfl⟩
    rw [follows] at same
    cases same
    exact ⟨vm', does, rfl⟩
  · rintro ⟨vm', does, rfl⟩
    exact ⟨vm', state', does, follows, rfl⟩

end ObservedOperation

end Hpsvm
