import Hpsvm.Inspection
import Hpsvm.Properties.CloneIsolation

/-!
# Executions started from a hook

While a hook runs, the thread holds the lock of the program cache, the inspector slot is empty and
its mutex is free. An execution started there observes no inspector. It returns if it ends before
it asks for the program cache, and waits for its own thread otherwise.
-/

namespace Hpsvm

open Foundation (ThreadLocks.left ThreadLocks.holding ThreadLocks.touch ThreadLocks.modifyState
  ThreadLocks.bind_ok ThreadLocks.bind_error ThreadLocks.run_pure
  ThreadLocks.run_modifyState ThreadLocks.holding_ok ThreadLocks.holding_error
  ThreadLocks.holding_waits ThreadLocks.holding_modifyState ThreadLocks.touch_ok)

/-! ### Requests for the program cache -/

namespace Svm

variable (agave : Agave)

/-- The execution gets to the lock of the program cache. -/
def ReachesCache (vm : Svm) (tx : VersionedTransaction) : Prop :=
  ∃ sanitized limits, vm.sanitize agave tx = .ok sanitized ∧
    vm.checkTransaction agave sanitized = .ok limits ∧ (vm.accounts.rent? agave).isSome = true

/-- The execution, or the tier observation after it, gets to the lock. -/
def RequestsCache (lazy : Bool) (vm : Svm) (tx : VersionedTransaction) : Prop :=
  vm.ReachesCache agave tx ∨ lazy = true

theorem phase_unguarded_iff (vm : Svm) (tx : VersionedTransaction) :
    vm.phase agave tx = .unguarded ↔ ¬ vm.ReachesCache agave tx := by
  unfold phase ReachesCache
  split
  next result rejected => simp [rejected]
  next sanitized accepted =>
    split
    next result refused => simp [accepted, refused]
    next limits checked =>
      split
      next missing => simp [missing]
      next rent found =>
        have reached : ∃ sanitized limits, vm.sanitize agave tx = .ok sanitized ∧
            vm.checkTransaction agave sanitized = .ok limits ∧
              (vm.accounts.rent? agave).isSome = true :=
          ⟨sanitized, limits, accepted, checked, by simp [found]⟩
        simp only [reached, not_true, iff_false]
        split <;> simp

end Svm

namespace Accounts

variable (agave : Agave)

/-- `add_account` takes the account and updates the program cache for it. -/
def RequestsCache (db : Accounts) (pubkey : Address) (account : AccountSharedData) : Prop :=
  match db.checkAccount agave pubkey account with
  | .error _ => False
  | .ok programEntry =>
    isManagedSysvarAccount pubkey = true ∨ programEntry.isSome = true ∨
      (db.hadCachedProgram pubkey = true ∧
        ∃ cache, (db.written agave pubkey account).rebuiltProgramCache agave = .ok cache)

/-- One of the accounts, at its turn, updates the program cache. -/
def RequestsCacheAny (db : Accounts) : List (Address × AccountSharedData) → Prop
  | [] => False
  | (address, account) :: rest =>
    db.RequestsCache agave address account ∨
      ((db.addAccount agave address account).1 = .ok () ∧
        RequestsCacheAny (db.addAccount agave address account).2 rest)

end Accounts

/-- The call gets to the lock of the program cache. -/
def ReadonlyCall.RequestsCache (agave : Agave) (lazy : Bool) (vm : Svm) : ReadonlyCall → Prop
  | transactDetached _ tx => vm.RequestsCache agave lazy tx
  | tryTransact _ tx => vm.RequestsCache agave lazy tx
  | simulateTransaction _ tx => vm.RequestsCache agave lazy tx
  | simulateInstructionChain instructions =>
    (vm.setSigverify false).RequestsCache agave lazy
      ((vm.setSigverify false).instructionChainTransaction agave instructions)
  | simulateInstructionChainWithAccounts instructions preAccounts =>
    vm.accounts.RequestsCacheAny agave preAccounts ∨
      ∃ working, vm.setAccounts agave preAccounts = (.ok (), working) ∧
        (working.setSigverify false).RequestsCache agave lazy
          ((working.setSigverify false).instructionChainTransaction agave instructions)

/-- No call that the hook makes gets to the lock of the program cache. -/
def HookProgram.Avoids (agave : Agave) (lazy : Bool) (vm : Svm) : HookProgram → Prop
  | done => True
  | call entry next =>
    ¬ entry.RequestsCache agave lazy vm ∧ (next (entry.answer agave vm)).Avoids agave lazy vm

/-! ### Inside a hook -/

/-- The thread while a hook runs. -/
def inHook (observed : List Bool) : LockThread := ⟨{.programCache}, ⟨none, observed⟩⟩

/-- How a program ends that was started from a hook: it returns, or it waits for the program cache
if it asks for it. All executions it begins observe no inspector. -/
def EndsInHook (asks : Prop) (program : LockProgram Unit) (observed : List Bool) : Prop :=
  ∃ count, (asks → program.run (inHook observed) =
      .error (.waits .programCache) (inHook (List.replicate count false ++ observed))) ∧
    (¬ asks → program.run (inHook observed) =
      .ok () (inHook (List.replicate count false ++ observed)))

namespace EndsInHook

theorem pure (observed : List Bool) : EndsInHook False (Pure.pure ()) observed :=
  ⟨0, fun asks => asks.elim, fun _ => rfl⟩

theorem touch (observed : List Bool) :
    EndsInHook True (ThreadLocks.touch .programCache) observed :=
  ⟨0, fun _ => ThreadLocks.holding_waits (by simp [inHook]), fun quiet => absurd trivial quiet⟩

theorem of_iff {asks asks' : Prop} {program : LockProgram Unit} {observed : List Bool}
    (same : asks ↔ asks') (ends : EndsInHook asks program observed) :
    EndsInHook asks' program observed := by
  obtain ⟨count, waits, returns⟩ := ends
  exact ⟨count, fun asks => waits (same.2 asks), fun quiet => returns fun asks => quiet (same.1 asks)⟩

/-- A program asks for the cache if its first part does, or returns and its second part does. -/
theorem bind {asks asks' : Prop} {first second : LockProgram Unit} {observed : List Bool}
    (ends : EndsInHook asks first observed)
    (ends' : ∀ observed, EndsInHook asks' second observed) :
    EndsInHook (asks ∨ asks') (first >>= fun _ => second) observed := by
  obtain ⟨count, waits, returns⟩ := ends
  by_cases early : asks
  · refine ⟨count, fun _ => ThreadLocks.bind_error (waits early), ?_⟩
    exact fun quiet => absurd (.inl early) quiet
  · obtain ⟨count', waits', returns'⟩ := ends' (List.replicate count false ++ observed)
    refine ⟨count' + count, ?_, ?_⟩
    · rintro (late | late)
      · exact absurd late early
      · rw [ThreadLocks.bind_ok (returns early), waits' late, List.replicate_add,
          List.append_assoc]
    · intro quiet
      have late : ¬ asks' := fun late => quiet (.inr late)
      rw [ThreadLocks.bind_ok (returns early), returns' late, List.replicate_add,
        List.append_assoc]

end EndsInHook

section

variable (agave : Agave)

theorem endsInHook_addAccountLocks (db : Accounts) (pubkey : Address)
    (account : AccountSharedData) (observed : List Bool) :
    EndsInHook (db.RequestsCache agave pubkey account)
      (db.addAccountLocks agave pubkey account) observed := by
  unfold Accounts.RequestsCache Accounts.addAccountLocks
  cases db.checkAccount agave pubkey account with
  | error error => exact .pure observed
  | ok programEntry =>
    refine .bind ?_ fun observed => ?_
    · unfold Accounts.refreshSysvarsLocks
      split
      next managed =>
        exact .of_iff (by simp [managed]) (.bind (.touch observed) fun observed => .touch observed)
      next unmanaged => exact .of_iff (by simp [unmanaged]) (.pure observed)
    · cases programEntry with
      | some entry => exact .of_iff (by simp) (.touch observed)
      | none =>
        unfold Accounts.updateProgramLocks
        simp only
        split
        next had =>
          split
          next error rebuilt =>
            exact .of_iff (by simp [Accounts.written, rebuilt]) (.pure observed)
          next cache rebuilt =>
            exact .of_iff (by simp [had, Accounts.written, rebuilt]) (.touch observed)
        next fresh => exact .of_iff (by simp [fresh]) (.pure observed)

theorem endsInHook_addAccountsLocks (db : Accounts)
    (accounts : List (Address × AccountSharedData)) (observed : List Bool) :
    EndsInHook (db.RequestsCacheAny agave accounts) (db.addAccountsLocks agave accounts)
      observed := by
  induction accounts generalizing db observed with
  | nil => exact .pure observed
  | cons pair rest ih =>
    obtain ⟨address, account⟩ := pair
    unfold Accounts.RequestsCacheAny Accounts.addAccountsLocks
    refine .bind (endsInHook_addAccountLocks agave db address account observed) fun observed => ?_
    split
    next error left refused => exact .of_iff (by simp [refused]) (.pure observed)
    next taken added => exact .of_iff (by simp [added]) (ih taken observed)

/-- An execution begun inside a hook observes no inspector, on the VM as on a clone. -/
theorem endsInHook_executeLocks (lazy : Bool) (fuel : Nat) (clone : Bool) (vm : Svm)
    (tx : VersionedTransaction) (observed : List Bool) :
    EndsInHook (vm.RequestsCache agave lazy tx)
      (executeLocks agave lazy (fuel + 1) clone vm tx) observed := by
  have live : (inspectorLive clone).run (inHook observed) = .ok false (inHook observed) := by
    rw [inspectorLive, ThreadLocks.holding_modifyState (by simp [inHook])]
    cases clone <;> rfl
  have process : ∀ observed, EndsInHook (vm.ReachesCache agave tx)
      (processTransactionLocks agave (executeLocks agave lazy fuel) false vm (vm.phase agave tx))
        observed := by
    intro observed
    have unguarded := vm.phase_unguarded_iff agave tx
    cases reached : vm.phase agave tx with
    | unguarded =>
      exact .of_iff (by simpa [reached] using unguarded) (.pure observed)
    | guarded => exact .of_iff (by simpa [reached] using unguarded) (.touch observed)
    | executed sanitized result =>
      -- The thread asks for the cache lock that the execution around the hook holds.
      refine ⟨0, fun _ => ThreadLocks.holding_waits (by simp [inHook]), fun quiet => ?_⟩
      exact absurd (unguarded.2 quiet) (by simp [reached])
  have observe : ∀ observed, EndsInHook (lazy = true) (observeTierLocks lazy) observed := by
    intro observed
    cases lazy with
    | true => exact .of_iff (by simp) (.touch observed)
    | false => exact .of_iff (by simp) (.pure observed)
  obtain ⟨count, waits, returns⟩ := (process (false :: observed)).bind observe
  have begun : (executeLocks agave lazy (fuel + 1) clone vm tx).run (inHook observed) =
      (processTransactionLocks agave (executeLocks agave lazy fuel) false vm (vm.phase agave tx) >>=
        fun _ => observeTierLocks lazy).run (inHook (false :: observed)) := by
    rw [executeLocks, ThreadLocks.bind_ok live, ThreadLocks.bind_ok (ThreadLocks.run_modifyState _ _)]
    rfl
  have shift : List.replicate count false ++ false :: observed =
      List.replicate (count + 1) false ++ observed := by
    rw [List.replicate_succ', List.append_assoc, List.singleton_append]
  refine ⟨count + 1, ?_, ?_⟩
  · intro asks
    rw [begun, waits asks, shift]
  · intro quiet
    rw [begun, returns quiet, shift]

theorem endsInHook_call (lazy : Bool) (fuel : Nat) (vm : Svm) (entry : ReadonlyCall)
    (observed : List Bool) :
    EndsInHook (entry.RequestsCache agave lazy vm)
      (entry.locks agave (executeLocks agave lazy (fuel + 1)) vm) observed := by
  cases entry with
  | transactDetached clone tx => exact endsInHook_executeLocks agave lazy fuel clone vm tx observed
  | tryTransact clone tx => exact endsInHook_executeLocks agave lazy fuel clone vm tx observed
  | simulateTransaction clone tx =>
    exact endsInHook_executeLocks agave lazy fuel clone vm tx observed
  | simulateInstructionChain instructions =>
    exact endsInHook_executeLocks agave lazy fuel true _ _ observed
  | simulateInstructionChainWithAccounts instructions preAccounts =>
    refine .bind (endsInHook_addAccountsLocks agave vm.accounts preAccounts observed)
      fun observed => ?_
    split
    next error left refused => exact .of_iff (by simp [refused]) (.pure observed)
    next working set =>
      exact .of_iff (by simp [set]) (endsInHook_executeLocks agave lazy fuel true _ _ observed)

theorem endsInHook_program (lazy : Bool) (fuel : Nat) (vm : Svm) (program : HookProgram)
    (observed : List Bool) :
    EndsInHook (¬ program.Avoids agave lazy vm)
      (program.locks agave (executeLocks agave lazy (fuel + 1)) vm) observed := by
  induction program generalizing observed with
  | done => exact .of_iff (by simp [HookProgram.Avoids]) (.pure observed)
  | call entry next ih =>
    refine .of_iff ?_ (.bind (endsInHook_call agave lazy fuel vm entry observed)
      (ih (entry.answer agave vm)))
    simp only [HookProgram.Avoids]
    tauto

/-! ### The execution that fires the hooks -/

/-- The thread while the program cache is locked and no hook runs. -/
def guarded (slot : Option Inspector) (observed : List Bool) : LockThread :=
  ⟨{.programCache}, ⟨slot, observed⟩⟩

/-- The thread outside of any execution. -/
def idle (slot : Option Inspector) (observed : List Bool) : LockThread := ⟨∅, ⟨slot, observed⟩⟩

/-- The inspector is back in its slot when its hook returns. -/
theorem fireInspector_run {asks : Prop} {inspector : Inspector}
    (hook : Inspector → LockProgram Unit) {observed : List Bool}
    (ends : EndsInHook asks (hook inspector) observed) :
    ∃ count,
      (asks → (fireInspector hook).run (guarded (some inspector) observed) =
        .error (.waits .programCache) (inHook (List.replicate count false ++ observed))) ∧
      (¬ asks → (fireInspector hook).run (guarded (some inspector) observed) =
        .ok () (guarded (some inspector) (List.replicate count false ++ observed))) := by
  obtain ⟨count, waits, returns⟩ := ends
  have taken : (ThreadLocks.holding (.inspector false)
      (ThreadLocks.modifyState fun state : InspectionState =>
        (state.slot, { state with slot := none }))).run (guarded (some inspector) observed) =
        .ok (some inspector) (inHook observed) := by
    rw [ThreadLocks.holding_modifyState (by simp [guarded])]
    rfl
  refine ⟨count, ?_, ?_⟩
  · intro asks
    rw [fireInspector, ThreadLocks.bind_ok taken]
    exact ThreadLocks.bind_error (waits asks)
  · intro quiet
    rw [fireInspector, ThreadLocks.bind_ok taken]
    simp only
    rw [ThreadLocks.bind_ok (returns quiet), ThreadLocks.holding_modifyState (by simp [inHook])]
    rfl

/-- What the hooks of a live execution can ask for. -/
def HooksAvoid (lazy : Bool) (vm : Svm) (inspector : Inspector) (sanitized : SanitizedTransaction)
    (result : Except TransactionError Unit) : Prop :=
  (inspector.transactionStart sanitized).Avoids agave lazy vm ∧
    (inspector.transactionEnd result).Avoids agave lazy vm

theorem hookLocks_run (lazy : Bool) (fuel : Nat) (vm : Svm) (inspector : Inspector)
    (sanitized : SanitizedTransaction) (result : Except TransactionError Unit)
    (observed : List Bool) :
    ∃ count,
      (¬ HooksAvoid agave lazy vm inspector sanitized result →
        (hookLocks agave (executeLocks agave lazy (fuel + 1)) true vm sanitized result).run
          (guarded (some inspector) observed) =
            .error (.waits .programCache) (inHook (List.replicate count false ++ observed))) ∧
      (HooksAvoid agave lazy vm inspector sanitized result →
        (hookLocks agave (executeLocks agave lazy (fuel + 1)) true vm sanitized result).run
          (guarded (some inspector) observed) =
            .ok () (guarded (some inspector) (List.replicate count false ++ observed))) := by
  unfold hookLocks HooksAvoid
  obtain ⟨first, waits, returns⟩ := fireInspector_run
    (fun inspector => (inspector.transactionStart sanitized).locks agave
      (executeLocks agave lazy (fuel + 1)) vm)
    (endsInHook_program agave lazy fuel vm (inspector.transactionStart sanitized) observed)
  by_cases start : (inspector.transactionStart sanitized).Avoids agave lazy vm
  · obtain ⟨second, waits', returns'⟩ := fireInspector_run
      (fun inspector => (inspector.transactionEnd result).locks agave
        (executeLocks agave lazy (fuel + 1)) vm)
      (endsInHook_program agave lazy fuel vm (inspector.transactionEnd result)
        (List.replicate first false ++ observed))
    have started := returns (not_not.2 start)
    refine ⟨second + first, ?_, ?_⟩
    · intro asks
      have ending : ¬ (inspector.transactionEnd result).Avoids agave lazy vm :=
        fun ending => asks ⟨start, ending⟩
      rw [if_pos rfl, ThreadLocks.bind_ok started, waits' ending, List.replicate_add,
        List.append_assoc]
    · rintro ⟨-, ending⟩
      rw [if_pos rfl, ThreadLocks.bind_ok started, returns' (not_not.2 ending),
        List.replicate_add, List.append_assoc]
  · refine ⟨first, ?_, fun avoids => absurd avoids.1 start⟩
    intro _
    rw [if_pos rfl, ThreadLocks.bind_error (waits start)]

/-- The installed inspector accepts the origin of the execution. -/
def accepted (inspector : Option Inspector) : Bool :=
  inspector.any fun installed => installed.acceptsOrigin

/-- The execution ends with every lock released and the inspector in its slot, without waiting for a
lock of its own thread, and the executions its hooks begin observe no inspector. -/
structure ReentersSafely (lazy : Bool) (fuel : Nat) (vm : Svm) (inspector : Option Inspector)
    (tx : VersionedTransaction) : Prop where
  completes : ∃ observed, (executeLocks agave lazy (fuel + 2) false vm tx).run (idle inspector []) =
    .ok () (idle inspector observed)
  uninspected : ∀ live ∈ (ThreadLocks.left ((executeLocks agave lazy (fuel + 2) false vm tx).run
    (idle inspector []))).state.observed.dropLast, live = false

/-- If the hooks fire at all, no call they make gets to the lock of the program cache. -/
def ReentersQuietly (lazy : Bool) (vm : Svm) (inspector : Option Inspector)
    (tx : VersionedTransaction) : Prop :=
  ∀ installed sanitized result, inspector = some installed → installed.acceptsOrigin = true →
    vm.phase agave tx = .executed sanitized result →
    HooksAvoid agave lazy vm installed sanitized result

/-- Under the lock of the program cache, the hooks return or wait for that lock. -/
theorem processTransactionLocks_run (lazy : Bool) (fuel : Nat) (vm : Svm)
    (inspector : Option Inspector) (tx : VersionedTransaction) (observed : List Bool) :
    ∃ count,
      (¬ ReentersQuietly agave lazy vm inspector tx →
        (processTransactionLocks agave (executeLocks agave lazy (fuel + 1)) (accepted inspector) vm
          (vm.phase agave tx)).run (idle inspector observed) =
            .error (.waits .programCache) (inHook (List.replicate count false ++ observed))) ∧
      (ReentersQuietly agave lazy vm inspector tx →
        (processTransactionLocks agave (executeLocks agave lazy (fuel + 1)) (accepted inspector) vm
          (vm.phase agave tx)).run (idle inspector observed) =
            .ok () (idle inspector (List.replicate count false ++ observed))) := by
  unfold ReentersQuietly
  cases reached : vm.phase agave tx with
  | unguarded => exact ⟨0, fun loud => absurd (by simp) loud, fun _ => rfl⟩
  | guarded =>
    refine ⟨0, fun loud => absurd (by simp) loud, fun _ => ?_⟩
    exact ThreadLocks.touch_ok (by simp [idle])
  | executed sanitized result =>
    have unlocked : LockId.programCache ∉ (idle inspector observed).held := by simp [idle]
    have released : ∀ slot observed, (⟨(guarded slot observed).held.erase .programCache,
        (guarded slot observed).state⟩ : LockThread) = idle slot observed := by
      intro slot observed
      rfl
    cases live : accepted inspector with
    | false =>
      -- No hook runs, so the lock is taken and given back.
      refine ⟨0, fun loud => ?_, fun _ => ?_⟩
      · refine absurd ?_ loud
        rintro installed _ _ rfl accepts
        simp [accepted, accepts] at live
      · exact (ThreadLocks.holding_ok unlocked rfl).trans (by rw [← released]; rfl)
    | true =>
      cases inspector with
      | none => cases live
      | some installed =>
        obtain ⟨count, waits, returns⟩ := hookLocks_run agave lazy fuel vm installed sanitized result
          observed
        have accepts : installed.acceptsOrigin = true := live
        refine ⟨count, fun loud => ?_, fun quiet => ?_⟩
        · refine ThreadLocks.holding_error unlocked (waits fun avoids => loud ?_)
          rintro _ _ _ same - ran
          cases same
          cases ran
          exact avoids
        · have avoids := quiet installed sanitized result rfl accepts rfl
          exact (ThreadLocks.holding_ok unlocked (returns avoids)).trans (by rw [← released])

/-- The whole execution returns, or waits for the program cache. -/
theorem executeLocks_run (lazy : Bool) (fuel : Nat) (vm : Svm) (inspector : Option Inspector)
    (tx : VersionedTransaction) :
    ∃ count,
      (¬ ReentersQuietly agave lazy vm inspector tx →
        (executeLocks agave lazy (fuel + 2) false vm tx).run (idle inspector []) =
          .error (.waits .programCache)
            (inHook (List.replicate count false ++ [accepted inspector]))) ∧
      (ReentersQuietly agave lazy vm inspector tx →
        (executeLocks agave lazy (fuel + 2) false vm tx).run (idle inspector []) =
          .ok () (idle inspector (List.replicate count false ++ [accepted inspector]))) := by
  obtain ⟨count, waits, returns⟩ :=
    processTransactionLocks_run agave lazy fuel vm inspector tx [accepted inspector]
  have begun : (executeLocks agave lazy (fuel + 2) false vm tx).run (idle inspector []) =
      (processTransactionLocks agave (executeLocks agave lazy (fuel + 1)) (accepted inspector) vm
        (vm.phase agave tx) >>= fun _ => observeTierLocks lazy).run
          (idle inspector [accepted inspector]) := by
    have live : (inspectorLive false).run (idle inspector []) =
        .ok (accepted inspector) (idle inspector []) := by
      rw [inspectorLive, ThreadLocks.holding_modifyState (by simp [idle])]
      rfl
    rw [executeLocks, ThreadLocks.bind_ok live,
      ThreadLocks.bind_ok (ThreadLocks.run_modifyState _ _)]
    rfl
  have observe : ∀ observed, (observeTierLocks lazy).run (idle inspector observed) =
      .ok () (idle inspector observed) := by
    intro observed
    cases lazy with
    | true => exact ThreadLocks.touch_ok (by simp [idle])
    | false => rfl
  refine ⟨count, ?_, ?_⟩
  · intro loud
    rw [begun, ThreadLocks.bind_error (waits loud)]
  · intro quiet
    rw [begun, ThreadLocks.bind_ok (returns quiet), observe]

/-- Whether it returns or not, an execution started from a hook observes no inspector. -/
theorem nested_observes_no_inspector (lazy : Bool) (fuel : Nat) (vm : Svm)
    (inspector : Option Inspector) (tx : VersionedTransaction) :
    ∀ live ∈ (ThreadLocks.left ((executeLocks agave lazy (fuel + 2) false vm tx).run
      (idle inspector []))).state.observed.dropLast, live = false := by
  obtain ⟨count, waits, returns⟩ := executeLocks_run agave lazy fuel vm inspector tx
  by_cases quiet : ReentersQuietly agave lazy vm inspector tx
  · rw [returns quiet]
    simp [ThreadLocks.left, idle]
  · rw [waits quiet]
    simp [ThreadLocks.left, inHook]

/-- Executions started from the hooks are safe exactly when none of them gets to the lock of the
program cache, however deep executions may nest. -/
theorem reenters_safely_iff (lazy : Bool) (fuel : Nat) (vm : Svm) (inspector : Option Inspector)
    (tx : VersionedTransaction) :
    ReentersSafely agave lazy fuel vm inspector tx ↔
      ReentersQuietly agave lazy vm inspector tx := by
  obtain ⟨count, waits, returns⟩ := executeLocks_run agave lazy fuel vm inspector tx
  constructor
  · rintro ⟨⟨observed, ended⟩, -⟩
    by_contra loud
    rw [waits loud] at ended
    cases ended
  · intro quiet
    exact ⟨⟨_, returns quiet⟩, nested_observes_no_inspector agave lazy fuel vm inspector tx⟩

end

namespace Sample

/-- An inspector that runs the transfer again before its instructions start. -/
def replayingInspector : Inspector where
  acceptsOrigin := true
  transactionStart := fun _ => .call (.transactDetached false plainTx) fun _ => .done
  transactionEnd := fun _ => .done

def returned : EStateM.Result (Foundation.ThreadLocks.Stop LockId) LockThread Unit → Bool
  | .ok _ _ => true
  | .error _ _ => false

/-- The nested execution waits for the program cache that the outer one has locked. -/
theorem replaying_hook_deadlocks :
    ¬ ReentersSafely agave false 0 payingVm (some replayingInspector) plainTx := by
  intro safe
  obtain ⟨observed, ended⟩ := safe.completes
  have stuck : returned ((executeLocks agave false 2 false payingVm plainTx).run
      (idle (some replayingInspector) [])) = false := by decide
  rw [ended] at stuck
  cases stuck

end Sample

end Hpsvm
