import Mathlib.Data.List.Basic

/-!
# Programs that unwind

Programs that announce events to a listener while they work on a scratch value. The listener may
panic at an event; the program then unwinds at that point and leaves the scratch as it was there,
since nothing after the announcement runs. What a program does when no listener interferes, its
effect, tells how it ends with any listener.
-/

namespace Foundation.Unwinding

variable {Rest Scratch Event α β : Type}

/-- Hears events, and may panic at one. Its answers depend on what it heard before. It counts how
often it is asked whether it accepts. -/
structure Listener (Event : Type) where
  accepts : List Event → Bool
  panics : List Event → Event → Bool
  heard : List Event
  consulted : Nat := 0

namespace Listener

def consult (listener : Listener Event) : Listener Event :=
  { listener with consulted := listener.consulted + 1 }

def after (listener : Listener Event) (events : List Event) : Listener Event :=
  { listener with heard := listener.heard ++ events }

def hear (listener : Listener Event) (event : Event) : Listener Event := listener.after [event]

@[simp] theorem after_nil (listener : Listener Event) : listener.after [] = listener := by
  simp [after]

@[simp] theorem after_after (listener : Listener Event) (events later : List Event) :
    (listener.after events).after later = listener.after (events ++ later) := by
  simp [after]

end Listener

/-- What programs share: a part they read, the scratch, and the slot of the listener. -/
structure Shared (Rest Scratch Event : Type) where
  rest : Rest
  scratch : Scratch
  slot : Option (Listener Event)

inductive Unwind
  | panic

abbrev Program (Rest Scratch Event α : Type) := EStateM Unwind (Shared Rest Scratch Event) α

/-- What a program leaves, returned or unwound. -/
def left : EStateM.Result Unwind (Shared Rest Scratch Event) α → Shared Rest Scratch Event
  | .ok _ shared => shared
  | .error _ shared => shared

def readRest : Program Rest Scratch Event Rest := fun shared => .ok shared.rest shared

def modifyScratch (change : Scratch → α × Scratch) : Program Rest Scratch Event α := fun shared =>
  let (value, scratch) := change shared.scratch
  .ok value { shared with scratch := scratch }

def writeRest (rest : Rest) : Program Rest Scratch Event Unit := fun shared =>
  .ok () { shared with rest := rest }

def panic : Program Rest Scratch Event α := fun shared => .error .panic shared

/-- Whether there is a listener that accepts; it is asked once. -/
def listening : Program Rest Scratch Event Bool := fun shared =>
  .ok (shared.slot.any fun listener => listener.accepts listener.heard)
    { shared with slot := shared.slot.map Listener.consult }

/-- Takes the listener out of its slot, lets it hear the event, and puts it back before its panic
goes on. -/
def announce (event : Event) : Program Rest Scratch Event Unit := fun shared =>
  match shared.slot with
  | none => .ok () shared
  | some listener =>
    let shared := { shared with slot := some (listener.hear event) }
    if listener.panics listener.heard event then .error .panic shared else .ok () shared

/-! ### Effects -/

/-- What a program does undisturbed: the events it announces with the scratch at their time, the
value it returns and the scratch it leaves. -/
structure Effect (Scratch Event α : Type) where
  points : List (Event × Scratch)
  value : α
  scratch : Scratch

namespace Effect

def pure (value : α) (scratch : Scratch) : Effect Scratch Event α := ⟨[], value, scratch⟩

def announce (event : Event) (scratch : Scratch) : Effect Scratch Event Unit :=
  ⟨[(event, scratch)], (), scratch⟩

def followed (first : Effect Scratch Event α) (second : Effect Scratch Event β) :
    Effect Scratch Event β :=
  ⟨first.points ++ second.points, second.value, second.scratch⟩

end Effect

/-- The listener after it heard the events, up to the one it panics at, with the scratch there. -/
def interrupt : Option (Listener Event) → List (Event × Scratch) →
    Option (Listener Event) × Option Scratch
  | none, _ => (none, none)
  | some listener, [] => (some listener, none)
  | some listener, (event, scratch) :: points =>
    if listener.panics listener.heard event then (some (listener.hear event), some scratch)
    else interrupt (some (listener.hear event)) points

/-- With any listener the program goes through its effect, until the listener panics. -/
def Performs (rest : Rest) (program : Program Rest Scratch Event α) (before : Scratch)
    (effect : Effect Scratch Event α) : Prop :=
  ∀ slot, program.run ⟨rest, before, slot⟩ =
    match interrupt slot effect.points with
    | (slot, some scratch) => .error .panic ⟨rest, scratch, slot⟩
    | (slot, none) => .ok effect.value ⟨rest, effect.scratch, slot⟩

/-! ### Rules -/

theorem interrupt_nil (slot : Option (Listener Event)) :
    interrupt slot ([] : List (Event × Scratch)) = (slot, none) := by
  cases slot <;> rfl

/-- Later events are heard if the listener did not panic before. -/
theorem interrupt_append (slot : Option (Listener Event)) (points later : List (Event × Scratch)) :
    interrupt slot (points ++ later) =
      match interrupt slot points with
      | (slot, some scratch) => (slot, some scratch)
      | (slot, none) => interrupt slot later := by
  cases slot with
  | none => simp only [interrupt]
  | some listener =>
    induction points generalizing listener with
    | nil => rfl
    | cons point points ih =>
      obtain ⟨event, scratch⟩ := point
      by_cases panicked : listener.panics listener.heard event
      · simp [interrupt, panicked]
      · simp only [List.cons_append, interrupt, panicked]
        exact ih (listener.hear event)

/-- A listener's panics do not depend on how often it was consulted. -/
theorem interrupt_consult (slot : Option (Listener Event)) (points : List (Event × Scratch)) :
    interrupt (slot.map Listener.consult) points =
      ((interrupt slot points).1.map Listener.consult, (interrupt slot points).2) := by
  cases slot with
  | none => simp only [Option.map_none, interrupt]
  | some listener =>
    induction points generalizing listener with
    | nil => rfl
    | cons point points ih =>
      obtain ⟨event, scratch⟩ := point
      by_cases panicked : listener.panics listener.heard event
      · simp only [Option.map_some, interrupt, Listener.consult, panicked, if_true]
        rfl
      · simp only [Option.map_some, interrupt, Listener.consult, panicked]
        exact ih (listener.hear event)

theorem performs_pure (rest : Rest) (value : α) (before : Scratch) :
    Performs rest (pure value : Program Rest Scratch Event α) before (.pure value before) := by
  intro slot
  simp only [Effect.pure, interrupt_nil]
  rfl

theorem performs_modifyScratch (rest : Rest) (change : Scratch → α × Scratch) (before : Scratch) :
    Performs rest (modifyScratch change : Program Rest Scratch Event α) before
      (.pure (change before).1 (change before).2) := by
  intro slot
  simp only [Effect.pure, interrupt_nil]
  rfl

theorem performs_announce (rest : Rest) (event : Event) (before : Scratch) :
    Performs rest (announce event : Program Rest Scratch Event Unit) before
      (.announce event before) := by
  intro slot
  cases slot with
  | none => rfl
  | some listener =>
    simp only [Effect.announce, interrupt, announce, EStateM.run]
    split <;> rfl

theorem Performs.bind {rest : Rest} {first : Program Rest Scratch Event α}
    {next : α → Program Rest Scratch Event β} {before : Scratch} {effect : Effect Scratch Event α}
    {second whole : Effect Scratch Event β} (performs : Performs rest first before effect)
    (later : Performs rest (next effect.value) effect.scratch second)
    (joined : effect.followed second = whole) : Performs rest (first >>= next) before whole := by
  subst joined
  intro slot
  have ran := performs slot
  simp only [EStateM.run] at ran
  simp only [EStateM.run, Bind.bind, EStateM.bind, Effect.followed, interrupt_append, ran]
  rcases interrupt slot effect.points with ⟨slot, _ | scratch⟩
  · exact later slot
  · rfl

/-- Reading the shared part is passing it on. -/
theorem Performs.readRest {rest : Rest} {next : Rest → Program Rest Scratch Event α}
    {before : Scratch} {effect : Effect Scratch Event α}
    (performs : Performs rest (next rest) before effect) :
    Performs rest (Unwinding.readRest >>= next) before effect :=
  performs

/-- Where a program leaves what it shares: the shared part is never changed. -/
theorem Performs.left_eq {rest : Rest} {program : Program Rest Scratch Event α} {before : Scratch}
    {effect : Effect Scratch Event α} (performs : Performs rest program before effect)
    (slot : Option (Listener Event)) :
    left (program.run ⟨rest, before, slot⟩) =
      ⟨rest, (interrupt slot effect.points).2.getD effect.scratch,
        (interrupt slot effect.points).1⟩ := by
  rw [performs slot]
  rcases interrupt slot effect.points with ⟨slot, _ | scratch⟩ <;> rfl

/-- A returned value is the one of the effect. -/
theorem Performs.returned {rest : Rest} {program : Program Rest Scratch Event α} {before : Scratch}
    {effect : Effect Scratch Event α} (performs : Performs rest program before effect)
    {slot : Option (Listener Event)} {value : α} {after : Shared Rest Scratch Event}
    (ran : program.run ⟨rest, before, slot⟩ = .ok value after) :
    value = effect.value ∧ after.rest = rest := by
  have performed := performs slot
  rw [ran] at performed
  split at performed
  · cases performed
  · cases performed
    exact ⟨rfl, rfl⟩

/-- What only returns a value, whatever is shared, leaves it alone. -/
theorem left_bind_of_returns {program : Program Rest Scratch Event α}
    {next : α → Program Rest Scratch Event β} {shared : Shared Rest Scratch Event}
    (returns : ∀ value shared, ∃ result, (next value).run shared = .ok result shared) :
    left ((program >>= next).run shared) = left (program.run shared) := by
  simp only [EStateM.run] at returns ⊢
  simp only [Bind.bind, EStateM.bind]
  cases program shared with
  | error stop after => rfl
  | ok value after =>
    obtain ⟨result, equal⟩ := returns value after
    simp only [equal]
    rfl

/-! ### What a listener hears -/

/-- The last of the events is one that the listener panics at. -/
def Panicked (listener : Listener Event) (fired : List Event) : Prop :=
  ∃ before event, fired = before ++ [event] ∧ listener.panics (listener.heard ++ before) event

/-- The listener heard the events, one after the other. If the program unwound, it heard the first
part of them up to a panic of its own, unless the program has faults to panic at. -/
def Hears (faults : Prop) (listener : Listener Event) (events : List Event) :
    EStateM.Result Unwind (Shared Rest Scratch Event) α → Prop
  | .ok _ shared => shared.slot = some (listener.after events)
  | .error _ shared => ∃ fired, fired <+: events ∧ shared.slot = some (listener.after fired) ∧
      (faults ∨ Panicked listener fired)

theorem Panicked.append {listener : Listener Event} {events fired : List Event}
    (panicked : Panicked (listener.after events) fired) : Panicked listener (events ++ fired) := by
  obtain ⟨before, event, rfl, panics⟩ := panicked
  refine ⟨events ++ before, event, ?_, ?_⟩
  · rw [List.append_assoc]
  · rwa [← List.append_assoc]

theorem interrupt_some (listener : Listener Event) (points : List (Event × Scratch)) :
    interrupt (some listener) points = (some (listener.after (points.map Prod.fst)), none) ∨
    ∃ fired scratch, fired <+: points.map Prod.fst ∧ Panicked listener fired ∧
      interrupt (some listener) points = (some (listener.after fired), some scratch) := by
  induction points generalizing listener with
  | nil =>
    left
    simp [interrupt]
  | cons point points ih =>
    obtain ⟨event, scratch⟩ := point
    by_cases panicked : listener.panics listener.heard event
    · right
      refine ⟨[event], scratch, List.prefix_append [event] (points.map Prod.fst), ?_, ?_⟩
      · exact ⟨[], event, rfl, by rwa [List.append_nil]⟩
      · simp only [interrupt, panicked, if_true]
        rfl
    · simp only [interrupt, panicked, List.map_cons]
      -- The listener goes on with the event in its memory.
      rcases ih (listener.hear event) with all | ⟨fired, scratch, first, later, stopped⟩
      · left
        simpa [Listener.hear] using all
      · right
        refine ⟨event :: fired, scratch, (List.prefix_cons_inj event).2 first, ?_, ?_⟩
        · exact Panicked.append later
        · simpa [Listener.hear] using stopped

theorem Performs.hears {rest : Rest} {program : Program Rest Scratch Event α} {before : Scratch}
    {effect : Effect Scratch Event α} (performs : Performs rest program before effect)
    (faults : Prop) (listener : Listener Event) :
    Hears faults listener (effect.points.map Prod.fst)
      (program.run ⟨rest, before, some listener⟩) := by
  rw [performs (some listener)]
  rcases interrupt_some listener effect.points with all | ⟨fired, scratch, first, panicked, stopped⟩
  · rw [all]
    rfl
  · rw [stopped]
    exact ⟨fired, first, rfl, .inr panicked⟩

theorem Hears.bind {faults : Prop} {listener : Listener Event} {events later : List Event}
    {program : Program Rest Scratch Event α} {next : α → Program Rest Scratch Event β}
    {shared : Shared Rest Scratch Event}
    (first : Hears faults listener events (program.run shared))
    (second : ∀ value after, program.run shared = .ok value after →
      after.slot = some (listener.after events) →
      Hears faults (listener.after events) later ((next value).run after)) :
    Hears faults listener (events ++ later) ((program >>= next).run shared) := by
  simp only [EStateM.run] at first second ⊢
  simp only [Bind.bind, EStateM.bind]
  cases ran : program shared with
  | error stop after =>
    rw [ran] at first
    obtain ⟨fired, part, slot, cause⟩ := first
    exact ⟨fired, part.trans (List.prefix_append events later), slot, cause⟩
  | ok value after =>
    rw [ran] at first
    have heard := second value after ran first
    simp only
    cases ended : next value after with
    | ok result final =>
      rw [ended] at heard
      exact heard.trans (by rw [Listener.after_after])
    | error stop final =>
      rw [ended] at heard
      obtain ⟨fired, part, slot, cause⟩ := heard
      refine ⟨events ++ fired, (List.prefix_append_right_inj events).2 part, ?_,
        cause.imp_right Panicked.append⟩
      rw [slot, Listener.after_after]

/-- What only returns a value adds no event. -/
theorem Hears.bind_returns {faults : Prop} {listener : Listener Event} {events : List Event}
    {program : Program Rest Scratch Event α} {next : α → Program Rest Scratch Event β}
    {shared : Shared Rest Scratch Event}
    (first : Hears faults listener events (program.run shared))
    (returns : ∀ value shared, ∃ result, (next value).run shared = .ok result shared) :
    Hears faults listener events ((program >>= next).run shared) := by
  rw [← List.append_nil events]
  apply first.bind
  intro value after _ slot
  obtain ⟨result, equal⟩ := returns value after
  rw [equal]
  exact slot.trans (by rw [Listener.after_nil])

theorem hears_nil_of_ok {faults : Prop} {listener : Listener Event} {value : α}
    {shared : Shared Rest Scratch Event} (slot : shared.slot = some listener) :
    Hears faults listener [] (.ok value shared) :=
  slot.trans (by rw [Listener.after_nil])

/-! ### Programs that change what they share -/

/-- The scratch at the events only tells where the program stops. -/
theorem interrupt_map {Other : Type} (forget : Scratch → Other) (slot : Option (Listener Event))
    (points : List (Event × Scratch)) :
    interrupt slot (points.map fun point => (point.1, forget point.2)) =
      ((interrupt slot points).1, (interrupt slot points).2.map forget) := by
  cases slot with
  | none => simp only [interrupt, Option.map_none]
  | some listener =>
    induction points generalizing listener with
    | nil => rfl
    | cons point points ih =>
      simp only [List.map_cons, interrupt]
      split
      · rfl
      · exact ih (listener.hear point.1)

/-- The listener after it heard the events up to one that it panics at, and whether it did. -/
def hearAll (slot : Option (Listener Event)) (events : List Event) :
    Option (Listener Event) × Option Unit :=
  interrupt slot (events.map fun event => (event, ()))

theorem hearAll_nil (slot : Option (Listener Event)) : hearAll slot [] = (slot, none) :=
  interrupt_nil slot

theorem hearAll_append (slot : Option (Listener Event)) (events later : List Event) :
    hearAll slot (events ++ later) =
      match hearAll slot events with
      | (slot, some stop) => (slot, some stop)
      | (slot, none) => hearAll slot later := by
  simp only [hearAll, List.map_append, interrupt_append]
  rcases interrupt slot _ with ⟨slot, _ | stop⟩ <;> rfl

/-- How a program ends after a listener heard its events: it returns the value with what it makes of
the rest and the scratch. It unwinds if the listener panicked, or if there is nothing to return; the
rest it leaves then is one of those `unwound`. -/
def Concludes (unwound : Rest → Prop) (ending : Option (α × Rest × Scratch))
    (heard : Option (Listener Event) × Option Unit)
    (result : EStateM.Result Unwind (Shared Rest Scratch Event) α) : Prop :=
  match heard.2, ending with
  | none, some (value, rest, scratch) => result = .ok value ⟨rest, scratch, heard.1⟩
  | _, _ => ∃ stopped, result = .error .panic stopped ∧ stopped.slot = heard.1 ∧ unwound stopped.rest

/-- With any listener the program announces the events until that panics, and then ends. -/
def Reports (unwound : Rest → Prop) (rest : Rest) (program : Program Rest Scratch Event α)
    (scratch : Scratch) (events : List Event) (ending : Option (α × Rest × Scratch)) : Prop :=
  ∀ slot, Concludes unwound ending (hearAll slot events) (program.run ⟨rest, scratch, slot⟩)

section Reports

variable {unwound : Rest → Prop} {rest rest' : Rest} {scratch scratch' : Scratch}
  {events later : List Event} {program : Program Rest Scratch Event α}
  {next : α → Program Rest Scratch Event β} {value : α} {ending : Option (β × Rest × Scratch)}

theorem Performs.reports {effect : Effect Scratch Event α}
    (performs : Performs rest program scratch effect) (here : unwound rest) :
    Reports unwound rest program scratch (effect.points.map Prod.fst)
      (some (effect.value, rest, effect.scratch)) := by
  intro slot
  have heard : hearAll slot (effect.points.map Prod.fst) =
      ((interrupt slot effect.points).1, (interrupt slot effect.points).2.map fun _ => ()) := by
    rw [← interrupt_map, hearAll, List.map_map]
    rfl
  rw [heard, performs slot]
  rcases interrupt slot effect.points with ⟨slot, _ | stop⟩
  · rfl
  · exact ⟨_, rfl, rfl, here⟩

theorem reports_pure :
    Reports unwound rest (pure value : Program Rest Scratch Event α) scratch []
      (some (value, rest, scratch)) := by
  intro slot
  rw [hearAll_nil]
  rfl

theorem reports_writeRest :
    Reports unwound rest (writeRest rest' : Program Rest Scratch Event Unit) scratch []
      (some ((), rest', scratch)) := by
  intro slot
  rw [hearAll_nil]
  rfl

theorem reports_panic (here : unwound rest) :
    Reports unwound rest (panic : Program Rest Scratch Event α) scratch [] none := by
  intro slot
  rw [hearAll_nil]
  exact ⟨_, rfl, rfl, here⟩

/-- What comes next starts from what the first part returns and leaves. -/
theorem Reports.bind
    (first : Reports unwound rest program scratch events (some (value, rest', scratch')))
    (second : Reports unwound rest' (next value) scratch' later ending) :
    Reports unwound rest (program >>= next) scratch (events ++ later) ending := by
  intro slot
  have ran := first slot
  rw [hearAll_append, EStateM.run_bind]
  generalize hearAll slot events = heard, program.run ⟨rest, scratch, slot⟩ = result at ran ⊢
  obtain ⟨heard, _ | stop⟩ := heard
  · obtain rfl : result = _ := ran
    exact second heard
  · obtain ⟨stopped, rfl, left, here⟩ := ran
    exact ⟨stopped, rfl, left, here⟩

theorem Reports.readRest {next : Rest → Program Rest Scratch Event β}
    (second : Reports unwound rest (next rest) scratch later ending) :
    Reports unwound rest (Unwinding.readRest >>= next) scratch later ending :=
  second

/-- A part that panics by itself comes to no next one. -/
theorem Reports.bind_none (first : Reports unwound rest program scratch events none) :
    Reports unwound rest (program >>= next) scratch events none := by
  intro slot
  have ran := first slot
  rw [EStateM.run_bind]
  generalize hearAll slot events = heard, program.run ⟨rest, scratch, slot⟩ = result at ran ⊢
  obtain ⟨heard, _ | stop⟩ := heard
  all_goals
    obtain ⟨stopped, rfl, left, here⟩ := ran
    exact ⟨stopped, rfl, left, here⟩

end Reports

end Foundation.Unwinding
