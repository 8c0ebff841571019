import Mathlib.Data.List.Basic
import Mathlib.Logic.Function.Basic

/-!
# Parties that share a part of their state

A family of parties, each with a state of its own, of which one part is common to all. An action of
one party reaches the others through that part only, so a run whose actions leave the part as they
find it is, for each party, the run of its own actions.
-/

namespace Foundation.Sharing

/-- How the shared part sits in a state. -/
structure Lens (State Part : Type*) where
  get : State → Part
  put : Part → State → State
  get_put : ∀ part state, get (put part state) = part
  put_get : ∀ state, put (get state) state = state

variable {ι State Part Op Answer : Type*}

/-- The states of the parties, which all hold the same part. -/
structure Parties (ι : Type*) (lens : Lens State Part) where
  state : ι → State
  shared : ∀ party other, lens.get (state party) = lens.get (state other)

variable {lens : Lens State Part} [DecidableEq ι]

namespace Parties

/-- Every party starts from the same state. -/
def copies (state : State) : Parties ι lens := ⟨fun _ => state, fun _ _ => rfl⟩

/-- One party moves to a new state, and the others see its part. -/
def move (parties : Parties ι lens) (party : ι) (next : State) : Parties ι lens where
  state := fun other =>
    if other = party then next else lens.put (lens.get next) (parties.state other)
  shared := by
    have same : ∀ other, lens.get
        (if other = party then next else lens.put (lens.get next) (parties.state other)) =
          lens.get next := by
      intro other
      split
      · rfl
      · exact lens.get_put _ _
    intro other another
    rw [same other, same another]

theorem move_state_self (parties : Parties ι lens) (party : ι) (next : State) :
    (parties.move party next).state party = next := if_pos rfl

/-- A move that keeps the part is not seen by the others. -/
theorem move_state_of_ne (parties : Parties ι lens) {party other : ι} {next : State}
    (keeps : lens.get next = lens.get (parties.state party)) (differ : other ≠ party) :
    (parties.move party next).state other = parties.state other := by
  have part : lens.get next = lens.get (parties.state other) :=
    keeps.trans (parties.shared party other)
  calc (parties.move party next).state other
      = lens.put (lens.get next) (parties.state other) := if_neg differ
    _ = lens.put (lens.get (parties.state other)) (parties.state other) := by rw [part]
    _ = parties.state other := lens.put_get _

end Parties

/-- What one party did, or was answered. -/
def own {α : Type*} (party : ι) (events : List (ι × α)) : List α :=
  (events.filter fun event => event.1 = party).map Prod.snd

theorem own_cons_self {α : Type*} (party : ι) (event : α) (events : List (ι × α)) :
    own party ((party, event) :: events) = event :: own party events := by
  simp [own]

theorem own_cons_of_ne {α : Type*} {party other : ι} (differ : other ≠ party) (event : α)
    (events : List (ι × α)) : own party ((other, event) :: events) = own party events := by
  simp [own, differ]

variable (act : Op → State → Option (Answer × State))

/-- The actions of one party. -/
def runAlone : List Op → State → Option (List Answer × State)
  | [], state => some ([], state)
  | op :: rest, state =>
    (act op state).bind fun (answer, state) =>
      (runAlone rest state).map fun (answers, state) => (answer :: answers, state)

/-- An interleaving of the actions of all parties. -/
def run : List (ι × Op) → Parties ι lens → Option (List (ι × Answer) × Parties ι lens)
  | [], parties => some ([], parties)
  | (party, op) :: rest, parties =>
    (act op (parties.state party)).bind fun (answer, next) =>
      (run rest (parties.move party next)).map fun (answers, parties) =>
        ((party, answer) :: answers, parties)

/-- Under `alone`, each party answers and ends as it does by itself. -/
structure Isolated (alone : Op → State → Option (Answer × State)) (start : Parties ι lens)
    (steps : List (ι × Op)) : Prop where
  completes : ∀ answers parties, run act steps start = some (answers, parties) →
    ∀ party, runAlone alone (own party steps) (start.state party) =
      some (own party answers, parties.state party)
  fails : run act steps start = none →
    ∃ party, runAlone alone (own party steps) (start.state party) = none

/-- Every action of a run, in the state it is taken in. -/
def Along (holds : Op → State → Prop) (start : Parties ι lens) (steps : List (ι × Op)) : Prop :=
  ∀ before party op after answers parties, steps = before ++ (party, op) :: after →
    run act before start = some (answers, parties) → holds op (parties.state party)

/-- The action is the one taken alone, and leaves the shared part as it finds it. -/
structure Keeps (lens : Lens State Part) (alone : Op → State → Option (Answer × State)) (op : Op)
    (state : State) : Prop where
  alike : act op state = alone op state
  part : ∀ answer next, act op state = some (answer, next) → lens.get next = lens.get state

variable {act}

theorem Along.head {holds : Op → State → Prop} {start : Parties ι lens} {party : ι} {op : Op}
    {rest : List (ι × Op)} (along : Along act holds start ((party, op) :: rest)) :
    holds op (start.state party) :=
  along [] party op rest [] start rfl rfl

theorem Along.tail {holds : Op → State → Prop} {start : Parties ι lens} {party : ι} {op : Op}
    {rest : List (ι × Op)} (along : Along act holds start ((party, op) :: rest)) {answer : Answer}
    {next : State} (taken : act op (start.state party) = some (answer, next)) :
    Along act holds (start.move party next) rest := by
  intro before other op' after answers parties split reached
  refine along ((party, op) :: before) other op' after ((party, answer) :: answers) parties ?_ ?_
  · rw [split, List.cons_append]
  · simp [run, taken, reached]

theorem along_nil {holds : Op → State → Prop} {start : Parties ι lens} :
    Along act holds start [] := by
  intro before party op after answers parties split
  cases before <;> cases split

theorem along_cons {holds : Op → State → Prop} {start : Parties ι lens} {party : ι} {op : Op}
    {rest : List (ι × Op)} (first : holds op (start.state party))
    (others : ∀ answer next, act op (start.state party) = some (answer, next) →
      Along act holds (start.move party next) rest) :
    Along act holds start ((party, op) :: rest) := by
  intro before other op' after answers parties split reached
  cases before with
  | nil =>
    cases split
    cases reached
    exact first
  | cons step before =>
    cases split
    cases taken : act op (start.state party) with
    | none => simp [run, taken] at reached
    | some outcome =>
      obtain ⟨answer, next⟩ := outcome
      simp only [run, taken, Option.bind_some, Option.map_eq_some_iff, Prod.exists,
        Prod.mk.injEq] at reached
      obtain ⟨later, last, reached, rfl, rfl⟩ := reached
      exact others answer next taken before other op' after later last rfl reached

theorem Along.mono {holds holds' : Op → State → Prop} {start : Parties ι lens}
    {steps : List (ι × Op)} (imply : ∀ op state, holds op state → holds' op state)
    (along : Along act holds start steps) : Along act holds' start steps :=
  fun before party op after answers parties split reached =>
    imply _ _ (along before party op after answers parties split reached)

theorem Along.of_append {holds : Op → State → Prop} {start : Parties ι lens}
    {steps later : List (ι × Op)} (along : Along act holds start (steps ++ later)) :
    Along act holds start steps := by
  intro before party op after answers parties split reached
  refine along before party op (after ++ later) answers parties ?_ reached
  rw [split, List.append_assoc, List.cons_append]

/-- A run whose actions all keep the shared part is isolated. -/
theorem isolated_of_keeps {alone : Op → State → Option (Answer × State)} {start : Parties ι lens}
    {steps : List (ι × Op)} (keeps : Along act (Keeps act lens alone) start steps) :
    Isolated act alone start steps := by
  induction steps generalizing start with
  | nil =>
    refine ⟨?_, ?_⟩
    · intro answers parties ran party
      cases ran
      rfl
    · intro failed
      cases failed
  | cons step rest ih =>
    obtain ⟨party, op⟩ := step
    have first := keeps.head
    cases taken : act op (start.state party) with
    | none =>
      refine ⟨?_, ?_⟩
      · intro answers parties ran
        simp [run, taken] at ran
      · intro _
        refine ⟨party, ?_⟩
        rw [own_cons_self, runAlone, ← first.alike, taken]
        rfl
    | some outcome =>
      obtain ⟨answer, next⟩ := outcome
      have remaining := ih (keeps.tail taken)
      have same : ∀ other, other ≠ party →
          (start.move party next).state other = start.state other :=
        fun other differ => start.move_state_of_ne (first.part answer next taken) differ
      -- The party's own run takes this action first; no other run sees it.
      have alone_self : runAlone alone (own party ((party, op) :: rest)) (start.state party) =
          (runAlone alone (own party rest) ((start.move party next).state party)).map
            fun (answers, state) => (answer :: answers, state) := by
        rw [own_cons_self, runAlone, ← first.alike, taken, Parties.move_state_self]
        rfl
      have alone_other : ∀ other, other ≠ party →
          runAlone alone (own other ((party, op) :: rest)) (start.state other) =
            runAlone alone (own other rest) ((start.move party next).state other) := by
        intro other differ
        rw [own_cons_of_ne (Ne.symm differ), same other differ]
      refine ⟨?_, ?_⟩
      · intro answers parties ran other
        simp only [run, taken, Option.bind_some, Option.map_eq_some_iff, Prod.exists,
          Prod.mk.injEq] at ran
        obtain ⟨later, reached, ran, rfl, rfl⟩ := ran
        by_cases self : other = party
        · subst self
          rw [alone_self, remaining.completes later reached ran other, own_cons_self]
          rfl
        · rw [alone_other other self, remaining.completes later reached ran other,
            own_cons_of_ne (Ne.symm self)]
      · intro failed
        simp only [run, taken, Option.bind_some, Option.map_eq_none_iff] at failed
        obtain ⟨other, stuck⟩ := remaining.fails failed
        refine ⟨other, ?_⟩
        by_cases self : other = party
        · subst self
          rw [alone_self, stuck]
          rfl
        · rw [alone_other other self, stuck]

end Foundation.Sharing
