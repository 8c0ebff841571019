import Hpsvm.Foundation.Runs
import Mathlib.Algebra.GroupWithZero.Nat
import Mathlib.Algebra.Order.BigOperators.Group.List
import Mathlib.Algebra.Order.Group.Nat

/-!
# Interleaved processes

Any number of processes that all run one program over a shared state. A process is known by its
phase, and a step takes one process from its phase to the next. What the processes do to the shared
state is logged, so that it can be said of each process what it did.
-/

namespace Foundation.Interleaving

variable {Phase Choice Shared Label : Type}

/-- The processes in the order they were started, the state they share, and their log. -/
structure System (Phase Shared Label : Type) where
  phases : List Phase
  shared : Shared
  log : List (Nat × Label)

/-- A new process, or a step of a running one, with what the program leaves open. -/
inductive Op (Phase Choice : Type)
  | start (phase : Phase)
  | move (process : Nat) (choice : Choice)

/-- The program: where a phase leads, what becomes of the shared state, and what is logged. -/
abbrev Program (Phase Choice Shared Label : Type) :=
  Phase → Choice → Shared → Option (Phase × Shared × List Label)

variable (program : Program Phase Choice Shared Label)
  (mayStart : Phase → System Phase Shared Label → Bool)

def step : Op Phase Choice → System Phase Shared Label → Option (System Phase Shared Label)
  | .start phase, system =>
    if mayStart phase system then some { system with phases := system.phases ++ [phase] } else none
  | .move process choice, system =>
    system.phases[process]?.bind fun phase =>
      (program phase choice system.shared).map fun (next, shared, labels) =>
        ⟨system.phases.set process next, shared, system.log ++ labels.map fun label => (process, label)⟩

namespace System

/-- The sum of a weight over all processes. -/
def total (weight : Phase → Nat) (system : System Phase Shared Label) : Nat :=
  (system.phases.map weight).sum

/-- What a process has logged. -/
def labelsOf (system : System Phase Shared Label) (process : Nat) : List Label :=
  (system.log.filter fun entry => entry.1 == process).map Prod.snd

end System

variable {program mayStart} {system next : System Phase Shared Label}

theorem step_start {phase : Phase} (taken : step program mayStart (.start phase) system = some next) :
    mayStart phase system = true ∧ next = { system with phases := system.phases ++ [phase] } := by
  simp only [step] at taken
  split at taken
  next allowed =>
    cases taken
    exact ⟨allowed, rfl⟩
  · cases taken

/-- Everything a step can do. -/
theorem step_cases {op : Op Phase Choice} (taken : step program mayStart op system = some next) :
    (∃ phase, mayStart phase system = true ∧
      next = { system with phases := system.phases ++ [phase] }) ∨
    ∃ process phase choice phase' shared labels, system.phases[process]? = some phase ∧
      program phase choice system.shared = some (phase', shared, labels) ∧
      next = ⟨system.phases.set process phase', shared,
        system.log ++ labels.map fun label => (process, label)⟩ := by
  cases op with
  | start phase => exact .inl ⟨phase, step_start taken⟩
  | move process choice =>
    obtain ⟨phase, found, moved⟩ := Option.bind_eq_some_iff.1 taken
    obtain ⟨⟨phase', shared, labels⟩, ran, rfl⟩ := Option.map_eq_some_iff.1 moved
    exact .inr ⟨process, phase, choice, phase', shared, labels, found, ran, rfl⟩

/-- A process stays where the program does not lead out of. -/
theorem phase_kept {good : Phase → Prop}
    (kept : ∀ phase choice shared next, good phase → program phase choice shared = some next →
      good next.1)
    {op : Op Phase Choice} {process : Nat} (taken : step program mayStart op system = some next)
    (before : ∃ phase, system.phases[process]? = some phase ∧ good phase) :
    ∃ phase, next.phases[process]? = some phase ∧ good phase := by
  obtain ⟨phase, found, holds⟩ := before
  have inside : process < system.phases.length := (List.getElem?_eq_some_iff.1 found).1
  rcases step_cases taken with
    ⟨new, _, rfl⟩ | ⟨mover, old, choice, phase', shared, labels, there, ran, rfl⟩
  · exact ⟨phase, by simpa only [List.getElem?_append_left inside] using found, holds⟩
  · by_cases same : mover = process
    · subst same
      rw [found] at there
      cases there
      exact ⟨phase', List.getElem?_set_self inside, kept _ _ _ _ holds ran⟩
    · exact ⟨phase, by simpa only [List.getElem?_set_ne same] using found, holds⟩

/-! ### What holds of all processes -/

/-- An invariant of the shared state and the log, and one of every process that may speak of them. -/
structure Holds (invariant : Shared → List (Nat × Label) → Prop)
    (good : Shared → List (Nat × Label) → Phase → Prop) (system : System Phase Shared Label) :
    Prop where
  shared : invariant system.shared system.log
  phases : ∀ phase ∈ system.phases, good system.shared system.log phase

/-- A step of one process keeps the invariant and what holds of it, and does not disturb what holds of
the others. -/
theorem Holds.step {invariant : Shared → List (Nat × Label) → Prop}
    {good : Shared → List (Nat × Label) → Phase → Prop}
    (starts : ∀ phase (system : System Phase Shared Label), mayStart phase system = true →
      good system.shared system.log phase)
    (moves : ∀ process phase choice shared log phase' shared' labels, invariant shared log →
      good shared log phase → program phase choice shared = some (phase', shared', labels) →
      invariant shared' (log ++ labels.map fun label => (process, label)) ∧
      good shared' (log ++ labels.map fun label => (process, label)) phase' ∧
      ∀ other, good shared log other →
        good shared' (log ++ labels.map fun label => (process, label)) other)
    (op : Op Phase Choice) (system next : System Phase Shared Label)
    (holds : Holds invariant good system)
    (taken : Interleaving.step program mayStart op system = some next) :
    Holds invariant good next := by
  rcases step_cases taken with
    ⟨phase, allowed, rfl⟩ | ⟨process, phase, choice, phase', shared, labels, found, ran, rfl⟩
  · refine ⟨holds.shared, ?_⟩
    intro other member
    rcases List.mem_append.1 member with before | new
    · exact holds.phases other before
    · rw [List.mem_singleton.1 new]
      exact starts phase system allowed
  · obtain ⟨kept, moved, stable⟩ := moves process phase choice system.shared system.log phase' shared
      labels holds.shared (holds.phases phase (List.mem_of_getElem? found)) ran
    refine ⟨kept, ?_⟩
    intro other member
    rcases List.mem_or_eq_of_mem_set member with before | rfl
    · exact stable other (holds.phases other before)
    · exact moved

/-- Every label of a log has its cause in what was logged before it. -/
def Justified (cause : List (Nat × Label) → Label → Prop) (log : List (Nat × Label)) : Prop :=
  ∀ before process label after, log = before ++ (process, label) :: after → cause before label

namespace Justified

variable {cause : List (Nat × Label) → Label → Prop} {log : List (Nat × Label)}

theorem nil : Justified cause [] := by
  intro before process label after split
  simp at split

theorem concat (justified : Justified cause log) {label : Label} (caused : cause log label)
    (process : Nat) : Justified cause (log ++ [(process, label)]) := by
  intro before mover logged after split
  -- Either the new label is the one asked about, or it is the last of those after it.
  rcases List.eq_nil_or_concat after with rfl | ⟨front, last, rfl⟩
  · obtain ⟨rfl, same⟩ := List.append_inj' split rfl
    cases same
    exact caused
  · rw [List.concat_eq_append, ← List.cons_append, ← List.append_assoc] at split
    exact justified before mover logged front (List.append_inj' split rfl).1

/-- Labels with their causes in the log, for causes that stay. -/
theorem append (mono : ∀ log more label, cause log label → cause (log ++ more) label)
    (justified : Justified cause log) {labels : List Label} (caused : ∀ label ∈ labels, cause log label)
    (process : Nat) : Justified cause (log ++ labels.map fun label => (process, label)) := by
  induction labels generalizing log with
  | nil => simpa using justified
  | cons label rest ih =>
    obtain ⟨first, others⟩ := List.forall_mem_cons.1 caused
    have extended := ih (justified.concat first process)
      fun other member => mono log _ other (others other member)
    simpa using extended

end Justified

/-! ### Sums over the processes -/

theorem sum_map_set (weight : Phase → Nat) {phases : List Phase} {process : Nat} {phase : Phase}
    (found : phases[process]? = some phase) (next : Phase) :
    ((phases.set process next).map weight).sum + weight phase =
      (phases.map weight).sum + weight next := by
  induction phases generalizing process with
  | nil => cases found
  | cons first rest ih =>
    cases process with
    | zero =>
      cases found
      simp only [List.set_cons_zero, List.map_cons, List.sum_cons]
      omega
    | succ process =>
      have tail : rest[process]? = some phase := found
      have others := ih tail
      simp only [List.set_cons_succ, List.map_cons, List.sum_cons]
      omega

/-- A process counts in the sum. -/
theorem weight_le_total (weight : Phase → Nat) {process : Nat} {phase : Phase}
    (found : system.phases[process]? = some phase) : weight phase ≤ system.total weight :=
  List.single_le_sum (fun _ _ => Nat.zero_le _) _
    (List.mem_map_of_mem (List.mem_of_getElem? found))

theorem total_eq_zero {weight : Phase → Nat} (none : ∀ phase ∈ system.phases, weight phase = 0) :
    system.total weight = 0 :=
  List.sum_eq_zero fun value member => by
    obtain ⟨phase, listed, rfl⟩ := List.mem_map.1 member
    exact none phase listed

theorem total_le {weight other : Phase → Nat} (bounded : ∀ phase, weight phase ≤ other phase) :
    system.total weight ≤ system.total other :=
  List.sum_le_sum fun phase _ => bounded phase

theorem total_le_add {weight first second : Phase → Nat}
    (bounded : ∀ phase, weight phase ≤ first phase + second phase) :
    system.total weight ≤ system.total first + system.total second := by
  have sum : system.total weight ≤ system.total fun phase => first phase + second phase :=
    total_le bounded
  simpa only [System.total, List.sum_map_add] using sum

theorem total_start (weight : Phase → Nat) (phase : Phase) :
    System.total weight { system with phases := system.phases ++ [phase] } =
      system.total weight + weight phase := by
  simp [System.total]

theorem total_move (weight : Phase → Nat) {process : Nat} {phase : Phase}
    (found : system.phases[process]? = some phase) (phase' : Phase) (shared : Shared)
    (log : List (Nat × Label)) :
    System.total weight ⟨system.phases.set process phase', shared, log⟩ + weight phase =
      system.total weight + weight phase' :=
  sum_map_set weight found phase'

/-! ### What each process did -/

/-- The log holds for each process what its phase says that it did by then. -/
structure Logged (did : Phase → List Label) (system : System Phase Shared Label) : Prop where
  labels : ∀ process phase, system.phases[process]? = some phase →
    system.labelsOf process = did phase
  known : ∀ entry ∈ system.log, entry.1 < system.phases.length

namespace Logged

variable {did : Phase → List Label}

theorem empty (shared : Shared) : Logged did (⟨[], shared, []⟩ : System Phase Shared Label) := by
  refine ⟨?_, ?_⟩
  · intro process phase found
    cases found
  · intro entry member
    cases member

theorem start (logged : Logged did system) {phase : Phase} (nothing : did phase = []) :
    Logged did { system with phases := system.phases ++ [phase] } := by
  refine ⟨?_, ?_⟩
  · intro process other found
    rcases Nat.lt_trichotomy process system.phases.length with before | same | after
    · rw [List.getElem?_append_left before] at found
      exact logged.labels process other found
    · -- The new process is not in the log yet.
      subst same
      rw [List.getElem?_concat_length] at found
      cases found
      rw [nothing, System.labelsOf, List.map_eq_nil_iff, List.filter_eq_nil_iff]
      intro entry member equal
      have known := logged.known entry member
      rw [eq_of_beq equal] at known
      exact Nat.lt_irrefl _ known
    · rw [List.getElem?_eq_none (by simp; omega)] at found
      cases found
  · intro entry member
    have bound := logged.known entry member
    simp only [List.length_append, List.length_singleton]
    omega

theorem move (logged : Logged did system) {process : Nat} {phase phase' : Phase} {shared : Shared}
    {labels : List Label} (found : system.phases[process]? = some phase)
    (adds : did phase' = did phase ++ labels) :
    Logged did (⟨system.phases.set process phase', shared,
      system.log ++ labels.map fun label => (process, label)⟩ :
        System Phase Shared Label) := by
  have inside : process < system.phases.length := (List.getElem?_eq_some_iff.1 found).1
  refine ⟨?_, ?_⟩
  · intro other current there
    -- The new labels are those of the process that moved.
    have split : System.labelsOf (⟨system.phases.set process phase', shared,
        system.log ++ labels.map fun label => (process, label)⟩ : System Phase Shared Label) other =
          system.labelsOf other ++ if process = other then labels else [] := by
      unfold System.labelsOf
      rw [List.filter_append, List.map_append, List.filter_map]
      by_cases same : process = other
      · simp [same, Function.comp_def]
      · simp [same, Function.comp_def]
    rw [split]
    by_cases same : process = other
    · subst same
      rw [List.getElem?_set_self inside] at there
      cases there
      rw [if_pos rfl, logged.labels process phase found, adds]
    · rw [List.getElem?_set_ne same] at there
      rw [if_neg same, List.append_nil, logged.labels other current there]
  · intro entry member
    rw [List.length_set]
    rcases List.mem_append.1 member with before | now
    · exact logged.known entry before
    · obtain ⟨label, _, rfl⟩ := List.mem_map.1 now
      exact inside

end Logged

end Foundation.Interleaving
