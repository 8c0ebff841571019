import Mathlib.Data.Finset.Card
import Mathlib.Data.Finset.Image
import Mathlib.Data.List.Induction
import Mathlib.Data.List.Nodup

/-!
# Greedy staging

Items with locks are placed one after the other into stages whose members do not conflict. An item
joins the lightest stage it does not conflict with, wherever that stage lies, or opens a new one.
-/

namespace Foundation.GreedyStages

/-- Locks, when they conflict, and how a stage gathers those of its members. -/
structure Locking (L : Type*) where
  conflicts : L → L → Bool
  merge : L → L → L
  weight : L → Nat
  conflicts_merge : ∀ first second other,
    conflicts (merge first second) other = (conflicts first other || conflicts second other)

structure Stage (L : Type*) where
  members : List Nat
  locks : L

variable {L : Type*} (locking : Locking L)

/-- A weight beats the best one so far. -/
def lighter (weight : Nat) : Option (Nat × Nat) → Bool
  | none => true
  | some (_, bestWeight) => decide (weight < bestWeight)

/-- The search for the lightest fitting stage; the first one counts among equals. -/
def bestFitFrom (locks : L) : Nat → Option (Nat × Nat) → List (Stage L) → Option (Nat × Nat)
  | _, best, [] => best
  | index, best, stage :: rest =>
    if locking.conflicts stage.locks locks then bestFitFrom locks (index + 1) best rest
    else
      let weight := locking.weight stage.locks
      bestFitFrom locks (index + 1)
        (if lighter weight best then some (index, weight) else best) rest

def bestFit (stages : List (Stage L)) (locks : L) : Option Nat :=
  (bestFitFrom locking locks 0 none stages).map Prod.fst

def place (stages : List (Stage L)) (index : Nat) (locks : L) : List (Stage L) :=
  match bestFit locking stages locks with
  | some chosen => stages.modify chosen fun stage =>
      ⟨stage.members ++ [index], locking.merge stage.locks locks⟩
  | none => stages ++ [⟨[index], locks⟩]

def placeAll : Nat → List L → List (Stage L) → List (Stage L)
  | _, [], stages => stages
  | index, locks :: rest, stages => placeAll (index + 1) rest (place locking stages index locks)

/-- The stages of a list of items, which are known by their positions. -/
def plan (locks : List L) : List (Stage L) := placeAll locking 0 locks []

theorem placeAll_append (index : Nat) (first second : List L) (stages : List (Stage L)) :
    placeAll locking index (first ++ second) stages =
      placeAll locking (index + first.length) second (placeAll locking index first stages) := by
  induction first generalizing index stages with
  | nil => rfl
  | cons locks rest ih =>
    rw [List.cons_append, placeAll, ih, placeAll, List.length_cons]
    congr 1
    omega

theorem plan_append_singleton (locks : List L) (last : L) :
    plan locking (locks ++ [last]) = place locking (plan locking locks) locks.length last := by
  rw [plan, placeAll_append, Nat.zero_add]
  rfl

/-! ### The chosen stage -/

theorem bestFitFrom_eq_some {locks : L} {index chosen weight : Nat} {best : Option (Nat × Nat)}
    {stages : List (Stage L)}
    (found : bestFitFrom locking locks index best stages = some (chosen, weight)) :
    best = some (chosen, weight) ∨ ∃ place stage, chosen = index + place ∧
      stages[place]? = some stage ∧ locking.conflicts stage.locks locks = false := by
  induction stages generalizing index best with
  | nil => exact .inl found
  | cons stage rest ih =>
    unfold bestFitFrom at found
    -- A stage found further on lies one place later in the longer list.
    have later : (∃ place other, chosen = index + 1 + place ∧ rest[place]? = some other ∧
        locking.conflicts other.locks locks = false) →
        ∃ place other, chosen = index + place ∧ (stage :: rest)[place]? = some other ∧
          locking.conflicts other.locks locks = false := by
      rintro ⟨place, other, rfl, listed, fits⟩
      exact ⟨place + 1, other, by omega, by simpa using listed, fits⟩
    split at found
    · rcases ih found with same | further
      · exact .inl same
      · exact .inr (later further)
    next fits =>
      simp only at found
      rcases ih found with same | further
      · split at same
        · cases same
          exact .inr ⟨0, stage, rfl, rfl, by simpa using fits⟩
        · exact .inl same
      · exact .inr (later further)

theorem bestFit_eq_some {stages : List (Stage L)} {locks : L} {chosen : Nat}
    (found : bestFit locking stages locks = some chosen) :
    ∃ stage, stages[chosen]? = some stage ∧ locking.conflicts stage.locks locks = false := by
  unfold bestFit at found
  obtain ⟨⟨index, weight⟩, inner, rfl⟩ := Option.map_eq_some_iff.1 found
  rcases bestFitFrom_eq_some locking inner with impossible | ⟨place, stage, rfl, listed, fits⟩
  · cases impossible
  · exact ⟨stage, by simpa using listed, fits⟩

/-- The stage an item goes to. -/
def target (stages : List (Stage L)) (locks : L) : Nat :=
  (bestFit locking stages locks).getD stages.length

/-- The item `index` is in the stage `place`. -/
def At (stages : List (Stage L)) (place index : Nat) : Prop :=
  ∃ stage, stages[place]? = some stage ∧ index ∈ stage.members

theorem At.lt_length {stages : List (Stage L)} {place index : Nat} (there : At stages place index) :
    place < stages.length := by
  obtain ⟨stage, listed, -⟩ := there
  exact (List.getElem?_eq_some_iff.1 listed).1

/-- Placing an item moves no other. -/
theorem at_place_iff {stages : List (Stage L)} {index : Nat} {locks : L} {place' other : Nat} :
    At (place locking stages index locks) place' other ↔
      At stages place' other ∨ other = index ∧ place' = target locking stages locks := by
  unfold place target
  cases found : bestFit locking stages locks with
  | some chosen =>
    obtain ⟨stage, listed, -⟩ := bestFit_eq_some locking found
    simp only [At, List.getElem?_modify, Option.getD_some]
    by_cases same : chosen = place'
    · subst same
      simp [listed]
    · have differ : place' ≠ chosen := fun equal => same equal.symm
      simp [same, differ]
  | none =>
    simp only [At, Option.getD_none]
    rcases Nat.lt_trichotomy place' stages.length with inside | last | outside
    · have differ : place' ≠ stages.length := by omega
      simp [List.getElem?_append_left inside, differ]
    · subst last
      simp
    · have differ : place' ≠ stages.length := by omega
      have missing : stages[place']? = none := List.getElem?_eq_none (by omega)
      have missing' : (stages ++ [⟨[index], locks⟩])[place']? = none :=
        List.getElem?_eq_none (by simp; omega)
      simp [missing, missing', differ]

/-! ### What every plan satisfies -/

/-- The stages hold each item once, in ascending order, apart from what it conflicts with, and a
stage conflicts with what its members conflict with. -/
structure Planned (locks : List L) (stages : List (Stage L)) : Prop where
  covered : ∀ index, (∃ place, At stages place index) ↔ index < locks.length
  once : ∀ index first second, At stages first index → At stages second index → first = second
  gathered : ∀ (place : Nat) (stage : Stage L) (other : L), stages[place]? = some stage →
    (locking.conflicts stage.locks other = true ↔ ∃ index ∈ stage.members, ∃ own,
      locks[index]? = some own ∧ locking.conflicts own other = true)
  ascending : ∀ stage ∈ stages, stage.members.Pairwise (· < ·)
  apart : ∀ place first second own other, At stages place first → At stages place second →
    first < second → locks[first]? = some own → locks[second]? = some other →
    locking.conflicts own other = false

theorem planned_nil : Planned locking ([] : List L) [] where
  covered := by simp [At]
  once := by simp [At]
  gathered := by simp
  ascending := by simp
  apart := by simp [At]

section Placing

variable {locking} {locks : List L} {stages : List (Stage L)} {last : L}

theorem Planned.lt_length (planned : Planned locking locks stages) {place index : Nat}
    (there : At stages place index) : index < locks.length :=
  (planned.covered index).1 ⟨place, there⟩

/-- The locks of an item that is placed do not change when another is added. -/
theorem Planned.getElem?_append (planned : Planned locking locks stages) {place index : Nat}
    (there : At stages place index) : (locks ++ [last])[index]? = locks[index]? :=
  List.getElem?_append_left (planned.lt_length there)

/-- The stage that takes an item does not conflict with it. -/
theorem Planned.fits_target (planned : Planned locking locks stages) {index : Nat} {own : L}
    (there : At stages (target locking stages last) index) (listed : locks[index]? = some own) :
    locking.conflicts own last = false := by
  unfold target at there
  cases found : bestFit locking stages last with
  | none =>
    rw [found] at there
    exact absurd there.lt_length (by simp)
  | some chosen =>
    rw [found] at there
    obtain ⟨stage, present, fits⟩ := bestFit_eq_some locking found
    obtain ⟨other, present', member⟩ := there
    rw [Option.getD_some, present] at present'
    cases present'
    by_contra conflict
    rw [Bool.not_eq_false] at conflict
    have gathered := (planned.gathered chosen stage last present).2 ⟨index, member, own, listed, conflict⟩
    rw [fits] at gathered
    cases gathered

theorem Planned.gathered_place (planned : Planned locking locks stages) {place' : Nat}
    {stage : Stage L} {other : L}
    (present : (place locking stages locks.length last)[place']? = some stage) :
    locking.conflicts stage.locks other = true ↔ ∃ index ∈ stage.members, ∃ own,
      (locks ++ [last])[index]? = some own ∧ locking.conflicts own other = true := by
  -- A stage that was there before speaks of the same locks.
  have old : ∀ earlier : Stage L, stages[place']? = some earlier →
      (locking.conflicts earlier.locks other = true ↔ ∃ index ∈ earlier.members, ∃ own,
        (locks ++ [last])[index]? = some own ∧ locking.conflicts own other = true) := by
    intro earlier listed
    rw [planned.gathered place' earlier other listed]
    refine exists_congr fun index => and_congr_right fun member => ?_
    rw [planned.getElem?_append ⟨earlier, listed, member⟩]
  unfold place at present
  split at present
  next chosen found =>
    obtain ⟨earlier, listed, -⟩ := bestFit_eq_some locking found
    by_cases same : chosen = place'
    · subst same
      obtain rfl : ⟨earlier.members ++ [locks.length], locking.merge earlier.locks last⟩ = stage := by
        simpa [List.getElem?_modify, listed] using present
      rw [locking.conflicts_merge, Bool.or_eq_true, old earlier listed]
      simp only [List.mem_append, List.mem_singleton, or_and_right, exists_or, exists_eq_left,
        List.getElem?_concat_length, Option.some.injEq, exists_eq_left']
    · exact old stage (by simpa [List.getElem?_modify, same] using present)
  · rcases Nat.lt_trichotomy place' stages.length with inside | rfl | outside
    · rw [List.getElem?_append_left inside] at present
      exact old stage present
    · rw [List.getElem?_concat_length] at present
      cases present
      simp
    · rw [List.getElem?_eq_none (by simp; omega)] at present
      cases present

theorem Planned.ascending_place (planned : Planned locking locks stages) {stage : Stage L}
    (member : stage ∈ place locking stages locks.length last) :
    stage.members.Pairwise (· < ·) := by
  unfold place at member
  split at member
  next chosen found =>
    obtain ⟨earlier, listed, -⟩ := bestFit_eq_some locking found
    obtain ⟨place', present⟩ := List.mem_iff_getElem?.1 member
    by_cases same : chosen = place'
    · subst same
      obtain rfl : ⟨earlier.members ++ [locks.length], locking.merge earlier.locks last⟩ = stage := by
        simpa [List.getElem?_modify, listed] using present
      rw [List.pairwise_append]
      refine ⟨planned.ascending earlier (List.mem_of_getElem? listed), List.pairwise_singleton _ _, ?_⟩
      intro index inside other equal
      rw [List.mem_singleton.1 equal]
      exact planned.lt_length ⟨earlier, listed, inside⟩
    · exact planned.ascending stage (List.mem_of_getElem?
        (by simpa [List.getElem?_modify, same] using present))
  · rcases List.mem_append.1 member with old | new
    · exact planned.ascending stage old
    · rw [List.mem_singleton.1 new]
      exact List.pairwise_singleton _ _

/-- Two items of the stages after a placement: both were there before, or the later one is new. -/
theorem Planned.place_cases (planned : Planned locking locks stages)
    {place₁ place₂ first second : Nat} {own other : L} (earlier : first < second)
    (one : At (place locking stages locks.length last) place₁ first)
    (two : At (place locking stages locks.length last) place₂ second)
    (listed : (locks ++ [last])[first]? = some own)
    (listed' : (locks ++ [last])[second]? = some other) :
    At stages place₁ first ∧ locks[first]? = some own ∧
      ((At stages place₂ second ∧ locks[second]? = some other) ∨
        (place₂ = target locking stages last ∧ other = last)) := by
  rw [at_place_iff] at one two
  -- The new item comes last, so the first of the two was there before.
  have old : At stages place₁ first := by
    rcases one with one | ⟨rfl, -⟩
    · exact one
    · rcases two with two | ⟨rfl, -⟩
      · exact absurd (planned.lt_length two) (by omega)
      · omega
  rw [planned.getElem?_append old] at listed
  refine ⟨old, listed, ?_⟩
  rcases two with two | ⟨rfl, rfl⟩
  · rw [planned.getElem?_append two] at listed'
    exact .inl ⟨two, listed'⟩
  · rw [List.getElem?_concat_length] at listed'
    exact .inr ⟨rfl, (Option.some.inj listed').symm⟩

theorem Planned.place (planned : Planned locking locks stages) :
    Planned locking (locks ++ [last]) (place locking stages locks.length last) where
  covered := by
    intro index
    simp only [at_place_iff, exists_or, planned.covered index, exists_and_left, exists_eq,
      and_true, List.length_append, List.length_singleton]
    omega
  once := by
    intro index first second one two
    rw [at_place_iff] at one two
    rcases one with one | ⟨rfl, rfl⟩ <;> rcases two with two | ⟨same, rfl⟩
    · exact planned.once index first second one two
    · exact absurd (planned.lt_length one) (by omega)
    · exact absurd (planned.lt_length two) (by omega)
    · rfl
  gathered := fun _ _ _ present => planned.gathered_place present
  ascending := fun _ member => planned.ascending_place member
  apart := by
    intro place' first second own other one two earlier listed listed'
    obtain ⟨there, owned, ⟨there', owned'⟩ | ⟨rfl, rfl⟩⟩ :=
      planned.place_cases earlier one two listed listed'
    · exact planned.apart place' first second own other there there' earlier owned owned'
    · exact planned.fits_target there owned

end Placing

theorem planned_plan (locks : List L) : Planned locking locks (plan locking locks) := by
  induction locks using List.reverseRecOn with
  | nil => exact planned_nil locking
  | append_singleton locks last ih =>
    rw [plan_append_singleton]
    exact ih.place

/-- The stages of a plan hold every item exactly once. -/
theorem members_plan_perm (locks : List L) :
    ((plan locking locks).flatMap Stage.members).Perm (List.range locks.length) := by
  have planned := planned_plan locking locks
  have nodup : ((plan locking locks).flatMap Stage.members).Nodup := by
    rw [List.nodup_flatMap]
    constructor
    · intro stage member
      exact (planned.ascending stage member).imp Nat.ne_of_lt
    · rw [List.pairwise_iff_getElem]
      intro first second inside inside' before index one two
      -- An item in two stages would be at two places.
      have same := planned.once index first second
        ⟨_, List.getElem?_eq_getElem inside, one⟩ ⟨_, List.getElem?_eq_getElem inside', two⟩
      omega
  rw [List.perm_ext_iff_of_nodup nodup List.nodup_range]
  intro index
  rw [List.mem_range, ← planned.covered index, List.mem_flatMap]
  constructor
  · rintro ⟨stage, listed, member⟩
    obtain ⟨place, present⟩ := List.mem_iff_getElem?.1 listed
    exact ⟨place, stage, present, member⟩
  · rintro ⟨place, stage, present, member⟩
    exact ⟨stage, List.mem_of_getElem? present, member⟩

/-- The first members of the stages. -/
def Heads (stages : List (Stage L)) (heads : List Nat) : Prop :=
  stages.map (fun stage => stage.members.head?) = heads.map some

/-- An item that joins a stage does not become its head; one that opens a stage does. -/
theorem heads_place {stages : List (Stage L)} {heads : List Nat} (index : Nat) (locks : L)
    (first : Heads stages heads) :
    Heads (place locking stages index locks) heads ∨
      Heads (place locking stages index locks) (heads ++ [index]) := by
  unfold place Heads at *
  cases found : bestFit locking stages locks with
  | none =>
    right
    simp [first]
  | some chosen =>
    left
    obtain ⟨stage, listed, -⟩ := bestFit_eq_some locking found
    have full : ∃ head, stage.members.head? = some head := by
      have head := congrArg (fun items => items[chosen]?) first
      simp only [List.getElem?_map, listed, Option.map_some] at head
      obtain ⟨value, -, equal⟩ := Option.map_eq_some_iff.1 head.symm
      exact ⟨value, equal.symm⟩
    obtain ⟨head, starts⟩ := full
    rw [← first]
    apply List.ext_getElem?
    intro place
    simp only [List.getElem?_map, List.getElem?_modify]
    by_cases same : chosen = place
    · subst same
      simp [listed, starts]
    · simp [same]

/-- The heads of a plan ascend. -/
theorem heads_plan_ascend (locks : List L) :
    ∃ heads, Heads (plan locking locks) heads ∧ heads.Pairwise (· < ·) := by
  -- The heads are items placed so far, so the next item lies behind them all.
  suffices found : ∃ heads, Heads (plan locking locks) heads ∧ heads.Pairwise (· < ·) ∧
      ∀ head ∈ heads, head < locks.length by
    obtain ⟨heads, first, ascend, -⟩ := found
    exact ⟨heads, first, ascend⟩
  induction locks using List.reverseRecOn with
  | nil => exact ⟨[], rfl, .nil, by simp⟩
  | append_singleton locks last ih =>
    obtain ⟨heads, first, ascend, below⟩ := ih
    rw [plan_append_singleton]
    simp only [List.length_append, List.length_singleton]
    rcases heads_place locking locks.length last first with same | opened
    · refine ⟨heads, same, ascend, ?_⟩
      intro head member
      have bound := below head member
      omega
    · refine ⟨heads ++ [locks.length], opened, ?_, ?_⟩
      · rw [List.pairwise_append]
        refine ⟨ascend, List.pairwise_singleton _ _, ?_⟩
        intro head member other equal
        rw [List.mem_singleton.1 equal]
        exact below head member
      · intro head member
        rcases List.mem_append.1 member with old | new
        · have bound := below head old
          omega
        · rw [List.mem_singleton.1 new]
          omega

/-! ### Keeping the order of conflicting items -/

/-- Of two conflicting items the earlier one is in an earlier stage. -/
def Ordered (locks : List L) (stages : List (Stage L)) : Prop :=
  ∀ first second own other place place', first < second → locks[first]? = some own →
    locks[second]? = some other → locking.conflicts own other = true →
    At stages place first → At stages place' second → place < place'

/-- No stage behind the one an item joins conflicts with it. -/
def JoinsLast (stages : List (Stage L)) (locks : L) : Prop :=
  ∀ chosen, bestFit locking stages locks = some chosen →
    ∀ (place : Nat) (stage : Stage L), chosen < place → stages[place]? = some stage →
      locking.conflicts stage.locks locks = false

variable {locking} {locks : List L} {stages : List (Stage L)} {last : L}

theorem ordered_place_iff (planned : Planned locking locks stages) :
    Ordered locking (locks ++ [last]) (place locking stages locks.length last) ↔
      Ordered locking locks stages ∧ JoinsLast locking stages last := by
  constructor
  · intro ordered
    refine ⟨?_, ?_⟩
    · intro first second own other place place' earlier listed listed' conflict one two
      refine ordered first second own other place place' earlier ?_ ?_ conflict
        ((at_place_iff locking).2 (.inl one)) ((at_place_iff locking).2 (.inl two))
      · rwa [planned.getElem?_append one]
      · rwa [planned.getElem?_append two]
    · intro chosen found place stage behind listed
      by_contra conflict
      rw [Bool.not_eq_false, planned.gathered place stage last listed] at conflict
      obtain ⟨index, member, own, owns, conflict⟩ := conflict
      have there : At stages place index := ⟨stage, listed, member⟩
      have placed : At (GreedyStages.place locking stages locks.length last) chosen locks.length :=
        (at_place_iff locking).2 (.inr ⟨rfl, by simp [target, found]⟩)
      have before := ordered index locks.length own last place chosen (planned.lt_length there)
        (by rwa [planned.getElem?_append there]) (by simp) conflict
        ((at_place_iff locking).2 (.inl there)) placed
      omega
  · rintro ⟨ordered, joins⟩ first second own other place place' earlier listed listed' conflict one two
    obtain ⟨there, owned, ⟨there', owned'⟩ | ⟨rfl, rfl⟩⟩ :=
      planned.place_cases earlier one two listed listed'
    · exact ordered first second own other place place' earlier owned owned' conflict there there'
    · -- The stage of the earlier item conflicts, so it is not the chosen one nor behind it.
      obtain ⟨stage, present, member⟩ := there
      have gathered := (planned.gathered place stage other present).2
        ⟨first, member, own, owned, conflict⟩
      unfold target
      cases found : bestFit locking stages other with
      | none => exact At.lt_length ⟨stage, present, member⟩
      | some chosen =>
        rw [Option.getD_some]
        obtain ⟨taken, present', fits⟩ := bestFit_eq_some locking found
        rcases Nat.lt_trichotomy place chosen with before | rfl | behind
        · exact before
        · rw [present] at present'
          cases present'
          rw [fits] at gathered
          cases gathered
        · rw [joins chosen found place stage behind present] at gathered
          cases gathered

/-- A plan keeps the order of conflicting items exactly when every item joins the last stage it could
conflict with, or one behind it. -/
theorem ordered_plan_iff (locks : List L) :
    Ordered locking locks (plan locking locks) ↔
      ∀ before last after, locks = before ++ last :: after →
        JoinsLast locking (plan locking before) last := by
  induction locks using List.reverseRecOn with
  | nil =>
    constructor
    · intro _ before last after split
      cases before <;> cases split
    · intro _ first second own other place place' _ listed
      cases listed
  | append_singleton locks final ih =>
    rw [plan_append_singleton, ordered_place_iff (planned_plan locking locks), ih]
    constructor
    · rintro ⟨earlier, joins⟩ before last after split
      rcases List.eq_nil_or_concat after with rfl | ⟨inner, tail, rfl⟩
      · obtain ⟨rfl, same⟩ := List.append_inj' split rfl
        cases same
        exact joins
      · refine earlier before last inner ?_
        have shorter : locks ++ [final] = (before ++ last :: inner) ++ [tail] := by simpa using split
        exact (List.append_inj' shorter rfl).1
    · intro steps
      refine ⟨?_, steps locks final [] rfl⟩
      rintro before last after rfl
      exact steps before last (after ++ [final]) (by simp)

/-! ### The number of stages -/

theorem bestFitFrom_eq_none {locks : L} {index : Nat} {best : Option (Nat × Nat)}
    {stages : List (Stage L)} (found : bestFitFrom locking locks index best stages = none) :
    best = none ∧ ∀ stage ∈ stages, locking.conflicts stage.locks locks = true := by
  induction stages generalizing index best with
  | nil => exact ⟨found, by simp⟩
  | cons stage rest ih =>
    unfold bestFitFrom at found
    split at found
    next conflict =>
      obtain ⟨nothing, others⟩ := ih found
      exact ⟨nothing, List.forall_mem_cons.2 ⟨conflict, others⟩⟩
    · -- A fitting stage leaves a best one behind.
      simp only at found
      obtain ⟨nothing, -⟩ := ih found
      cases best with
      | none => cases nothing
      | some best =>
        split at nothing <;> cases nothing

/-- A stage is opened only by an item that conflicts with all others. -/
theorem conflicts_of_bestFit_eq_none {stages : List (Stage L)} {locks : L}
    (found : bestFit locking stages locks = none) {stage : Stage L} (member : stage ∈ stages) :
    locking.conflicts stage.locks locks = true :=
  (bestFitFrom_eq_none (Option.map_eq_none_iff.1 found)).2 stage member

/-- The item that opened the last stage conflicts with an earlier item of every other stage. -/
theorem exists_opener (locks : List L) {count : Nat}
    (length : (plan locking locks).length = count + 1) :
    ∃ opener own, locks[opener]? = some own ∧ ∀ place < count, ∃ index,
      At (plan locking locks) place index ∧ index < opener ∧
        ∃ other, locks[index]? = some other ∧ locking.conflicts other own = true := by
  induction locks using List.reverseRecOn generalizing count with
  | nil => cases length
  | append_singleton locks last ih =>
    have planned := planned_plan locking locks
    rw [plan_append_singleton] at length ⊢
    cases found : bestFit locking (plan locking locks) last with
    | none =>
      simp only [place, found, List.length_append, List.length_singleton,
        Nat.add_right_cancel_iff] at length
      refine ⟨locks.length, last, by simp, ?_⟩
      intro place' before
      obtain ⟨stage, present⟩ : ∃ stage, (plan locking locks)[place']? = some stage :=
        ⟨_, List.getElem?_eq_getElem (by omega)⟩
      obtain ⟨index, member, other, owns, conflict⟩ :=
        (planned.gathered place' stage last present).1
          (conflicts_of_bestFit_eq_none found (List.mem_of_getElem? present))
      have there : At (plan locking locks) place' index := ⟨stage, present, member⟩
      exact ⟨index, (at_place_iff locking).2 (.inl there), planned.lt_length there, other,
        by rwa [planned.getElem?_append there], conflict⟩
    | some chosen =>
      simp only [place, found, List.length_modify] at length
      obtain ⟨opener, own, owned, earlier⟩ := ih length
      have inside := (List.getElem?_eq_some_iff.1 owned).1
      refine ⟨opener, own, by rwa [List.getElem?_append_left inside], ?_⟩
      intro place' before
      obtain ⟨index, there, first, other, owns, conflict⟩ := earlier place' before
      exact ⟨index, (at_place_iff locking).2 (.inl there), first, other,
        by rwa [planned.getElem?_append there], conflict⟩

/-- As many items as there are other stages come before an item and conflict with it. -/
theorem exists_conflicts (locks : List L) {count : Nat}
    (length : (plan locking locks).length = count + 1) :
    ∃ opener own, locks[opener]? = some own ∧ ∃ earlier : Finset Nat, earlier.card = count ∧
      ∀ index ∈ earlier, index < opener ∧
        ∃ other, locks[index]? = some other ∧ locking.conflicts other own = true := by
  obtain ⟨opener, own, owned, found⟩ := exists_opener locks length
  choose! index there conflicts using found
  refine ⟨opener, own, owned, (Finset.range count).image index, ?_, ?_⟩
  · rw [Finset.card_image_of_injOn, Finset.card_range]
    intro first one second two same
    -- An item is in one stage only.
    have one := there first (Finset.mem_range.1 one)
    have two := there second (Finset.mem_range.1 two)
    rw [same] at one
    exact (planned_plan locking locks).once _ first second one two
  · intro item member
    obtain ⟨place', listed, rfl⟩ := Finset.mem_image.1 member
    exact conflicts place' (Finset.mem_range.1 listed)

/-- Items that all conflict with each other need a stage each. -/
theorem card_le_length (locks : List L) (clique : Finset Nat)
    (items : ∀ index ∈ clique, index < locks.length)
    (rivals : ∀ first ∈ clique, ∀ second ∈ clique, first < second → ∀ own other,
      locks[first]? = some own → locks[second]? = some other →
      locking.conflicts own other = true) :
    clique.card ≤ (plan locking locks).length := by
  have planned := planned_plan locking locks
  have placed : ∀ index ∈ clique, ∃ place, At (plan locking locks) place index :=
    fun index member => (planned.covered index).2 (items index member)
  choose! place there using placed
  rw [← Finset.card_range (plan locking locks).length]
  apply Finset.card_le_card_of_injOn place
  · intro index member
    exact Finset.mem_coe.2 (Finset.mem_range.2 (there index member).lt_length)
  · intro first one second two same
    have below : ∀ first ∈ clique, ∀ second ∈ clique, first < second →
        place first ≠ place second := by
      intro first one second two before same
      have inside := List.getElem?_eq_getElem (items first one)
      have inside' := List.getElem?_eq_getElem (items second two)
      have conflict := rivals first one second two before _ _ inside inside'
      have apart := planned.apart (place first) first second _ _ (there first one)
        (by rw [same]; exact there second two) before inside inside'
      rw [apart] at conflict
      cases conflict
    rcases Nat.lt_trichotomy first second with before | equal | after
    · exact absurd same (below first one second two before)
    · exact equal
    · exact absurd same.symm (below second two first one after)

end Foundation.GreedyStages
