import Mathlib.Data.List.Basic

/-!
# Partitioning in place

One pass over an array that swaps every item that passes a test behind the ones before it. The array
is in three blocks all along: what has passed, what has not, and what the pass has not come to.
-/

namespace Foundation.TwoPointer

variable {α : Type*} {size read : Nat} (test : α → Bool)

/-- An array of which `read` items have been looked at and `write` have passed. -/
structure Pass (α : Type*) (size read : Nat) where
  items : Vector α size
  write : Nat
  write_le : write ≤ read

/-- One round: the item at `read` is swapped with the one at `write` if it passes. -/
def Pass.step (pass : Pass α size read) (inside : read < size) : Pass α size (read + 1) :=
  if test pass.items[read] then
    { items :=
        if pass.write = read then pass.items
        else pass.items.swap pass.write read (Nat.lt_of_le_of_lt pass.write_le inside) inside
      write := pass.write + 1
      write_le := Nat.succ_le_succ pass.write_le }
  else
    { items := pass.items
      write := pass.write
      write_le := Nat.le_succ_of_le pass.write_le }

def Pass.run (items : Vector α size) : (read : Nat) → read ≤ size → Pass α size read
  | 0, _ => ⟨items, 0, Nat.le_refl 0⟩
  | read + 1, inside => (run items read (Nat.le_of_succ_le inside)).step test inside

def partition (items : Array α) : Array α :=
  (Pass.run test items.toVector items.size (Nat.le_refl _)).items.toArray

/-! ### The blocks of a pass -/

/-- What has passed, what has not, and what is left. -/
structure Pass.Blocks (pass : Pass α size read) (front back rest : List α) : Prop where
  items : pass.items.toList = front ++ back ++ rest
  write : front.length = pass.write
  read : (front ++ back).length = read

/-- What a round does with the next item: the first that has not passed makes room for it. -/
inductive Moves : List α → List α → α → List α → List α → Prop
  | grows {front : List α} {item : α} (passes : test item = true) :
      Moves front [] item (front ++ [item]) []
  | swaps {front back : List α} {first item : α} (passes : test item = true) :
      Moves front (first :: back) item (front ++ [item]) (back ++ [first])
  | stays {front back : List α} {item : α} (fails : test item = false) :
      Moves front back item front (back ++ [item])

variable {test}

theorem Pass.Blocks.getElem_read {pass : Pass α size read} {front back rest : List α} {item : α}
    (blocks : pass.Blocks front back (item :: rest)) (inside : read < size) :
    pass.items[read] = item := by
  rw [← Vector.getElem_toList (by simpa using inside)]
  exact List.getElem_of_append blocks.items blocks.read

theorem Pass.Blocks.getElem_write {pass : Pass α size read} {front back rest : List α} {first : α}
    (blocks : pass.Blocks front (first :: back) rest) (inside : pass.write < size) :
    pass.items[pass.write] = first := by
  have items : pass.items.toList = front ++ first :: (back ++ rest) := by
    rw [blocks.items, List.append_assoc, List.cons_append]
  rw [← Vector.getElem_toList (by simpa using inside)]
  exact List.getElem_of_append items blocks.write

/-- The swap of a round. -/
theorem Pass.Blocks.swap {pass : Pass α size read} {front back rest : List α} {first item : α}
    (blocks : pass.Blocks front (first :: back) (item :: rest)) (below : pass.write < size)
    (inside : read < size) :
    (pass.items.swap pass.write read below inside).toList =
      front ++ [item] ++ (back ++ [first]) ++ rest := by
  have moved : (front ++ first :: back ++ item :: rest).set pass.write item =
      front ++ item :: back ++ item :: rest := by
    rw [← blocks.write]
    simp
  have length : (front ++ item :: back).length = read := by
    rw [← blocks.read]
    simp
  rw [Vector.toList_swap, blocks.getElem_read inside, blocks.getElem_write below, blocks.items, moved,
    ← length]
  simp

/-- What a round does to the blocks. -/
theorem Pass.Blocks.step {pass : Pass α size read} {front back rest : List α} {item : α}
    (blocks : pass.Blocks front back (item :: rest)) (inside : read < size) :
    ∃ front' back', Moves test front back item front' back' ∧
      (pass.step test inside).Blocks front' back' rest := by
  have lengths := blocks.read
  have passed := blocks.write
  rw [List.length_append] at lengths
  unfold Pass.step
  rw [blocks.getElem_read inside]
  cases tested : test item with
  | false =>
    refine ⟨front, back ++ [item], .stays tested, ?_, passed, ?_⟩
    · simp [blocks.items]
    · simp only [List.length_append, List.length_singleton]
      omega
  | true =>
    cases back with
    | nil =>
      -- Everything has passed so far, so the item is in its place.
      have here : pass.write = read := passed.symm.trans lengths
      refine ⟨front ++ [item], [], .grows tested, ?_, ?_, ?_⟩
      · simp [blocks.items, here]
      · simp [passed]
      · simp [passed, here]
    | cons first back =>
      rw [List.length_cons] at lengths
      have apart : pass.write ≠ read := by omega
      refine ⟨front ++ [item], back ++ [first], .swaps tested, ?_, ?_, ?_⟩
      · simp only [if_true, if_neg apart]
        exact blocks.swap _ inside
      · simp [passed]
      · simp only [List.length_append, List.length_singleton]
        omega

/-- An invariant of the rounds, over the blocks. -/
theorem Pass.run_induct {items : Vector α size} {holds : List α → List α → List α → Prop}
    (moves : ∀ front back item rest front' back', Moves test front back item front' back' →
      holds front back (item :: rest) → holds front' back' rest)
    (initial : holds [] [] items.toList) (inside : read ≤ size) :
    ∃ front back rest, (Pass.run test items read inside).Blocks front back rest ∧
      holds front back rest := by
  induction read with
  | zero => exact ⟨[], [], items.toList, ⟨rfl, rfl, rfl⟩, initial⟩
  | succ read ih =>
    obtain ⟨front, back, rest, blocks, held⟩ := ih (Nat.le_of_succ_le inside)
    cases rest with
    | nil =>
      -- There is an item left to read.
      have length := congrArg List.length blocks.items
      rw [List.append_nil, blocks.read, Vector.length_toList] at length
      omega
    | cons item rest =>
      obtain ⟨front', back', moved, after⟩ := blocks.step inside
      exact ⟨front', back', rest, after, moves front back item rest front' back' moved held⟩

/-- An invariant of the rounds holds of the two blocks that a partition ends with. -/
theorem partition_induct {items : Array α} {holds : List α → List α → List α → Prop}
    (moves : ∀ front back item rest front' back', Moves test front back item front' back' →
      holds front back (item :: rest) → holds front' back' rest)
    (initial : holds [] [] items.toList) :
    ∃ front back, (partition test items).toList = front ++ back ∧ holds front back [] := by
  obtain ⟨front, back, rest, blocks, held⟩ :=
    @Pass.run_induct α items.size items.size test items.toVector holds moves initial (Nat.le_refl _)
  have length := congrArg List.length blocks.items
  rw [List.length_append, blocks.read, Vector.length_toList] at length
  obtain rfl : rest = [] := List.eq_nil_of_length_eq_zero (by omega)
  refine ⟨front, back, ?_, held⟩
  rw [← List.append_nil (front ++ back), ← blocks.items]
  rfl

/-! ### The partition -/

/-- Of all items, those that pass are in front and to come, in order, and the others behind and to
come. -/
structure Parted (test : α → Bool) (all front back rest : List α) : Prop where
  passed : front ++ rest.filter test = all.filter test
  failed : (back ++ rest.filter fun item => !test item).Perm (all.filter fun item => !test item)

theorem Parted.move {all front back rest front' back' : List α} {item : α}
    (parted : Parted test all front back (item :: rest))
    (moved : Moves test front back item front' back') : Parted test all front' back' rest := by
  obtain ⟨passed, failed⟩ := parted
  cases moved with
  | grows passes =>
    refine ⟨?_, ?_⟩
    · simpa [passes] using passed
    · simpa [passes] using failed
  | swaps passes =>
    refine ⟨?_, .trans ?_ failed⟩
    · simpa [passes] using passed
    · simp only [passes, Bool.not_true, Bool.false_eq_true, not_false_eq_true,
        List.filter_cons_of_neg]
      exact (List.perm_append_singleton _ _).append_right _
  | stays fails =>
    refine ⟨?_, ?_⟩
    · simpa [fails] using passed
    · simpa [fails] using failed

variable (test)

/-- The items that pass are in front and in order, and the others are behind them. -/
theorem partition_eq (items : Array α) :
    ∃ others, (partition test items).toList = items.toList.filter test ++ others ∧
      others.Perm (items.toList.filter fun item => !test item) ∧
      ∀ item ∈ others, test item = false := by
  have initial : Parted test items.toList [] [] items.toList := ⟨rfl, .refl _⟩
  obtain ⟨front, back, equal, passed, failed⟩ :=
    partition_induct (fun _ _ _ _ _ _ moved parted => parted.move moved) initial
  rw [List.filter_nil, List.append_nil] at passed failed
  refine ⟨back, by rw [equal, passed], failed, ?_⟩
  intro item member
  simpa using (List.mem_filter.1 (failed.mem_iff.1 member)).2

theorem partition_perm (items : Array α) : (partition test items).toList.Perm items.toList := by
  obtain ⟨others, equal, failed, -⟩ := partition_eq test items
  rw [equal]
  exact (failed.append_left _).trans (List.filter_append_perm test items.toList)

theorem filter_partition (items : Array α) :
    (partition test items).toList.filter test = items.toList.filter test := by
  obtain ⟨others, equal, -, fails⟩ := partition_eq test items
  have none_passes : others.filter test = [] := by
    rw [List.filter_eq_nil_iff]
    intro item member
    simp [fails item member]
  rw [equal, List.filter_append, none_passes, List.append_nil, List.filter_filter]
  simp

/-- An item that passes comes after no item that does not. -/
theorem pairwise_partition (items : Array α) :
    (partition test items).toList.Pairwise fun earlier later =>
      test later = true → test earlier = true := by
  obtain ⟨others, equal, -, fails⟩ := partition_eq test items
  have passes : ∀ item ∈ items.toList.filter test, test item = true :=
    fun item member => (List.mem_filter.1 member).2
  rw [equal, List.pairwise_append]
  refine ⟨?_, ?_, ?_⟩
  · exact List.pairwise_of_forall_mem_list fun earlier member _ _ _ => passes earlier member
  · refine List.pairwise_of_forall_mem_list fun _ _ later member passed => ?_
    rw [fails later member] at passed
    cases passed
  · exact fun earlier member _ _ _ => passes earlier member

end Foundation.TwoPointer
