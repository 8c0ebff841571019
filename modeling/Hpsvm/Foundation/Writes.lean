import Mathlib

/-! Lists of keyed writes, of which the last one to a key counts. -/

namespace Foundation.Writes

variable {κ α β : Type*} [DecidableEq κ]

/-- The value of the last write to a key. -/
def last : List (κ × α) → κ → Option α
  | [], _ => none
  | (written, value) :: rest, key =>
    match last rest key with
    | some later => some later
    | none => if written = key then some value else none

theorem mem_of_last {writes : List (κ × α)} {key : κ} {value : α}
    (found : last writes key = some value) : (key, value) ∈ writes := by
  induction writes with
  | nil => cases found
  | cons write rest ih =>
    obtain ⟨written, first⟩ := write
    unfold last at found
    split at found
    next later equal =>
      cases found
      exact List.mem_cons_of_mem _ (ih equal)
    next equal =>
      split at found
      next same =>
        cases found
        subst same
        exact List.mem_cons_self
      · cases found

theorem last_eq_none_iff {writes : List (κ × α)} {key : κ} :
    last writes key = none ↔ key ∉ writes.map Prod.fst := by
  induction writes with
  | nil => simp [last]
  | cons write rest ih =>
    obtain ⟨written, first⟩ := write
    rw [List.map_cons, List.mem_cons, not_or, ← ih]
    cases equal : last rest key with
    | some later => simp [last, equal]
    | none => simp [last, equal, eq_comm]

/-- A key that is written somewhere has a last write. -/
theorem exists_last {writes : List (κ × α)} {key : κ} {value : α}
    (member : (key, value) ∈ writes) : ∃ later, last writes key = some later := by
  cases found : last writes key with
  | some later => exact ⟨later, rfl⟩
  | none => exact absurd (List.mem_map_of_mem member) (last_eq_none_iff.1 found)

/-- Where all writes to a key look alike under `view`, so does the last one. -/
theorem view_last {writes : List (κ × α)} {key : κ} {value : α} (view : α → β)
    (agree : ∀ first second, (key, first) ∈ writes → (key, second) ∈ writes →
      view first = view second)
    (member : (key, value) ∈ writes) : (last writes key).map view = some (view value) := by
  obtain ⟨later, found⟩ := exists_last member
  rw [found, Option.map_some, agree later value (mem_of_last found) member]

/-- With distinct keys every write is the last to its key. -/
theorem last_of_nodup {writes : List (κ × α)} (nodup : (writes.map Prod.fst).Nodup)
    {key : κ} {value : α} (member : (key, value) ∈ writes) : last writes key = some value := by
  obtain ⟨later, found⟩ := exists_last member
  have same := List.inj_on_of_nodup_map nodup (mem_of_last found) member rfl
  rw [found, (Prod.mk.inj same).2]

/-! ### Records of changes -/

section Records

variable {δ : Type*} (key : δ → κ) (value : δ → β)

/-- Writes the values of the records, in order. -/
def write (records : List δ) (view : κ → β) : κ → β :=
  records.foldl (fun view record => Function.update view (key record) (value record)) view

/-- Writes the values of the records, the last one first. -/
def writeBack (records : List δ) (view : κ → β) : κ → β :=
  records.foldr (fun record view => Function.update view (key record) (value record)) view

theorem writeBack_cons (record : δ) (records : List δ) (view : κ → β) :
    writeBack key value (record :: records) view =
      Function.update (writeBack key value records view) (key record) (value record) := rfl

theorem write_reverse (records : List δ) (view : κ → β) :
    write key value records.reverse view = writeBack key value records view :=
  List.foldl_reverse

variable {key value}

theorem write_of_notMem {records : List δ} {at_key : κ} (unwritten : at_key ∉ records.map key)
    (view : κ → β) : write key value records view at_key = view at_key := by
  induction records generalizing view with
  | nil => rfl
  | cons record rest ih =>
    rw [List.map_cons, List.mem_cons, not_or] at unwritten
    have others := ih unwritten.2 (Function.update view (key record) (value record))
    exact others.trans (Function.update_of_ne unwritten.1 _ _)

/-- Where the records of a key have one value, that is what they leave. -/
theorem writeBack_of_settled {records : List δ} {target : κ → β}
    (settled : ∀ record ∈ records, value record = target (key record)) (view : κ → β) (at_key : κ) :
    writeBack key value records view at_key =
      if at_key ∈ records.map key then target at_key else view at_key := by
  induction records with
  | nil => simp [writeBack]
  | cons record rest ih =>
    have others := ih fun other member => settled other (List.mem_cons_of_mem _ member)
    rw [writeBack_cons]
    by_cases same : at_key = key record
    · subst same
      simp [settled record List.mem_cons_self]
    · simp [same, others]

theorem write_of_settled {records : List δ} {target : κ → β}
    (settled : ∀ record ∈ records, value record = target (key record)) (view : κ → β) (at_key : κ) :
    write key value records view at_key =
      if at_key ∈ records.map key then target at_key else view at_key := by
  have reversed : ∀ record ∈ records.reverse, value record = target (key record) :=
    fun record member => settled record (List.mem_reverse.1 member)
  have backward := writeBack_of_settled reversed view at_key
  rw [← write_reverse, List.reverse_reverse] at backward
  simpa using backward

end Records

/-! ### Totals -/

/-- Writing over a total takes away what the written keys had and adds what they got. -/
theorem sum_last [Fintype κ] (writes : List (κ × α)) (amount : α → Nat) (before : κ → Nat) :
    (∑ key, (last writes key).elim (before key) amount) +
        ∑ key ∈ (writes.map Prod.fst).toFinset, before key =
      (∑ key, before key) +
        ∑ key ∈ (writes.map Prod.fst).toFinset, (last writes key).elim 0 amount := by
  have unwritten : ∀ key ∈ ((writes.map Prod.fst).toFinset)ᶜ,
      (last writes key).elim (before key) amount = before key := by
    intro key outside
    have missing : last writes key = none := by
      rw [last_eq_none_iff]
      simpa using outside
    rw [missing]
    rfl
  have written : ∀ key ∈ (writes.map Prod.fst).toFinset,
      (last writes key).elim (before key) amount = (last writes key).elim 0 amount := by
    intro key inside
    have found : last writes key ≠ none := by
      rw [Ne, last_eq_none_iff, not_not]
      exact List.mem_toFinset.1 inside
    obtain ⟨value, equal⟩ := Option.ne_none_iff_exists'.1 found
    rw [equal]
    rfl
  have outside : ∑ key ∈ ((writes.map Prod.fst).toFinset)ᶜ,
      (last writes key).elim (before key) amount =
        ∑ key ∈ ((writes.map Prod.fst).toFinset)ᶜ, before key := Finset.sum_congr rfl unwritten
  have inside : ∑ key ∈ (writes.map Prod.fst).toFinset,
      (last writes key).elim (before key) amount =
        ∑ key ∈ (writes.map Prod.fst).toFinset, (last writes key).elim 0 amount :=
    Finset.sum_congr rfl written
  have all := Finset.sum_add_sum_compl (writes.map Prod.fst).toFinset fun key =>
    (last writes key).elim (before key) amount
  have earlier := Finset.sum_add_sum_compl (writes.map Prod.fst).toFinset fun key => before key
  omega

/-- With distinct keys a total over the written keys is a total over the writes. -/
theorem sum_last_of_nodup {writes : List (κ × α)} (nodup : (writes.map Prod.fst).Nodup)
    (amount : α → Nat) :
    ∑ key ∈ (writes.map Prod.fst).toFinset, (last writes key).elim 0 amount =
      (writes.map fun write => amount write.2).sum := by
  rw [List.sum_toFinset _ nodup, List.map_map]
  refine congrArg List.sum (List.map_congr_left ?_)
  intro write member
  simp only [Function.comp_apply, last_of_nodup nodup (show (write.1, write.2) ∈ writes from member),
    Option.elim_some]

end Foundation.Writes
