import Hpsvm.Foundation.RoundTrip
import Mathlib.Data.Rat.Defs
import Mathlib.Algebra.Field.Rat

/-!
# JSON documents

A document as its text spells it, and the value that a reader with bounded nesting and machine
numbers makes of it. The reader follows `serde_json`: it stops at the nesting limit and at a number
that is too large for a double, and it keeps an integer only if it fits into 64 bits.
-/

namespace Foundation

/-- A number as it is spelled. The fraction is the list of its digits. -/
structure JsonNumber where
  negative : Bool
  integer : Nat
  fraction : Option (List (Fin 10))
  exponent : Option Int
deriving DecidableEq, Repr

namespace JsonNumber

/-- The number that is meant. -/
def value (number : JsonNumber) : ℚ :=
  let digits := number.fraction.getD []
  let mantissa := digits.foldl (fun total digit => 10 * total + digit.val) number.integer
  let scale := number.exponent.getD 0 - digits.length
  (if number.negative then -1 else 1) * mantissa * 10 ^ scale

/-- Spelled without a sign, a fraction and an exponent, and below 2⁶⁴. -/
def IsU64 (number : JsonNumber) : Prop :=
  number.negative = false ∧ number.fraction = none ∧ number.exponent = none ∧
    number.integer < 2 ^ 64

instance (number : JsonNumber) : Decidable number.IsU64 :=
  inferInstanceAs (Decidable (_ ∧ _))

theorem IsU64.value_eq {number : JsonNumber} (unsigned : number.IsU64) :
    number.value = number.integer := by
  obtain ⟨positive, whole, plain, _⟩ := unsigned
  simp [value, positive, whole, plain]

end JsonNumber

inductive Json
  | null
  | bool (value : Bool)
  | number (value : JsonNumber)
  | string (value : String)
  | array (items : List Json)
  | object (members : List (String × Json))

/-- A number as it is read. The value of a double is left out. -/
inductive ReadNumber
  | posInt (value : Nat)
  | negInt (value : Int)
  | float
deriving DecidableEq, Repr

/-- A document as it is read. -/
inductive JsonValue
  | null
  | bool (value : Bool)
  | number (value : ReadNumber)
  | string (value : String)
  | array (items : List JsonValue)
  | object (members : List (String × JsonValue))

/-- The last entry with the key: a later member replaces an earlier one of its name. -/
def lastMember {α : Type*} (members : List (String × α)) (key : String) : Option α :=
  (members.reverse.find? fun member => member.1 == key).map Prod.snd

/-- `Value::get` with a key. -/
def JsonValue.get (value : JsonValue) (key : String) : Option JsonValue :=
  match value with
  | .object members => lastMember members key
  | _ => none

/-- `Value::as_u64`. -/
def JsonValue.asU64 : JsonValue → Option Nat
  | .number (.posInt value) => some value
  | _ => none

def Json.get (document : Json) (key : String) : Option Json :=
  match document with
  | .object members => lastMember members key
  | _ => none

/-! ### Reading -/

variable (overflows : JsonNumber → Bool)

def JsonNumber.read (number : JsonNumber) : Except String ReadNumber :=
  let double : Except String ReadNumber :=
    if overflows number then .error "number out of range" else .ok .float
  if number.fraction.isNone && number.exponent.isNone then
    if number.negative then
      -- `-0` is a double.
      if 0 < number.integer ∧ number.integer ≤ 2 ^ 63 then .ok (.negInt (-number.integer))
      else double
    else if number.integer < 2 ^ 64 then .ok (.posInt number.integer)
    else double
  else double

mutual

/-- The value of a document, with the nesting that the reader still allows. -/
def Json.read (remaining : Nat) : Json → Except String JsonValue
  | .null => .ok .null
  | .bool value => .ok (.bool value)
  | .number value => (value.read overflows).map .number
  | .string value => .ok (.string value)
  | .array items =>
    match remaining with
    | 0 => .error "recursion limit exceeded"
    | remaining + 1 => (readItems remaining items).map .array
  | .object members =>
    match remaining with
    | 0 => .error "recursion limit exceeded"
    | remaining + 1 => (readMembers remaining members).map .object

def Json.readItems (remaining : Nat) : List Json → Except String (List JsonValue)
  | [] => .ok []
  | item :: items => do
    let value ← item.read remaining
    let values ← readItems remaining items
    return value :: values

def Json.readMembers (remaining : Nat) :
    List (String × Json) → Except String (List (String × JsonValue))
  | [] => .ok []
  | (key, member) :: members => do
    let value ← member.read remaining
    let values ← readMembers remaining members
    return (key, value) :: values

end

/-! ### What can be read -/

theorem JsonNumber.read_of_isU64 {number : JsonNumber} (unsigned : number.IsU64) :
    number.read overflows = .ok (.posInt number.integer) := by
  obtain ⟨positive, whole, plain, bound⟩ := unsigned
  simp only [JsonNumber.read, positive, whole, plain, Option.isNone_none, Bool.and_self, if_true,
    Bool.false_eq_true, if_false, if_pos bound]

/-- Only such a number is read as an unsigned integer. -/
theorem JsonNumber.isU64_of_read {number : JsonNumber} {value : Nat}
    (unsigned : number.read overflows = .ok (.posInt value)) : number.IsU64 := by
  unfold JsonNumber.read at unsigned
  cases whole : number.fraction <;> cases plain : number.exponent <;>
    cases positive : number.negative <;>
    simp only [whole, plain, positive, Option.isNone_none, Option.isNone_some, Bool.and_true,
      Bool.and_false, if_true, if_false, Bool.false_eq_true] at unsigned
  case none.none.false =>
    split at unsigned
    next bound => exact ⟨positive, whole, plain, bound⟩
    · split at unsigned <;> cases unsigned
  all_goals repeat' split at unsigned
  all_goals cases unsigned

/-- Nested at most so deep, with no number that is too large. -/
inductive Json.Within : Nat → Json → Prop
  | null {remaining : Nat} : Within remaining .null
  | bool {remaining : Nat} {value : Bool} : Within remaining (.bool value)
  | string {remaining : Nat} {value : String} : Within remaining (.string value)
  | number {remaining : Nat} {value : JsonNumber} (read : ∃ number, value.read overflows = .ok number) :
      Within remaining (.number value)
  | array {remaining : Nat} {items : List Json} (within : ∀ item ∈ items, Within remaining item) :
      Within (remaining + 1) (.array items)
  | object {remaining : Nat} {members : List (String × Json)}
      (within : ∀ member ∈ members, Within remaining member.2) :
      Within (remaining + 1) (.object members)

variable {overflows}

theorem exists_map_eq_ok_iff {ε α β : Type*} {first : Except ε α} {convert : α → β} :
    (∃ result, first.map convert = .ok result) ↔ ∃ value, first = .ok value := by
  cases first with
  | error error => simp [Except.map]
  | ok value => simp [Except.map]

mutual

theorem Json.exists_read_iff (remaining : Nat) : ∀ document : Json,
    (∃ value, document.read overflows remaining = .ok value) ↔ Within overflows remaining document
  | .null => ⟨fun _ => .null, fun _ => ⟨_, rfl⟩⟩
  | .bool _ => ⟨fun _ => .bool, fun _ => ⟨_, rfl⟩⟩
  | .string _ => ⟨fun _ => .string, fun _ => ⟨_, rfl⟩⟩
  | .number value => by
    rw [Json.read, exists_map_eq_ok_iff]
    constructor
    · exact .number
    · rintro (_ | _)
      assumption
  | .array items => by
    cases remaining with
    | zero => exact ⟨nofun, nofun⟩
    | succ remaining =>
      rw [Json.read, exists_map_eq_ok_iff, Json.exists_readItems_iff remaining items]
      constructor
      · exact .array
      · rintro (_ | _)
        assumption
  | .object members => by
    cases remaining with
    | zero => exact ⟨nofun, nofun⟩
    | succ remaining =>
      rw [Json.read, exists_map_eq_ok_iff, Json.exists_readMembers_iff remaining members]
      constructor
      · exact .object
      · rintro (_ | _)
        assumption

theorem Json.exists_readItems_iff (remaining : Nat) : ∀ items : List Json,
    (∃ values, Json.readItems overflows remaining items = .ok values) ↔
      ∀ item ∈ items, Within overflows remaining item
  | [] => by simp [Json.readItems]
  | item :: items => by
    rw [List.forall_mem_cons, ← Json.exists_read_iff remaining item,
      ← Json.exists_readItems_iff remaining items]
    simp only [Json.readItems, bind_eq_ok_iff, pure_eq_ok_iff]
    constructor
    · rintro ⟨_, value, head, values, tail, rfl⟩
      exact ⟨⟨value, head⟩, values, tail⟩
    · rintro ⟨⟨value, head⟩, values, tail⟩
      exact ⟨_, value, head, values, tail, rfl⟩

theorem Json.exists_readMembers_iff (remaining : Nat) : ∀ members : List (String × Json),
    (∃ values, Json.readMembers overflows remaining members = .ok values) ↔
      ∀ member ∈ members, Within overflows remaining member.2
  | [] => by simp [Json.readMembers]
  | (key, member) :: members => by
    rw [List.forall_mem_cons, ← Json.exists_read_iff remaining member,
      ← Json.exists_readMembers_iff remaining members]
    simp only [Json.readMembers, bind_eq_ok_iff, pure_eq_ok_iff]
    constructor
    · rintro ⟨_, value, head, values, tail, rfl⟩
      exact ⟨⟨value, head⟩, values, tail⟩
    · rintro ⟨⟨value, head⟩, values, tail⟩
      exact ⟨_, value, head, values, tail, rfl⟩

end

/-! ### Members -/

theorem Json.readMembers_eq_ok {remaining : Nat} {members : List (String × Json)}
    {values : List (String × JsonValue)}
    (done : Json.readMembers overflows remaining members = .ok values) :
    List.Forall₂ (fun member value =>
      value.1 = member.1 ∧ member.2.read overflows remaining = .ok value.2) members values := by
  induction members generalizing values with
  | nil =>
    cases done
    exact .nil
  | cons member members ih =>
    simp only [Json.readMembers, bind_eq_ok_iff, pure_eq_ok_iff] at done
    obtain ⟨value, head, rest, tail, rfl⟩ := done
    exact .cons ⟨rfl, head⟩ (ih tail)

/-- A member is read as the value that the reader makes of it. -/
theorem lastMember_of_forall₂ {α β : Type*} (Reads : α → β → Prop) {members : List (String × α)}
    {values : List (String × β)}
    (done : List.Forall₂ (fun member value => value.1 = member.1 ∧ Reads member.2 value.2)
      members values) {key : String} {member : α} (found : lastMember members key = some member) :
    ∃ value, lastMember values key = some value ∧ Reads member value := by
  unfold lastMember at found ⊢
  generalize members.reverse = fromLast, values.reverse = valuesFromLast,
    List.rel_reverse done = reversed at found ⊢
  induction reversed with
  | nil => cases found
  | cons head _ ih =>
    rw [List.find?_cons] at found ⊢
    rw [head.1]
    split at found
    next same =>
      cases found
      exact ⟨_, rfl, head.2⟩
    next other => exact ih found

theorem Json.get_of_read {remaining : Nat} {document : Json} {value : JsonValue}
    (done : document.read overflows remaining = .ok value) {key : String} {member : Json}
    (found : document.get key = some member) :
    ∃ inner remaining, value.get key = some inner ∧
      member.read overflows remaining = .ok inner := by
  cases document with
  | object members =>
    cases remaining with
    -- The reader refuses an object at its limit.
    | zero => cases done
    | succ remaining =>
      rw [Json.read] at done
      cases entries : Json.readMembers overflows remaining members with
      | error reason =>
        rw [entries] at done
        cases done
      | ok values =>
        rw [entries] at done
        cases done
        obtain ⟨inner, there, read⟩ :=
          lastMember_of_forall₂ (fun member value =>
            member.read overflows remaining = .ok value) (Json.readMembers_eq_ok entries) found
        exact ⟨inner, remaining, there, read⟩
  | _ => cases found

end Foundation
