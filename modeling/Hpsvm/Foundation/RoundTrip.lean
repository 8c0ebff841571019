import Mathlib.Data.List.Forall2

/-!
# Conversions that can be undone

Fallible conversions, and what it means that another conversion gives back what they accepted.
-/

namespace Foundation

universe u

variable {ε δ : Type*} {α β : Type u}

theorem bind_eq_ok_iff {first : Except ε α} {next : α → Except ε β} {result : β} :
    (first >>= next) = .ok result ↔ ∃ value, first = .ok value ∧ next value = .ok result := by
  cases first with
  | error error => simp [bind, Except.bind]
  | ok value => simp [bind, Except.bind]

theorem pure_eq_ok_iff {value result : α} : (pure value : Except ε α) = .ok result ↔ value = result := by
  simp [pure, Except.pure]

theorem mapError_eq_ok_iff {first : Except ε α} {convert : ε → δ} {value : α} :
    first.mapError convert = .ok value ↔ first = .ok value := by
  cases first with
  | error error => simp [Except.mapError]
  | ok result => simp [Except.mapError]

theorem toOption_eq_some_iff {first : Except ε α} {value : α} :
    first.toOption = some value ↔ first = .ok value := by
  cases first with
  | error error => simp [Except.toOption]
  | ok result => simp [Except.toOption]

/-- A conversion of a list succeeds if it does at every position. -/
theorem mapM_eq_ok_iff {convert : α → Except ε β} {values : List α} {results : List β} :
    values.mapM convert = .ok results ↔
      List.Forall₂ (fun value result => convert value = .ok result) values results := by
  induction values generalizing results with
  | nil => cases results <;> simp [pure_eq_ok_iff]
  | cons value values ih =>
    simp only [List.mapM_cons, bind_eq_ok_iff, ih, pure_eq_ok_iff]
    constructor
    · rintro ⟨head, converted, tail, rest, rfl⟩
      exact .cons converted rest
    · intro converted
      cases converted with
      | cons head tail => exact ⟨_, head, _, tail, rfl⟩

/-- Whatever `decode` accepts, `encode` gives back. -/
def Recovers (decode : α → Except ε β) (encode : β → α) : Prop :=
  ∀ value result, decode value = .ok result → encode result = value

theorem Recovers.map {decode : α → Except ε β} {encode : β → α}
    (recovers : Recovers decode encode) : Recovers (List.mapM decode) (List.map encode) := by
  intro values results decoded
  rw [mapM_eq_ok_iff] at decoded
  induction decoded with
  | nil => rfl
  | cons head _ ih => rw [List.map_cons, ih, recovers _ _ head]

/-- The same for an encoder that may fail: it does not fail on what was accepted. -/
def TryRecovers (decode : α → Except ε β) (encode : β → Except δ α) : Prop :=
  ∀ value result, decode value = .ok result → encode result = .ok value

theorem TryRecovers.mapM {decode : α → Except ε β} {encode : β → Except δ α}
    (recovers : TryRecovers decode encode) :
    TryRecovers (List.mapM decode) (List.mapM encode) := by
  intro values results decoded
  rw [mapM_eq_ok_iff] at decoded ⊢
  exact (decoded.imp fun value result => recovers value result).flip

end Foundation
