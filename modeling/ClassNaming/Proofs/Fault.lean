/-
What comes of steps that may fail.

- `bind_eq_ok`: steps that came to an end, each from what the one before it gave.
- `fault?`: the fault of what failed.
-/
import ClassNaming.Fault

namespace ClassNaming

/-- a step that others follow came to an end if they did -/
theorem bind_eq_ok {ε α β : Type} {x : Except ε α} {f : α → Except ε β} {b : β} (h : x >>= f = .ok b) :
    ∃ a, x = .ok a ∧ f a = .ok b := by
  cases x with
  | error e => cases h
  | ok a => exact ⟨a, rfl, h⟩

/-- the fault of something that failed -/
def fault? {α : Type} : Except Fault α → Option Fault
  | .error cause => some cause
  | .ok _ => none

theorem ok_of_toOption {α : Type} {x : Except Fault α} {a : α} (h : x.toOption = some a) : x = .ok a := by
  cases x with
  | error cause => cases h
  | ok b =>
    cases h
    rfl

end ClassNaming
