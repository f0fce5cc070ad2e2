import Mathlib.Tactic.Common

/-!
# What the services share

Exceptions with their messages, and the role of a user.
-/

namespace CloudVM

/-- Which exception was raised. -/
inductive ErrorKind where
  | badRequest
  | unauthorized
  | forbidden
  | notFound
  | conflict
  | tooManyRequests
  | internal
  | database
  | connection
  | value
  | other
deriving DecidableEq, Repr

/-- An exception with its message. -/
structure Failure where
  kind : ErrorKind
  message : String
deriving DecidableEq, Repr

theorem bind_ok {α β : Type} {x : Except Failure α} {f : α → Except Failure β} {b : β}
    (h : (x >>= f) = .ok b) : ∃ a, x = .ok a ∧ f a = .ok b := by
  cases x with
  | error e => cases h
  | ok a => exact ⟨a, rfl, h⟩

inductive Role where
  | user
  | admin
deriving DecidableEq, Repr

end CloudVM
