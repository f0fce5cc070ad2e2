import Mathlib.Data.List.Basic
import Mathlib.Tactic.Common

/-!
# Promises

A call that is answered later, with a chain of callbacks. Once the call is answered each callback
is a job of its own, and after the last one the promise is settled. A callback that throws rejects
what comes after it.
-/

namespace CloudVM.Promises

inductive Outcome where
  | fulfilled
  | rejected
deriving DecidableEq, Repr

/-- `then`, `catch` and `finally`. -/
inductive Callback (A : Type) where
  | onFulfilled (a : A)
  | onRejected (a : A)
  | always (a : A)
deriving DecidableEq, Repr

/-- The call is not answered yet, jobs are left, or the outcome is there for whoever awaits it. -/
inductive Promise (A : Type) where
  | pending (callbacks : List (Callback A))
  | settling (outcome : Outcome) (callbacks : List (Callback A))
  | settled (outcome : Outcome)
deriving DecidableEq, Repr

section Jobs

variable {A σ : Type} (perform : A → σ → Outcome × σ)

/-- What a callback makes of the outcome before it. -/
def Callback.call : Callback A → Outcome → σ → Outcome × σ
  | .onFulfilled a, .fulfilled, s => perform a s
  | .onRejected a, .rejected, s => perform a s
  | .always a, o, s =>
    match perform a s with
    | (.fulfilled, s) => (o, s)
    | (.rejected, s) => (.rejected, s)
  | _, o, s => (o, s)

namespace Promise

def attach (c : Callback A) : Promise A → Promise A
  | pending cs => pending (cs ++ [c])
  | settling o cs => settling o (cs ++ [c])
  | settled o => settling o [c]

def isPending : Promise A → Bool
  | pending _ => true
  | _ => false

def outcome? : Promise A → Option Outcome
  | pending _ => none
  | settling o _ => some o
  | settled o => some o

def busy : Promise A → Bool
  | settling _ _ => true
  | _ => false

def job : Promise A → σ → Promise A × σ
  | settling o (c :: cs), s => (settling (c.call perform o s).1 cs, (c.call perform o s).2)
  | settling o [], s => (settled o, s)
  | p, s => (p, s)

end Promise

end Jobs

end CloudVM.Promises
