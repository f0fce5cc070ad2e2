import Mathlib.Logic.Basic
import Mathlib.Tactic.Common

/-!
# Processes over an interface of calls

A handler of a service is a finite tree of calls to the outside: every database,
cache, message-bus or remote call is a node whose children are indexed by the answer.
The tree says nothing about what the answers are. The same handler can therefore be run
alone, run beside others, or be judged against every answer the outside may give.
-/

namespace CloudVM

/-- Calls to the outside, each with the type of its answers. -/
structure Interface where
  Call : Type
  Answer : Call → Type

/-- A process has returned, has raised, or waits for the answer to one call. -/
inductive Process (I : Interface) (ε α : Type) where
  | ret (a : α)
  | raise (e : ε)
  | call (c : I.Call) (k : I.Answer c → Process I ε α)

namespace Process

variable {I : Interface} {ε α β : Type}

protected def bind : Process I ε α → (α → Process I ε β) → Process I ε β
  | .ret a, f => f a
  | .raise e, _ => .raise e
  | .call c k, f => .call c fun r => (k r).bind f

protected def tryCatch : Process I ε α → (ε → Process I ε α) → Process I ε α
  | .ret a, _ => .ret a
  | .raise e, h => h e
  | .call c k, h => .call c fun r => (k r).tryCatch h

instance : Monad (Process I ε) where
  pure := .ret
  bind := Process.bind

instance : MonadExcept ε (Process I ε) where
  throw := .raise
  tryCatch := Process.tryCatch

def ofExcept : Except ε α → Process I ε α
  | .ok a => .ret a
  | .error e => .raise e

/-- Run to the end and hand over the outcome, errors included. -/
def attempt (p : Process I ε α) : Process I ε (Except ε α) :=
  Process.tryCatch (Process.bind p fun a => .ret (.ok a)) fun e => .ret (.error e)

/-- `try: p finally: f`; an error of `f` takes the place of the outcome of `p`. -/
def andFinally (p : Process I ε α) (f : Process I ε Unit) : Process I ε α := do
  let out ← p.attempt
  f
  ofExcept out

def forEach (f : β → Process I ε Unit) : List β → Process I ε Unit
  | [] => .ret ()
  | b :: bs => (f b).bind fun _ => forEach f bs

/-- The same process over an interface that has its calls among others. -/
def lift {J : Interface} (f : I.Call → J.Call) (g : (c : I.Call) → J.Answer (f c) → I.Answer c) :
    Process I ε α → Process J ε α
  | .ret a => .ret a
  | .raise e => .raise e
  | .call c k => .call (f c) fun r => (k (g c r)).lift f g

/-- Each call is carried out by a process over another interface. -/
def expand {J : Interface} (f : (c : I.Call) → Process J ε (I.Answer c)) :
    Process I ε α → Process J ε α
  | .ret a => .ret a
  | .raise e => .raise e
  | .call c k => (f c).bind fun r => (k r).expand f

@[simp] theorem pure_def (a : α) : (pure a : Process I ε α) = .ret a := rfl

@[simp] theorem throw_def (e : ε) : (throw e : Process I ε α) = .raise e := rfl

@[simp] theorem bind_def (p : Process I ε α) (f : α → Process I ε β) : p.bind f = p >>= f := rfl

@[simp] theorem ret_bind (a : α) (f : α → Process I ε β) : (.ret a : Process I ε α) >>= f = f a := rfl

@[simp] theorem raise_bind (e : ε) (f : α → Process I ε β) :
    (.raise e : Process I ε α) >>= f = .raise e := rfl

@[simp] theorem call_bind (c : I.Call) (k : I.Answer c → Process I ε α) (f : α → Process I ε β) :
    (.call c k : Process I ε α) >>= f = .call c fun r => k r >>= f := rfl

theorem bind_assoc {γ : Type} (p : Process I ε α) (f : α → Process I ε β) (g : β → Process I ε γ) :
    p >>= f >>= g = p >>= fun a => f a >>= g := by
  induction p with
  | ret a => rfl
  | raise e => rfl
  | call c k ih =>
    simp only [call_bind]
    congr 1
    funext r
    exact ih r

@[simp] theorem ret_tryCatch (a : α) (h : ε → Process I ε α) :
    tryCatch (.ret a : Process I ε α) h = .ret a := rfl

@[simp] theorem raise_tryCatch (e : ε) (h : ε → Process I ε α) :
    tryCatch (.raise e : Process I ε α) h = h e := rfl

@[simp] theorem call_tryCatch (c : I.Call) (k : I.Answer c → Process I ε α)
    (h : ε → Process I ε α) :
    tryCatch (.call c k : Process I ε α) h = .call c fun r => tryCatch (k r) h := rfl

@[simp] theorem ofExcept_ok (a : α) : (ofExcept (.ok a) : Process I ε α) = .ret a := rfl

@[simp] theorem ofExcept_error (e : ε) : (ofExcept (.error e) : Process I ε α) = .raise e := rfl

end Process

end CloudVM
