import Mathlib.Tactic.Common

/-!
# Regular expressions

Regular expressions over any alphabet, with anchors and word boundaries, and the search for a
match anywhere in a text. A place in a text is what stands before it, last character first, and
what stands after it; a match leads from a place to the places where it can end.
-/

namespace CloudVM

abbrev Place (α : Type) := List α × List α

inductive Pattern (α : Type) where
  | empty
  | one (p : α → Bool)
  | seq (r s : Pattern α)
  | alt (r s : Pattern α)
  | star (r : Pattern α)
  | start
  | stop
  | edge (word : α → Bool)

namespace Pattern

variable {α : Type}

/-- Up to `n` rounds of `f`, each of which takes some of the text. -/
def rounds (f : Place α → List (Place α)) : ℕ → Place α → List (Place α)
  | 0, x => [x]
  | n + 1, x => x :: ((f x).filter fun y => y.2.length < x.2.length).flatMap (rounds f n)

/-- The places where a match that starts at a place can end. -/
@[simp]
def ends : Pattern α → Place α → List (Place α)
  | empty, x => [x]
  | one p, (before, c :: after) => if p c then [(c :: before, after)] else []
  | one _, (_, []) => []
  | seq r s, x => (r.ends x).flatMap s.ends
  | alt r s, x => r.ends x ++ s.ends x
  | star r, x => rounds r.ends x.2.length x
  | start, x => if x.1.isEmpty then [x] else []
  | stop, x => if x.2.isEmpty then [x] else []
  | edge word, x => if x.1.head?.any word != x.2.head?.any word then [x] else []

def plus (r : Pattern α) : Pattern α := seq r (star r)

def optional (r : Pattern α) : Pattern α := alt r empty

def all (rs : List (Pattern α)) : Pattern α := rs.foldr seq empty

def found (r : Pattern α) (before : List α) : List α → Bool
  | [] => !(r.ends (before, [])).isEmpty
  | c :: after => !(r.ends (before, c :: after)).isEmpty || found r (c :: before) after

/-- `RegExp.prototype.test`. -/
def test (r : Pattern α) (text : List α) : Bool := found r [] text

end Pattern

end CloudVM
