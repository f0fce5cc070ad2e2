import Mathlib.Logic.Basic
import Mathlib.Tactic.Common

/-!
# Flat JSON objects

The bodies of the messages on the bus: an object whose values are scalars. Values that are
arrays or objects themselves are kept only as `compound`.
-/

namespace CloudVM

/-- A JSON value as a decoder without a schema hands it over. -/
inductive Value where
  | null
  | bool (b : Bool)
  | int (n : Int)
  | float
  | str (s : String)
  | compound
deriving DecidableEq, Repr

/-- A JSON object; the first entry of a key counts. -/
abbrev Dict := List (String × Value)

namespace Dict

/-- `data.get(key)`; a missing key is `none`. -/
def get? (d : Dict) (key : String) : Option Value := d.lookup key

/-- `key in data`. -/
def has (d : Dict) (key : String) : Bool := (d.get? key).isSome

end Dict

/-- `isinstance(value, int)`; a boolean is an integer there. -/
def Value.asInt : Value → Option Int
  | .int n => some n
  | .bool b => some (if b then 1 else 0)
  | _ => none

/-- `isinstance(value, str)`. -/
def Value.asStr : Value → Option String
  | .str s => some s
  | _ => none

/-- An optional integer, written as `null` when absent. -/
def Value.ofOptionInt : Option Int → Value
  | none => .null
  | some n => .int n

end CloudVM
