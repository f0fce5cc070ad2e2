import CloudVM.Framework.Lines
import CloudVM.Framework.Pattern
import Mathlib.Data.List.DropRight

/-!
# Commands in terminal input

Text as the terminal gateway handles it, a list of UTF-16 code units, and the patterns of
dangerous commands.
-/

namespace CloudVM.Terminal

open Lines

abbrev Units := List UInt16

section Text

def units (s : String) : Units := s.toList.map fun c => c.toNat.toUInt16

def cr : UInt16 := 13

def lf : UInt16 := 10

def isCr (u : UInt16) : Bool := u == cr

def isLf (u : UInt16) : Bool := u == lf

/-- `\s`, which is also what `String.prototype.trim` takes away. -/
def isSpace (u : UInt16) : Bool :=
  let n := u.toNat
  (9 ≤ n && n ≤ 13) || n == 32 || n == 0xa0 || n == 0x1680 || (0x2000 ≤ n && n ≤ 0x200a) ||
    n == 0x2028 || n == 0x2029 || n == 0x202f || n == 0x205f || n == 0x3000 || n == 0xfeff

def trim (s : Units) : Units := (s.dropWhile isSpace).rdropWhile isSpace

/-- `replace(/\s+/g, " ")`. -/
def collapseSpace : Units → Units
  | [] => []
  | [u] => if isSpace u then [32] else [u]
  | u :: v :: rest =>
      if isSpace u then
        if isSpace v then collapseSpace (v :: rest) else 32 :: collapseSpace (v :: rest)
      else u :: collapseSpace (v :: rest)

/-- `s.slice(-n)`. -/
def sliceLast (n : ℕ) (s : Units) : Units := (s.reverse.take n).reverse

theorem sliceLast_subset (n : ℕ) (s : Units) : sliceLast n s ⊆ s := by
  intro u hu
  have hrev : u ∈ s.reverse := List.mem_of_mem_take (List.mem_reverse.mp hu)
  exact List.mem_reverse.mp hrev

theorem length_sliceLast_le (n : ℕ) (s : Units) : (sliceLast n s).length ≤ n := by
  simp only [sliceLast, List.length_reverse]
  exact List.length_take_le n _

theorem sliceLast_append {n : ℕ} {s t : Units} (h : t.length ≤ n) :
    sliceLast n (s ++ t) = sliceLast (n - t.length) s ++ t := by
  have htake : t.reverse.take n = t.reverse := List.take_of_length_le (by simpa using h)
  rw [sliceLast, List.reverse_append, List.take_append, htake, List.length_reverse,
    List.reverse_append, List.reverse_reverse, sliceLast]

/-- `Buffer.byteLength(s, "utf8")`. A surrogate without its other half becomes U+FFFD. -/
def byteLength : Units → ℕ
  | [] => 0
  | [u] => width u
  | u :: v :: rest =>
      if 0xd800 ≤ u ∧ u ≤ 0xdbff ∧ 0xdc00 ≤ v ∧ v ≤ 0xdfff then 4 + byteLength rest
      else width u + byteLength (v :: rest)
where
  width (u : UInt16) : ℕ := if u < 0x80 then 1 else if u < 0x800 then 2 else 3

theorem length_le_byteLength (s : Units) : s.length ≤ byteLength s := by
  have hwidth : ∀ u, 1 ≤ byteLength.width u := by
    intro u
    unfold byteLength.width
    split
    · omega
    · split <;> omega
  induction s using byteLength.induct with
  | case1 => simp
  | case2 u => simpa [byteLength] using hwidth u
  | case3 u v rest h ih =>
    rw [byteLength, if_pos h]
    simp only [List.length_cons]
    omega
  | case4 u v rest h ih =>
    have hu := hwidth u
    rw [byteLength, if_neg h]
    simp only [List.length_cons] at ih ⊢
    omega

/-- A line that is split off at `\r?\n` has lost the `\r`. -/
def dropCr (line : Units) : Units := if line.getLast? = some cr then line.dropLast else line

/-- `split(/\r?\n/)` without its last part. -/
def segments (text : Units) : List Units := (ended isLf [] text).map dropCr

end Text

section Patterns

open Pattern

def lower (u : UInt16) : UInt16 := if 65 ≤ u ∧ u ≤ 90 then u + 32 else u

def isWord (u : UInt16) : Bool :=
  (97 ≤ lower u && lower u ≤ 122) || (48 ≤ u && u ≤ 57) || u == 95

/-- A text in a pattern with the flag `i`. -/
def word (s : String) : Pattern UInt16 := all ((units s).map fun u => one fun v => lower v == lower u)

private def space : Pattern UInt16 := one isSpace

/-- `.` -/
private def any : Pattern UInt16 := one fun u => !(isCr u || isLf u || u == 0x2028 || u == 0x2029)

def dangerousInputPatterns : List (Pattern UInt16) := [
  -- /rm\s+-rf\s+\/$/i
  all [word "rm", plus space, word "-rf", plus space, word "/", stop],
  -- /dd\s+if=\/dev\/(zero|urandom).+of=\/dev\//i
  all [word "dd", plus space, word "if=/dev/", alt (word "zero") (word "urandom"), plus any,
    word "of=/dev/"],
  -- /mkfs(\.[a-z0-9]+)?\s+/i
  all [word "mkfs", optional (seq (word ".") (plus (one fun u => isWord u && u != 95))), plus space],
  -- /(^|\s)(shutdown|reboot|poweroff)\b/i
  all [alt start space, alt (word "shutdown") (alt (word "reboot") (word "poweroff")), edge isWord],
  -- /\bcurl\b.+\|\s*(sh|bash|zsh)\b/i
  all [edge isWord, word "curl", edge isWord, plus any, word "|", star space,
    alt (word "sh") (alt (word "bash") (word "zsh")), edge isWord],
  -- /:\(\)\s*\{\s*:\|:&\s*\};:/
  all [word ":()", star space, word "\x7b", star space, word ":|:&", star space, word "\x7d;:"]]

def matchesPattern (normalized : Units) : Bool :=
  dangerousInputPatterns.any fun pattern => pattern.test normalized

/-- The line, trimmed and with its white space normalised, matches a pattern. -/
def dangerous (line : Units) : Bool := matchesPattern (collapseSpace (trim line))

example : dangerous (units "  RM  -rf\t/ ") = true := by decide
example : dangerous (units "rm -rf /tmp") = false := by decide

end Patterns

end CloudVM.Terminal
