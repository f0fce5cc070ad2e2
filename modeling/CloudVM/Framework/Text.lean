import Mathlib.Algebra.Ring.Nat
import Mathlib.Data.List.DropRight
import Mathlib.Data.List.TakeWhile
import Mathlib.Data.Fintype.EquivFin
import Mathlib.Tactic.Common

/-!
# Text as the two runtimes see it

White space, trimming, prefixes and fixed-width patterns, on lists of characters so that
they can be evaluated. Python's `str.strip` and JavaScript's `String.prototype.trim` differ
in the characters they take away; both sets are given by code point.
-/

namespace CloudVM.Text

/-- The characters `str.isspace` accepts; `str.strip()` removes them at both ends. -/
def pySpace (c : Char) : Bool :=
  let n := c.toNat
  (9 ≤ n && n ≤ 13) || (28 ≤ n && n ≤ 32) || n == 0x85 || n == 0xa0 || n == 0x1680 ||
    (0x2000 ≤ n && n ≤ 0x200a) || n == 0x2028 || n == 0x2029 || n == 0x202f || n == 0x205f ||
    n == 0x3000

/-- The characters `String.prototype.trim` removes at both ends. -/
def jsSpace (c : Char) : Bool :=
  let n := c.toNat
  (9 ≤ n && n ≤ 13) || n == 32 || n == 0xa0 || n == 0x1680 || (0x2000 ≤ n && n ≤ 0x200a) ||
    n == 0x2028 || n == 0x2029 || n == 0x202f || n == 0x205f || n == 0x3000 || n == 0xfeff

/-- Drop the characters of a class at both ends. -/
def stripBy (p : Char → Bool) (s : String) : String :=
  String.ofList ((s.toList.dropWhile p).reverse.dropWhile p).reverse

/-- `str.strip()`. -/
def pyStrip (s : String) : String := stripBy pySpace s

/-- `String.prototype.trim()`. -/
def jsTrim (s : String) : String := stripBy jsSpace s

/-- `s.startsWith(p)`. -/
def startsWith (s p : String) : Bool := p.toList.isPrefixOf s.toList

/-- `s.endsWith(p)`. -/
def endsWith (s p : String) : Bool := p.toList.isSuffixOf s.toList

/-- `old in s`, as substrings. -/
def contains (s old : String) : Bool := s.toList.tails.any fun t => old.toList.isPrefixOf t

/-- `s.length`: UTF-16 code units. -/
def stringLength (s : String) : ℕ := (s.toList.map fun c => if c.toNat < 0x10000 then 1 else 2).sum

/-- Every character is in the class and there is at least one: the pattern `^[..]+$`. -/
def allIn (p : Char → Bool) (s : String) : Bool := !s.toList.isEmpty && s.toList.all p

/-- Match a text against one character class for each position; the unmatched rest is kept. -/
def matchClasses : List (Char → Bool) → List Char → Option (List Char)
  | [], cs => some cs
  | _ :: _, [] => none
  | p :: ps, c :: cs => if p c then matchClasses ps cs else none

/-- What is left after stripping is empty exactly for texts made of the class alone. -/
theorem stripBy_eq_empty (p : Char → Bool) (s : String) :
    stripBy p s = "" ↔ s.toList.all p = true := by
  have hnil : ∀ l : List Char, String.ofList l = "" ↔ l = [] := by
    intro l
    constructor
    · intro h
      have := congrArg String.toList h
      simpa using this
    · rintro rfl
      rfl
  rw [stripBy, hnil, List.reverse_eq_nil_iff, List.dropWhile_eq_nil_iff]
  constructor
  · intro h
    rw [List.all_eq_true]
    by_contra hne
    simp only [not_forall] at hne
    obtain ⟨c, hc, hpc⟩ := hne
    have hd : c ∈ s.toList.dropWhile p := by
      have hsplit := List.takeWhile_append_dropWhile (p := p) (l := s.toList)
      rw [← hsplit, List.mem_append] at hc
      rcases hc with hc | hc
      · exact absurd (List.mem_takeWhile_imp hc) hpc
      · exact hc
    exact hpc (h c (List.mem_reverse.mpr hd))
  · intro h c hc
    rw [List.mem_reverse] at hc
    exact List.all_eq_true.mp h c ((List.dropWhile_sublist p).subset hc)

theorem stripBy_head {p : Char → Bool} {s : String} {c : Char}
    (h : (stripBy p s).toList.head? = some c) : p c = false := by
  rw [stripBy, String.toList_ofList] at h
  have hfirst : (s.toList.dropWhile p).head? = some c := by
    have hp : (s.toList.dropWhile p).rdropWhile p <+: s.toList.dropWhile p := List.rdropWhile_prefix p _
    obtain ⟨u, hu⟩ := hp
    rw [← hu, List.head?_append]
    simp only [List.rdropWhile, h, Option.some_or]
  have hnot := List.head?_dropWhile_not p s.toList
  rw [hfirst] at hnot
  exact hnot

theorem stripBy_last {p : Char → Bool} {s : String} {c : Char}
    (h : (stripBy p s).toList.getLast? = some c) : p c = false := by
  rw [stripBy, String.toList_ofList, List.getLast?_reverse] at h
  have hnot := List.head?_dropWhile_not p (s.toList.dropWhile p).reverse
  rw [h] at hnot
  exact hnot

theorem stripBy_split (p : Char → Bool) (s : String) :
    ∃ before after, (∀ c ∈ before, p c = true) ∧ (∀ c ∈ after, p c = true) ∧
      s.toList = before ++ (stripBy p s).toList ++ after := by
  refine ⟨s.toList.takeWhile p, (s.toList.dropWhile p).rtakeWhile p, ?_, ?_, ?_⟩
  · intro c hc
    exact List.mem_takeWhile_imp hc
  · intro c hc
    exact List.mem_rtakeWhile_imp hc
  · have hright : (stripBy p s).toList ++ (s.toList.dropWhile p).rtakeWhile p = s.toList.dropWhile p := by
      rw [stripBy, String.toList_ofList]
      exact List.rdropWhile_append_rtakeWhile
    rw [List.append_assoc, hright, List.takeWhile_append_dropWhile]

theorem stripBy_surrounded {p : Char → Bool} {before after : List Char}
    (hbefore : ∀ c ∈ before, p c = true) (hafter : ∀ c ∈ after, p c = true) (text : List Char) :
    stripBy p (String.ofList (before ++ text ++ after)) = stripBy p (String.ofList text) := by
  simp only [stripBy, String.toList_ofList]
  rw [List.append_assoc, List.dropWhile_append_of_pos hbefore, List.dropWhile_append]
  split
  · rename_i hempty
    have hall : ∀ c ∈ after, p c = true := hafter
    rw [List.dropWhile_eq_nil_iff.mpr hall, List.isEmpty_iff.mp hempty]
  · rw [List.reverse_append,
      List.dropWhile_append_of_pos fun c hc => hafter c (List.mem_reverse.mp hc)]

theorem prefix_append_cons {c : Char} {a b rest : List Char} (ha : c ∉ a) :
    a <+: b ++ c :: rest ↔ a <+: b := by
  constructor
  · intro h
    have hb : b <+: b ++ c :: rest := List.prefix_append b _
    rcases List.prefix_or_prefix_of_prefix h hb with h' | ⟨x, hx⟩
    · exact h'
    · rw [← hx, List.prefix_append_right_inj] at h
      cases x with
      | nil => rw [List.append_nil] at hx; rw [hx]
      | cons y ys =>
        have hy : y = c := (List.cons_prefix_cons.mp h).1
        exact (ha (hx ▸ hy ▸ by simp)).elim
  · intro h
    exact h.trans (List.prefix_append b _)

theorem suffix_append_cons {c : Char} {a b rest : List Char} (ha : c ∉ a) :
    a <:+ rest ++ c :: b ↔ a <:+ b := by
  have h : a.reverse <+: b.reverse ++ c :: rest.reverse ↔ a.reverse <+: b.reverse :=
    prefix_append_cons (mt List.mem_reverse.mp ha)
  rw [← List.reverse_prefix, ← List.reverse_prefix, ← h]
  simp

theorem isAlphanum_iff {c : Char} : c.isAlphanum = true ↔
    (48 ≤ c.toNat ∧ c.toNat ≤ 57) ∨ (65 ≤ c.toNat ∧ c.toNat ≤ 90) ∨ (97 ≤ c.toNat ∧ c.toNat ≤ 122) := by
  delta Char.isAlphanum Char.isAlpha Char.isUpper Char.isLower Char.isDigit
  simp only [Bool.or_eq_true, Bool.and_eq_true, decide_eq_true_eq]
  constructor
  · intro h
    rcases h with (h | h) | h
    · exact .inr (.inl h)
    · exact .inr (.inr h)
    · exact .inl h
  · intro h
    rcases h with h | h | h
    · exact .inr h
    · exact .inl (.inl h)
    · exact .inl (.inr h)

theorem toLower_eq {c d : Char} (hd : d.toNat < 97 ∨ 122 < d.toNat) (h : c.toLower = d) : c = d := by
  delta Char.toLower at h
  split at h
  · rename_i hc
    exfalso
    have hval := congrArg (fun d : Char => d.val.toNat) h
    have h1 : (65 : UInt32) ≤ c.val := hc.1
    have h2 : c.val ≤ (90 : UInt32) := hc.2
    rw [UInt32.le_iff_toNat_le] at h1 h2
    have hd' : d.val.toNat < 97 ∨ 122 < d.val.toNat := hd
    simp [UInt32.toNat_add] at hval h1 h2
    omega
  · exact h

theorem exists_fresh (names : List String) : ∃ x, x ≠ "" ∧ x ∉ names := by
  have hinj : Function.Injective fun n => String.ofList (List.replicate n 'a') := by
    intro m n h
    have hl := congrArg (fun x => x.toList.length) h
    simpa using hl
  have hinf : Infinite String := Infinite.of_injective _ hinj
  obtain ⟨x, hx⟩ := Infinite.exists_notMem_finset ("" :: names).toFinset
  simp only [List.mem_toFinset, List.mem_cons, not_or] at hx
  exact ⟨x, hx⟩

end CloudVM.Text
