import Mathlib.Algebra.Ring.Nat
import Mathlib.Data.List.Basic
import Mathlib.Data.List.Induction
import Mathlib.Data.List.TakeWhile
import Mathlib.Data.Nat.Notation
import Mathlib.Tactic.Common

/-!
# The escapes of the shell

`printf '%b'` of Bash on byte strings. An expansion never grows, and grows no more where each end
of a line counts double. Hence lines that are joined by a backslash and an `n` come out as they
are exactly when no escape starts in any of them.
-/

namespace CloudVM.Shell

section Digits

/-- The value of a hexadecimal digit; sixteen for any other byte. -/
def digitValue (b : UInt8) : ℕ :=
  let n := b.toNat
  if 48 ≤ n ∧ n ≤ 57 then n - 48
  else if 65 ≤ n ∧ n ≤ 70 then n - 55
  else if 97 ≤ n ∧ n ≤ 102 then n - 87
  else 16

def isDigit (base : ℕ) (b : UInt8) : Bool := digitValue b < base

def digits (base most : ℕ) (text : List UInt8) : List UInt8 :=
  (text.take most).takeWhile (isDigit base)

def value (base : ℕ) (ds : List UInt8) : ℕ := ds.foldl (fun v d => base * v + digitValue d) 0

variable {base most : ℕ} {text : List UInt8}

theorem length_digits_le : (digits base most text).length ≤ text.length := by
  have htake : (digits base most text).length ≤ (text.take most).length :=
    (List.takeWhile_sublist _).length_le
  have hle : (text.take most).length ≤ text.length := List.length_take_le' most text
  omega

theorem isDigit_of_mem_digits {b : UInt8} (h : b ∈ digits base most text) : isDigit base b = true :=
  List.mem_takeWhile_imp h

theorem value_lt {ds : List UInt8} (h : ∀ d ∈ ds, isDigit base d = true) :
    value base ds < base ^ ds.length := by
  induction ds using List.reverseRecOn with
  | nil => simp [value]
  | append_singleton ds d ih =>
    have hrest : value base ds < base ^ ds.length := ih fun x hx => h x (by simp [hx])
    have hd : digitValue d < base := by simpa [isDigit] using h d (by simp)
    have hvalue : value base (ds ++ [d]) = base * value base ds + digitValue d := by
      simp [value]
    have hmul : base * (value base ds + 1) ≤ base * base ^ ds.length := Nat.mul_le_mul_left _ hrest
    rw [hvalue, List.length_append, List.length_singleton, Nat.pow_succ,
      Nat.mul_comm _ base]
    rw [Nat.mul_add] at hmul
    omega

end Digits

section Unicode

def continuation : ℕ → ℕ → List UInt8
  | 0, _ => []
  | k + 1, n => .ofNat (0x80 + n / 64 ^ k % 64) :: continuation k n

/-- `u32toutf8`: the bytes of a character by its code. -/
def u32toutf8 (n : ℕ) : List UInt8 :=
  if n < 0x80 then [.ofNat n]
  else if n < 0x800 then .ofNat (0xC0 + n / 64) :: continuation 1 n
  else if n < 0x10000 then .ofNat (0xE0 + n / 64 ^ 2) :: continuation 2 n
  else if n < 0x200000 then .ofNat (0xF0 + n / 64 ^ 3) :: continuation 3 n
  else if n < 0x4000000 then .ofNat (0xF8 + n / 64 ^ 4) :: continuation 4 n
  else if n < 0x80000000 then .ofNat (0xFC + n / 64 ^ 5) :: continuation 5 n
  else []

theorem length_continuation (k n : ℕ) : (continuation k n).length = k := by
  induction k with
  | zero => rfl
  | succ k ih => simp [continuation, ih]

private theorem ofNat_ne_newline {m : ℕ} (h : 0x80 ≤ m) (hm : m < 0x100) : UInt8.ofNat m ≠ 10 := by
  intro he
  have hnat := congrArg UInt8.toNat he
  simp only [UInt8.toNat_ofNat', UInt8.reduceToNat] at hnat
  omega

theorem newline_not_mem_continuation (k n : ℕ) : (10 : UInt8) ∉ continuation k n := by
  induction k with
  | zero => simp [continuation]
  | succ k ih =>
    have hlt : n / 64 ^ k % 64 < 64 := Nat.mod_lt _ (by omega)
    have hne : UInt8.ofNat (0x80 + n / 64 ^ k % 64) ≠ 10 := ofNat_ne_newline (by omega) (by omega)
    rw [continuation, List.mem_cons, not_or]
    exact ⟨Ne.symm hne, ih⟩

theorem u32toutf8_spec {n d : ℕ} (hn : n < 16 ^ d) :
    (∃ b, u32toutf8 n = [b]) ∨
      ((10 : UInt8) ∉ u32toutf8 n ∧ (u32toutf8 n).length ≤ d) := by
  have hlead : ∀ m k, 0x80 ≤ m → m < 0x100 →
      (10 : UInt8) ∉ (UInt8.ofNat m :: continuation k n) := by
    intro m k h hm
    rw [List.mem_cons, not_or]
    exact ⟨Ne.symm (ofNat_ne_newline h hm), newline_not_mem_continuation k n⟩
  have hdigits : ∀ j, 16 ^ j ≤ n → j < d := by
    intro j hj
    have hpow : 16 ^ j < 16 ^ d := Nat.lt_of_le_of_lt hj hn
    exact (Nat.pow_lt_pow_iff_right (by omega)).mp hpow
  unfold u32toutf8
  split
  · exact .inl ⟨_, rfl⟩
  right
  split
  · have hd := hdigits 1 (by omega)
    exact ⟨hlead _ 1 (by omega) (by omega), by rw [List.length_cons, length_continuation]; omega⟩
  split
  · have hd := hdigits 2 (by omega)
    exact ⟨hlead _ 2 (by omega) (by omega), by rw [List.length_cons, length_continuation]; omega⟩
  split
  · have hd := hdigits 4 (by omega)
    exact ⟨hlead _ 3 (by omega) (by omega), by rw [List.length_cons, length_continuation]; omega⟩
  split
  · have hd := hdigits 5 (by omega)
    exact ⟨hlead _ 4 (by omega) (by omega), by rw [List.length_cons, length_continuation]; omega⟩
  split
  · have hd := hdigits 6 (by omega)
    exact ⟨hlead _ 5 (by omega) (by omega), by rw [List.length_cons, length_continuation]; omega⟩
  · simp

end Unicode

section Escapes

/-- What an escape stands for and how many bytes it takes after the backslash, or the end of all
output. -/
inductive Escape where
  | stop
  | bytes (bs : List UInt8) (used : ℕ)
deriving DecidableEq, Repr

/-- An escape by the code of a character, of at most so many digits. -/
def codeEscape (most : ℕ) (text : List UInt8) (write : ℕ → List UInt8) : Option Escape :=
  let ds := digits 16 most text
  if ds = [] then none else some (.bytes (write (value 16 ds)) (1 + ds.length))

def letterEscape : Char → Option UInt8
  | 'a' => some 7
  | 'b' => some 8
  | 'e' | 'E' => some 27
  | 'f' => some 12
  | 'n' => some 10
  | 'r' => some 13
  | 't' => some 9
  | 'v' => some 11
  | '\\' => some 92
  | _ => none

/-- `tescape`: the escape that the bytes after a backslash make, if any. -/
def tescape : List UInt8 → Option Escape
  | [] => none
  | c :: rest =>
    if isDigit 8 c then
      let ds := c :: digits 8 (if c = 48 then 3 else 2) rest
      some (.bytes [.ofNat (value 8 ds)] ds.length)
    else match letterEscape (Char.ofNat c.toNat) with
      | some b => some (.bytes [b] 1)
      | none => match Char.ofNat c.toNat with
        | 'x' => codeEscape 2 rest fun n => [.ofNat n]
        | 'u' => codeEscape 4 rest u32toutf8
        | 'U' => codeEscape 8 rest u32toutf8
        | 'c' => some .stop
        | _ => none

/-- `bexpand`, in the middle of an escape that takes `skip` more bytes. -/
def bexpand : ℕ → List UInt8 → List UInt8
  | _, [] => []
  | skip + 1, _ :: rest => bexpand skip rest
  | 0, c :: rest =>
    if c = 92 then
      match tescape rest with
      | none => c :: bexpand 0 rest
      | some .stop => []
      | some (.bytes bs used) => bs ++ bexpand used rest
    else c :: bexpand 0 rest

/-- The length of a text where each end of a line counts double. -/
def weight (text : List UInt8) : ℕ := text.length + text.count 10

@[simp] theorem weight_append (u v : List UInt8) : weight (u ++ v) = weight u + weight v := by
  simp only [weight, List.length_append, List.count_append]
  omega

theorem weight_cons {c : UInt8} (hc : c ≠ 10) (text : List UInt8) :
    weight (c :: text) = 1 + weight text := by
  simp only [weight, List.length_cons, List.count_cons_of_ne hc]
  omega

theorem weight_of_not_mem {text : List UInt8} (h : (10 : UInt8) ∉ text) :
    weight text = text.length := by
  rw [weight, List.count_eq_zero_of_not_mem h]
  rfl

private theorem weight_singleton_le (b : UInt8) : weight [b] ≤ 2 := by
  have hcount : [b].count (10 : UInt8) ≤ 1 := List.count_le_length
  simp only [weight, List.length_singleton]
  omega

private theorem codeEscape_weight {most used : ℕ} {text bs : List UInt8} {write : ℕ → List UInt8}
    (hw : ∀ n d, n < 16 ^ d → 0 < d → weight (write n) ≤ 1 + d)
    (h : codeEscape most text write = some (.bytes bs used)) :
    weight bs ≤ used ∧ used ≤ 1 + text.length := by
  simp only [codeEscape] at h
  split at h
  · cases h
  · rename_i hne
    simp only [Option.some.injEq, Escape.bytes.injEq] at h
    obtain ⟨rfl, rfl⟩ := h
    have hlt : value 16 (digits 16 most text) < 16 ^ (digits 16 most text).length :=
      value_lt fun d hd => isDigit_of_mem_digits hd
    have hpos : 0 < (digits 16 most text).length := List.length_pos_of_ne_nil hne
    have hle : (digits 16 most text).length ≤ text.length := length_digits_le
    exact ⟨hw _ _ hlt hpos, by omega⟩

private theorem octal_weight {ds : List UInt8} (hds : ∀ d ∈ ds, isDigit 8 d = true)
    (hne : ds ≠ []) : weight [.ofNat (value 8 ds)] ≤ ds.length := by
  have hlt := value_lt hds
  have hpos : 0 < ds.length := List.length_pos_of_ne_nil hne
  by_cases hone : ds.length = 1
  · rw [hone] at hlt ⊢
    have hnot : UInt8.ofNat (value 8 ds) ≠ 10 := by
      intro he
      have hnat := congrArg UInt8.toNat he
      simp only [UInt8.toNat_ofNat', UInt8.reduceToNat] at hnat
      omega
    rw [weight_cons hnot]
    exact Nat.le_refl 1
  · have hle := weight_singleton_le (.ofNat (value 8 ds))
    omega

/-- An escape other than the end of a line weighs no more than what it takes after the
backslash. -/
theorem tescape_weight {text bs : List UInt8} {used : ℕ}
    (h : tescape text = some (.bytes bs used)) :
    ((bs = [10] ∧ used = 1) ∨ weight bs ≤ used) ∧ used ≤ text.length := by
  cases text with
  | nil => cases h
  | cons c rest =>
    have hutf8 : ∀ n d, n < 16 ^ d → 0 < d → weight (u32toutf8 n) ≤ 1 + d := by
      intro n d hn hd
      rcases u32toutf8_spec hn with ⟨b, hb⟩ | ⟨hnot, hle⟩
      · have hw := weight_singleton_le b
        rw [hb]
        omega
      · rw [weight_of_not_mem hnot]
        omega
    have hcode : ∀ {most : ℕ} {write : ℕ → List UInt8},
        (∀ n d, n < 16 ^ d → 0 < d → weight (write n) ≤ 1 + d) →
        codeEscape most rest write = some (.bytes bs used) →
        ((bs = [10] ∧ used = 1) ∨ weight bs ≤ used) ∧ used ≤ (c :: rest).length := by
      intro most write hw hc
      obtain ⟨hweight, hused⟩ := codeEscape_weight hw hc
      rw [List.length_cons]
      exact ⟨.inr hweight, by omega⟩
    simp only [tescape] at h
    split at h
    · rename_i hdigit
      simp only [Option.some.injEq, Escape.bytes.injEq] at h
      obtain ⟨rfl, rfl⟩ := h
      have hle : (digits 8 (if c = 48 then 3 else 2) rest).length ≤ rest.length := length_digits_le
      refine ⟨.inr (octal_weight ?_ (by simp)), by simpa using hle⟩
      intro d hd
      rcases List.mem_cons.mp hd with rfl | hd
      · exact hdigit
      · exact isDigit_of_mem_digits hd
    split at h
    · rename_i b hb
      simp only [Option.some.injEq, Escape.bytes.injEq] at h
      obtain ⟨rfl, rfl⟩ := h
      refine ⟨?_, by simp⟩
      by_cases hten : b = 10
      · exact .inl ⟨by rw [hten], rfl⟩
      · right
        rw [weight_cons hten]
        exact Nat.le_refl 1
    split at h
    · exact hcode (fun n d _ hd => (weight_singleton_le _).trans (by omega)) h
    · exact hcode hutf8 h
    · exact hcode hutf8 h
    · cases h
    · cases h

theorem weight_bexpand_le {text : List UInt8} (h : (10 : UInt8) ∉ text) (skip : ℕ) :
    weight (bexpand skip text) ≤ (text.drop skip).length := by
  induction text generalizing skip with
  | nil => simp [bexpand, weight]
  | cons c rest ih =>
    have hc : c ≠ 10 := by
      intro he
      exact h (by simp [he])
    have hrest : (10 : UInt8) ∉ rest := fun hm => h (List.mem_cons_of_mem c hm)
    cases skip with
    | succ skip => exact ih hrest skip
    | zero =>
      have hplain : weight (c :: bexpand 0 rest) ≤ (c :: rest).length := by
        have hle := ih hrest 0
        rw [weight_cons hc, List.length_cons]
        rw [List.drop_zero] at hle
        omega
      simp only [bexpand, List.drop_zero]
      split
      · split
        · exact hplain
        · exact Nat.zero_le _
        · rename_i bs used he
          obtain ⟨hbs, hused⟩ := tescape_weight he
          have hle := ih hrest used
          have hone : weight bs ≤ used + 1 := by
            rcases hbs with ⟨rfl, rfl⟩ | hbs
            · decide
            · omega
          rw [weight_append, List.length_cons]
          rw [List.length_drop] at hle
          omega
      · exact hplain

end Escapes

section Joined

def Literal (text : List UInt8) : Prop := ∀ rest, 92 :: rest <:+ text → tescape rest = none

theorem literal_nil : Literal [] := by
  intro rest h
  simp at h

theorem literal_cons {c : UInt8} {text : List UInt8} :
    Literal (c :: text) ↔ (c = 92 → tescape text = none) ∧ Literal text := by
  constructor
  · intro h
    constructor
    · rintro rfl
      exact h text List.suffix_rfl
    · intro rest hr
      exact h rest (hr.trans (List.suffix_cons c text))
  · rintro ⟨hhead, htail⟩ rest hr
    rcases List.suffix_cons_iff.mp hr with he | hr
    · rw [List.cons.injEq] at he
      rw [he.2]
      exact hhead he.1.symm
    · exact htail rest hr

def Bounded (t : List UInt8) : Prop := t = [] ∨ ∃ u, t = 92 :: u

private theorem digits_append {base most : ℕ} {text t : List UInt8} (ht : Bounded t)
    (hbase : base ≤ 16) : digits base most (text ++ t) = [] ↔ digits base most text = [] := by
  cases text with
  | nil =>
    rcases ht with rfl | ⟨u, rfl⟩
    · rfl
    · have hno : isDigit base 92 = false := by simp [isDigit, digitValue, hbase]
      cases most <;> simp [digits, hno]
  | cons d text =>
    cases most <;> simp [digits, List.takeWhile_cons]

private theorem codeEscape_append {most : ℕ} {text t : List UInt8} {write : ℕ → List UInt8}
    (ht : Bounded t) :
    codeEscape most (text ++ t) write = none ↔ codeEscape most text write = none := by
  simp [codeEscape, digits_append ht]

/-- Whether an escape starts is seen before the next backslash. -/
theorem tescape_append {text t : List UInt8} (ht : Bounded t) (hne : text ≠ []) :
    tescape (text ++ t) = none ↔ tescape text = none := by
  cases text with
  | nil => exact absurd rfl hne
  | cons c rest =>
    simp only [List.cons_append, tescape]
    split
    · simp
    split
    · simp
    split
    · exact codeEscape_append ht
    · exact codeEscape_append ht
    · exact codeEscape_append ht
    · simp
    · simp

theorem bexpand_append {text t : List UInt8} (ht : Bounded t) (h : Literal text)
    (hend : t = [] ∨ text.getLast? ≠ some 92) : bexpand 0 (text ++ t) = text ++ bexpand 0 t := by
  induction text with
  | nil => rfl
  | cons c rest ih =>
    rw [literal_cons] at h
    have hlast : t = [] ∨ rest.getLast? ≠ some 92 := by
      apply hend.imp_right
      intro hcons hrest
      cases rest with
      | nil => simp at hrest
      | cons d rest => exact hcons (by rw [List.getLast?_cons_cons, hrest])
    have hrest := ih h.2 hlast
    by_cases hc : c = 92
    · have hnone : tescape (rest ++ t) = none := by
        by_cases hne : rest = []
        · subst hne
          rcases hend with rfl | hend
          · rfl
          · simp [hc] at hend
        · exact (tescape_append ht hne).mpr (h.1 hc)
      simp only [List.cons_append, bexpand, if_pos hc, hnone, hrest]
    · simp only [List.cons_append, bexpand, if_neg hc, hrest]

theorem literal_of_bexpand {text t out : List UInt8} (ht : Bounded t)
    (htext : (10 : UInt8) ∉ text) (htail : (10 : UInt8) ∉ t) (hout : weight out = t.length)
    (h : bexpand 0 (text ++ t) = text ++ out) :
    Literal text ∧ (t = [] ∨ text.getLast? ≠ some 92) ∧ bexpand 0 t = out := by
  induction text with
  | nil => exact ⟨literal_nil, .inr (by simp), h⟩
  | cons c rest ih =>
    have hrest : (10 : UInt8) ∉ rest := fun hm => htext (List.mem_cons_of_mem c hm)
    have hlast : ∀ {P : Prop}, (t = [] ∨ rest.getLast? ≠ some 92) → (rest = [] → P) →
        (rest ≠ [] → (t = [] ∨ (c :: rest).getLast? ≠ some 92) → P) → P := by
      intro P hrest hnil hcons
      by_cases hr : rest = []
      · exact hnil hr
      · apply hcons hr
        apply hrest.imp_right
        rw [List.getLast?_cons_of_ne_nil hr]
        exact id
    by_cases hc : c = 92
    · subst hc
      simp only [List.cons_append, bexpand, if_true] at h
      split at h
      · rename_i hnone
        rw [List.cons.injEq] at h
        obtain ⟨hliteral, hend, htt⟩ := ih hrest h.2
        have hhead : tescape rest = none := by
          by_cases hne : rest = []
          · rw [hne]
            rfl
          · exact (tescape_append ht hne).mp hnone
        refine ⟨literal_cons.mpr ⟨fun _ => hhead, hliteral⟩, ?_, htt⟩
        apply hlast hend
        · rintro rfl
          rcases ht with rfl | ⟨u, rfl⟩
          · exact .inl rfl
          · cases hnone
        · intro _ hboth
          exact hboth
      · cases h
      · rename_i bs used he
        exfalso
        obtain ⟨hbs, hused⟩ := tescape_weight he
        have hno : (10 : UInt8) ∉ rest ++ t := by
          rw [List.mem_append, not_or]
          exact ⟨hrest, htail⟩
        have hle := weight_bexpand_le hno used
        have hw := congrArg weight h
        have hne : (92 : UInt8) ≠ 10 := by decide
        rw [weight_append, weight_cons hne, weight_append, weight_of_not_mem hrest, hout] at hw
        rw [List.length_drop, List.length_append] at hle
        rw [List.length_append] at hused
        rcases hbs with ⟨rfl, rfl⟩ | hbs
        · cases h
        · omega
    · simp only [List.cons_append, bexpand, if_neg hc, List.cons.injEq, true_and] at h
      obtain ⟨hliteral, hend, htt⟩ := ih hrest h
      refine ⟨literal_cons.mpr ⟨fun he => absurd he hc, hliteral⟩, ?_, htt⟩
      apply hlast hend
      · rintro rfl
        exact .inr (by simp [hc])
      · intro _ hboth
        exact hboth

/-- Lines with a backslash and an `n` between them. -/
def joined (lines : List (List UInt8)) : List UInt8 := [92, 110].intercalate lines

theorem joined_cons_cons (l l' : List UInt8) (lines : List (List UInt8)) :
    joined (l :: l' :: lines) = l ++ 92 :: 110 :: joined (l' :: lines) := by
  simp [joined, List.intercalate_cons_cons]

variable {lines : List (List UInt8)}

theorem newline_not_mem_joined (h : ∀ l ∈ lines, (10 : UInt8) ∉ l) :
    (10 : UInt8) ∉ joined lines := by
  induction lines with
  | nil => simp [joined, List.intercalate_nil]
  | cons l lines ih =>
    rw [List.forall_mem_cons] at h
    cases lines with
    | nil => simpa [joined, List.intercalate_singleton] using h.1
    | cons l' lines =>
      rw [joined_cons_cons]
      simp [h.1, ih h.2]

theorem weight_intercalate (h : ∀ l ∈ lines, (10 : UInt8) ∉ l) :
    weight ([10].intercalate lines) = (joined lines).length := by
  induction lines with
  | nil => rfl
  | cons l lines ih =>
    rw [List.forall_mem_cons] at h
    have hl := weight_of_not_mem h.1
    cases lines with
    | nil => simpa [joined, List.intercalate_singleton] using hl
    | cons l' lines =>
      have hrest := ih h.2
      have hten : weight [10] = 2 := by decide
      rw [joined_cons_cons, List.intercalate_cons_cons, weight_append, weight_append, hl, hrest,
        hten, List.length_append, List.length_cons, List.length_cons]
      omega

theorem length_joined (hne : lines ≠ []) :
    (joined lines).length + 2 = (lines.map List.length).sum + 2 * lines.length := by
  induction lines with
  | nil => exact absurd rfl hne
  | cons l lines ih =>
    cases lines with
    | nil => simp [joined, List.intercalate_singleton]
    | cons l' lines =>
      have hrest := ih (by simp)
      rw [joined_cons_cons, List.map_cons, List.sum_cons, List.length_append, List.length_cons,
        List.length_cons, List.length_cons (a := l)]
      omega

/-- The ends of lines come through: no escape starts in a line, and no line but the last ends in a
backslash. -/
def Separate (lines : List (List UInt8)) : Prop :=
  (∀ l ∈ lines, Literal l) ∧ ∀ l ∈ lines.dropLast, l.getLast? ≠ some 92

theorem bexpand_joined_iff (hne : lines ≠ []) (h : ∀ l ∈ lines, (10 : UInt8) ∉ l) :
    bexpand 0 (joined lines) = [10].intercalate lines ↔ Separate lines := by
  induction lines with
  | nil => exact absurd rfl hne
  | cons l lines ih =>
    rw [List.forall_mem_cons] at h
    cases lines with
    | nil =>
      have hnil : Bounded [] := .inl rfl
      have hwhole : bexpand 0 (l ++ []) = l ++ [] ↔ Literal l := by
        constructor
        · intro he
          exact (literal_of_bexpand hnil h.1 (by simp) rfl he).1
        · intro hl
          exact bexpand_append hnil hl (.inl rfl)
      simpa [joined, Separate] using hwhole
    | cons l' lines =>
      have hrest := ih (by simp) h.2
      have hbounded : Bounded (92 :: 110 :: joined (l' :: lines)) := .inr ⟨_, rfl⟩
      have hseparator : bexpand 0 (92 :: 110 :: joined (l' :: lines)) =
          10 :: bexpand 0 (joined (l' :: lines)) := rfl
      have hjoin : [10].intercalate (l :: l' :: lines) =
          l ++ 10 :: [10].intercalate (l' :: lines) := by simp [List.intercalate_cons_cons]
      have hsplit : Separate (l :: l' :: lines) ↔
          (Literal l ∧ l.getLast? ≠ some 92) ∧ Separate (l' :: lines) := by
        simp only [Separate, List.forall_mem_cons, List.dropLast_cons_cons]
        tauto
      rw [joined_cons_cons, hjoin, hsplit, ← hrest]
      constructor
      · intro he
        have hno := newline_not_mem_joined h.2
        have hw : weight (10 :: [10].intercalate (l' :: lines)) =
            (92 :: 110 :: joined (l' :: lines)).length := by
          have hcons := weight_append [10] ([10].intercalate (l' :: lines))
          have hten : weight [10] = 2 := by decide
          rw [List.singleton_append, hten, weight_intercalate h.2] at hcons
          rw [hcons, List.length_cons, List.length_cons]
          omega
        obtain ⟨hl, hend, hout⟩ := literal_of_bexpand hbounded h.1 (by simp [hno]) hw he
        rw [hseparator, List.cons.injEq] at hout
        exact ⟨⟨hl, hend.resolve_left (by simp)⟩, hout.2⟩
      · rintro ⟨⟨hl, hend⟩, hout⟩
        rw [bexpand_append hbounded hl (.inr hend), hseparator, hout]

end Joined

end CloudVM.Shell
