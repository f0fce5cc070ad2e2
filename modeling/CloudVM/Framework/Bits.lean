import Mathlib.Data.List.Basic
import Mathlib.Logic.Function.Basic
import Mathlib.Tactic.Ring

/-!
# Words as strings of bits

The low bits of a word, the highest of them first, and streams made of words of one width. A
stream is cut into words in one way only, so two packers that write the same bits agree.
-/

namespace CloudVM.Bits

variable {w : ℕ}

section Words

/-- The `n` low bits of a word, the highest of them first. -/
def low (v : BitVec w) : ℕ → List Bool
  | 0 => []
  | n + 1 => v.getLsbD n :: low v n

def number (bits : List Bool) : ℕ := bits.foldl (fun n b => 2 * n + b.toNat) 0

@[simp] theorem length_low (v : BitVec w) (n : ℕ) : (low v n).length = n := by
  induction n with
  | zero => rfl
  | succ n ih => simp [low, ih]

@[simp] theorem low_zero (n : ℕ) : low (0#w) n = List.replicate n false := by
  induction n with
  | zero => rfl
  | succ n ih => simp [low, ih, List.replicate_succ]

theorem low_congr {w' : ℕ} {u : BitVec w} {v : BitVec w'} {n : ℕ}
    (h : ∀ i < n, u.getLsbD i = v.getLsbD i) : low u n = low v n := by
  induction n with
  | zero => rfl
  | succ n ih =>
    have hlow : low u n = low v n := ih fun i hi => h i (by omega)
    simp only [low, h n (by omega), hlow]

theorem low_add (v : BitVec w) (m n : ℕ) : low v (m + n) = low (v >>> n) m ++ low v n := by
  induction m with
  | zero => simp [low]
  | succ m ih =>
    have hbit : v.getLsbD (m + n) = (v >>> n).getLsbD m := by
      rw [BitVec.getLsbD_ushiftRight, Nat.add_comm]
    rw [Nat.add_right_comm, low, low, ih, hbit, List.cons_append]

/-- A word is moved up by `n` bits to make room for a smaller one. -/
theorem low_shiftLeft_or (v u : BitVec w) (m n : ℕ) (hw : m + n ≤ w)
    (hu : ∀ i, n ≤ i → u.getLsbD i = false) :
    low (v <<< n ||| u) (m + n) = low v m ++ low u n := by
  rw [low_add]
  congr 1
  · apply low_congr
    intro i hi
    have hword : n + i < w := by omega
    have hplace : n + i - n = i := by omega
    rw [BitVec.getLsbD_ushiftRight, BitVec.getLsbD_or, BitVec.getLsbD_shiftLeft, hu _ (by omega),
      hplace]
    simp [hword]
  · apply low_congr
    intro i hi
    simp [BitVec.getLsbD_or, BitVec.getLsbD_shiftLeft, hi]

/-- Moving a word up and filling in a smaller one is arithmetic as long as nothing is lost. -/
theorem toNat_shiftLeft_or (v u : BitVec w) (n : ℕ) (hv : v.toNat * 2 ^ n < 2 ^ w)
    (hu : u.toNat < 2 ^ n) : (v <<< n ||| u).toNat = v.toNat * 2 ^ n + u.toNat := by
  rw [BitVec.toNat_or, BitVec.toNat_shiftLeft, Nat.shiftLeft_eq, Nat.mod_eq_of_lt hv, Nat.mul_comm]
  exact (Nat.two_pow_add_eq_or_of_lt hu _).symm

private theorem number_foldl (bits : List Bool) (n : ℕ) :
    bits.foldl (fun n b => 2 * n + b.toNat) n = n * 2 ^ bits.length + number bits := by
  induction bits generalizing n with
  | nil => simp [number]
  | cons b bits ih =>
    simp only [number, List.foldl_cons, List.length_cons]
    rw [ih, ih (2 * 0 + b.toNat), pow_succ]
    ring

theorem number_cons (b : Bool) (bits : List Bool) :
    number (b :: bits) = b.toNat * 2 ^ bits.length + number bits := by
  simp only [number, List.foldl_cons]
  rw [number_foldl]
  simp [number]

theorem number_low (v : BitVec w) (n : ℕ) : number (low v n) = v.toNat % 2 ^ n := by
  induction n with
  | zero => simp [low, number, Nat.mod_one]
  | succ n ih =>
    rw [low, number_cons, ih, length_low, BitVec.getLsbD, Nat.mod_pow_succ, Nat.toNat_testBit]
    ring

end Words

section Shifts

/-- `<<`, whose count is taken modulo the width. -/
def shl (v : BitVec w) (n : ℕ) : BitVec w := v <<< (n % w)

/-- `>>>`, whose count is taken modulo the width. -/
def ushr (v : BitVec w) (n : ℕ) : BitVec w := v >>> (n % w)

theorem shl_eq (v : BitVec w) {n : ℕ} (h : n < w) : shl v n = v <<< n := by
  rw [shl, Nat.mod_eq_of_lt h]

theorem ushr_eq (v : BitVec w) {n : ℕ} (h : n < w) : ushr v n = v >>> n := by
  rw [ushr, Nat.mod_eq_of_lt h]

end Shifts

section Streams

variable {α : Type} {f : α → List Bool} {k : ℕ}

/-- A stream of words of one width falls into words in one way, up to a rest that is no word. -/
theorem flatMap_append_inj (hf : Function.Injective f) (hlen : ∀ a, (f a).length = k) (xs ys : List α)
    {p q : List Bool} (hp : p.length < k) (hq : q.length < k)
    (h : xs.flatMap f ++ p = ys.flatMap f ++ q) : xs = ys ∧ p = q := by
  induction xs generalizing ys with
  | nil =>
    cases ys with
    | nil => exact ⟨rfl, by simpa using h⟩
    | cons y ys =>
      have hl := congrArg List.length h
      simp only [List.flatMap_nil, List.nil_append, List.flatMap_cons, List.length_append, hlen] at hl
      omega
  | cons x xs ih =>
    cases ys with
    | nil =>
      have hl := congrArg List.length h
      simp only [List.flatMap_nil, List.nil_append, List.flatMap_cons, List.length_append, hlen] at hl
      omega
    | cons y ys =>
      simp only [List.flatMap_cons, List.append_assoc] at h
      obtain ⟨hword, hrest⟩ := List.append_inj h ((hlen x).trans (hlen y).symm)
      obtain ⟨htail, hpq⟩ := ih ys hrest
      exact ⟨by rw [hf hword, htail], hpq⟩

theorem length_flatMap_words (hlen : ∀ a, (f a).length = k) (xs : List α) :
    (xs.flatMap f).length = k * xs.length := by
  induction xs with
  | nil => rfl
  | cons x xs ih =>
    rw [List.flatMap_cons, List.length_append, hlen, ih, List.length_cons]
    ring

end Streams

end CloudVM.Bits
