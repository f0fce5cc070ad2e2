import Mathlib.Algebra.Order.Ring.Int
import Mathlib.Data.List.Basic
import Mathlib.Tactic.Linarith
import Mathlib.Tactic.Ring

/-!
# Numbers as bytes

Big-endian numbers, numbers in two's complement in as few bytes as they need, and fields that
start with their length in four bytes.
-/

namespace CloudVM.Numbers

section Unsigned

def value (bytes : List UInt8) : ℕ := bytes.foldl (fun n b => 256 * n + b.toNat) 0

@[simp] theorem value_nil : value [] = 0 := rfl

private theorem value_foldl (bytes : List UInt8) (n : ℕ) :
    bytes.foldl (fun n b => 256 * n + b.toNat) n = n * 256 ^ bytes.length + value bytes := by
  induction bytes generalizing n with
  | nil => simp
  | cons b bytes ih =>
    simp only [value, List.foldl_cons, List.length_cons]
    rw [ih, ih (256 * 0 + b.toNat), pow_succ]
    ring

theorem value_cons (b : UInt8) (bytes : List UInt8) :
    value (b :: bytes) = b.toNat * 256 ^ bytes.length + value bytes := by
  rw [value, List.foldl_cons, value_foldl]
  simp

theorem value_lt (bytes : List UInt8) : value bytes < 256 ^ bytes.length := by
  induction bytes with
  | nil => simp
  | cons b bytes ih =>
    have hb : b.toNat + 1 ≤ 256 := b.toNat_lt
    have hmul := Nat.mul_le_mul_right (256 ^ bytes.length) hb
    rw [value_cons, List.length_cons, pow_succ]
    linarith

theorem value_injective {xs ys : List UInt8} (hlen : xs.length = ys.length)
    (h : value xs = value ys) : xs = ys := by
  induction xs generalizing ys with
  | nil => exact (List.length_eq_zero_iff.mp hlen.symm).symm
  | cons x xs ih =>
    cases ys with
    | nil => cases hlen
    | cons y ys =>
      have hrest : xs.length = ys.length := Nat.succ.inj hlen
      have hpos : 0 < 256 ^ ys.length := Nat.pow_pos (by omega)
      have hdiv : ∀ (b : UInt8) {v : ℕ}, v < 256 ^ ys.length →
          (b.toNat * 256 ^ ys.length + v) / 256 ^ ys.length = b.toNat := by
        intro b v hv
        rw [Nat.add_comm, Nat.add_mul_div_right _ _ hpos, Nat.div_eq_of_lt hv, Nat.zero_add]
      have hx := value_lt xs
      rw [hrest] at hx
      rw [value_cons, value_cons, hrest] at h
      have hfirst : x = y := by
        rw [← UInt8.toNat_inj, ← hdiv x hx, h, hdiv y (value_lt ys)]
      rw [hfirst] at h ⊢
      rw [ih hrest (Nat.add_left_cancel h)]

end Unsigned

section Signed

def signed : List UInt8 → ℤ
  | [] => 0
  | b :: rest =>
    if b.toNat < 128 then value (b :: rest) else value (b :: rest) - 256 ^ (rest.length + 1)

/-- Without its first byte the number would be another, and zero has no bytes. -/
def Minimal : List UInt8 → Prop
  | [] => True
  | [b] => b ≠ 0
  | b :: c :: _ => ¬ (b = 0 ∧ c.toNat < 128) ∧ ¬ (b = 255 ∧ 128 ≤ c.toNat)

instance : DecidablePred Minimal
  | [] => .isTrue trivial
  | [b] => inferInstanceAs (Decidable (b ≠ 0))
  | b :: c :: _ => inferInstanceAs (Decidable (¬ (b = 0 ∧ c.toNat < 128) ∧ ¬ (b = 255 ∧ 128 ≤ c.toNat)))

theorem signed_cases (bytes : List UInt8) :
    signed bytes = value bytes ∨ signed bytes = value bytes - 256 ^ bytes.length := by
  cases bytes with
  | nil => exact .inl rfl
  | cons b rest =>
    by_cases hb : b.toNat < 128
    · exact .inl (if_pos hb)
    · exact .inr (if_neg hb)

theorem signed_range (bytes : List UInt8) :
    -(256 ^ bytes.length : ℤ) ≤ 2 * signed bytes ∧ 2 * signed bytes < 256 ^ bytes.length := by
  cases bytes with
  | nil => decide
  | cons b rest =>
    have hrest : (value rest : ℤ) < 256 ^ rest.length := by exact_mod_cast value_lt rest
    have hvalue : (value (b :: rest) : ℤ) = b.toNat * 256 ^ rest.length + value rest := by
      exact_mod_cast value_cons b rest
    have hb : (b.toNat : ℤ) < 256 := by exact_mod_cast b.toNat_lt
    have hpos : (0 : ℤ) < 256 ^ rest.length := by positivity
    simp only [signed, List.length_cons, pow_succ]
    split
    · rename_i hlow
      have hlow' : (b.toNat : ℤ) ≤ 127 := by omega
      rw [hvalue]
      constructor <;> nlinarith
    · rename_i hhigh
      have hhigh' : (128 : ℤ) ≤ b.toNat := by omega
      rw [hvalue]
      constructor <;> nlinarith

theorem Minimal.outside {b : UInt8} {rest : List UInt8} (h : Minimal (b :: rest)) :
    ¬ (-(256 ^ rest.length : ℤ) ≤ 2 * signed (b :: rest) ∧
      2 * signed (b :: rest) < 256 ^ rest.length) := by
  have hbyte : (b.toNat : ℤ) < 256 := by exact_mod_cast b.toNat_lt
  have hvalue : (value (b :: rest) : ℤ) = b.toNat * 256 ^ rest.length + value rest := by
    exact_mod_cast value_cons b rest
  cases rest with
  | nil =>
    have hne : b.toNat ≠ 0 := fun h0 => h (UInt8.toNat_inj.mp h0)
    simp only [signed, List.length_nil, pow_zero, mul_one, value_nil, Nat.cast_zero, add_zero] at hvalue ⊢
    rw [hvalue]
    split <;> omega
  | cons c tail =>
    have hc : (value (c :: tail) : ℤ) = c.toNat * 256 ^ tail.length + value tail := by
      exact_mod_cast value_cons c tail
    have htail : (value tail : ℤ) < 256 ^ tail.length := by exact_mod_cast value_lt tail
    have hrest : (value (c :: tail) : ℤ) < 256 ^ (c :: tail).length := by
      exact_mod_cast value_lt (c :: tail)
    have hpos : (0 : ℤ) < 256 ^ tail.length := by positivity
    simp only [signed, List.length_cons, pow_succ] at hvalue hrest ⊢
    rw [hvalue]
    generalize (256 : ℤ) ^ tail.length = q at *
    rintro ⟨hlow, hhigh⟩
    by_cases hb : b.toNat < 128
    · rw [if_pos hb] at hhigh
      by_cases hzero : b.toNat = 0
      · have hlarge : 128 ≤ (c.toNat : ℤ) := by
          by_contra hsmall
          exact h.1 ⟨UInt8.toNat_inj.mp hzero, by omega⟩
        rw [hzero] at hhigh
        push_cast at hhigh
        nlinarith
      · have hone : (1 : ℤ) ≤ b.toNat := by omega
        nlinarith
    · rw [if_neg hb] at hlow
      by_cases hfull : b.toNat = 255
      · have hsmall : (c.toNat : ℤ) ≤ 127 := by
          by_contra hlarge
          exact h.2 ⟨UInt8.toNat_inj.mp hfull, by omega⟩
        rw [hfull] at hlow
        push_cast at hlow
        nlinarith
      · have hnot : (b.toNat : ℤ) ≤ 254 := by omega
        nlinarith

theorem Minimal.ext {xs ys : List UInt8} (hx : Minimal xs) (hy : Minimal ys)
    (h : signed xs = signed ys) : xs = ys := by
  have hshort : ∀ {us vs : List UInt8}, Minimal vs → signed us = signed vs → vs.length ≤ us.length := by
    intro us vs hv huv
    by_contra hlt
    cases vs with
    | nil => exact hlt (Nat.zero_le _)
    | cons v rest =>
      have hle : us.length ≤ rest.length := by simpa [Nat.lt_succ_iff] using hlt
      have hpow : (256 ^ us.length : ℤ) ≤ 256 ^ rest.length := pow_le_pow_right₀ (by norm_num) hle
      obtain ⟨hlow, hhigh⟩ := signed_range us
      rw [huv] at hlow hhigh
      exact hv.outside ⟨by linarith, by linarith⟩
  have hlen : xs.length = ys.length := Nat.le_antisymm (hshort hx h.symm) (hshort hy h)
  have hvx : (value xs : ℤ) < 256 ^ xs.length := by exact_mod_cast value_lt xs
  have hvy : (value ys : ℤ) < 256 ^ ys.length := by exact_mod_cast value_lt ys
  have hsx := signed_cases xs
  have hsy := signed_cases ys
  rw [hlen] at hvx hsx
  apply value_injective hlen
  omega

theorem minimal_of_head {b : UInt8} {rest : List UInt8} (hb : b ≠ 0) :
    (b.toNat < 128 → Minimal (b :: rest) ∧ signed (b :: rest) = value (b :: rest)) ∧
      (128 ≤ b.toNat → Minimal (0 :: b :: rest) ∧ signed (0 :: b :: rest) = value (b :: rest)) := by
  constructor
  · intro hlow
    refine ⟨?_, if_pos hlow⟩
    cases rest with
    | nil => exact hb
    | cons c rest =>
      refine ⟨fun h => hb h.1, fun h => ?_⟩
      rw [h.1] at hlow
      exact absurd hlow (by decide)
  · intro hhigh
    refine ⟨⟨fun h => by omega, fun h => absurd h.1 (by decide)⟩, ?_⟩
    rw [signed, if_pos (by decide), value_cons]
    simp

end Signed

section Fields

/-- A number below `2 ^ 32` in four bytes. -/
def word32 (n : ℕ) : List UInt8 :=
  [.ofNat (n / 2 ^ 24), .ofNat (n / 2 ^ 16), .ofNat (n / 2 ^ 8), .ofNat n]

def field (data : List UInt8) : List UInt8 := word32 data.length ++ data

def readField : List UInt8 → Option (List UInt8 × List UInt8)
  | a :: b :: c :: d :: rest =>
    let n := value [a, b, c, d]
    if n ≤ rest.length then some (rest.take n, rest.drop n) else none
  | _ => none

theorem value_word32 {n : ℕ} (h : n < 2 ^ 32) : value (word32 n) = n := by
  simp only [word32, value, List.foldl_cons, List.foldl_nil, UInt8.toNat_ofNat']
  omega

theorem readField_field {data : List UInt8} (h : data.length < 2 ^ 32) (rest : List UInt8) :
    readField (field data ++ rest) = some (data, rest) := by
  have hlen := value_word32 h
  simp only [word32] at hlen
  simp only [field, word32, List.cons_append, List.nil_append, readField, hlen, List.length_append,
    Nat.le_add_right, if_true, List.take_left, List.drop_left]

theorem readField_eq_some {bytes data rest : List UInt8} (h : readField bytes = some (data, rest)) :
    data.length < 2 ^ 32 ∧ bytes = field data ++ rest := by
  match bytes with
  | [] | [_] | [_, _] | [_, _, _] => cases h
  | a :: b :: c :: d :: tail =>
    have hlt : value [a, b, c, d] < 2 ^ 32 := (value_lt [a, b, c, d]).trans_eq (by norm_num)
    rw [readField] at h
    split at h
    · rename_i hle
      obtain ⟨rfl, rfl⟩ := Prod.mk.inj (Option.some.inj h)
      have hword : word32 (value [a, b, c, d]) = [a, b, c, d] :=
        value_injective rfl (value_word32 hlt)
      rw [field, List.length_take, Nat.min_eq_left hle, hword]
      exact ⟨hlt, by simp⟩
    · cases h

end Fields

end CloudVM.Numbers
