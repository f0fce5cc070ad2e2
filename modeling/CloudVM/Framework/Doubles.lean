import Mathlib.Algebra.Order.Floor.Ring
import Mathlib.Data.Int.Log
import Mathlib.Data.Rat.Floor
import Mathlib.Tactic.FieldSimp
import Mathlib.Tactic.Linarith
import Mathlib.Tactic.Positivity
import Mathlib.Tactic.Ring

/-!
# Binary rounding

Rational numbers rounded to `p` binary digits, to the nearest one and of two to the even one. With
53 digits this is the arithmetic of doubles, for results that neither overflow nor underflow: the
exponent is not bounded. A rounded result is off by a factor between `1 - 2⁻ᵖ` and `1 + 2⁻ᵖ`.
-/

namespace CloudVM.Doubles

section Integers

def roundEven (x : ℚ) : ℤ :=
  if x - ⌊x⌋ < 1 / 2 then ⌊x⌋
  else if 1 / 2 < x - ⌊x⌋ then ⌊x⌋ + 1
  else ⌊x⌋ + ⌊x⌋ % 2

@[simp] theorem roundEven_intCast (n : ℤ) : roundEven n = n := by
  simp [roundEven]

theorem abs_roundEven_sub_le (x : ℚ) : |(roundEven x : ℚ) - x| ≤ 1 / 2 := by
  have hfloor := Int.floor_le x
  have hceil := Int.lt_floor_add_one x
  unfold roundEven
  split
  · rw [abs_le]
    constructor <;> linarith
  · split
    · push_cast
      rw [abs_le]
      constructor <;> linarith
    · -- a tie: the floor and its successor are equally near
      rcases Int.emod_two_eq_zero_or_one ⌊x⌋ with heven | hodd
      · rw [heven, add_zero, abs_le]
        constructor <;> linarith
      · rw [hodd]
        push_cast
        rw [abs_le]
        constructor <;> linarith

/-- The integer that is nearer than half. -/
theorem roundEven_eq {x : ℚ} {n : ℤ} (h : |x - n| < 1 / 2) : roundEven x = n := by
  have hround := abs_roundEven_sub_le x
  have hlt : |((roundEven x - n : ℤ) : ℚ)| < 1 := by
    push_cast
    calc |(roundEven x : ℚ) - n| ≤ |(roundEven x : ℚ) - x| + |x - n| := abs_sub_le _ _ _
      _ < 1 := by linarith
  have hint : |roundEven x - n| < 1 := by exact_mod_cast hlt
  rw [Int.abs_lt_one_iff] at hint
  omega

theorem roundEven_mono {x y : ℚ} (h : x ≤ y) : roundEven x ≤ roundEven y := by
  rcases eq_or_lt_of_le (Int.floor_le_floor h) with heq | hlt
  · have hx := Int.floor_le x
    have hx' := Int.lt_floor_add_one x
    unfold roundEven
    rw [heq] at *
    rcases Int.emod_two_eq_zero_or_one ⌊y⌋ with hmod | hmod <;>
      rw [hmod] <;> split_ifs <;> first | omega | (exfalso; linarith)
  · have hle : roundEven x ≤ ⌊x⌋ + 1 := by
      rcases Int.emod_two_eq_zero_or_one ⌊x⌋ with hmod | hmod <;>
        unfold roundEven <;> rw [hmod] <;> split_ifs <;> omega
    have hge : ⌊y⌋ ≤ roundEven y := by
      rcases Int.emod_two_eq_zero_or_one ⌊y⌋ with hmod | hmod <;>
        unfold roundEven <;> rw [hmod] <;> split_ifs <;> omega
    omega

end Integers

section Rounding

variable (p : ℕ)

/-- The distance between the numbers of `p` digits that are as large as `x`. -/
def ulp (x : ℚ) : ℚ := 2 ^ (Int.log 2 |x| + 1 - p)

def nearest (x : ℚ) : ℚ := roundEven (x / ulp p x) * ulp p x

/-- The double that is nearest to a number. -/
abbrev double : ℚ → ℚ := nearest 53

variable {p} {x y : ℚ}

theorem ulp_pos (p : ℕ) (x : ℚ) : 0 < ulp p x := zpow_pos (by norm_num) _

@[simp] theorem nearest_zero (p : ℕ) : nearest p 0 = 0 := by
  have hzero : roundEven 0 = 0 := by simpa using roundEven_intCast 0
  simp [nearest, hzero]

@[simp] theorem double_zero : double 0 = 0 := nearest_zero 53

theorem log_bounds (hx : x ≠ 0) :
    (2 : ℚ) ^ Int.log 2 |x| ≤ |x| ∧ |x| < 2 ^ (Int.log 2 |x| + 1) := by
  have hpos : 0 < |x| := abs_pos.mpr hx
  exact ⟨by exact_mod_cast Int.zpow_log_le_self (b := 2) (by norm_num) hpos,
    by exact_mod_cast Int.lt_zpow_succ_log_self (b := 2) (by norm_num) |x|⟩

theorem abs_nearest_sub_le (p : ℕ) (x : ℚ) : |nearest p x - x| ≤ |x| / 2 ^ p := by
  by_cases hx : x = 0
  · simp [hx]
  have hulp := ulp_pos p x
  have hscaled : nearest p x - x = (roundEven (x / ulp p x) - x / ulp p x) * ulp p x := by
    unfold nearest
    field_simp
  have hhalf : ulp p x / 2 ≤ |x| / 2 ^ p := by
    have hpow : ulp p x / 2 = 2 ^ Int.log 2 |x| / 2 ^ p := by
      unfold ulp
      rw [zpow_sub₀ (by norm_num), zpow_add_one₀ (by norm_num), zpow_natCast]
      ring
    rw [hpow]
    exact div_le_div_of_nonneg_right (log_bounds hx).1 (by positivity)
  calc |nearest p x - x| = |(roundEven (x / ulp p x) : ℚ) - x / ulp p x| * ulp p x := by
        rw [hscaled, abs_mul, abs_of_pos hulp]
    _ ≤ 1 / 2 * ulp p x := mul_le_mul_of_nonneg_right (abs_roundEven_sub_le _) hulp.le
    _ ≤ |x| / 2 ^ p := by linarith

private theorem nearest_eq_of_int {j : ℤ} (h : x / ulp p x = j) : nearest p x = x := by
  rw [nearest, h, roundEven_intCast, ← h, div_mul_cancel₀ x (ulp_pos p x).ne']

private theorem nearest_eq_of_lt {m k : ℤ} (hm : |m| < 2 ^ p) :
    nearest p (m * 2 ^ k) = m * 2 ^ k := by
  by_cases hx : (m : ℚ) * 2 ^ k = 0
  · rw [hx, nearest_zero]
  have hsize : |(m : ℚ) * 2 ^ k| < 2 ^ (p + k : ℤ) := by
    have hcast : |(m : ℚ)| < 2 ^ (p : ℤ) := by
      rw [zpow_natCast]
      exact_mod_cast hm
    have hpow : (0 : ℚ) < 2 ^ k := zpow_pos (by norm_num) k
    rw [abs_mul, abs_of_pos hpow, zpow_add₀ (by norm_num)]
    exact mul_lt_mul_of_pos_right hcast hpow
  have hlog : Int.log 2 |(m : ℚ) * 2 ^ k| < p + k :=
    (zpow_lt_zpow_iff_right₀ (by norm_num)).mp ((log_bounds hx).1.trans_lt hsize)
  -- the last digit of the number is no smaller than the distance of its neighbours
  obtain ⟨d, hd⟩ : ∃ d : ℕ, k = d + (Int.log 2 |(m : ℚ) * 2 ^ k| + 1 - p) :=
    ⟨(k - (Int.log 2 |(m : ℚ) * 2 ^ k| + 1 - p)).toNat, by omega⟩
  apply nearest_eq_of_int (j := m * 2 ^ d)
  rw [div_eq_iff (ulp_pos p _).ne', ulp]
  push_cast
  rw [mul_assoc, ← zpow_natCast, ← zpow_add₀ (by norm_num), ← hd]

theorem nearest_eq_self {m k : ℤ} (hp : 0 < p) (hm : |m| ≤ 2 ^ p) :
    nearest p (m * 2 ^ k) = m * 2 ^ k := by
  rcases hm.lt_or_eq with hlt | heq
  · exact nearest_eq_of_lt hlt
  · -- a power of two that takes one digit more is half as many of the next place
    obtain ⟨q, rfl⟩ : ∃ q, p = q + 1 := ⟨p - 1, by omega⟩
    obtain ⟨n, rfl⟩ : ∃ n, m = 2 * n := by
      have hdvd : (2 : ℤ) ∣ |m| := ⟨2 ^ q, by rw [heq, pow_succ]; ring⟩
      exact (dvd_abs _ _).mp hdvd
    have hn : |n| < 2 ^ (q + 1) := by
      rw [abs_mul, pow_succ] at heq
      rw [pow_succ]
      have hpos : (0 : ℤ) < 2 ^ q := by positivity
      norm_num at heq
      omega
    have hmove : ((2 * n : ℤ) : ℚ) * 2 ^ k = n * 2 ^ (k + 1) := by
      rw [zpow_add_one₀ (by norm_num)]
      push_cast
      ring
    rw [hmove]
    exact nearest_eq_of_lt hn

theorem nearest_intCast {n : ℤ} (hp : 0 < p) (hn : |n| ≤ 2 ^ p) : nearest p n = n := by
  have h := nearest_eq_self (k := 0) hp hn
  simpa using h

theorem nearest_natCast {n : ℕ} (hp : 0 < p) (hn : n ≤ 2 ^ p) : nearest p n = n := by
  have h := nearest_intCast (n := n) hp (by exact_mod_cast hn)
  exact_mod_cast h

theorem abs_div_ulp_lt (hx : x ≠ 0) : |x / ulp p x| < 2 ^ p := by
  have hpow : (2 : ℚ) ^ p * ulp p x = 2 ^ (Int.log 2 |x| + 1) := by
    rw [ulp, ← zpow_natCast, ← zpow_add₀ (by norm_num)]
    congr 1
    ring
  rw [abs_div, abs_of_pos (ulp_pos p x), div_lt_iff₀ (ulp_pos p x), hpow]
  exact (log_bounds hx).2

theorem abs_roundEven_le (p : ℕ) (x : ℚ) : |roundEven (x / ulp p x)| ≤ 2 ^ p := by
  by_cases hx : x = 0
  · have hzero : roundEven 0 = 0 := by simpa using roundEven_intCast 0
    simp [hx, hzero]
  · obtain ⟨hlow, hhigh⟩ := abs_lt.mp (abs_div_ulp_lt (p := p) hx)
    have hneg := roundEven_mono (x := ((-2 ^ p : ℤ) : ℚ)) (by push_cast; exact hlow.le)
    have hpos := roundEven_mono (y := ((2 ^ p : ℤ) : ℚ)) (by push_cast; exact hhigh.le)
    rw [roundEven_intCast] at hneg hpos
    exact abs_le.mpr ⟨hneg, hpos⟩

theorem nearest_nearest (hp : 0 < p) (x : ℚ) : nearest p (nearest p x) = nearest p x :=
  nearest_eq_self hp (abs_roundEven_le p x)

theorem nearest_nonneg (hx : 0 ≤ x) : 0 ≤ nearest p x := by
  have hscaled : ((0 : ℤ) : ℚ) ≤ x / ulp p x := by
    rw [Int.cast_zero]
    exact div_nonneg hx (ulp_pos p x).le
  have hround := roundEven_mono hscaled
  rw [roundEven_intCast] at hround
  exact mul_nonneg (by exact_mod_cast hround) (ulp_pos p x).le

theorem nearest_nonpos (hx : x ≤ 0) : nearest p x ≤ 0 := by
  have hscaled : x / ulp p x ≤ ((0 : ℤ) : ℚ) := by
    rw [Int.cast_zero]
    exact div_nonpos_of_nonpos_of_nonneg hx (ulp_pos p x).le
  have hround := roundEven_mono hscaled
  rw [roundEven_intCast] at hround
  exact mul_nonpos_of_nonpos_of_nonneg (by exact_mod_cast hround) (ulp_pos p x).le

/-- A number of size `2 ^ e` is rounded to one between this power and the next. -/
theorem nearest_bounds (hp : 0 < p) (hx : 0 < x) :
    (2 : ℚ) ^ Int.log 2 x ≤ nearest p x ∧ nearest p x ≤ 2 ^ (Int.log 2 x + 1) := by
  have hulp := ulp_pos p x
  have habs : |x| = x := abs_of_pos hx
  have hhigh : (2 : ℚ) ^ p * ulp p x = 2 ^ (Int.log 2 x + 1) := by
    rw [ulp, habs, ← zpow_natCast, ← zpow_add₀ (by norm_num)]
    congr 1
    ring
  have hlow : (2 : ℚ) ^ (p - 1) * ulp p x = 2 ^ Int.log 2 x := by
    rw [ulp, habs, ← zpow_natCast, ← zpow_add₀ (by norm_num)]
    congr 1
    omega
  have hbounds := log_bounds hx.ne'
  rw [habs] at hbounds
  constructor
  · have hscaled : (((2 ^ (p - 1) : ℤ)) : ℚ) ≤ x / ulp p x := by
      rw [le_div_iff₀ hulp]
      push_cast
      rw [hlow]
      exact hbounds.1
    have hround := roundEven_mono hscaled
    rw [roundEven_intCast] at hround
    rw [← hlow]
    exact mul_le_mul_of_nonneg_right (by exact_mod_cast hround) hulp.le
  · rw [← hhigh]
    have hround := (abs_le.mp (abs_roundEven_le p x)).2
    exact mul_le_mul_of_nonneg_right (by exact_mod_cast hround) hulp.le

theorem nearest_mono (hp : 0 < p) (hx : 0 ≤ x) (h : x ≤ y) : nearest p x ≤ nearest p y := by
  rcases hx.eq_or_lt with rfl | hpos
  · rw [nearest_zero]
    exact nearest_nonneg h
  have hy := hpos.trans_le h
  rcases (Int.log_mono_right (b := 2) hpos h).eq_or_lt with heq | hlt
  · have hulp : ulp p x = ulp p y := by
      rw [ulp, ulp, abs_of_pos hpos, abs_of_pos hy, heq]
    have hscaled : x / ulp p y ≤ y / ulp p y := div_le_div_of_nonneg_right h (ulp_pos p y).le
    rw [nearest, nearest, hulp]
    exact mul_le_mul_of_nonneg_right (by exact_mod_cast roundEven_mono hscaled) (ulp_pos p y).le
  · calc nearest p x ≤ 2 ^ (Int.log 2 x + 1) := (nearest_bounds hp hpos).2
      _ ≤ 2 ^ Int.log 2 y := zpow_le_zpow_right₀ (by norm_num) (by omega)
      _ ≤ nearest p y := (nearest_bounds hp hy).1

theorem nearest_factor (hx : 0 ≤ x) :
    (1 - 1 / 2 ^ p) * x ≤ nearest p x ∧ nearest p x ≤ (1 + 1 / 2 ^ p) * x := by
  have h := abs_nearest_sub_le p x
  rw [abs_of_nonneg hx, abs_le] at h
  have hdiv : x / 2 ^ p = 1 / 2 ^ p * x := by ring
  rw [hdiv] at h
  constructor <;> linarith

/-- Quotients of numbers of fewer than `p` digits are ordered alike once they are rounded. -/
theorem nearest_div_le_iff {n k : ℕ} {d : ℚ} (hp : 0 < p) (hd : 0 < d) (hn : 2 * n ≤ 2 ^ p) :
    nearest p (n / d) ≤ nearest p (k / d) ↔ n ≤ k := by
  constructor
  · intro h
    by_contra hlt
    rw [not_le] at hlt
    have hhigh := (nearest_factor (p := p) (show (0 : ℚ) ≤ k / d by positivity)).2
    have hlow := (nearest_factor (p := p) (show (0 : ℚ) ≤ n / d by positivity)).1
    have hsum : ((n + k : ℕ) : ℚ) < 2 ^ p := by
      exact_mod_cast (show n + k < 2 ^ p by omega)
    have hgap : (k : ℚ) + 1 ≤ n := by exact_mod_cast hlt
    have hfactors : (1 + 1 / 2 ^ p : ℚ) * (k / d) < (1 - 1 / 2 ^ p) * (n / d) := by
      rw [← mul_div_assoc, ← mul_div_assoc, div_lt_div_iff_of_pos_right hd]
      have hless : 1 / 2 ^ p * ((n + k : ℕ) : ℚ) < 1 := by
        rw [one_div, inv_mul_lt_one₀ (by positivity)]
        exact hsum
      push_cast at hless
      linarith
    linarith
  · intro h
    apply nearest_mono hp (by positivity)
    exact div_le_div_of_nonneg_right (by exact_mod_cast h) hd.le

/-- Two divisions one after the other do not round past a whole number. -/
theorem floor_nearest_div {t c d : ℕ} (hp : 0 < p) (hc : 0 < c) (hd : 0 < d) (ht : 2 * t < 2 ^ p) :
    ⌊nearest p (nearest p ((t : ℚ) / c) / d)⌋ = (t / (c * d) : ℕ) := by
  have hcq : (0 : ℚ) < c := by exact_mod_cast hc
  have hdq : (0 : ℚ) < d := by exact_mod_cast hd
  have hle : t / (c * d) * (c * d) ≤ t := Nat.div_mul_le_self _ _
  have hlt : t + 1 ≤ (t / (c * d) + 1) * (c * d) := by
    have hrest := Nat.lt_div_mul_add (a := t) (Nat.mul_pos hc hd)
    rw [add_mul, one_mul]
    omega
  generalize t / (c * d) = k at hle hlt ⊢
  have hk : k * d ≤ t := by nlinarith
  have hfirst : ((k * d : ℕ) : ℚ) ≤ nearest p ((t : ℚ) / c) := by
    have hquotient : ((k * d : ℕ) : ℚ) ≤ (t : ℚ) / c := by
      rw [le_div_iff₀ hcq]
      exact_mod_cast (by linarith : k * d * c ≤ t)
    have hround := nearest_mono hp (Nat.cast_nonneg _) hquotient
    rwa [nearest_natCast hp (by omega)] at hround
  have hpow : (0 : ℚ) < 2 ^ p := by positivity
  have htq : 2 * (t : ℚ) + 1 ≤ 2 ^ p := by exact_mod_cast ht
  rw [Int.floor_eq_iff]
  constructor
  · have hquotient : (k : ℚ) ≤ nearest p ((t : ℚ) / c) / d := by
      rw [le_div_iff₀ hdq]
      exact_mod_cast hfirst
    have hround := nearest_mono hp (Nat.cast_nonneg _) hquotient
    rw [nearest_natCast hp (by nlinarith)] at hround
    exact_mod_cast hround
  · have hnonneg : (0 : ℚ) ≤ t := Nat.cast_nonneg _
    have hone := (nearest_factor (p := p) (div_nonneg hnonneg hcq.le)).2
    have htwo := (nearest_factor (p := p) (div_nonneg ((Nat.cast_nonneg _).trans hfirst) hdq.le)).2
    -- the two roundings together add less than the missing part
    have hexact : (1 + 1 / 2 ^ p) * ((1 + 1 / 2 ^ p) * (t : ℚ)) < t + 1 := by
      have hunit : (0 : ℚ) < 1 / 2 ^ p := by positivity
      have hpart : 2 * (1 / 2 ^ p * (t : ℚ)) ≤ 1 - 1 / 2 ^ p := by
        rw [le_sub_iff_add_le]
        calc 2 * (1 / 2 ^ p * (t : ℚ)) + 1 / 2 ^ p = (2 * t + 1) / 2 ^ p := by ring
          _ ≤ 1 := (div_le_one hpow).mpr htq
      have hsecond : 1 / 2 ^ p * (2 * (1 / 2 ^ p * (t : ℚ))) ≤ 1 / 2 ^ p * (1 - 1 / 2 ^ p) :=
        mul_le_mul_of_nonneg_left hpart hunit.le
      have hsquare : (0 : ℚ) < 1 / 2 ^ p * (1 / 2 ^ p) := mul_pos hunit hunit
      linarith
    have hlimit : (t : ℚ) + 1 ≤ (k + 1) * (c * d) := by exact_mod_cast hlt
    calc nearest p (nearest p ((t : ℚ) / c) / d)
        ≤ (1 + 1 / 2 ^ p) * ((1 + 1 / 2 ^ p) * (t / c) / d) :=
          htwo.trans (mul_le_mul_of_nonneg_left (div_le_div_of_nonneg_right hone hdq.le)
            (by positivity))
      _ = (1 + 1 / 2 ^ p) * ((1 + 1 / 2 ^ p) * t) / (c * d) := by
          field_simp
      _ < (t + 1) / (c * d) := div_lt_div_of_pos_right hexact (mul_pos hcq hdq)
      _ ≤ k + 1 := (div_le_iff₀ (mul_pos hcq hdq)).mpr hlimit
      _ = ((k : ℤ) : ℚ) + 1 := by push_cast; rfl

/-- The value of a rounding, where the place of the last digit is known. -/
theorem nearest_eq {n k : ℤ} (hlow : (2 : ℚ) ^ (p + k - 1 : ℤ) ≤ x)
    (hhigh : x < 2 ^ (p + k : ℤ)) (hn : |x / 2 ^ k - n| < 1 / 2) :
    nearest p x = n * 2 ^ k := by
  have hpos : 0 < x := (zpow_pos (by norm_num) _).trans_le hlow
  have hlog : Int.log 2 x = p + k - 1 := by
    obtain ⟨hle, hlt⟩ := log_bounds hpos.ne'
    rw [abs_of_pos hpos] at hle hlt
    have hupper := (zpow_lt_zpow_iff_right₀ (by norm_num : (1 : ℚ) < 2)).mp (hle.trans_lt hhigh)
    have hlower := (zpow_lt_zpow_iff_right₀ (by norm_num : (1 : ℚ) < 2)).mp (hlow.trans_lt hlt)
    omega
  have hulp : ulp p x = 2 ^ k := by
    rw [ulp, abs_of_pos hpos, hlog]
    congr 1
    ring
  rw [nearest, hulp, roundEven_eq hn]

end Rounding

section Sums

variable (p : ℕ)

/-- A loop that adds rounded terms to a total that is rounded each time. -/
def addAll (total : ℚ) (terms : List ℚ) : ℚ :=
  terms.foldl (fun total x => nearest p (total + nearest p x)) total

variable {p} {total x : ℚ} {terms : List ℚ}

@[simp] theorem addAll_nil : addAll p total [] = total := rfl

@[simp] theorem addAll_cons :
    addAll p total (x :: terms) = addAll p (nearest p (total + nearest p x)) terms := rfl

theorem addAll_filter (hp : 0 < p) (htotal : nearest p total = total)
    (hterms : ∀ x ∈ terms, 0 ≤ x) :
    addAll p total (terms.filter fun x => 0 < x) = addAll p total terms := by
  induction terms generalizing total with
  | nil => rfl
  | cons x terms ih =>
    have hrest := fun y hy => hterms y (List.mem_cons_of_mem x hy)
    by_cases hx : 0 < x
    · rw [List.filter_cons_of_pos (by simpa using hx), addAll_cons, addAll_cons]
      exact ih (nearest_nearest hp _) hrest
    · obtain rfl : x = 0 := le_antisymm (not_lt.mp hx) (hterms x List.mem_cons_self)
      rw [List.filter_cons_of_neg (by simp), addAll_cons, nearest_zero, add_zero, htotal]
      exact ih htotal hrest

theorem addAll_mono (hp : 0 < p) {total' : ℚ} {terms' : List ℚ} (htotal : 0 ≤ total)
    (h : total ≤ total') (hnonneg : ∀ x ∈ terms, 0 ≤ x) (hterms : List.Forall₂ (· ≤ ·) terms terms') :
    addAll p total terms ≤ addAll p total' terms' := by
  induction hterms generalizing total total' with
  | nil => exact h
  | @cons x y terms terms' hxy hrest ih =>
    have hx := hnonneg x List.mem_cons_self
    have hterm := nearest_nonneg (p := p) hx
    rw [addAll_cons, addAll_cons]
    apply ih
    · exact nearest_nonneg (by linarith)
    · have hle := nearest_mono hp hx hxy
      exact nearest_mono hp (by linarith) (by linarith)
    · exact fun z hz => hnonneg z (List.mem_cons_of_mem x hz)

private theorem addAll_factors {k : ℕ} {sum : ℚ} (hk : 0 < k) (hsum : 0 ≤ sum)
    (hlow : (1 - 1 / 2 ^ p) ^ k * sum ≤ total) (hhigh : total ≤ (1 + 1 / 2 ^ p) ^ k * sum)
    (htotal : 0 ≤ total) (hterms : ∀ x ∈ terms, 0 ≤ x) :
    (1 - 1 / 2 ^ p) ^ (k + terms.length) * (sum + terms.sum) ≤ addAll p total terms ∧
      addAll p total terms ≤ (1 + 1 / 2 ^ p) ^ (k + terms.length) * (sum + terms.sum) := by
  induction terms generalizing total sum k with
  | nil =>
    rw [List.length_nil, List.sum_nil, add_zero, add_zero]
    exact ⟨hlow, hhigh⟩
  | cons x terms ih =>
    have hx := hterms x List.mem_cons_self
    have hterm := nearest_nonneg (p := p) hx
    have hrest := fun y hy => hterms y (List.mem_cons_of_mem x hy)
    obtain ⟨hxlow, hxhigh⟩ := nearest_factor (p := p) hx
    obtain ⟨haddlow, haddhigh⟩ := nearest_factor (p := p) (add_nonneg htotal hterm)
    have hunit : (0 : ℚ) ≤ 1 / 2 ^ p ∧ 1 / 2 ^ p ≤ (1 : ℚ) := by
      constructor
      · positivity
      · rw [div_le_one (by positivity)]
        exact one_le_pow₀ (by norm_num)
    have hone : (0 : ℚ) ≤ 1 - 1 / 2 ^ p := by linarith
    -- one factor is at most as far off as `k` factors
    have hpowlow : (1 - 1 / 2 ^ p : ℚ) ^ k ≤ 1 - 1 / 2 ^ p := pow_le_of_le_one hone (by linarith) hk.ne'
    have hpowhigh : (1 + 1 / 2 ^ p : ℚ) ≤ (1 + 1 / 2 ^ p) ^ k := le_self_pow₀ (by linarith) hk.ne'
    have hlow' : (1 - 1 / 2 ^ p) ^ (k + 1) * (sum + x) ≤ nearest p (total + nearest p x) := by
      have hterm' := mul_le_mul_of_nonneg_right hpowlow hx
      calc (1 - 1 / 2 ^ p) ^ (k + 1) * (sum + x)
          = (1 - 1 / 2 ^ p) * ((1 - 1 / 2 ^ p) ^ k * sum + (1 - 1 / 2 ^ p) ^ k * x) := by ring
        _ ≤ (1 - 1 / 2 ^ p) * (total + nearest p x) :=
          mul_le_mul_of_nonneg_left (by linarith) hone
        _ ≤ nearest p (total + nearest p x) := haddlow
    have hhigh' : nearest p (total + nearest p x) ≤ (1 + 1 / 2 ^ p) ^ (k + 1) * (sum + x) := by
      have hterm' := mul_le_mul_of_nonneg_right hpowhigh hx
      calc nearest p (total + nearest p x)
          ≤ (1 + 1 / 2 ^ p) * (total + nearest p x) := haddhigh
        _ ≤ (1 + 1 / 2 ^ p) * ((1 + 1 / 2 ^ p) ^ k * sum + (1 + 1 / 2 ^ p) ^ k * x) :=
          mul_le_mul_of_nonneg_left (by linarith) (by linarith)
        _ = (1 + 1 / 2 ^ p) ^ (k + 1) * (sum + x) := by ring
    have hsteps := ih (Nat.succ_pos k) (add_nonneg hsum hx) hlow' hhigh'
      (nearest_nonneg (add_nonneg htotal hterm)) hrest
    rw [addAll_cons, List.length_cons, List.sum_cons, ← add_assoc sum]
    have hcount : k + (terms.length + 1) = k + 1 + terms.length := by omega
    rw [hcount]
    exact hsteps

/-- The sum of `n` terms is off by `n` factors at the most: the first addition is exact. -/
theorem addAll_bounds (hp : 0 < p) (hterms : ∀ x ∈ terms, 0 ≤ x) :
    (1 - 1 / 2 ^ p) ^ terms.length * terms.sum ≤ addAll p 0 terms ∧
      addAll p 0 terms ≤ (1 + 1 / 2 ^ p) ^ terms.length * terms.sum := by
  cases terms with
  | nil => simp
  | cons x terms =>
    have hx := hterms x List.mem_cons_self
    obtain ⟨hlow, hhigh⟩ := nearest_factor (p := p) hx
    have hsteps := addAll_factors (k := 1) one_pos hx (by simpa using hlow) (by simpa using hhigh)
      (nearest_nonneg hx) fun y hy => hterms y (List.mem_cons_of_mem x hy)
    rw [addAll_cons, zero_add, nearest_nearest hp, List.length_cons, List.sum_cons, add_comm _ 1]
    exact hsteps

end Sums

end CloudVM.Doubles
