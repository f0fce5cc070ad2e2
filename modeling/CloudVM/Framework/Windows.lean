import Mathlib.Algebra.BigOperators.Group.List.Basic
import Mathlib.Algebra.Order.Ring.Int
import Mathlib.Data.List.Basic
import Mathlib.Tactic.Common

/-!
# Counting in windows

A limiter counts what it lets through in a window of a fixed length. A window opens with the first
passage after the one before is over, and whatever it is charged with passes only up to a cap. An
interval of that length meets at most two windows, so that at most two caps pass in it.
-/

namespace CloudVM

structure Window where
  start : ℤ
  used : ℕ
deriving DecidableEq, Repr

/-- A request to a limiter: when it was checked, when it passed, and the weight that did. -/
structure Passage where
  checked : ℤ
  done : ℤ
  weight : ℕ
deriving DecidableEq, Repr

namespace Window

section Steps

variable (length : ℤ) (cap : ℕ)

/-- The window may be charged with more than passes, and with what does not pass. -/
inductive Step : Option Window → Passage → Option Window → Prop
  | idle {w : Option Window} {e : Passage} (hidle : e.weight = 0) : Step w e w
  | joined {v : Window} {e : Passage} (charge : ℕ) (hcharge : e.weight ≤ charge)
      (hcap : e.weight ≠ 0 → v.used + charge ≤ cap) :
      Step (some v) e (some ⟨v.start, v.used + charge⟩)
  | opened {w : Option Window} {e : Passage} (charge : ℕ) (hcharge : e.weight ≤ charge)
      (hcap : e.weight ≠ 0 → charge ≤ cap) (hover : ∀ v, w = some v → v.start + length ≤ e.checked) :
      Step w e (some ⟨e.checked, charge⟩)

/-- Requests one after another, none checked before the last one is done. -/
def Steps : Option Window → ℤ → List Passage → Prop
  | _, _, [] => True
  | w, clock, e :: es =>
      clock ≤ e.checked ∧ e.checked ≤ e.done ∧ ∃ w', Step length cap w e w' ∧ Steps w' e.done es

variable {length cap}

theorem Steps.earlier {w : Option Window} {clock clock' : ℤ} {es : List Passage} (hle : clock ≤ clock')
    (h : Steps length cap w clock' es) : Steps length cap w clock es := by
  cases es with
  | nil => trivial
  | cons e es => exact ⟨hle.trans h.1, h.2⟩

end Steps

section Interval

variable (a length : ℤ)

/-- What a passage adds to the half-open interval from `a` on. -/
def counted (e : Passage) : ℕ := if a ≤ e.done ∧ e.done < a + length then e.weight else 0

/-- How the weight that has passed in the interval came about: in no window, in the current one, in
the one before and the current one, or the interval is over. -/
inductive Tally (cap : ℕ) (total : ℕ) : Option Window → ℤ → Prop
  | nothing {w : Option Window} {clock : ℤ} (hnone : total = 0) : Tally cap total w clock
  | one {v : Window} {clock : ℤ} (hclock : a ≤ clock) (hused : total ≤ v.used) (hcap : total ≤ cap) :
      Tally cap total (some v) clock
  | two {v : Window} {clock : ℤ} (hstart : a ≤ v.start) (hused : total ≤ cap + v.used)
      (hcap : total ≤ 2 * cap) : Tally cap total (some v) clock
  | past {w : Option Window} {clock : ℤ} (hclock : a + length ≤ clock) (hcap : total ≤ 2 * cap) :
      Tally cap total w clock

variable {a length} {cap total : ℕ} {w w' : Option Window} {clock : ℤ} {e : Passage}

theorem Tally.le (h : Tally a length cap total w clock) : total ≤ 2 * cap := by
  cases h with
  | nothing hnone => omega
  | one hclock hused hcap => omega
  | two hstart hused hcap => exact hcap
  | past hclock hcap => exact hcap

theorem counted_cases (a length : ℤ) (e : Passage) : counted a length e = 0 ∨
    counted a length e = e.weight ∧ e.weight ≠ 0 ∧ a ≤ e.done ∧ e.done < a + length := by
  unfold counted
  split
  · by_cases hweight : e.weight = 0
    · exact .inl hweight
    · exact .inr ⟨rfl, hweight, by omega, by omega⟩
  · exact .inl rfl

theorem counted_idle (h : e.weight = 0) : counted a length e = 0 := by
  unfold counted
  split
  · exact h
  · rfl

private theorem Tally.step_nothing (hs : Step length cap w e w') :
    Tally a length cap (counted a length e) w' e.done := by
  rcases counted_cases a length e with hzero | ⟨hcounted, hweight, hle, -⟩
  · exact .nothing hzero
  · cases hs with
    | idle hidle => exact absurd hidle hweight
    | joined charge hcharge hcap =>
      have hfits := hcap hweight
      exact .one hle (by simp only; omega) (by omega)
    | opened charge hcharge hcap hover =>
      have hfits := hcap hweight
      exact .one hle (by simp only; omega) (by omega)

private theorem Tally.step_one {v : Window} (hstarted : a ≤ clock) (hused : total ≤ v.used)
    (hcapped : total ≤ cap) (hclock : clock ≤ e.checked) (hdone : e.checked ≤ e.done)
    (hs : Step length cap (some v) e w') :
    Tally a length cap (total + counted a length e) w' e.done := by
  have hle : a ≤ e.done := by omega
  cases hs with
  | idle hidle =>
    rw [counted_idle hidle]
    exact .one hle hused hcapped
  | joined charge hcharge hcap =>
    rcases counted_cases a length e with hzero | ⟨hcounted, hweight, -⟩
    · exact .one hle (by simp only; omega) (by omega)
    · have hfits := hcap hweight
      exact .one hle (by simp only; omega) (by omega)
  | opened charge hcharge hcap hover =>
    rcases counted_cases a length e with hzero | ⟨hcounted, hweight, -⟩
    · exact .two (by simp only; omega) (by simp only; omega) (by omega)
    · have hfits := hcap hweight
      exact .two (by simp only; omega) (by simp only; omega) (by omega)

private theorem Tally.step_two {v : Window} (hstart : a ≤ v.start) (hused : total ≤ cap + v.used)
    (hcapped : total ≤ 2 * cap) (hdone : e.checked ≤ e.done) (hs : Step length cap (some v) e w') :
    Tally a length cap (total + counted a length e) w' e.done := by
  cases hs with
  | idle hidle =>
    rw [counted_idle hidle]
    exact .two hstart hused hcapped
  | joined charge hcharge hcap =>
    rcases counted_cases a length e with hzero | ⟨hcounted, hweight, -⟩
    · exact .two hstart (by simp only; omega) (by omega)
    · have hfits := hcap hweight
      exact .two hstart (by simp only; omega) (by omega)
  | opened charge hcharge hcap hover =>
    -- the window after this one opens only when the interval is over
    have hlate : a + length ≤ e.checked := by
      have hopens := hover _ rfl
      omega
    rcases counted_cases a length e with hzero | ⟨-, -, -, hlt⟩
    · exact .past (by omega) (by omega)
    · omega

theorem Tally.step (h : Tally a length cap total w clock) (hclock : clock ≤ e.checked)
    (hdone : e.checked ≤ e.done) (hs : Step length cap w e w') :
    Tally a length cap (total + counted a length e) w' e.done := by
  cases h with
  | nothing hnone =>
    rw [hnone, Nat.zero_add]
    exact Tally.step_nothing hs
  | one hstarted hused hcapped => exact Tally.step_one hstarted hused hcapped hclock hdone hs
  | two hstart hused hcapped => exact Tally.step_two hstart hused hcapped hdone hs
  | past hover hcapped =>
    rcases counted_cases a length e with hzero | ⟨-, -, -, hlt⟩
    · exact .past (by omega) (by omega)
    · omega

/-- Whatever has passed in the interval so far, two caps are never exceeded. -/
theorem Tally.steps {es : List Passage} (h : Tally a length cap total w clock)
    (hsteps : Steps length cap w clock es) : total + (es.map (counted a length)).sum ≤ 2 * cap := by
  induction es generalizing total w clock with
  | nil => simpa using h.le
  | cons e es ih =>
    obtain ⟨hclock, hdone, w', hstep, hrest⟩ := hsteps
    have hbound := ih (h.step hclock hdone hstep) hrest
    rw [List.map_cons, List.sum_cons]
    omega

theorem Steps.counted_le {es : List Passage} (h : Steps length cap w clock es) (a : ℤ) :
    (es.map (counted a length)).sum ≤ 2 * cap := by
  have hnone : Tally a length cap 0 w clock := .nothing rfl
  have hbound := hnone.steps h
  omega

end Interval

end Window

end CloudVM
