import Mathlib.Algebra.Ring.Nat
import Mathlib.Data.List.Flatten
import Mathlib.Data.List.Forall2
import Mathlib.Tactic.Common

/-!
# Lines

A text over any alphabet is cut into lines at the characters of a class. What follows the last
of them is a line that is not ended yet, and a text is cut the same whether it comes at once or
in pieces.
-/

namespace CloudVM.Lines

variable {α : Type} (p q : α → Bool)

/-- The lines that a text ends when `line` stands unended before it. -/
def ended (line : List α) : List α → List (List α)
  | [] => []
  | c :: text => if p c then line :: ended [] text else ended (line ++ [c]) text

def unended (line : List α) : List α → List α
  | [] => line
  | c :: text => if p c then unended [] text else unended (line ++ [c]) text

/-- All lines of a text, the last of them unended. -/
def whole (text : List α) : List (List α) := ended p [] text ++ [unended p [] text]

def Clear (text : List α) : Prop := ∀ c ∈ text, p c = false

variable {p}

theorem ended_append (line u v : List α) :
    ended p line (u ++ v) = ended p line u ++ ended p (unended p line u) v := by
  induction u generalizing line with
  | nil => rfl
  | cons c u ih =>
    by_cases hc : p c = true
    · simp [ended, unended, hc, ih]
    · simp [ended, unended, hc, ih]

theorem unended_append (line u v : List α) :
    unended p line (u ++ v) = unended p (unended p line u) v := by
  induction u generalizing line with
  | nil => rfl
  | cons c u ih =>
    by_cases hc : p c = true
    · simp [unended, hc, ih]
    · simp [unended, hc, ih]

theorem Clear.append {u v : List α} (hu : Clear p u) (hv : Clear p v) : Clear p (u ++ v) := by
  intro c hc
  rcases List.mem_append.mp hc with hc | hc
  · exact hu c hc
  · exact hv c hc

theorem Clear.subset {u v : List α} (hv : Clear p v) (h : u ⊆ v) : Clear p u :=
  fun c hc => hv c (h hc)

theorem Clear.unended {line : List α} (h : Clear p line) (text : List α) :
    Clear p (unended p line text) := by
  induction text generalizing line with
  | nil => exact h
  | cons c text ih =>
    by_cases hc : p c = true
    · simp only [Lines.unended, hc, if_true]
      exact ih (fun _ hm => by simp at hm)
    · simp only [Lines.unended, hc]
      apply ih
      apply h.append
      simpa [Clear] using hc

/-- A cut at one class puts no character of another class into a line. -/
theorem Clear.cut {q : α → Bool} {line text : List α} (hline : Clear q line) (htext : Clear q text) :
    (∀ l ∈ ended p line text, Clear q l) ∧ Clear q (Lines.unended p line text) := by
  induction text generalizing line with
  | nil =>
    simp only [ended, Lines.unended, List.not_mem_nil, false_implies, implies_true, true_and]
    exact hline
  | cons c text ih =>
    have hrest : Clear q text := htext.subset (by simp)
    by_cases hc : p c = true
    · have hnil : Clear q [] := by simp [Clear]
      have hcut := ih hnil hrest
      simp only [ended, Lines.unended, hc, if_true, List.forall_mem_cons]
      exact ⟨⟨hline, hcut.1⟩, hcut.2⟩
    · have hlast : Clear q [c] := htext.subset (by simp)
      simp only [ended, Lines.unended, hc]
      exact ih (hline.append hlast) hrest

theorem ended_clear {text : List α} (h : Clear p text) (line : List α) : ended p line text = [] := by
  induction text generalizing line with
  | nil => rfl
  | cons c text ih =>
    have hc : p c = false := h c (by simp)
    have htext : Clear p text := h.subset (by simp)
    simp [ended, hc, ih htext]

theorem unended_clear {text : List α} (h : Clear p text) (line : List α) :
    unended p line text = line ++ text := by
  induction text generalizing line with
  | nil => simp [unended]
  | cons c text ih =>
    have hc : p c = false := h c (by simp)
    have htext : Clear p text := h.subset (by simp)
    simp [unended, hc, ih htext]

/-- Text before the first end of a line may be seen as a line that stands unended. -/
theorem ended_start {line : List α} (h : Clear p line) (text : List α) :
    ended p [] (line ++ text) = ended p line text := by
  rw [ended_append, ended_clear h, unended_clear h]
  simp

theorem whole_clear {text : List α} (h : Clear p text) : whole p text = [text] := by
  rw [whole, ended_clear h, unended_clear h]
  simp

/-- Cutting at two classes is cutting at one of them and then each line at the other. -/
theorem ended_or (p q : α → Bool) {line : List α} (h : Clear q line) (text : List α) :
    ended (fun c => q c || p c) line text =
      (ended p line text).flatMap (whole q) ++ ended q [] (unended p line text) := by
  have hgen : ∀ line : List α, ended q [] line ++
      ended (fun c => q c || p c) (unended q [] line) text =
        (ended p line text).flatMap (whole q) ++ ended q [] (unended p line text) := by
    induction text with
    | nil => intro line; simp [ended, unended]
    | cons c text ih =>
      intro line
      by_cases hp : p c = true
      · have hnil := ih []
        simp only [ended, unended, List.nil_append] at hnil
        simp [ended, unended, hp, hnil, whole]
      · have hnext := ih (line ++ [c])
        rw [ended_append, unended_append] at hnext
        by_cases hq : q c = true
        · simpa [ended, unended, hp, hq] using hnext
        · simpa [ended, unended, hp, hq] using hnext
  have hline := hgen line
  rw [ended_clear h, unended_clear h] at hline
  simpa using hline

theorem countP_flatMap_le {β : Type} {f : List α → List β} {hit : β → Bool} {seen : List α → Bool}
    {us vs : List (List α)}
    (h : List.Forall₂ (fun u v => (f u).countP hit ≤ if seen v then 1 else 0) us vs) :
    (us.flatMap f).countP hit ≤ vs.countP seen := by
  induction h with
  | nil => simp
  | cons hle _ ih =>
    rw [List.flatMap_cons, List.countP_append, List.countP_cons]
    omega

theorem not_mem_of_mem_splitOn {β : Type} [BEq β] [LawfulBEq β] {a : β} {text piece : List β}
    (h : piece ∈ text.splitOn a) : a ∉ piece := by
  induction text generalizing piece with
  | nil =>
    rw [List.splitOn_nil, List.mem_singleton] at h
    simp [h]
  | cons c text ih =>
    rw [List.splitOn_cons_eq_if_modifyHead] at h
    split at h
    · rcases List.mem_cons.mp h with rfl | h
      · simp
      · exact ih h
    · rename_i hc
      have hne : a ≠ c := by
        rintro rfl
        exact hc (by simp)
      cases hs : text.splitOn a with
      | nil => simp [hs] at h
      | cons first rest =>
        rw [hs, List.modifyHead_cons] at h
        have hall : ∀ x ∈ first :: rest, a ∉ x := fun x hx => ih (hs ▸ hx)
        rcases List.mem_cons.mp h with rfl | h
        · rw [List.mem_cons, not_or]
          exact ⟨hne, hall first (by simp)⟩
        · exact hall piece (by simp [h])

/-- Lines that are kept as they are, shrunk or left out weigh as much as before only if all of them
are kept. -/
theorem filterMap_sum {β : Type} {f : β → Option β} {size : β → ℕ} (hpos : ∀ x, 0 < size x)
    (hf : ∀ x y, f x = some y → y = x ∨ size y < size x) (xs : List β) :
    ((xs.filterMap f).map size).sum ≤ (xs.map size).sum ∧
      (((xs.filterMap f).map size).sum = (xs.map size).sum → xs.filterMap f = xs) := by
  induction xs with
  | nil => simp
  | cons x xs ih =>
    obtain ⟨hle, heq⟩ := ih
    have hx := hpos x
    cases hfx : f x with
    | none =>
      rw [List.filterMap_cons_none hfx, List.map_cons, List.sum_cons]
      exact ⟨by omega, fun h => by omega⟩
    | some y =>
      rw [List.filterMap_cons_some hfx, List.map_cons, List.sum_cons, List.map_cons, List.sum_cons]
      rcases hf x y hfx with rfl | hlt
      · refine ⟨by omega, ?_⟩
        intro h
        rw [heq (by omega)]
      · exact ⟨by omega, fun h => by omega⟩

end CloudVM.Lines
