import Mathlib.MeasureTheory.Measure.Lebesgue.Basic
import Mathlib.MeasureTheory.Measure.Real

/-!
# Overlap with a window

How much of a set of times lies in a window `[a, b)`, by any measure. Where bounded windows have
a finite measure, a window that is cut in two splits the overlap.
-/

namespace CloudVM.Overlap

open MeasureTheory Set

noncomputable section

variable {α : Type} [LinearOrder α] [MeasurableSpace α] (μ : Measure α)

def overlap (times : Set α) (a b : α) : ℝ := μ.real (times ∩ Ico a b)

/-- What the sets of a list have in the window together. -/
def total (times : List (Set α)) (a b : α) : ℝ := (times.map fun s => overlap μ s a b).sum

variable {μ} {a b c : α} {times : List (Set α)}

theorem total_perm {times' : List (Set α)} (h : times.Perm times') :
    total μ times a b = total μ times' a b := (h.map _).sum_eq

section Bounded

variable [TopologicalSpace α] [CompactIccSpace α] [IsLocallyFiniteMeasure μ]

theorem overlap_le (s : Set α) (a b : α) : overlap μ s a b ≤ μ.real (Ico a b) :=
  measureReal_mono inter_subset_right measure_Ico_lt_top.ne

theorem total_le : total μ times a b ≤ times.length * μ.real (Ico a b) := by
  have h : ∀ x ∈ times.map fun s => overlap μ s a b, x ≤ μ.real (Ico a b) := by
    intro x hx
    obtain ⟨s, -, rfl⟩ := List.mem_map.mp hx
    exact overlap_le s a b
  have hsum := List.sum_le_card_nsmul _ _ h
  rwa [List.length_map, nsmul_eq_mul] at hsum

variable [OrderClosedTopology α] [OpensMeasurableSpace α]

theorem overlap_add (s : Set α) (hab : a ≤ b) (hbc : b ≤ c) :
    overlap μ s a c = overlap μ s a b + overlap μ s b c := by
  have hfirst : s ∩ Ico a c ∩ Ico a b = s ∩ Ico a b := by
    rw [inter_assoc, inter_eq_self_of_subset_right (Ico_subset_Ico_right hbc)]
  have hrest : (s ∩ Ico a c) \ Ico a b = s ∩ Ico b c := by
    ext t
    simp only [mem_sdiff, mem_inter_iff, mem_Ico, not_and, not_lt]
    constructor
    · rintro ⟨⟨ht, ha, hc⟩, hb⟩
      exact ⟨ht, hb ha, hc⟩
    · rintro ⟨ht, hb, hc⟩
      exact ⟨⟨ht, hab.trans hb, hc⟩, fun _ => hb⟩
  have hfinite : μ (s ∩ Ico a c) ≠ ⊤ :=
    measure_ne_top_of_subset inter_subset_right measure_Ico_lt_top.ne
  rw [overlap, ← measureReal_inter_add_sdiff measurableSet_Ico hfinite, hfirst, hrest]
  rfl

theorem total_add (hab : a ≤ b) (hbc : b ≤ c) :
    total μ times a c = total μ times a b + total μ times b c := by
  have h : (times.map fun s => overlap μ s a c) =
      times.map fun s => overlap μ s a b + overlap μ s b c :=
    List.map_congr_left fun s _ => overlap_add s hab hbc
  rw [total, h, List.sum_map_add]
  rfl

end Bounded

section Line

variable {s e a b : ℝ}

theorem overlap_Ico : overlap volume (Ico s e) a b = max (min e b - max s a) 0 := by
  rw [overlap, Ico_inter_Ico, Real.volume_real_Ico]

theorem overlap_Ici : overlap volume (Ici s) a b = max (b - max s a) 0 := by
  have h : Ici s ∩ Ico a b = Ico (max s a) b := by
    ext t
    simp only [mem_inter_iff, mem_Ici, mem_Ico, max_le_iff, and_assoc]
  rw [overlap, h, Real.volume_real_Ico]

end Line

end

end CloudVM.Overlap
