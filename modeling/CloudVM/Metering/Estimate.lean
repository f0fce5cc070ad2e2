import CloudVM.Framework.Overlap
import CloudVM.Metering.Hours

/-!
# The estimate as an overlap

A VM counts from its creation until it is stopped, and without an end while it runs or has no
`stoppedAt`. The loop of `estimateVmHoursUsed` measures how much of that lies in the window. Added
exactly, the hours are bounded by the window, forget the order of the VMs and add up over windows
that follow one another. In doubles each of this holds up to one rounding for each VM that counts.
-/

namespace CloudVM.UserService

open MeasureTheory Overlap Doubles

section Lifetime

def countsUntil (vm : MeteredVm) : Option ℕ := if vm.status = .running then none else vm.stoppedAt

def lifetime (vm : MeteredVm) : Set ℝ :=
  match countsUntil vm with
  | some stoppedAt => Set.Ico vm.createdAt stoppedAt
  | none => Set.Ici vm.createdAt

variable (vm : MeteredVm) (a b : ℕ)

private theorem length_cast (m n : ℕ) : ((m - n : ℕ) : ℝ) = max ((m : ℝ) - n) 0 := by
  rcases le_total n m with h | h
  · have hreal : (n : ℝ) ≤ m := Nat.cast_le.mpr h
    rw [Nat.cast_sub h, max_eq_left (sub_nonneg.mpr hreal)]
  · have hreal : (m : ℝ) ≤ n := Nat.cast_le.mpr h
    rw [Nat.sub_eq_zero_of_le h, max_eq_right (sub_nonpos.mpr hreal), Nat.cast_zero]

private theorem ended_eq_countsUntil : ended vm b = ((countsUntil vm).map (min · b)).getD b := by
  rw [ended_eq, countsUntil]
  split
  · rfl
  · cases vm.stoppedAt with
    | none => simp
    | some stoppedAt => rfl

theorem counted_eq_overlap : (counted vm a b : ℝ) = overlap volume (lifetime vm) a b := by
  rw [counted, started_eq, length_cast, ended_eq_countsUntil, lifetime]
  cases countsUntil vm with
  | none =>
    rw [overlap_Ici, Nat.cast_max]
    rfl
  | some stoppedAt =>
    rw [overlap_Ico, Nat.cast_max, Option.map_some, Option.getD_some, Nat.cast_min]

end Lifetime

section Estimate

variable (vms : List MeteredVm) {a b c : ℕ}

theorem totalHours_eq_total (a b : ℕ) :
    (totalHours a b vms : ℝ) = total volume (vms.map lifetime) a b / millisPerHour := by
  have hsum : ((vms.map fun vm => counted vm a b).sum : ℕ) =
      total volume (vms.map lifetime) (a : ℝ) b := by
    rw [total, List.map_map, Nat.cast_list_sum, List.map_map]
    congr 1
    apply List.map_congr_left
    intro vm _
    exact counted_eq_overlap vm a b
  rw [totalHours_eq, ← hsum, Rat.cast_div, Rat.cast_natCast, Rat.cast_natCast]

private theorem millis_pos : (0 : ℝ) < millisPerHour := by
  norm_num [millisPerHour]

private theorem window_length (h : a ≤ b) :
    volume.real (Set.Ico (a : ℝ) b) = ((b - a : ℕ) : ℝ) := by
  have hreal : (a : ℝ) ≤ b := Nat.cast_le.mpr h
  rw [Real.volume_real_Ico_of_le hreal, Nat.cast_sub h]

theorem totalHours_le (h : a ≤ b) :
    totalHours a b vms ≤ vms.length * (((b - a : ℕ) : ℚ) / millisPerHour) := by
  have hle : total volume (vms.map lifetime) (a : ℝ) b ≤
      (vms.map lifetime).length * volume.real (Set.Ico (a : ℝ) b) := total_le
  rw [window_length h, List.length_map] at hle
  have hdiv := div_le_div_of_nonneg_right hle millis_pos.le
  rw [← totalHours_eq_total, mul_div_assoc] at hdiv
  apply (Rat.cast_le (K := ℝ)).mp
  rwa [Rat.cast_mul, Rat.cast_div, Rat.cast_natCast, Rat.cast_natCast, Rat.cast_natCast]

theorem totalHours_add (hab : a ≤ b) (hbc : b ≤ c) :
    totalHours a c vms = totalHours a b vms + totalHours b c vms := by
  have hreal : (totalHours a c vms : ℝ) = totalHours a b vms + totalHours b c vms := by
    simp only [totalHours_eq_total]
    rw [total_add (Nat.cast_le.mpr hab) (Nat.cast_le.mpr hbc), add_div]
  exact_mod_cast hreal

/-- The hours for which the VMs count in the window, exactly. -/
noncomputable def overlapHours (vms : List MeteredVm) (a b : ℕ) : ℝ :=
  total volume (vms.map lifetime) a b / millisPerHour

def overlaps (a b : ℕ) (vm : MeteredVm) : Bool :=
  max vm.createdAt a < ((countsUntil vm).map (min · b)).getD b

/-- A result of doubles that `n` roundings may have moved away from the exact one. -/
def Near (n : ℕ) (computed : ℚ) (exact : ℝ) : Prop :=
  (1 - 1 / 2 ^ 53) ^ n * exact ≤ computed ∧ computed ≤ (1 + 1 / 2 ^ 53) ^ n * exact

private theorem counted_pos_iff (vm : MeteredVm) (a b : ℕ) :
    0 < counted vm a b ↔ overlaps a b vm = true := by
  rw [counted, started_eq, ended_eq_countsUntil, overlaps, decide_eq_true_eq]
  omega

theorem totalHoursWith_overlaps (a b : ℕ) :
    totalHoursWith a b double (vms.filter (overlaps a b)) = totalHoursWith a b double vms := by
  rw [← totalHoursWith_filter vms]
  congr 1
  apply List.filter_congr
  intro vm _
  simp [counted_pos_iff]

private theorem totalHours_overlaps (a b : ℕ) :
    totalHours a b (vms.filter (overlaps a b)) = totalHours a b vms := by
  rw [totalHours_eq_sum, totalHours_eq_sum]
  induction vms with
  | nil => rfl
  | cons vm vms ih =>
    by_cases h : overlaps a b vm = true
    · rw [List.filter_cons_of_pos h, List.map_cons, List.map_cons, List.sum_cons, List.sum_cons, ih]
    · have hzero : counted vm a b = 0 := by
        rw [← counted_pos_iff] at h
        omega
      rw [List.filter_cons_of_neg h, ih, List.map_cons, List.sum_cons, hours, hzero]
      simp

theorem totalHoursWith_factors (a b : ℕ) :
    (1 - 1 / 2 ^ 53) ^ vms.countP (overlaps a b) * totalHours a b vms ≤
        totalHoursWith a b double vms ∧
      totalHoursWith a b double vms ≤
        (1 + 1 / 2 ^ 53) ^ vms.countP (overlaps a b) * totalHours a b vms := by
  have hbounds := totalHoursWith_bounds (vms.filter (overlaps a b)) a b
  rwa [totalHoursWith_overlaps, totalHours_overlaps, ← List.countP_eq_length_filter] at hbounds

theorem totalHoursWith_near (a b : ℕ) :
    Near (vms.countP (overlaps a b)) (totalHoursWith a b double vms) (overlapHours vms a b) := by
  have hbounds := totalHoursWith_factors vms a b
  have hlow := (Rat.cast_le (K := ℝ)).mpr hbounds.1
  have hhigh := (Rat.cast_le (K := ℝ)).mpr hbounds.2
  push_cast at hlow hhigh
  rw [Near, overlapHours, ← totalHours_eq_total]
  exact ⟨hlow, hhigh⟩

private theorem overlapHours_nonneg (a b : ℕ) : 0 ≤ overlapHours vms a b := by
  rw [overlapHours, ← totalHours_eq_total]
  exact_mod_cast totalHours_nonneg a b vms

private theorem Near.mono {m n : ℕ} {computed : ℚ} {exact' : ℝ} (h : Near m computed exact')
    (hexact : 0 ≤ exact') (hmn : m ≤ n) : Near n computed exact' := by
  have hlow : ((1 : ℝ) - 1 / 2 ^ 53) ^ n ≤ (1 - 1 / 2 ^ 53) ^ m :=
    pow_le_pow_of_le_one (by norm_num) (by norm_num) hmn
  have hhigh : ((1 : ℝ) + 1 / 2 ^ 53) ^ m ≤ (1 + 1 / 2 ^ 53) ^ n :=
    pow_le_pow_right₀ (by norm_num) hmn
  exact ⟨(mul_le_mul_of_nonneg_right hlow hexact).trans h.1,
    h.2.trans (mul_le_mul_of_nonneg_right hhigh hexact)⟩

private theorem Near.add {n : ℕ} {computed computed' : ℚ} {exact' exact'' : ℝ}
    (h : Near n computed exact') (h' : Near n computed' exact'') :
    Near n (computed + computed') (exact' + exact'') := by
  obtain ⟨hlow, hhigh⟩ := h
  obtain ⟨hlow', hhigh'⟩ := h'
  constructor
  · push_cast
    rw [mul_add]
    exact add_le_add hlow hlow'
  · push_cast
    rw [mul_add]
    exact add_le_add hhigh hhigh'

private theorem countP_overlaps_le {a b a' b' : ℕ} (ha : a' ≤ a) (hb : b ≤ b') :
    vms.countP (overlaps a b) ≤ vms.countP (overlaps a' b') := by
  apply List.countP_mono_left
  intro vm _ h
  rw [← counted_pos_iff, counted, started_eq, ended_eq] at h ⊢
  split at h <;> rename_i hrun
  · rw [if_pos hrun]
    omega
  · rw [if_neg hrun]
    cases hstop : vm.stoppedAt with
    | none =>
      simp only [hstop, Option.getD_none] at h ⊢
      omega
    | some stop =>
      simp only [hstop, Option.getD_some] at h ⊢
      omega

private theorem overlapHours_add (hab : a ≤ b) (hbc : b ≤ c) :
    overlapHours vms a b + overlapHours vms b c = overlapHours vms a c := by
  simp only [overlapHours, ← totalHours_eq_total]
  exact_mod_cast (totalHours_add vms hab hbc).symm

/-- The hours before they are rounded to hundredths are the overlaps of the VMs with the window, up
to one rounding of doubles for each VM that overlaps; in whatever order the VMs come, and when the
window is cut in two. The other VMs contribute nothing at all. -/
theorem estimate_near_overlap (hab : a ≤ b) (hbc : b ≤ c) :
    totalHoursWith a c double (vms.filter (overlaps a c)) = totalHoursWith a c double vms ∧
      (∀ vms', vms.Perm vms' →
        Near (vms.countP (overlaps a c)) (totalHoursWith a c double vms') (overlapHours vms a c)) ∧
      Near (vms.countP (overlaps a c))
        (totalHoursWith a b double vms + totalHoursWith b c double vms) (overlapHours vms a c) ∧
      0 ≤ totalHoursWith a c double vms ∧
      totalHoursWith a c double vms ≤ (1 + 1 / 2 ^ 53) ^ vms.countP (overlaps a c) *
        (vms.length * (((c - a : ℕ) : ℚ) / millisPerHour)) := by
  refine ⟨totalHoursWith_overlaps vms a c, ?_, ?_, ?_, ?_⟩
  · intro vms' h
    have hnear := totalHoursWith_near vms' a c
    have hexact : overlapHours vms' a c = overlapHours vms a c := by
      rw [overlapHours, overlapHours, total_perm (h.symm.map lifetime)]
    rwa [hexact, ← h.countP_eq] at hnear
  · rw [← overlapHours_add vms hab hbc]
    apply Near.add
    · exact (totalHoursWith_near vms a b).mono (overlapHours_nonneg vms a b)
        (countP_overlaps_le vms le_rfl hbc)
    · exact (totalHoursWith_near vms b c).mono (overlapHours_nonneg vms b c)
        (countP_overlaps_le vms hab le_rfl)
  · have hpow : (0 : ℚ) ≤ (1 - 1 / 2 ^ 53) ^ vms.countP (overlaps a c) := pow_nonneg (by norm_num) _
    exact (mul_nonneg hpow (totalHours_nonneg a c vms)).trans (totalHoursWith_factors vms a c).1
  · have hpow : (0 : ℚ) ≤ (1 + 1 / 2 ^ 53) ^ vms.countP (overlaps a c) := by positivity
    exact (totalHoursWith_factors vms a c).2.trans
      (mul_le_mul_of_nonneg_left (totalHours_le vms (hab.trans hbc)) hpow)

end Estimate

section Sample

private def ranFor (minutes : ℕ) : MeteredVm := ⟨.stopped, 0, some (minutes * 60000)⟩

private theorem hours_ranFor :
    hours 0 3600000 (ranFor 6) = 1 / 10 ∧ hours 0 3600000 (ranFor 18) = 3 / 10 ∧
      hours 0 3600000 (ranFor 48) = 4 / 5 := by
  have hcounted : counted (ranFor 6) 0 3600000 = 360000 ∧ counted (ranFor 18) 0 3600000 = 1080000 ∧
      counted (ranFor 48) 0 3600000 = 2880000 := by decide
  obtain ⟨h6, h18, h48⟩ := hcounted
  rw [hours, hours, hours, h6, h18, h48]
  norm_num [millisPerHour]

private theorem double_sixMinutes : nearest 53 (1 / 10) = 7205759403792794 * 2 ^ (-56 : ℤ) :=
  nearest_eq (n := 7205759403792794) (k := -56) (by norm_num) (by norm_num) (by norm_num)

private theorem double_eighteenMinutes : nearest 53 (3 / 10) = 5404319552844595 * 2 ^ (-54 : ℤ) :=
  nearest_eq (n := 5404319552844595) (k := -54) (by norm_num) (by norm_num) (by norm_num)

private theorem double_fortyEightMinutes : nearest 53 (4 / 5) = 7205759403792794 * 2 ^ (-53 : ℤ) :=
  nearest_eq (n := 7205759403792794) (k := -53) (by norm_num) (by norm_num) (by norm_num)

private theorem total_ascending :
    totalHoursWith 0 3600000 double [ranFor 6, ranFor 48, ranFor 18] =
      5404319552844595 * 2 ^ (-52 : ℤ) := by
  obtain ⟨h6, h18, h48⟩ := hours_ranFor
  have hsecond : nearest 53 (7205759403792794 * 2 ^ (-56 : ℤ) + 7205759403792794 * 2 ^ (-53 : ℤ)) =
      8106479329266893 * 2 ^ (-53 : ℤ) :=
    nearest_eq (n := 8106479329266893) (k := -53) (by norm_num) (by norm_num) (by norm_num)
  have hthird : nearest 53 (8106479329266893 * 2 ^ (-53 : ℤ) + 5404319552844595 * 2 ^ (-54 : ℤ)) =
      5404319552844595 * 2 ^ (-52 : ℤ) :=
    nearest_eq (n := 5404319552844595) (k := -52) (by norm_num) (by norm_num) (by norm_num)
  rw [totalHoursWith_double, List.map_cons, List.map_cons, List.map_cons, List.map_nil, h6, h18, h48,
    addAll_cons, addAll_cons, addAll_cons, addAll_nil, zero_add, nearest_nearest (by norm_num),
    double_sixMinutes, double_fortyEightMinutes, double_eighteenMinutes, hsecond, hthird]

private theorem total_descending :
    totalHoursWith 0 3600000 double [ranFor 18, ranFor 48, ranFor 6] =
      5404319552844596 * 2 ^ (-52 : ℤ) := by
  obtain ⟨h6, h18, h48⟩ := hours_ranFor
  have hsecond : nearest 53 (5404319552844595 * 2 ^ (-54 : ℤ) + 7205759403792794 * 2 ^ (-53 : ℤ)) =
      4953959590107546 * 2 ^ (-52 : ℤ) :=
    nearest_eq (n := 4953959590107546) (k := -52) (by norm_num) (by norm_num) (by norm_num)
  have hthird : nearest 53 (4953959590107546 * 2 ^ (-52 : ℤ) + 7205759403792794 * 2 ^ (-56 : ℤ)) =
      5404319552844596 * 2 ^ (-52 : ℤ) :=
    nearest_eq (n := 5404319552844596) (k := -52) (by norm_num) (by norm_num) (by norm_num)
  rw [totalHoursWith_double, List.map_cons, List.map_cons, List.map_cons, List.map_nil, h6, h18, h48,
    addAll_cons, addAll_cons, addAll_cons, addAll_nil, zero_add, nearest_nearest (by norm_num),
    double_sixMinutes, double_fortyEightMinutes, double_eighteenMinutes, hsecond, hthird]

private theorem total_thrice :
    totalHoursWith 0 2760000 double [ranFor 46, ranFor 46, ranFor 46] =
      5179139571476071 * 2 ^ (-51 : ℤ) := by
  have hhours : hours 0 2760000 (ranFor 46) = 23 / 30 := by
    have hcounted : counted (ranFor 46) 0 2760000 = 2760000 := by decide
    rw [hours, hcounted]
    norm_num [millisPerHour]
  have hfirst : nearest 53 (23 / 30) = 6905519428634761 * 2 ^ (-53 : ℤ) :=
    nearest_eq (n := 6905519428634761) (k := -53) (by norm_num) (by norm_num) (by norm_num)
  have hsecond : nearest 53 (6905519428634761 * 2 ^ (-53 : ℤ) + 6905519428634761 * 2 ^ (-53 : ℤ)) =
      6905519428634761 * 2 ^ (-52 : ℤ) :=
    nearest_eq (n := 6905519428634761) (k := -52) (by norm_num) (by norm_num) (by norm_num)
  have hthird : nearest 53 (6905519428634761 * 2 ^ (-52 : ℤ) + 6905519428634761 * 2 ^ (-53 : ℤ)) =
      5179139571476071 * 2 ^ (-51 : ℤ) :=
    nearest_eq (n := 5179139571476071) (k := -51) (by norm_num) (by norm_num) (by norm_num)
  rw [totalHoursWith_double, List.map_cons, List.map_cons, List.map_cons, List.map_nil, hhours,
    addAll_cons, addAll_cons, addAll_cons, addAll_nil, zero_add, nearest_nearest (by norm_num),
    hfirst, hsecond, hthird]

private theorem total_alone {a b : ℕ} {vm : MeteredVm} :
    totalHoursWith a b double [vm] = nearest 53 (hours a b vm) := by
  rw [totalHoursWith_double, List.map_singleton, addAll_cons, addAll_nil, zero_add,
    nearest_nearest (by norm_num)]

private theorem total_cut :
    totalHoursWith 0 1080000 double [ranFor 18] ≠
      totalHoursWith 0 360000 double [ranFor 18] +
        totalHoursWith 360000 1080000 double [ranFor 18] := by
  have hcounted : counted (ranFor 18) 0 1080000 = 1080000 ∧ counted (ranFor 18) 0 360000 = 360000 ∧
      counted (ranFor 18) 360000 1080000 = 720000 := by decide
  obtain ⟨hwhole, hfirst, hrest⟩ := hcounted
  have hexact : ((1080000 : ℕ) : ℚ) / millisPerHour = 3 / 10 ∧
      ((360000 : ℕ) : ℚ) / millisPerHour = 1 / 10 ∧ ((720000 : ℕ) : ℚ) / millisPerHour = 1 / 5 := by
    norm_num [millisPerHour]
  have hfifth : nearest 53 (1 / 5) = 7205759403792794 * 2 ^ (-55 : ℤ) :=
    nearest_eq (n := 7205759403792794) (k := -55) (by norm_num) (by norm_num) (by norm_num)
  rw [total_alone, total_alone, total_alone, hours, hours, hours, hwhole, hfirst, hrest, hexact.1,
    hexact.2.1, hexact.2.2, double_sixMinutes, double_eighteenMinutes, hfifth]
  norm_num

/-- Six, forty-eight and eighteen minutes are 1.2 hours; eighteen, forty-eight and six minutes are
1.2000000000000002. Three VMs in a window of 46 minutes have 2.3000000000000003, and
eighteen minutes are not six and twelve. -/
theorem estimate_depends_on_order :
    (¬ ∀ (vms : List MeteredVm) (a b c : ℕ), a ≤ b → b ≤ c →
      (totalHoursWith a c double vms : ℝ) = overlapHours vms a c ∧
      0 ≤ totalHoursWith a c double vms ∧
      totalHoursWith a c double vms ≤ vms.length * (((c - a : ℕ) : ℚ) / millisPerHour) ∧
      (∀ vms', vms.Perm vms' → totalHoursWith a c double vms' = totalHoursWith a c double vms) ∧
      totalHoursWith a c double vms =
        totalHoursWith a b double vms + totalHoursWith b c double vms) ∧
    totalHoursWith 0 3600000 double [ranFor 18, ranFor 48, ranFor 6] ≠
      totalHoursWith 0 3600000 double [ranFor 6, ranFor 48, ranFor 18] ∧
    3 * (((2760000 - 0 : ℕ) : ℚ) / millisPerHour) <
      totalHoursWith 0 2760000 double [ranFor 46, ranFor 46, ranFor 46] ∧
    totalHoursWith 0 1080000 double [ranFor 18] ≠
      totalHoursWith 0 360000 double [ranFor 18] +
        totalHoursWith 360000 1080000 double [ranFor 18] := by
  have hordered : totalHoursWith 0 3600000 double [ranFor 18, ranFor 48, ranFor 6] ≠
      totalHoursWith 0 3600000 double [ranFor 6, ranFor 48, ranFor 18] := by
    rw [total_ascending, total_descending]
    norm_num
  refine ⟨?_, hordered, ?_, total_cut⟩
  · intro h
    have hperm : [ranFor 6, ranFor 48, ranFor 18].Perm [ranFor 18, ranFor 48, ranFor 6] := by decide
    exact hordered ((h _ 0 0 3600000 le_rfl (Nat.zero_le _)).2.2.2.1 _ hperm)
  · rw [total_thrice]
    norm_num [millisPerHour]

/-- The same VMs, an hour that is cut in two. -/
theorem estimate_near_overlap_hour :
    (∀ vms', [ranFor 6, ranFor 48, ranFor 18].Perm vms' →
      Near 3 (totalHoursWith 0 3600000 double vms')
        (overlapHours [ranFor 6, ranFor 48, ranFor 18] 0 3600000)) ∧
    Near 3 (totalHoursWith 0 1800000 double [ranFor 6, ranFor 48, ranFor 18] +
        totalHoursWith 1800000 3600000 double [ranFor 6, ranFor 48, ranFor 18])
      (overlapHours [ranFor 6, ranFor 48, ranFor 18] 0 3600000) := by
  have h := estimate_near_overlap [ranFor 6, ranFor 48, ranFor 18] (Nat.zero_le 1800000)
    (c := 3600000) (by norm_num)
  exact ⟨h.2.1, h.2.2.1⟩

end Sample

end CloudVM.UserService
