import CloudVM.Metering.Hours

/-!
# How the meter keeps up

The window that is metered ends thirty days after the payment it starts with. Until then the hours
of a machine that runs grow with the time that passes, up to the rounding of doubles; afterwards
they stand still.
-/

namespace CloudVM.UserService

open VmService Doubles

section Window

variable {fl : Rat → Rat} {lower : String → String} {catalog : ManagedCatalog} {user : Member}
  {t : Nat}

theorem windowEnd_eq (t : Nat) :
    windowEnd fl lower catalog user t = min t (cycleEndsAt fl lower catalog user) := by
  unfold windowEnd
  split <;> omega

private theorem mem_latestPayments {payments : List DatedPayment} {userId : String}
    {q : DatedPayment} (h : q ∈ latestPayments payments userId) : q ∈ payments := by
  have hsorted := List.mem_of_mem_take h
  rw [List.mem_mergeSort] at hsorted
  exact (List.mem_filter.mp hsorted).1

theorem cycleStartedAt_le (huser : user.createdAt ≤ t)
    (hpayments : ∀ q ∈ user.payments, q.createdAt ≤ t) :
    cycleStartedAt fl lower catalog user ≤ t := by
  unfold cycleStartedAt getLatestBillingCycleStart
  split
  · exact huser
  · rename_i latest rest hlatest
    have hmem : ∀ q ∈ latest :: rest, q.createdAt ≤ t := by
      intro q hq
      rw [← hlatest] at hq
      exact hpayments q (mem_latestPayments hq)
    rw [Option.getD_some]
    cases hfind : (latest :: rest).find? fun p => isFullPricePayment fl lower p catalog with
    | none => exact hmem latest List.mem_cons_self
    | some full => exact hmem full (List.mem_of_find?_eq_some hfind)

end Window

variable (lower : String → String) (catalog : ManagedCatalog) (user : Member)

/-- The hours at a time, before they are rounded to hundredths. -/
def hoursAt (vms : List MeteredVm) (now : Nat) : Rat :=
  totalHoursWith (cycleStartedAt double lower catalog user) (windowEnd double lower catalog user now)
    double vms

/-- A VM of the list that runs from `t` on. -/
def RunsFrom (t : Nat) (vms : List MeteredVm) : Prop :=
  ∃ vm ∈ vms, vm.status = .running ∧ vm.createdAt ≤ t

def elapsed (t₁ t₂ : Nat) : Rat := ((t₂ : Rat) - t₁) / millisPerHour

/-- Between two times the meter gains the time that has passed, up to the rounding of the hours of
each VM and of each total. -/
def KeepsUp (vms : List MeteredVm) (t₁ t₂ : Nat) : Prop :=
  (1 - 1 / 2 ^ 53) ^ vms.length *
      (hoursAt lower catalog user vms t₁ / (1 + 1 / 2 ^ 53) ^ vms.length + elapsed t₁ t₂) ≤
    hoursAt lower catalog user vms t₂

variable {lower catalog user}

private theorem totalHours_gains {vms : List MeteredVm} {cycleStart t₁ t₂ : Nat} (ht : t₁ ≤ t₂)
    (hstart : cycleStart ≤ t₁) (hruns : RunsFrom t₁ vms) :
    totalHours cycleStart t₁ vms + elapsed t₁ t₂ ≤ totalHours cycleStart t₂ vms := by
  obtain ⟨vm, hvm, hrunning, hcreated⟩ := hruns
  have hsum : (vms.map fun vm => counted vm cycleStart t₁).sum + (t₂ - t₁) ≤
      (vms.map fun vm => counted vm cycleStart t₂).sum := by
    apply sum_add_le
    · intro vm _
      exact counted_mono _ _ ht
    · refine ⟨vm, hvm, ?_⟩
      simp only [counted, ended_eq, started_eq, hrunning, if_true]
      omega
  rw [totalHours_eq, totalHours_eq, elapsed, ← add_div,
    div_le_div_iff_of_pos_right millisPerHour_pos, ← Nat.cast_sub ht, ← Nat.cast_add, Nat.cast_le]
  exact hsum

private theorem keepsUp_within {vms : List MeteredVm} {t₁ t₂ : Nat} (ht : t₁ ≤ t₂)
    (hstart : cycleStartedAt double lower catalog user ≤ t₁)
    (hend : t₂ ≤ cycleEndsAt double lower catalog user) (hruns : RunsFrom t₁ vms) :
    KeepsUp lower catalog user vms t₁ t₂ := by
  rw [KeepsUp, hoursAt, hoursAt, windowEnd_eq, windowEnd_eq, min_eq_left (ht.trans hend),
    min_eq_left hend]
  have hlow : (0 : Rat) ≤ (1 - 1 / 2 ^ 53) ^ vms.length := pow_nonneg (by norm_num) _
  have hbefore := (totalHoursWith_bounds vms (cycleStartedAt double lower catalog user) t₁).2
  have hafter := (totalHoursWith_bounds vms (cycleStartedAt double lower catalog user) t₂).1
  have hgains := totalHours_gains ht hstart hruns
  have hexact := div_le_of_le_mul₀ (by positivity) (totalHours_nonneg _ _ vms)
    (hbefore.trans_eq (mul_comm _ _))
  exact (mul_le_mul_of_nonneg_left (by linarith) hlow).trans hafter

theorem windowEnd_mono {fl : Rat → Rat} {t₁ t₂ : Nat} (ht : t₁ ≤ t₂) :
    windowEnd fl lower catalog user t₁ ≤ windowEnd fl lower catalog user t₂ := by
  rw [windowEnd_eq, windowEnd_eq]
  exact min_le_min_right _ ht

/-- From the end of the window on the meter stands still. -/
theorem hoursAt_stands_still {t : Nat} (vms : List MeteredVm)
    (h : cycleEndsAt double lower catalog user ≤ t) :
    hoursAt lower catalog user vms t =
      hoursAt lower catalog user vms (cycleEndsAt double lower catalog user) := by
  rw [hoursAt, hoursAt, windowEnd_eq, windowEnd_eq, min_eq_right h, min_self]

theorem estimateVmHoursUsedWith_mono (cycleStart : Nat) (vms : List MeteredVm)
    {cycleEnd cycleEnd' : Nat} (h : cycleEnd ≤ cycleEnd') :
    estimateVmHoursUsedWith cycleStart cycleEnd double vms ≤
      estimateVmHoursUsedWith cycleStart cycleEnd' double vms := by
  have hnonneg := totalHoursWith_nonneg vms cycleStart cycleEnd
  exact nearest_mono (by norm_num) (toFixed2_nonneg hnonneg)
    (toFixed2_mono hnonneg (totalHoursWith_mono vms cycleStart h))

private theorem hourLimitReached_iff {p : ManagedPlanId} {vms : List MeteredVm} {t : Nat}
    (hplan : resolvePlanForUser user.role user.quota catalog = some (.managed p)) :
    hourLimitReached (subscriptionAccess (subscriptionOf double lower catalog user vms t)) = true ↔
      ((catalog p).vmHoursMonthly : Rat) ≤
        estimateVmHoursUsedWith (cycleStartedAt double lower catalog user)
          (windowEnd double lower catalog user t) double vms := by
  have hname : p.name ≠ "unlimited" := by cases p <;> decide
  simp [subscriptionOf, hplan, subscriptionAccess, hourLimitReached, SubscriptionPlanId.name, hname,
    catalogEntry]

/-- For a user on a plan that is sold and any payments, up to the end of the window: the hours never
go down, and those of a list with a machine that runs keep up with the time that passes. Within the
window the limit that `vmAction` enforces is met exactly if the hours at its end reach it. -/
theorem metering_keeps_up (lower : String → String) (catalog : ManagedCatalog) (user : Member)
    (p : ManagedPlanId) (t₁ t₂ : Nat)
    (hplan : resolvePlanForUser user.role user.quota catalog = some (.managed p)) (ht : t₁ < t₂)
    (huser : user.createdAt ≤ t₁) (hpayments : ∀ q ∈ user.payments, q.createdAt ≤ t₁)
    (hend : t₂ ≤ cycleEndsAt double lower catalog user) (vms : List MeteredVm) :
    hoursAt lower catalog user vms t₁ ≤ hoursAt lower catalog user vms t₂ ∧
    (RunsFrom t₁ vms → KeepsUp lower catalog user vms t₁ t₂) ∧
    ((∃ t, t₁ ≤ t ∧ t ≤ cycleEndsAt double lower catalog user ∧
        hourLimitReached (subscriptionAccess (subscriptionOf double lower catalog user vms t)) = true) ↔
      ((catalog p).vmHoursMonthly : Rat) ≤
        estimateVmHoursUsedWith (cycleStartedAt double lower catalog user)
          (cycleEndsAt double lower catalog user) double vms) := by
  have hstart := @cycleStartedAt_le double lower catalog user t₁ huser hpayments
  refine ⟨totalHoursWith_mono _ _ (windowEnd_mono ht.le), keepsUp_within ht.le hstart hend, ?_⟩
  constructor
  · rintro ⟨t, -, -, hlimit⟩
    apply ((hourLimitReached_iff hplan).mp hlimit).trans
    apply estimateVmHoursUsedWith_mono
    rw [windowEnd_eq]
    exact min_le_right _ _
  · intro hle
    refine ⟨cycleEndsAt double lower catalog user, ht.le.trans hend, le_rfl, ?_⟩
    rw [hourLimitReached_iff hplan, windowEnd_eq, min_self]
    exact hle

section Sample

private def grantedStudent : Member where
  id := "u1"
  role := .user
  quota := some ⟨2, 2, 4096, 40⟩
  createdAt := 0
  payments := []

private theorem grantedStudent_plan :
    resolvePlanForUser grantedStudent.role grantedStudent.quota sampleCatalog =
      some (.managed .student) := by decide

private def day : Nat := 24 * 60 * 60 * 1000

private theorem grantedStudent_cycle :
    cycleStartedAt double id sampleCatalog grantedStudent = 0 := by
  simp [cycleStartedAt, getLatestBillingCycleStart, latestPayments, grantedStudent]

private theorem grantedStudent_cycleEnd :
    cycleEndsAt double id sampleCatalog grantedStudent = 30 * day := by
  rw [cycleEndsAt, grantedStudent_cycle]
  rfl

private def earlyMachine : MeteredVm := ⟨.running, 0, none⟩

private theorem machine_total (cycleEnd : Nat) :
    totalHoursWith 0 cycleEnd double [earlyMachine] = nearest 53 (cycleEnd / millisPerHour) := by
  have hhours : hours 0 cycleEnd earlyMachine = cycleEnd / millisPerHour := by
    simp [hours, counted, ended_eq, started_eq, earlyMachine]
  rw [totalHoursWith_double, List.map_singleton, addAll_cons, addAll_nil, zero_add,
    nearest_nearest (by norm_num), hhours]

private theorem gains_less :
    hoursAt id sampleCatalog grantedStudent [earlyMachine] 1080000 <
      hoursAt id sampleCatalog grantedStudent [earlyMachine] 360000 + elapsed 360000 1080000 := by
  have hbefore : nearest 53 ((360000 : Nat) / millisPerHour) = 7205759403792794 * 2 ^ (-56 : ℤ) :=
    nearest_eq (n := 7205759403792794) (k := -56) (by norm_num [millisPerHour])
      (by norm_num [millisPerHour]) (by norm_num [millisPerHour])
  have hafter : nearest 53 ((1080000 : Nat) / millisPerHour) = 5404319552844595 * 2 ^ (-54 : ℤ) :=
    nearest_eq (n := 5404319552844595) (k := -54) (by norm_num [millisPerHour])
      (by norm_num [millisPerHour]) (by norm_num [millisPerHour])
  rw [hoursAt, hoursAt, windowEnd_eq, windowEnd_eq, grantedStudent_cycle, grantedStudent_cycleEnd,
    min_eq_left (by decide), min_eq_left (by decide), machine_total, machine_total, hbefore, hafter]
  norm_num [elapsed, millisPerHour]

private def lateMachine : MeteredVm := ⟨.running, 31 * day, none⟩

private theorem lateMachine_hours {t : Nat} (h : 30 * day ≤ t) :
    hoursAt id sampleCatalog grantedStudent [lateMachine] t = 0 := by
  have hskipped : ended lateMachine (30 * day) ≤ started lateMachine 0 := by decide
  rw [hoursAt, windowEnd_eq, grantedStudent_cycle, grantedStudent_cycleEnd, min_eq_right h,
    totalHoursWith, List.foldl_cons, List.foldl_nil, addHoursWith, if_pos hskipped]

private theorem lateMachine_stalls :
    ¬ KeepsUp id sampleCatalog grantedStudent [lateMachine] (31 * day) (61 * day) := by
  rw [KeepsUp, lateMachine_hours (by decide), lateMachine_hours (by decide)]
  norm_num [elapsed, millisPerHour, day]

/-- From the sixth minute to the eighteenth the meter gains a little less than twelve minutes, and
from day 31 on it gains nothing, so that roundings alone do not explain what is missing. -/
theorem metering_rounds_down :
    (¬ ∀ (lower : String → String) (catalog : ManagedCatalog) (user : Member) (p : ManagedPlanId)
        (t₁ t₂ : Nat) (vms : List MeteredVm),
        resolvePlanForUser user.role user.quota catalog = some (.managed p) → t₁ < t₂ →
        user.createdAt ≤ t₁ → (∀ q ∈ user.payments, q.createdAt ≤ t₁) → RunsFrom t₁ vms →
        hoursAt lower catalog user vms t₁ + elapsed t₁ t₂ ≤ hoursAt lower catalog user vms t₂) ∧
    ¬ ∀ (lower : String → String) (catalog : ManagedCatalog) (user : Member) (p : ManagedPlanId)
        (t₁ t₂ : Nat) (vms : List MeteredVm),
        resolvePlanForUser user.role user.quota catalog = some (.managed p) → t₁ < t₂ →
        user.createdAt ≤ t₁ → (∀ q ∈ user.payments, q.createdAt ≤ t₁) → RunsFrom t₁ vms →
        KeepsUp lower catalog user vms t₁ t₂ := by
  constructor
  · intro h
    have hgain := h id sampleCatalog grantedStudent .student 360000 1080000 [earlyMachine]
      grantedStudent_plan (by norm_num) (Nat.zero_le _) (by simp [grantedStudent])
      ⟨earlyMachine, List.mem_singleton.mpr rfl, rfl, Nat.zero_le _⟩
    exact absurd hgain (not_le.mpr gains_less)
  · intro h
    exact lateMachine_stalls (h id sampleCatalog grantedStudent .student (31 * day) (61 * day)
      [lateMachine] grantedStudent_plan (by decide) (Nat.zero_le _) (by simp [grantedStudent])
      ⟨lateMachine, List.mem_singleton.mpr rfl, rfl, le_rfl⟩)

/-- During the first month the machine is metered, and its sixty hours are used up. -/
theorem metering_keeps_up_first_month :
    KeepsUp id sampleCatalog grantedStudent [earlyMachine] (1 * day) (2 * day) ∧
      ∃ t, 1 * day ≤ t ∧ t ≤ cycleEndsAt double id sampleCatalog grantedStudent ∧
        hourLimitReached (subscriptionAccess
          (subscriptionOf double id sampleCatalog grantedStudent [earlyMachine] t)) = true := by
  have hend : 2 * day ≤ cycleEndsAt double id sampleCatalog grantedStudent := by
    rw [grantedStudent_cycleEnd]
    decide
  obtain ⟨-, hkeeps, hlimit⟩ := metering_keeps_up id sampleCatalog grantedStudent .student (1 * day)
    (2 * day) grantedStudent_plan (by decide) (Nat.zero_le _) (by simp [grantedStudent]) hend
    [earlyMachine]
  refine ⟨hkeeps ⟨earlyMachine, List.mem_singleton.mpr rfl, rfl, Nat.zero_le _⟩, hlimit.mpr ?_⟩
  rw [grantedStudent_cycle, grantedStudent_cycleEnd, estimateVmHoursUsedWith, machine_total]
  have hwhole : nearest 53 ((720 : Nat) : Rat) = (720 : Nat) :=
    nearest_natCast (by norm_num) (by norm_num)
  have hmonth : ((30 * day : Nat) : Rat) / millisPerHour = (720 : Nat) := by
    norm_num [day, millisPerHour]
  have hfixed : PaymentService.toFixed2 ((720 : Nat) : Rat) = (720 : Nat) := by
    have hhundredths := PaymentService.toFixed2_whole 72000
    norm_num at hhundredths ⊢
    exact hhundredths
  have hstudent : (sampleCatalog .student).vmHoursMonthly = 60 := by decide
  rw [hmonth, hwhole, hfixed, hstudent, double, hwhole]
  norm_num

end Sample

end CloudVM.UserService
