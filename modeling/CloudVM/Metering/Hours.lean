import CloudVM.Billing.Payment
import CloudVM.Framework.Doubles
import CloudVM.Vm.Service
import Mathlib.Algebra.Order.BigOperators.Group.List
import Mathlib.Tactic.Linarith

/-!
# Metered hours

The user service works out from each VM's status, creation and `stoppedAt` how many hours it has
used in the current billing cycle. The cycle starts with the latest payment at full price and
lasts thirty days. Times are milliseconds. Hours are doubles: `fl` is what rounds the result of an
operation, `double` in the program. With `id` in its place the same definitions are exact.
-/

namespace CloudVM.UserService

open PaymentService Doubles

/-- What `getProfile` selects of a VM. -/
structure MeteredVm where
  status : VmStatus
  createdAt : Nat
  stoppedAt : Option Nat
deriving DecidableEq, Repr

section Estimate

variable (vm : MeteredVm) (cycleStart cycleEnd : Nat)

def started : Nat := if cycleStart < vm.createdAt then vm.createdAt else cycleStart

def nonRunningEnd : Nat := vm.stoppedAt.getD cycleEnd

def ended : Nat :=
  if vm.status = .running then cycleEnd
  else if nonRunningEnd vm cycleEnd < cycleEnd then nonRunningEnd vm cycleEnd
  else cycleEnd

def millisPerHour : Nat := 1000 * 60 * 60

/-- The body of the loop in `estimateVmHoursUsed`. -/
def addHoursWith (fl : Rat → Rat) (totalHours : Rat) (vm : MeteredVm) : Rat :=
  if ended vm cycleEnd ≤ started vm cycleStart then totalHours
  else fl (totalHours + fl (((ended vm cycleEnd : Rat) - started vm cycleStart) / millisPerHour))

/-- `totalHours` after the loop, before it is rounded. -/
def totalHoursWith (fl : Rat → Rat) (vms : List MeteredVm) : Rat :=
  vms.foldl (addHoursWith cycleStart cycleEnd fl) 0

def estimateVmHoursUsedWith (fl : Rat → Rat) (vms : List MeteredVm) : Rat :=
  fl (toFixed2 (totalHoursWith cycleStart cycleEnd fl vms))

def addHours : Rat → MeteredVm → Rat := addHoursWith cycleStart cycleEnd id

def totalHours (vms : List MeteredVm) : Rat := totalHoursWith cycleStart cycleEnd id vms

def estimateVmHoursUsed (vms : List MeteredVm) : Rat :=
  estimateVmHoursUsedWith cycleStart cycleEnd id vms

def counted : Nat := ended vm cycleEnd - started vm cycleStart

theorem started_eq : started vm cycleStart = max vm.createdAt cycleStart := by
  unfold started
  split <;> omega

theorem ended_eq : ended vm cycleEnd =
    if vm.status = .running then cycleEnd else min (vm.stoppedAt.getD cycleEnd) cycleEnd := by
  unfold ended nonRunningEnd
  split
  · rfl
  · split <;> omega

theorem addHours_eq (total : Rat) :
    addHours cycleStart cycleEnd total vm = total + (counted vm cycleStart cycleEnd : Rat) / millisPerHour := by
  unfold addHours addHoursWith counted
  split
  · rename_i h
    rw [Nat.sub_eq_zero_of_le h]
    simp
  · rename_i h
    rw [Nat.cast_sub (by omega)]
    rfl

theorem totalHours_eq (vms : List MeteredVm) : totalHours cycleStart cycleEnd vms =
    ((vms.map fun vm => counted vm cycleStart cycleEnd).sum : Nat) / millisPerHour := by
  have hfold : ∀ total : Rat, vms.foldl (addHours cycleStart cycleEnd) total =
      total + ((vms.map fun vm => counted vm cycleStart cycleEnd).sum : Nat) / millisPerHour := by
    induction vms with
    | nil => simp
    | cons vm vms ih =>
      intro total
      rw [List.foldl_cons, ih, addHours_eq, List.map_cons, List.sum_cons]
      push_cast
      ring
  exact (hfold 0).trans (zero_add _)

theorem counted_mono {cycleEnd cycleEnd' : Nat} (h : cycleEnd ≤ cycleEnd') :
    counted vm cycleStart cycleEnd ≤ counted vm cycleStart cycleEnd' := by
  simp only [counted, ended_eq]
  cases vm.stoppedAt with
  | none =>
    simp only [Option.getD_none]
    split <;> omega
  | some s =>
    simp only [Option.getD_some]
    split <;> omega

theorem counted_le_window : counted vm cycleStart cycleEnd ≤ cycleEnd - cycleStart := by
  rw [counted, started_eq, ended_eq]
  split <;> omega

theorem totalHours_nonneg (vms : List MeteredVm) : 0 ≤ totalHours cycleStart cycleEnd vms := by
  rw [totalHours_eq]
  positivity

theorem millisPerHour_pos : (0 : Rat) < millisPerHour := by norm_num [millisPerHour]

theorem totalHours_le_iff {vms vms' : List MeteredVm} {cycleEnd' : Nat} :
    totalHours cycleStart cycleEnd vms ≤ totalHours cycleStart cycleEnd' vms' ↔
      (vms.map fun vm => counted vm cycleStart cycleEnd).sum ≤
        (vms'.map fun vm => counted vm cycleStart cycleEnd').sum := by
  rw [totalHours_eq, totalHours_eq, div_le_div_iff_of_pos_right millisPerHour_pos, Nat.cast_le]

theorem toFixed2_nonneg {x : Rat} (hx : 0 ≤ x) : 0 ≤ toFixed2 x := by
  have hround : 0 ≤ PaymentService.round (x * 100) := by
    change 0 ≤ ⌊x * 100 + 1 / 2⌋
    rw [Int.le_floor]
    push_cast
    linarith
  have hcast : (0 : Rat) ≤ PaymentService.round (x * 100) := by exact_mod_cast hround
  simp only [toFixed2, hundredths, not_lt.mpr hx, if_false]
  positivity

theorem toFixed2_mono {x y : Rat} (hx : 0 ≤ x) (h : x ≤ y) : toFixed2 x ≤ toFixed2 y := by
  have hy : 0 ≤ y := hx.trans h
  have hround : PaymentService.round (x * 100) ≤ PaymentService.round (y * 100) := Rat.floor_monotone (by linarith)
  have hcast : (PaymentService.round (x * 100) : Rat) ≤ PaymentService.round (y * 100) :=
    Int.cast_le.mpr hround
  simp only [toFixed2, hundredths, not_lt.mpr hx, not_lt.mpr hy, if_false]
  linarith

theorem estimateVmHoursUsed_mono {vms vms' : List MeteredVm} {cycleEnd' : Nat}
    (h : (vms.map fun vm => counted vm cycleStart cycleEnd).sum ≤
      (vms'.map fun vm => counted vm cycleStart cycleEnd').sum) :
    estimateVmHoursUsed cycleStart cycleEnd vms ≤ estimateVmHoursUsed cycleStart cycleEnd' vms' :=
  toFixed2_mono (totalHours_nonneg _ _ _) ((totalHours_le_iff _ _).mpr h)

end Estimate

section Doubles

variable (vms : List MeteredVm) (cycleStart cycleEnd : Nat)

def hours (vm : MeteredVm) : Rat := (counted vm cycleStart cycleEnd : Rat) / millisPerHour

theorem hours_nonneg {cycleStart cycleEnd : Nat} (vm : MeteredVm) :
    0 ≤ hours cycleStart cycleEnd vm := div_nonneg (Nat.cast_nonneg _) millisPerHour_pos.le

theorem totalHours_eq_sum :
    totalHours cycleStart cycleEnd vms = (vms.map (hours cycleStart cycleEnd)).sum := by
  rw [totalHours_eq]
  induction vms with
  | nil => simp
  | cons vm vms ih =>
    rw [List.map_cons, List.sum_cons, List.map_cons, List.sum_cons, ← ih, hours]
    push_cast
    ring

/-- In doubles the loop rounds the hours of each VM and each total. -/
theorem totalHoursWith_double : totalHoursWith cycleStart cycleEnd double vms =
    addAll 53 0 (vms.map (hours cycleStart cycleEnd)) := by
  have hfold : ∀ total : Rat, double total = total →
      vms.foldl (addHoursWith cycleStart cycleEnd double) total =
        addAll 53 total (vms.map (hours cycleStart cycleEnd)) := by
    induction vms with
    | nil => exact fun _ _ => rfl
    | cons vm vms ih =>
      intro total htotal
      have hstep : addHoursWith cycleStart cycleEnd double total vm =
          double (total + double (hours cycleStart cycleEnd vm)) := by
        unfold addHoursWith hours counted
        split
        · rename_i h
          rw [Nat.sub_eq_zero_of_le h, Nat.cast_zero, zero_div, double_zero, add_zero, htotal]
        · rename_i h
          rw [Nat.cast_sub (by omega)]
      rw [List.foldl_cons, hstep, List.map_cons, addAll_cons]
      exact ih _ (nearest_nearest (by norm_num) _)
  exact hfold 0 double_zero

/-- The total of one VM is rounded once. -/
theorem totalHoursWith_single (vm : MeteredVm) :
    totalHoursWith cycleStart cycleEnd double [vm] = double (hours cycleStart cycleEnd vm) := by
  rw [totalHoursWith_double, List.map_singleton, addAll_cons, addAll_nil, zero_add]
  exact nearest_nearest (by norm_num) _

theorem totalHoursWith_filter :
    totalHoursWith cycleStart cycleEnd double (vms.filter fun vm => 0 < counted vm cycleStart cycleEnd) =
      totalHoursWith cycleStart cycleEnd double vms := by
  have hterms : ∀ x ∈ vms.map (hours cycleStart cycleEnd), 0 ≤ x := by
    intro x hx
    obtain ⟨vm, -, rfl⟩ := List.mem_map.mp hx
    exact hours_nonneg vm
  have hpos : ∀ vm : MeteredVm, 0 < hours cycleStart cycleEnd vm ↔ 0 < counted vm cycleStart cycleEnd := by
    intro vm
    rw [hours, div_pos_iff_of_pos_right millisPerHour_pos, Nat.cast_pos]
  rw [totalHoursWith_double, totalHoursWith_double,
    ← addAll_filter (by norm_num) (nearest_zero 53) hterms, List.filter_map]
  simp only [Function.comp_def, hpos]

theorem totalHoursWith_bounds :
    (1 - 1 / 2 ^ 53) ^ vms.length * totalHours cycleStart cycleEnd vms ≤
        totalHoursWith cycleStart cycleEnd double vms ∧
      totalHoursWith cycleStart cycleEnd double vms ≤
        (1 + 1 / 2 ^ 53) ^ vms.length * totalHours cycleStart cycleEnd vms := by
  have hbounds := @addAll_bounds 53 (vms.map (hours cycleStart cycleEnd)) (by norm_num)
  rw [totalHoursWith_double, totalHours_eq_sum]
  rw [List.length_map] at hbounds
  apply hbounds
  intro x hx
  obtain ⟨vm, -, rfl⟩ := List.mem_map.mp hx
  exact hours_nonneg vm

theorem totalHoursWith_nonneg : 0 ≤ totalHoursWith cycleStart cycleEnd double vms := by
  have hpow : (0 : Rat) ≤ (1 - 1 / 2 ^ 53) ^ vms.length := pow_nonneg (by norm_num) _
  exact (mul_nonneg hpow (totalHours_nonneg _ _ vms)).trans
    (totalHoursWith_bounds vms cycleStart cycleEnd).1

theorem totalHoursWith_mono {cycleEnd cycleEnd' : Nat} (h : cycleEnd ≤ cycleEnd') :
    totalHoursWith cycleStart cycleEnd double vms ≤ totalHoursWith cycleStart cycleEnd' double vms := by
  rw [totalHoursWith_double, totalHoursWith_double]
  apply addAll_mono (by norm_num) le_rfl le_rfl
  · intro x hx
    obtain ⟨vm, -, rfl⟩ := List.mem_map.mp hx
    exact hours_nonneg vm
  · rw [List.forall₂_map_left_iff, List.forall₂_map_right_iff]
    apply List.forall₂_same.mpr
    intro vm _
    have hcounted : (counted vm cycleStart cycleEnd : Rat) ≤ counted vm cycleStart cycleEnd' :=
      Nat.cast_le.mpr (counted_mono vm cycleStart h)
    exact div_le_div_of_nonneg_right hcounted millisPerHour_pos.le

end Doubles

section Cycle

variable (fl : Rat → Rat)

def getBillingCycleEnd (startedAt : Nat) : Nat := startedAt + 30 * 24 * 60 * 60 * 1000

/-- A payment with its date. -/
structure DatedPayment where
  row : PaymentRow
  createdAt : Nat
deriving DecidableEq, Repr

def isFullPricePayment (lower : String → String) (payment : DatedPayment)
    (catalog : ManagedCatalog) : Bool :=
  match extractPlanFromPayment lower payment.row with
  | none => false
  | some .unlimited => true
  | some (.managed p) =>
      fl (toFixed2 (fl ((catalog p).monthlyPriceDt - fl (1 / 100)))) ≤ payment.row.amount

/-- `payment.findMany` of `getLatestBillingCycleStart`: the twenty latest that count. -/
def latestPayments (payments : List DatedPayment) (userId : String) : List DatedPayment :=
  ((payments.filter fun p =>
    p.row.userId = userId && (p.row.status = .paid || p.row.status = .adminGranted)).mergeSort
      fun a b => b.createdAt ≤ a.createdAt).take 20

def getLatestBillingCycleStart (lower : String → String) (catalog : ManagedCatalog)
    (payments : List DatedPayment) (userId : String) : Option Nat :=
  match latestPayments payments userId with
  | [] => none
  | latest :: rest =>
    let fullPayment := (latest :: rest).find? fun p => isFullPricePayment fl lower p catalog
    some (fullPayment.getD latest).createdAt

end Cycle

section Profile

/-- `SAME_OR_LOWER_UNLOCK_USAGE_RATIO`. -/
def sameOrLowerUnlockUsageRatio : Rat := 9 / 10

/-- The `subscription` of a profile. -/
structure Subscription where
  planId : SubscriptionPlanId
  cycleStartedAt : Nat
  cycleEndsAt : Nat
  vmHoursIncluded : Int
  vmHoursUsed : Rat
  vmHoursRemaining : Rat
  canRenewSamePlan : Bool
deriving DecidableEq, Repr

def canRenewSamePlanWith (fl : Rat → Rat) (planId : SubscriptionPlanId) (vmHoursIncluded : Int)
    (vmHoursUsed : Rat) (cycleEndsAt now : Nat) : Bool :=
  planId ≠ .unlimited &&
    (cycleEndsAt ≤ now ||
      (0 < vmHoursIncluded &&
        fl (vmHoursIncluded * fl sameOrLowerUnlockUsageRatio) ≤ vmHoursUsed))

def canRenewSamePlan : SubscriptionPlanId → Int → Rat → Nat → Nat → Bool := canRenewSamePlanWith id

theorem canRenewSamePlan_mono {planId : SubscriptionPlanId} {included : Int} {used used' : Rat}
    {cycleEndsAt now now' : Nat} (hused : used ≤ used') (hnow : now ≤ now')
    (h : canRenewSamePlan planId included used cycleEndsAt now = true) :
    canRenewSamePlan planId included used' cycleEndsAt now' = true := by
  simp only [canRenewSamePlan, canRenewSamePlanWith, Bool.and_eq_true, Bool.or_eq_true,
    decide_eq_true_eq] at h ⊢
  refine ⟨h.1, ?_⟩
  rcases h.2 with hend | ⟨hpos, hle⟩
  · exact .inl (hend.trans hnow)
  · exact .inr ⟨hpos, hle.trans hused⟩

/-- What `getProfile` reads of a user beside the VMs. -/
structure Member where
  id : String
  role : Role
  quota : Option QuotaLimits
  createdAt : Nat
  payments : List DatedPayment

variable (fl : Rat → Rat) (lower : String → String) (catalog : ManagedCatalog) (user : Member)

def cycleStartedAt : Nat :=
  (getLatestBillingCycleStart fl lower catalog user.payments user.id).getD user.createdAt

def cycleEndsAt : Nat := getBillingCycleEnd (cycleStartedAt fl lower catalog user)

/-- `now < cycleEndsAt ? now : cycleEndsAt`. -/
def windowEnd (now : Nat) : Nat :=
  if now < cycleEndsAt fl lower catalog user then now else cycleEndsAt fl lower catalog user

/-- The subscription part of `getProfile`. -/
def subscriptionOf (vms : List MeteredVm) (now : Nat) : Option Subscription :=
  (resolvePlanForUser user.role user.quota catalog).map fun planId =>
    let vmHoursIncluded := (catalogEntry catalog planId).vmHoursMonthly
    let vmHoursUsed := estimateVmHoursUsedWith (cycleStartedAt fl lower catalog user)
      (windowEnd fl lower catalog user now) fl vms
    { planId, vmHoursIncluded, vmHoursUsed
      cycleStartedAt := cycleStartedAt fl lower catalog user
      cycleEndsAt := cycleEndsAt fl lower catalog user
      vmHoursRemaining :=
        if planId = .unlimited then VmService.maxSafeInteger
        else max 0 (fl (toFixed2 (fl (vmHoursIncluded - vmHoursUsed))))
      canRenewSamePlan := canRenewSamePlanWith fl planId vmHoursIncluded vmHoursUsed
        (cycleEndsAt fl lower catalog user) now }

/-- `getInternalSubscriptionAccess`, as the VM service reads it. -/
def subscriptionAccess : Option Subscription → InternalSubscriptionAccessSnapshot
  | none => ⟨none, true, none, none⟩
  | some s =>
    if s.planId = .unlimited then ⟨some s.planId.name, false, none, none⟩
    else ⟨some s.planId.name, s.canRenewSamePlan, some s.vmHoursUsed, some s.vmHoursIncluded⟩

end Profile

end CloudVM.UserService
