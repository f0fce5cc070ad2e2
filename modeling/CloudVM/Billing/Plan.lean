import CloudVM.Vm.Model
import Mathlib.Data.Rat.Floor

/-!
# Plans and their catalog

The three plans that are sold, kept in `plan_configs` and seeded from `PLAN_CATALOG_JSON`, and
the unlimited plan, which is fixed in the code. Prices are exact rationals.
-/

namespace CloudVM

inductive ManagedPlanId where
  | student
  | pro
  | enterprise
deriving DecidableEq, Repr

inductive SubscriptionPlanId where
  | managed (p : ManagedPlanId)
  | unlimited
deriving DecidableEq, Repr

def ManagedPlanId.name : ManagedPlanId → String
  | .student => "student"
  | .pro => "pro"
  | .enterprise => "enterprise"

def SubscriptionPlanId.name : SubscriptionPlanId → String
  | .managed p => p.name
  | .unlimited => "unlimited"

/-- `assertPlanId`, without its exception. -/
def ManagedPlanId.ofName? (s : String) : Option ManagedPlanId :=
  if s = "student" then some .student
  else if s = "pro" then some .pro
  else if s = "enterprise" then some .enterprise
  else none

def SubscriptionPlanId.ofName? (s : String) : Option SubscriptionPlanId :=
  if s = "unlimited" then some .unlimited else (ManagedPlanId.ofName? s).map .managed

/-- `REQUIRED_PLAN_IDS`. -/
def requiredPlanIds : List ManagedPlanId := [.student, .pro, .enterprise]

@[simp] theorem mem_requiredPlanIds (p : ManagedPlanId) : p ∈ requiredPlanIds := by
  cases p <;> simp [requiredPlanIds]

/-- A row of `plan_configs`. -/
structure PlanConfigRow where
  planId : ManagedPlanId
  amountDt : Rat
  rank : Int
  vmHoursMonthly : Int
  quota : QuotaLimits
deriving DecidableEq, Repr

abbrev PlanTable := Table PlanConfigRow.planId

structure SubscriptionPlanConfig where
  quota : QuotaLimits
  monthlyPriceDt : Rat
  vmHoursMonthly : Int
  rank : Int
deriving DecidableEq, Repr

/-- The plans that are sold, each with its configuration. -/
abbrev ManagedCatalog := ManagedPlanId → SubscriptionPlanConfig

/-- `UNLIMITED_PLAN_CONFIG`; its hours are `Number.MAX_SAFE_INTEGER`. -/
def unlimitedPlanConfig : SubscriptionPlanConfig where
  quota := { maxVms := 9999, maxCpu := 9999, maxRamMb := 999999, maxDiskGb := 99999 }
  monthlyPriceDt := 0
  vmHoursMonthly := 9007199254740991
  rank := 99

/-- The catalog with `[SubscriptionPlanId.UNLIMITED]: UNLIMITED_PLAN_CONFIG` added. -/
def catalogEntry (catalog : ManagedCatalog) : SubscriptionPlanId → SubscriptionPlanConfig
  | .managed p => catalog p
  | .unlimited => unlimitedPlanConfig

section Rows

/-- The rows that the catalog of `.env.example` makes. -/
def PlanConfigRow.samples : List PlanConfigRow :=
  [⟨.student, 29, 1, 60, ⟨2, 2, 4096, 40⟩⟩, ⟨.pro, 79, 2, 220, ⟨6, 8, 16384, 120⟩⟩,
    ⟨.enterprise, 199, 3, 900, ⟨20, 32, 65536, 400⟩⟩]

theorem PlanConfigRow.samples_sorted :
    PlanConfigRow.samples.Pairwise fun a b => a.rank ≤ b.rank := by decide

def PlanConfigRow.config (row : PlanConfigRow) : SubscriptionPlanConfig where
  quota := row.quota
  monthlyPriceDt := row.amountDt
  vmHoursMonthly := row.vmHoursMonthly
  rank := row.rank

/-- `byId.get(planId)`. -/
def planRow? (rows : List PlanConfigRow) (p : ManagedPlanId) : Option PlanConfigRow :=
  rows.find? fun row => row.planId = p

def missingPlans (rows : List PlanConfigRow) : List ManagedPlanId :=
  requiredPlanIds.filter fun p => (planRow? rows p).isNone

/-- The configurations in the rows; the fallback is never used when no plan is missing. -/
def managedCatalog (rows : List PlanConfigRow) : ManagedCatalog := fun p =>
  ((planRow? rows p).map PlanConfigRow.config).getD unlimitedPlanConfig

def sampleCatalog : ManagedCatalog := managedCatalog PlanConfigRow.samples

def buildPlanCatalogFromRows (rows : List PlanConfigRow) : Except Failure ManagedCatalog :=
  if missingPlans rows = [] then .ok (managedCatalog rows)
  else .error ⟨.internal,
    "Missing plan configs for: " ++ ", ".intercalate ((missingPlans rows).map ManagedPlanId.name)⟩

theorem buildPlanCatalogFromRows_ok {rows : List PlanConfigRow} {catalog : ManagedCatalog} :
    buildPlanCatalogFromRows rows = .ok catalog ↔
      ∀ p, ∃ row, planRow? rows p = some row ∧ catalog p = row.config := by
  unfold buildPlanCatalogFromRows
  constructor
  · intro h p
    split at h
    · rename_i hmissing
      cases h
      have hp : (planRow? rows p).isNone ≠ true := by
        intro hnone
        have hmem : p ∈ missingPlans rows := by simp [missingPlans, hnone]
        simp [hmissing] at hmem
      cases hrow : planRow? rows p with
      | none => simp [hrow] at hp
      | some row => exact ⟨row, rfl, by simp [managedCatalog, hrow]⟩
    · cases h
  · intro h
    have hmissing : missingPlans rows = [] := by
      simp only [missingPlans, List.filter_eq_nil_iff]
      intro p _
      obtain ⟨row, hrow, -⟩ := h p
      simp [hrow]
    have hcatalog : managedCatalog rows = catalog := by
      funext p
      obtain ⟨row, hrow, hc⟩ := h p
      simp [managedCatalog, hrow, hc]
    rw [if_pos hmissing, hcatalog]

end Rows

section Seed

/-- The `quota` of a plan in `PLAN_CATALOG_JSON`; what is no finite number is `none`. -/
structure SeedQuota where
  maxVms : Option Rat
  maxCpu : Option Rat
  maxRamMb : Option Rat
  maxDiskGb : Option Rat

structure SeedPlan where
  amountDt : Option Rat
  rank : Option Rat
  vmHoursMonthly : Option Rat
  quota : Option SeedQuota

inductive PlanCatalogJson where
  | unset
  | malformed
  | record (plans : ManagedPlanId → Option SeedPlan)

/-- `data` of one row of `planConfig.createMany`. -/
structure PlanData where
  planId : ManagedPlanId
  amountDt : Rat
  rank : Rat
  vmHoursMonthly : Rat
  maxVms : Rat
  maxCpu : Rat
  maxRamMb : Rat
  maxDiskGb : Rat
deriving DecidableEq, Repr

/-- Every number of a plan is finite and within its bound. -/
def SeedPlan.check (planId : ManagedPlanId) (cfg : SeedPlan) : Option PlanData := do
  let amountDt ← cfg.amountDt.filter (0 < ·)
  let rank ← cfg.rank.filter (1 ≤ ·)
  let vmHoursMonthly ← cfg.vmHoursMonthly.filter (0 < ·)
  let quota ← cfg.quota
  let maxVms ← quota.maxVms.filter (1 ≤ ·)
  let maxCpu ← quota.maxCpu.filter (1 ≤ ·)
  let maxRamMb ← quota.maxRamMb.filter (512 ≤ ·)
  let maxDiskGb ← quota.maxDiskGb.filter (5 ≤ ·)
  pure { planId, amountDt, rank, vmHoursMonthly, maxVms, maxCpu, maxRamMb, maxDiskGb }

/-- The check of one required plan in `loadManagedSubscriptionCatalogFromEnv`. -/
def seedPlan (plans : ManagedPlanId → Option SeedPlan) (p : ManagedPlanId) :
    Except Failure PlanData :=
  match plans p with
  | none => .error ⟨.other, s!"PLAN_CATALOG_JSON missing '{p.name}' config"⟩
  | some cfg =>
    match cfg.check p with
    | none => .error ⟨.other, s!"Invalid PLAN_CATALOG_JSON values for '{p.name}'"⟩
    | some data => .ok data

def loadManagedSubscriptionCatalogFromEnv : PlanCatalogJson → Except Failure (List PlanData)
  | .unset => .error ⟨.other, "Missing PLAN_CATALOG_JSON"⟩
  | .malformed => .error ⟨.other, "Invalid PLAN_CATALOG_JSON: must be valid JSON"⟩
  | .record plans => requiredPlanIds.mapM (seedPlan plans)

/-- An `INTEGER` column takes whole numbers of 32 bits. -/
def toInteger (x : Rat) : Option Int :=
  if x.den = 1 ∧ -2147483648 ≤ x.num ∧ x.num ≤ 2147483647 then some x.num else none

/-- The row that the data makes, if its columns take them. -/
def PlanData.row (d : PlanData) : Option PlanConfigRow := do
  let rank ← toInteger d.rank
  let vmHoursMonthly ← toInteger d.vmHoursMonthly
  let maxVms ← toInteger d.maxVms
  let maxCpu ← toInteger d.maxCpu
  let maxRamMb ← toInteger d.maxRamMb
  let maxDiskGb ← toInteger d.maxDiskGb
  pure { planId := d.planId, amountDt := d.amountDt, rank, vmHoursMonthly,
         quota := { maxVms, maxCpu, maxRamMb, maxDiskGb } }

/-- `createMany` with `skipDuplicates`: a row whose plan is there already is left out. -/
def insertPlans (plans : PlanTable) : List PlanConfigRow → PlanTable
  | [] => plans
  | row :: rows =>
    if h : row.planId ∈ plans.rows.map PlanConfigRow.planId then insertPlans plans rows
    else insertPlans (plans.insert row h) rows

/-- The catalog of `.env.example`, and the data it becomes. -/
def SeedPlan.samples : ManagedPlanId → Option SeedPlan
  | .student => some ⟨some 29, some 1, some 60, some ⟨some 2, some 2, some 4096, some 40⟩⟩
  | .pro => some ⟨some 79, some 2, some 220, some ⟨some 6, some 8, some 16384, some 120⟩⟩
  | .enterprise => some ⟨some 199, some 3, some 900, some ⟨some 20, some 32, some 65536, some 400⟩⟩

def PlanData.samples : List PlanData :=
  [⟨.student, 29, 1, 60, 2, 2, 4096, 40⟩, ⟨.pro, 79, 2, 220, 6, 8, 16384, 120⟩,
    ⟨.enterprise, 199, 3, 900, 20, 32, 65536, 400⟩]

end Seed

section Update

/-- Body of `PUT /payments/admin/plans/:planId`. -/
structure UpdatePlanDto where
  amountDt : Option Rat := none
  vmHoursMonthly : Option Rat := none
  maxVms : Option Rat := none
  maxCpu : Option Rat := none
  maxRamMb : Option Rat := none
  maxDiskGb : Option Rat := none
deriving DecidableEq, Repr

/-- The class-validator constraints of `UpdatePlanDto`. -/
def UpdatePlanDto.valid (dto : UpdatePlanDto) : Bool :=
  dto.amountDt.all (fun x => decide ((1 : Rat) / 100 ≤ x)) &&
  dto.vmHoursMonthly.all (fun x => decide (1 ≤ x)) &&
  dto.maxVms.all (fun x => decide (1 ≤ x)) &&
  dto.maxCpu.all (fun x => decide (1 ≤ x)) &&
  dto.maxRamMb.all (fun x => decide (512 ≤ x)) &&
  dto.maxDiskGb.all (fun x => decide (5 ≤ x))

/-- A column of an `update`: kept when absent, refused when the column cannot take the value. -/
def patchInteger (old : Int) : Option Rat → Option Int
  | none => some old
  | some x => toInteger x

def UpdatePlanDto.patch (dto : UpdatePlanDto) (row : PlanConfigRow) : Option PlanConfigRow := do
  let vmHoursMonthly ← patchInteger row.vmHoursMonthly dto.vmHoursMonthly
  let maxVms ← patchInteger row.quota.maxVms dto.maxVms
  let maxCpu ← patchInteger row.quota.maxCpu dto.maxCpu
  let maxRamMb ← patchInteger row.quota.maxRamMb dto.maxRamMb
  let maxDiskGb ← patchInteger row.quota.maxDiskGb dto.maxDiskGb
  pure { planId := row.planId, amountDt := dto.amountDt.getD row.amountDt, rank := row.rank,
         vmHoursMonthly, quota := { maxVms, maxCpu, maxRamMb, maxDiskGb } }

end Update

end CloudVM
