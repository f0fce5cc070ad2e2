import CloudVM.Metering.Hours
import CloudVM.Plane.World

/-!
# The meter over a run

The worker and the status subscriber of the VM service write the status of a VM's row, in any
order. They treat `stoppedAt` differently: the subscriber clears it when the machine runs again,
the worker does not. A row that runs with an old `stoppedAt` is counted up to now, and falls back
to the old time with its next status.
-/

namespace CloudVM.Metering

open UserService Plane VmService

def metered (r : VmRow) : MeteredVm := ⟨r.status, r.createdAt, r.stoppedAt⟩

/-- The clock and the rows it meters. -/
structure Meter where
  now : Nat
  vms : VmTable

inductive MeterLabel where
  | tick
  | write (c : VmCall)
  | create

/-- The status writes of the worker and of the status subscriber at a time. -/
inductive StatusCall (now : Nat) : VmCall → Prop
  | updateVmStatus (u : StatusWrite) : StatusCall now (.updateVmStatus u)
  | deleteVmRecord (vmId : String) : StatusCall now (.deleteVmRecord vmId)
  | markDeleted (vmId : String) : StatusCall now (.markDeleted vmId)
  | stampStopped (vmId : String) : StatusCall now (.stampStopped vmId)
  | patchStatus (m : StatusUpdate) (status : VmStatus) (hs : status ≠ .deleted) :
      StatusCall now (.patchStatus m.vmId (statusPatch m status now))

inductive Meter.Step : Meter → MeterLabel → Meter → Prop
  | tick {x : Meter} {now : Nat} (h : x.now ≤ now) : Step x .tick { x with now }
  | write {x : Meter} {c : VmCall} (hc : StatusCall x.now c) :
      Step x (.write c)
        { x with vms := x.vms.modify (fun _ => true) (rowUpdate x.now c) (rowUpdate_id x.now c) }
  | create {x : Meter} (tx : CreateVmTx) (newId : String)
      (hid : (newVm tx newId x.now).id ∉ x.vms.rows.map VmRow.id) :
      Step x .create { x with vms := x.vms.insert (newVm tx newId x.now) hid }

section Usage

variable (cycleStart : Nat)

/-- The end of the window: now, capped at the end of the cycle. -/
def capped (now : Nat) : Nat :=
  if now < getBillingCycleEnd cycleStart then now else getBillingCycleEnd cycleStart

/-- The hours that count for the VM, before rounding. -/
def hoursOf (x : Meter) (vmId : String) : Rat :=
  ((x.vms.find? vmId).map fun r => addHours cycleStart (capped cycleStart x.now) 0 (metered r)).getD 0

def vmsOf (x : Meter) (userId : String) : List MeteredVm :=
  (x.vms.rows.filter fun r => r.userId = userId).map metered

/-- `canRenewSamePlan` in the user's profile. -/
def renewable (x : Meter) (userId : String) (planId : SubscriptionPlanId) (vmHoursIncluded : Int) :
    Bool :=
  canRenewSamePlan planId vmHoursIncluded
    (estimateVmHoursUsed cycleStart (capped cycleStart x.now) (vmsOf x userId))
    (getBillingCycleEnd cycleStart) x.now

/-- No VM has lost hours and no plan has become locked again. -/
def NoLess (x y : Meter) : Prop :=
  (∀ vmId, hoursOf cycleStart x vmId ≤ hoursOf cycleStart y vmId) ∧
    ∀ userId planId vmHoursIncluded, renewable cycleStart x userId planId vmHoursIncluded = true →
      renewable cycleStart y userId planId vmHoursIncluded = true

/-- The write gives the row a status other than `RUNNING` and leaves a `stoppedAt` as it is. -/
def Leaves : VmCall → VmRow → Prop
  | .updateVmStatus u, r => r.id = u.vmId ∧ u.status ≠ .running
  | .deleteVmRecord vmId, r => r.id = vmId
  | .markDeleted vmId, r => r.id = vmId
  | .patchStatus vmId p, r => r.id = vmId ∧ p.status ≠ .running ∧ p.stoppedAt = none
  | _, _ => False

/-- A row that runs, with a `stoppedAt` from before, is given another status with it. -/
def FallsBack (now : Nat) (c : VmCall) (r : VmRow) : Prop :=
  r.status = .running ∧ Leaves c r ∧ started (metered r) cycleStart < capped cycleStart now ∧
    ∃ s, r.stoppedAt = some s ∧ s < capped cycleStart now

def Steady (x : Meter) : MeterLabel → Prop
  | .write c => ∀ r ∈ x.vms.rows, ¬ FallsBack cycleStart x.now c r
  | _ => True

end Usage

section Row

variable {cycleStart now : Nat} {c : VmCall} {r : VmRow}

theorem capped_le (cycleStart now : Nat) : capped cycleStart now ≤ now := by
  unfold capped
  split <;> omega

theorem capped_mono {now now' : Nat} (h : now ≤ now') :
    capped cycleStart now ≤ capped cycleStart now' := by
  unfold capped
  split <;> split <;> omega

private theorem rowUpdate_metered (hc : StatusCall now c) (r : VmRow) :
    metered (rowUpdate now c r) = metered r ∨
    (rowUpdate now c r).createdAt = r.createdAt ∧
      ((rowUpdate now c r).status = .running ∨ (rowUpdate now c r).stoppedAt = some now ∨
        Leaves c r ∧ (rowUpdate now c r).status ≠ .running ∧
          (rowUpdate now c r).stoppedAt = r.stoppedAt) := by
  cases hc with
  | updateVmStatus u =>
    by_cases hid : r.id = u.vmId
    · right
      simp only [rowUpdate, hid, if_true, StatusWrite.apply, Leaves, true_and]
      by_cases hrun : u.status = .running
      · exact .inl hrun
      by_cases hstop : u.status = .stopped
      · cases hs : r.stoppedAt with
        | none => simp [hstop]
        | some s => simp [hstop]
      · simp [hrun, hstop]
    · simp [rowUpdate, hid]
  | deleteVmRecord vmId =>
    by_cases hid : r.id = vmId
    · right
      simp only [rowUpdate, hid, if_true, Leaves, true_and]
      cases hs : r.stoppedAt with
      | none => simp
      | some s => simp
    · simp [rowUpdate, hid]
  | markDeleted vmId =>
    by_cases hid : r.id = vmId
    · simp [rowUpdate, hid, Leaves]
    · simp [rowUpdate, hid]
  | stampStopped vmId =>
    by_cases hid : r.id = vmId ∧ r.stoppedAt = none
    · simp [rowUpdate, hid]
    · simp [rowUpdate, hid]
  | patchStatus m status hs =>
    by_cases hid : r.id = m.vmId
    · right
      simp only [rowUpdate, hid, if_true, StatusPatch.apply, Leaves, true_and]
      cases status <;> simp [statusPatch] at hs ⊢
    · simp [rowUpdate, hid]

private theorem leaves_status (h : Leaves c r) : (rowUpdate now c r).status ≠ .running := by
  cases c
  case updateVmStatus u => simpa [rowUpdate, h.1, StatusWrite.apply] using h.2
  case deleteVmRecord vmId =>
    have hid : r.id = vmId := h
    simp [rowUpdate, hid]
  case markDeleted vmId =>
    have hid : r.id = vmId := h
    simp [rowUpdate, hid]
  case patchStatus vmId p => simpa [rowUpdate, h.1, StatusPatch.apply] using h.2.1
  all_goals exact h.elim

private theorem leaves_stoppedAt {s : Nat} (h : Leaves c r) (hs : r.stoppedAt = some s) :
    (rowUpdate now c r).stoppedAt = some s := by
  cases c
  case updateVmStatus u => simp [rowUpdate, h.1, StatusWrite.apply, hs]
  case deleteVmRecord vmId =>
    have hid : r.id = vmId := h
    simp [rowUpdate, hid, hs]
  case markDeleted vmId =>
    have hid : r.id = vmId := h
    simp [rowUpdate, hid, hs]
  case patchStatus vmId p => simp [rowUpdate, h.1, StatusPatch.apply, h.2.2, hs]
  all_goals exact h.elim

private theorem counted_update_iff {cycleEnd : Nat} (hcap : cycleEnd ≤ now)
    (hc : StatusCall now c) :
    counted (metered r) cycleStart cycleEnd ≤
        counted (metered (rowUpdate now c r)) cycleStart cycleEnd ↔
      ¬ (r.status = .running ∧ Leaves c r ∧ started (metered r) cycleStart < cycleEnd ∧
        ∃ s, r.stoppedAt = some s ∧ s < cycleEnd) := by
  rcases rowUpdate_metered hc r with hsame | ⟨hcreated, hrun | hstamp | ⟨hleaves, hne, hkeep⟩⟩
  · rw [hsame]
    refine iff_of_true le_rfl fun hback => ?_
    have hstatus := congrArg MeteredVm.status hsame
    exact leaves_status hback.2.1 (hstatus.trans hback.1)
  · refine iff_of_true ?_ fun hback => leaves_status hback.2.1 hrun
    simp only [counted, ended_eq, started_eq, metered, hcreated, hrun, if_true]
    split <;> omega
  · refine iff_of_true ?_ ?_
    · simp only [counted, ended_eq, started_eq, metered, hcreated, hstamp, Option.getD_some]
      split <;> split <;> omega
    · rintro ⟨-, hl, -, s, hs, hlt⟩
      have hs' := (leaves_stoppedAt hl hs).symm.trans hstamp
      cases hs'
      omega
  · by_cases hrow : r.status = .running
    · cases hs : r.stoppedAt with
      | none =>
        refine iff_of_true ?_ ?_
        · simp [counted, ended_eq, started_eq, metered, hcreated, hrow, hkeep, hs]
        · rintro ⟨-, -, -, s, hs', -⟩
          cases hs'
      | some s =>
        simp only [counted, ended_eq, started_eq, metered, hcreated, hrow, hne, hkeep, hs,
          hleaves, if_true, if_false, Option.getD_some, true_and, Option.some.injEq,
          exists_eq_left']
        omega
    · refine iff_of_true ?_ fun hback => hrow hback.1
      simp [counted, ended_eq, started_eq, metered, hcreated, hrow, hne, hkeep]

/-- A status write takes hours from a row exactly if the row falls back. -/
theorem counted_rowUpdate_iff (hc : StatusCall now c) :
    counted (metered r) cycleStart (capped cycleStart now) ≤
        counted (metered (rowUpdate now c r)) cycleStart (capped cycleStart now) ↔
      ¬ FallsBack cycleStart now c r :=
  counted_update_iff (capped_le cycleStart now) hc

end Row

section Steps

variable {cycleStart : Nat} {x y : Meter} {l : MeterLabel}

private theorem hours_le_iff {vm vm' : MeteredVm} {cycleEnd cycleEnd' : Nat} :
    addHours cycleStart cycleEnd 0 vm ≤ addHours cycleStart cycleEnd' 0 vm' ↔
      counted vm cycleStart cycleEnd ≤ counted vm' cycleStart cycleEnd' := by
  rw [addHours_eq, addHours_eq, zero_add, zero_add,
    div_le_div_iff_of_pos_right millisPerHour_pos, Nat.cast_le]

private theorem hoursOf_nonneg (cycleStart : Nat) (x : Meter) (vmId : String) :
    0 ≤ hoursOf cycleStart x vmId := by
  unfold hoursOf
  cases x.vms.find? vmId with
  | none => exact le_rfl
  | some r =>
    rw [Option.map_some, Option.getD_some, addHours_eq, zero_add]
    positivity

private theorem renewable_mono {userId : String} {planId : SubscriptionPlanId} {included : Int}
    (hnow : x.now ≤ y.now)
    (h : ((vmsOf x userId).map fun vm => counted vm cycleStart (capped cycleStart x.now)).sum ≤
      ((vmsOf y userId).map fun vm => counted vm cycleStart (capped cycleStart y.now)).sum)
    (hx : renewable cycleStart x userId planId included = true) :
    renewable cycleStart y userId planId included = true :=
  canRenewSamePlan_mono (estimateVmHoursUsed_mono _ _ h) hnow hx

private theorem tick_noLess {now : Nat} (h : x.now ≤ now) : NoLess cycleStart x { x with now } := by
  constructor
  · intro vmId
    simp only [hoursOf]
    cases x.vms.find? vmId with
    | none => simp
    | some r => exact hours_le_iff.mpr (counted_mono _ _ (capped_mono h))
  · intro userId planId included
    apply renewable_mono h
    apply List.sum_le_sum
    intro vm _
    exact counted_mono _ _ (capped_mono h)

private theorem create_noLess (tx : CreateVmTx) (newId : String)
    (hid : (newVm tx newId x.now).id ∉ x.vms.rows.map VmRow.id) :
    NoLess cycleStart x { x with vms := x.vms.insert (newVm tx newId x.now) hid } := by
  constructor
  · intro vmId
    by_cases hnew : (newVm tx newId x.now).id = vmId
    · have hnone : x.vms.find? vmId = none := by
        rw [← hnew]
        exact (x.vms.key_free_iff _).mp hid
      have hzero : hoursOf cycleStart x vmId = 0 := by simp [hoursOf, hnone]
      rw [hzero]
      exact hoursOf_nonneg _ _ _
    · simp [hoursOf, Table.find?_insert, hnew]
  · intro userId planId included
    refine renewable_mono (le_refl x.now) ?_
    simp only [vmsOf, Table.rows_insert, List.filter_append, List.map_append, List.sum_append]
    exact Nat.le_add_right _ _

private theorem write_noLess_iff {c : VmCall} (hc : StatusCall x.now c) :
    NoLess cycleStart x
        { x with vms := x.vms.modify (fun _ => true) (rowUpdate x.now c) (rowUpdate_id x.now c) } ↔
      Steady cycleStart x (.write c) := by
  constructor
  · intro h r hr
    have hfind : x.vms.find? r.id = some r := x.vms.find?_eq_some.mpr ⟨hr, rfl⟩
    have hle := h.1 r.id
    simp only [hoursOf, Table.find?_modify, hfind, Option.map_some, Option.getD_some, if_true] at hle
    exact (counted_rowUpdate_iff hc).mp (hours_le_iff.mp hle)
  · intro h
    constructor
    · intro vmId
      simp only [hoursOf, Table.find?_modify, if_true]
      cases hfind : x.vms.find? vmId with
      | none => simp
      | some r =>
        have hr := (x.vms.find?_eq_some.mp hfind).1
        exact hours_le_iff.mpr ((counted_rowUpdate_iff hc).mpr (h r hr))
    · intro userId planId included
      refine renewable_mono (le_refl x.now) ?_
      have hrows : (x.vms.rows.map (rowUpdate x.now c)).filter (fun r => r.userId = userId) =
          (x.vms.rows.filter fun r => r.userId = userId).map (rowUpdate x.now c) := by
        rw [List.filter_map]
        congr 1
        apply List.filter_congr
        intro r _
        simp
      simp only [vmsOf, Table.rows_modify, if_true, hrows, List.map_map]
      apply List.sum_le_sum
      intro r hr
      exact (counted_rowUpdate_iff hc).mpr (h r (List.mem_filter.mp hr).1)

theorem noLess_iff (h : Meter.Step x l y) : NoLess cycleStart x y ↔ Steady cycleStart x l := by
  cases h with
  | tick h => exact iff_of_true (tick_noLess h) trivial
  | write hc => exact write_noLess_iff hc
  | create tx newId hid => exact iff_of_true (create_noLess tx newId hid) trivial

instance : Trans (NoLess cycleStart) (NoLess cycleStart) (NoLess cycleStart) where
  trans h h' := ⟨fun vmId => (h.1 vmId).trans (h'.1 vmId),
    fun userId planId included hx => h'.2 userId planId included (h.2 userId planId included hx)⟩

end Steps

section Sample

private def hour : Nat := 3600000

def meterTx : CreateVmTx where
  dto := .sample
  userId := "u1"
  isAdmin := false
  remoteQuota := none
  encryptedPrivateKey := none

private def workerWrites (status : VmStatus) : VmCall := .updateVmStatus { vmId := "vm1", status }

private def written (x : Meter) (c : VmCall) : Meter :=
  { x with vms := x.vms.modify (fun _ => true) (rowUpdate x.now c) (rowUpdate_id x.now c) }

private def created : Meter := ⟨0, Table.empty.insert (newVm meterTx "vm1" 0) (by simp)⟩

private theorem worker_step (x : Meter) (status : VmStatus) :
    Meter.Step x (.write (workerWrites status)) (written x (workerWrites status)) :=
  .write (.updateVmStatus _)

private theorem tick_step (x : Meter) (now : Nat) (h : x.now ≤ now) :
    Meter.Step x .tick { x with now } := .tick h

private def stopped : Meter := written { written created (workerWrites .running) with now := hour }
  (workerWrites .stopped)

private def runningAgain : Meter := { written stopped (workerWrites .running) with now := 3 * hour }

end Sample

end CloudVM.Metering
