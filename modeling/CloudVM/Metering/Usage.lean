import CloudVM.Metering.Hours
import CloudVM.Vm.Visible

/-!
# The usage that is shown

The VM service shows a user's totals in `getStats` and compares them with the quota in `createVm`;
the user service shows them in `getProfile`. `getStats` sums over three statuses only.
-/

namespace CloudVM.UserService

open VmService

section Profile

/-- `_sum` and `_count` of the aggregate in `getProfile`. -/
structure VmAggregate where
  sums : VmSums
  count : Nat
deriving DecidableEq, Repr

/-- What `getProfile` reads of the row of the user. -/
structure ProfileUser where
  role : Role
  quota : Option QuotaLimits
deriving DecidableEq, Repr

structure Usage where
  vmCount : Nat
  cpuUsed : Int
  ramMbUsed : Int
  diskGbUsed : Int
deriving DecidableEq, Repr

structure Profile where
  quota : Option QuotaLimits
  usage : Usage
  subscription : Option Subscription
deriving DecidableEq, Repr

/-- `subscription` stands for the cycle, the catalog and the hours. -/
inductive ProfileCall where
  | findUser (userId : String)
  | aggregate (filter : VmWhere)
  | subscription (userId : String)

@[reducible] def ProfileCall.Answer : ProfileCall → Type
  | .findUser _ => Except Failure (Option ProfileUser)
  | .aggregate _ => Except Failure VmAggregate
  | .subscription _ => Except Failure (Option Subscription)

@[reducible] def profileInterface : Interface where
  Call := ProfileCall
  Answer := ProfileCall.Answer

def getProfile (userId : String) : Process profileInterface Failure Profile := do
  let user ← .call (.findUser userId) .ofExcept
  let resourceUsage ← .call (.aggregate { userId := some userId, status := .isNot .deleted }) .ofExcept
  match user with
  | none => throw ⟨.notFound, "User not found"⟩
  | some user =>
    let subscription ← .call (.subscription userId) .ofExcept
    pure {
      quota := if user.role = .admin then some unlimitedPlanConfig.quota else user.quota
      usage := {
        vmCount := resourceUsage.count
        cpuUsed := resourceUsage.sums.cpu.getD 0
        ramMbUsed := resourceUsage.sums.ramMb.getD 0
        diskGbUsed := resourceUsage.sums.diskGb.getD 0 }
      subscription }

/-- The aggregate is taken over the rows that match; all other answers are arbitrary. -/
def profileEffect (contains : String → String → Bool) :
    (c : ProfileCall) → VmTable → c.Answer → VmTable → Prop
  | .aggregate filter, db, r, db' => db' = db ∧
      ((∃ rows, Matching contains filter db rows ∧
        r = .ok ⟨⟨sumOf VmRow.cpu rows, sumOf VmRow.ramMb rows, sumOf VmRow.diskGb rows⟩,
          rows.length⟩) ∨ ∃ e, r = .error e)
  | _, db, _, db' => db' = db

/-- `getProfile` may return this profile when the table is `db`. -/
def Shows (contains : String → String → Bool) (db : VmTable) (userId : String) (profile : Profile) :
    Prop :=
  (getProfile userId).May (profileEffect contains) (fun out _ => out = .ok profile) db

end Profile

section Totals

variable {contains : String → String → Bool} {db : VmDb} {userId : String} {role : Role}

/-- The rows of a user in a status that counts for `createVm` and not for `getStats`. -/
def leftOut (db : VmDb) (userId : String) : List VmRow :=
  (activeVms db userId).filter fun r => r.status == .suspended || r.status == .error

theorem sumOf_getD (f : VmRow → Int) (rows : List VmRow) :
    (sumOf f rows).getD 0 = (rows.map f).sum := by
  cases rows with
  | nil => rfl
  | cons r rows => rfl

private theorem filter_keeps (status : StatusFilter) :
    db.vms.rows.filter (VmWhere.keeps contains { userId := some userId, status }) =
      db.vms.rows.filter fun r => r.userId = userId && status.keeps r.status := by
  apply List.filter_congr
  intro r _
  simp [VmWhere.keeps, eq_comm, Bool.beq_eq_decide_eq]

private theorem filter_isNot_deleted :
    db.vms.rows.filter
        (VmWhere.keeps contains { userId := some userId, status := .isNot .deleted }) =
      activeVms db userId := by
  rw [filter_keeps]
  rfl

private theorem sum_oneOf (f : VmRow → Int) :
    ((db.vms.rows.filter (VmWhere.keeps contains
        { userId := some userId, status := .oneOf [.running, .stopped, .pending] })).map f).sum +
      ((leftOut db userId).map f).sum = ((activeVms db userId).map f).sum := by
  let out (r : VmRow) : Bool := r.status == .suspended || r.status == .error
  have hkept : db.vms.rows.filter (VmWhere.keeps contains
      { userId := some userId, status := .oneOf [.running, .stopped, .pending] }) =
      (activeVms db userId).filter fun r => !out r := by
    rw [filter_keeps, activeVms, List.filter_filter]
    apply List.filter_congr
    intro r _
    cases hs : r.status <;> cases hu : decide (r.userId = userId) <;> simp only [out, hs] <;> rfl
  have hperm := ((List.filter_append_perm out (activeVms db userId)).map f).sum_eq
  rw [List.map_append, List.sum_append] at hperm
  rw [hkept, add_comm]
  exact hperm

private theorem getProfile_wp :
    (getProfile userId).Wp (fun _ _ => True) (profileEffect contains)
      (Process.Post (fun profile _ => profile.usage = ⟨(activeVms db userId).length,
        usedCpu db userId, usedRam db userId, usedDisk db userId⟩) fun _ _ => True) db.vms := by
  unfold getProfile
  simp only [Process.wp_bind]
  refine ⟨trivial, ?_⟩
  rintro user t rfl
  cases user with
  | error e => trivial
  | ok user =>
    refine ⟨trivial, ?_⟩
    rintro r t ⟨rfl, ⟨rows, hrows, rfl⟩ | ⟨e, rfl⟩⟩
    case inr => trivial
    have hperm : rows.Perm (activeVms db userId) := by
      rw [← @filter_isNot_deleted contains]
      exact hrows.2
    cases user with
    | none => trivial
    | some user =>
      refine ⟨trivial, ?_⟩
      rintro subscription t rfl
      cases subscription with
      | error e => trivial
      | ok subscription =>
        simp only [sumOf_perm hperm, sumOf_getD, hperm.length_eq]
        rfl

theorem shows_usage {profile : Profile} (h : Shows contains db.vms userId profile) :
    profile.usage = ⟨(activeVms db userId).length, usedCpu db userId, usedRam db userId,
      usedDisk db userId⟩ := by
  obtain ⟨out, t, he, rfl⟩ := h
  exact getProfile_wp.ends he

/-- The totals and the counts of `getStats` and `getProfile` are those that the transaction of
`createVm` compares with the quota. -/
structure UsageEnforced (tx : CreateVmTx) (db : VmDb) (stats : VmStats) (profile : Profile) : Prop where
  statsCpu : stats.totalCpu = usedCpu (syncQuota tx db) tx.userId
  statsRam : stats.totalRamMb = usedRam (syncQuota tx db) tx.userId
  statsDisk : stats.totalDiskGb = usedDisk (syncQuota tx db) tx.userId
  statsCount : stats.total = (activeVms (syncQuota tx db) tx.userId).length
  profileCpu : profile.usage.cpuUsed = usedCpu (syncQuota tx db) tx.userId
  profileRam : profile.usage.ramMbUsed = usedRam (syncQuota tx db) tx.userId
  profileDisk : profile.usage.diskGbUsed = usedDisk (syncQuota tx db) tx.userId
  profileCount : profile.usage.vmCount = (activeVms (syncQuota tx db) tx.userId).length

/-- The suspended and the failed VMs of the user add up to nothing. -/
structure NothingLeftOut (db : VmDb) (userId : String) : Prop where
  cpu : ((leftOut db userId).map VmRow.cpu).sum = 0
  ramMb : ((leftOut db userId).map VmRow.ramMb).sum = 0
  diskGb : ((leftOut db userId).map VmRow.diskGb).sum = 0

private theorem getStats_user (hrole : role ≠ .admin) {stats : VmStats}
    (h : Yields contains (getStats userId role) db.vms (.ok stats)) :
    stats.total = (activeVms db userId).length ∧
      stats.totalCpu + ((leftOut db userId).map VmRow.cpu).sum = usedCpu db userId ∧
      stats.totalRamMb + ((leftOut db userId).map VmRow.ramMb).sum = usedRam db userId ∧
      stats.totalDiskGb + ((leftOut db userId).map VmRow.diskGb).sum = usedDisk db userId := by
  rw [getStats_yields h]
  simp only [statsOf, ownerFilter_user userId hrole, sumOf_getD]
  exact ⟨congrArg List.length filter_isNot_deleted, sum_oneOf _, sum_oneOf _, sum_oneOf _⟩

/-- The usage that is shown is the one that is enforced exactly if no suspended or failed VM of
the user counts for anything. -/
theorem usage_enforced_iff (tx : CreateVmTx) (hrole : role ≠ .admin) {stats : VmStats}
    {profile : Profile} (hstats : Yields contains (getStats tx.userId role) db.vms (.ok stats))
    (hprofile : Shows contains db.vms tx.userId profile) :
    UsageEnforced tx db stats profile ↔ NothingLeftOut db tx.userId := by
  obtain ⟨htotal, hcpu, hram, hdisk⟩ := getStats_user hrole hstats
  have husage := shows_usage hprofile
  have hactive : activeVms (syncQuota tx db) tx.userId = activeVms db tx.userId := by
    rw [activeVms, activeVms, syncQuota_vms]
  have hused : usedCpu (syncQuota tx db) tx.userId = usedCpu db tx.userId ∧
      usedRam (syncQuota tx db) tx.userId = usedRam db tx.userId ∧
      usedDisk (syncQuota tx db) tx.userId = usedDisk db tx.userId := by
    simp only [usedCpu, usedRam, usedDisk, hactive, and_self]
  obtain ⟨husedCpu, husedRam, husedDisk⟩ := hused
  constructor
  · intro h
    have h1 := h.statsCpu
    have h2 := h.statsRam
    have h3 := h.statsDisk
    exact ⟨by omega, by omega, by omega⟩
  · intro h
    have h1 := h.cpu
    have h2 := h.ramMb
    have h3 := h.diskGb
    exact {
      statsCpu := by omega
      statsRam := by omega
      statsDisk := by omega
      statsCount := by rw [hactive, htotal]
      profileCpu := by rw [husedCpu, husage]
      profileRam := by rw [husedRam, husage]
      profileDisk := by rw [husedDisk, husage]
      profileCount := by rw [hactive, husage] }

end Totals

section Samples

def machine (status : VmStatus) : VmRow where
  id := "v"
  name := "web"
  status := status
  cpu := 2
  ramMb := 2048
  diskGb := 20
  osTemplate := "ubuntu"
  userId := "u"
  createdAt := 0
  updatedAt := 0

def machineDb (status : VmStatus) : VmDb where
  vms := ⟨[machine status], List.nodup_singleton _⟩
  quotas := .empty

def machineRequest : CreateVmTx where
  dto := { name := "db", cpu := 1, ramMb := 1024, diskGb := 10, osTemplate := "ubuntu" }
  userId := "u"
  isAdmin := false
  remoteQuota := none
  encryptedPrivateKey := none

def findsNothing (_ _ : String) : Bool := false

private theorem getStats_reads (db : VmTable) (userId : String) (role : Role) :
    Yields findsNothing (getStats userId role) db (.ok (statsOf findsNothing userId role db)) := by
  refine ⟨_, db, ?_, rfl⟩
  have hknown : ∀ s : VmStatus, (StatusFilter.named s.name).Known := fun s => ⟨s, rfl⟩
  exact ⟨_, db, ⟨rfl, .inl ⟨_, ⟨trivial, .refl _⟩, rfl⟩⟩,
    _, db, ⟨rfl, .inl ⟨_, ⟨hknown .running, .refl _⟩, rfl⟩⟩,
    _, db, ⟨rfl, .inl ⟨_, ⟨hknown .stopped, .refl _⟩, rfl⟩⟩,
    _, db, ⟨rfl, .inl ⟨_, ⟨hknown .pending, .refl _⟩, rfl⟩⟩,
    _, db, ⟨rfl, .inl ⟨_, ⟨hknown .error, .refl _⟩, rfl⟩⟩,
    _, db, ⟨rfl, .inl ⟨_, ⟨trivial, .refl _⟩, rfl⟩⟩, rfl, rfl⟩

def profileOf (db : VmDb) (userId : String) : Profile where
  quota := none
  usage := ⟨(activeVms db userId).length, usedCpu db userId, usedRam db userId, usedDisk db userId⟩
  subscription := none

private theorem getProfile_reads (db : VmDb) (userId : String) :
    Shows findsNothing db.vms userId (profileOf db userId) := by
  have hrows : Matching findsNothing { userId := some userId, status := .isNot .deleted } db.vms
      (activeVms db userId) := by
    refine ⟨trivial, ?_⟩
    rw [filter_isNot_deleted]
  refine ⟨_, db.vms, ?_, rfl⟩
  refine ⟨.ok (some ⟨.user, none⟩), _, rfl, _, _, ⟨rfl, .inl ⟨_, hrows, rfl⟩⟩, .ok none, _, rfl, ?_, rfl⟩
  simp only [sumOf_getD]
  rfl

theorem usage_enforced_running : UsageEnforced machineRequest (machineDb .running)
    (statsOf findsNothing "u" .user (machineDb .running).vms) (profileOf (machineDb .running) "u") :=
  (usage_enforced_iff machineRequest (by decide) (getStats_reads _ _ _)
    (getProfile_reads _ _)).mpr ⟨by decide, by decide, by decide⟩

/-- A VM whose creation has failed counts against the quota and is not shown among the totals. -/
theorem failed_vm_not_shown : ¬ ∀ (contains : String → String → Bool) (tx : CreateVmTx) (db : VmDb)
    (role : Role) (stats : VmStats) (profile : Profile), role ≠ .admin →
    Yields contains (getStats tx.userId role) db.vms (.ok stats) →
    Shows contains db.vms tx.userId profile → UsageEnforced tx db stats profile := by
  intro hall
  have henforced := hall findsNothing machineRequest (machineDb .error) .user _ _ (by decide)
    (getStats_reads _ _ _) (getProfile_reads _ _)
  exact absurd henforced.statsCpu (by decide)

end Samples

end CloudVM.UserService
