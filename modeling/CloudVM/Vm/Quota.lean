import CloudVM.Framework.Run
import CloudVM.Vm.Service

/-!
# Quota safety of concurrent creation

Any number of `createVm` requests of any users run beside each other, their calls in any
order, while the statuses of existing rows change freely. Postgres runs the transactions
at the serializable level, so a transaction is one step on the tables.
-/

namespace CloudVM.VmService

/-- What the transaction answers and leaves behind: it commits with a generated key, or the
tables stay as they were. -/
def TxEffect (tx : CreateVmTx) (db : VmDb) (r : Except TxFailure VmRow) (db' : VmDb) : Prop :=
  (∃ newId now vm, createVmBody tx newId now db = .ok (vm, db') ∧ r = .ok vm) ∨
    (∃ e, r = .error e ∧ db' = db)

/-- The tables as `createVm` requests see them: every other call leaves them alone and may
be answered in any way. -/
def requestEffect : (c : VmCall) → VmDb → VmCall.Answer c → VmDb → Prop
  | .createVmTransaction tx, db, r, db' => TxEffect tx db r db'
  | _, db, _, db' => db' = db

/-- Requests of any users; between their steps any row may get any status. -/
def vmRequests : Surroundings vmInterface Failure (VmRow × Option String) VmDb where
  effect := requestEffect
  start db p db' := db' = db ∧ ∃ dto userId role, p = createVm dto userId role
  change db db' := ∃ vmId status, db' = { db with
    vms := db.vms.modify (fun r => r.id = vmId) fun r => { r with status } }

/-- The user's VMs that are not deleted stay within the limits. -/
structure WithinQuota (db : VmDb) (userId : String) (limits : QuotaLimits) : Prop where
  vms : ((activeVms db userId).length : Int) ≤ limits.maxVms
  cpu : usedCpu db userId ≤ limits.maxCpu
  ram : usedRam db userId ≤ limits.maxRamMb
  disk : usedDisk db userId ≤ limits.maxDiskGb

theorem activeVms_commit {tx : CreateVmTx} {newId : String} {now : Nat} {db db' : VmDb} {vm : VmRow}
    (h : createVmBody tx newId now db = .ok (vm, db')) :
    activeVms db' tx.userId = activeVms db tx.userId ++ [vm] := by
  obtain ⟨hvm, -, hrows, -⟩ := createVmBody_ok h
  have hkeep : (decide (vm.userId = tx.userId) && vm.status != .deleted) = true := by
    subst hvm
    simp [newVm]
  rw [activeVms, hrows, List.filter_append, List.filter_singleton, hkeep]
  rfl

/-- A request that is not an admin's commits only under a quota row, and within it. -/
theorem commit_withinQuota {tx : CreateVmTx} {newId : String} {now : Nat} {db db' : VmDb}
    {vm : VmRow} (hadmin : tx.isAdmin = false) (h : createVmBody tx newId now db = .ok (vm, db')) :
    ∃ q, txQuota tx db = some q ∧ db'.quotas.find? tx.userId = some q ∧
      WithinQuota db' tx.userId q.limits := by
  obtain ⟨hvm, -, -, hquotas, hcount, hcpu, hram, hdisk⟩ := createVmBody_ok h
  have hact := activeVms_commit h
  cases hq : txQuota tx db with
  | none =>
    have hl : txLimits tx db = ⟨0, 0, 0, 0⟩ := by simp [txLimits, hadmin, hq]
    rw [hl] at hcount
    simp only at hcount
    omega
  | some q =>
    have hl : txLimits tx db = q.limits := by simp [txLimits, hadmin, hq]
    rw [hl] at hcount hcpu hram hdisk
    have hres : vm.cpu = tx.dto.cpu ∧ vm.ramMb = tx.dto.ramMb ∧ vm.diskGb = tx.dto.diskGb := by
      subst hvm
      exact ⟨rfl, rfl, rfl⟩
    refine ⟨q, rfl, by rw [hquotas]; exact hq, ?_, ?_, ?_, ?_⟩
    · rw [hact, List.length_append, List.length_singleton]
      push_cast
      omega
    · rw [usedCpu, hact, List.map_append, List.sum_append]
      simpa [hres.1, usedCpu] using hcpu
    · rw [usedRam, hact, List.map_append, List.sum_append]
      simpa [hres.2.1, usedRam] using hram
    · rw [usedDisk, hact, List.map_append, List.sum_append]
      simpa [hres.2.2, usedDisk] using hdisk

/-- In every interleaving, right after every commit of a non-admin's `createVm` the user's
VMs are within the quota row that this transaction read or upserted. -/
theorem createVm_commits_within_quota (db : VmDb)
    {trace : List (PoolLabel vmInterface × Pool vmInterface Failure (VmRow × Option String) VmDb)}
    {z y : Pool vmInterface Failure (VmRow × Option String) VmDb} {i : Nat} {tx : CreateVmTx}
    {vm : VmRow} (hrun : Run (Pool.Step vmRequests) ⟨db, []⟩ trace z)
    (hm : (.act i (.createVmTransaction tx) (.ok vm), y) ∈ trace) (hadmin : tx.isAdmin = false) :
    ∃ x q, Pool.Step vmRequests x (.act i (.createVmTransaction tx) (.ok vm)) y ∧
      txQuota tx x.state = some q ∧ y.state.quotas.find? tx.userId = some q ∧
      WithinQuota y.state tx.userId q.limits := by
  obtain ⟨x, -, hstep⟩ := hrun.entry (J := fun _ => True) trivial (fun _ _ _ _ _ => trivial) hm
  obtain ⟨k, -, he, -⟩ := hstep.act_inv
  rcases he with ⟨newId, now, vm', hbody, hok⟩ | ⟨e, he, -⟩
  · obtain rfl := Except.ok.inj hok
    obtain ⟨q, hq, hfind, hwithin⟩ := commit_withinQuota hadmin hbody
    exact ⟨x, q, hstep, hq, hfind, hwithin⟩
  · exact absurd he (by simp)

private def sampleDto : CreateVmDto := .sample

private def sampleSnapshot : InternalQuotaSnapshot := ⟨true, some "student", some ⟨1, 2, 2048, 20⟩⟩

private def sampleTx : CreateVmTx := ⟨sampleDto, "u1", false, some sampleSnapshot, none⟩

private def emptyDb : VmDb := ⟨.empty, .empty⟩

/-- A student with room for exactly one VM creates it. -/
theorem createVm_commits_within_quota_student :
    ∃ trace y, Run (Pool.Step vmRequests) ⟨emptyDb, []⟩ trace y ∧
      (.act 0 (.createVmTransaction sampleTx) (.ok (newVm sampleTx "vm1" 0)), y) ∈ trace ∧
      ∃ x q, Pool.Step vmRequests x
          (.act 0 (.createVmTransaction sampleTx) (.ok (newVm sampleTx "vm1" 0))) y ∧
        txQuota sampleTx x.state = some q ∧ y.state.quotas.find? sampleTx.userId = some q ∧
        WithinQuota y.state sampleTx.userId q.limits := by
  have hrun : Run (Pool.Step vmRequests) ⟨emptyDb, []⟩ _ _ :=
    Run.head (.start ⟨rfl, sampleDto, "u1", .user, rfl⟩)
      (Run.head (.act (I := vmInterface) (i := 0) (c := .fetchInternalQuotaSnapshot "u1")
          (r := .ok (some sampleSnapshot)) rfl rfl)
        (Run.single (.act (I := vmInterface) (i := 0) (c := .createVmTransaction sampleTx)
          (r := .ok (newVm sampleTx "vm1" 0)) rfl (.inl ⟨"vm1", 0, _, rfl, rfl⟩))))
  refine ⟨_, _, hrun, ?_, createVm_commits_within_quota emptyDb hrun ?_ rfl⟩
  · exact .tail _ (.tail _ (.head _))
  · exact .tail _ (.tail _ (.head _))

end CloudVM.VmService
