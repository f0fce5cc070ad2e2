import CloudVM.Vm.Interface
import Mathlib.Algebra.Ring.Int.Defs

/-!
# The VM service

`createVm`, `vmAction`, `deleteVm` and the subscriber of `vm.status.update`, as processes.
The body of the transaction in `createVm` is given apart, as one function on the tables: an
exception inside it rolls every write back, so the error case carries no state.
-/

namespace CloudVM

namespace VmService

open Text

def fetchInternalQuotaSnapshot (userId : String) : VmProcess (Option InternalQuotaSnapshot) :=
  .call (.fetchInternalQuotaSnapshot userId) .ofExcept

def fetchInternalSubscriptionAccessSnapshot (userId : String) :
    VmProcess (Option InternalSubscriptionAccessSnapshot) :=
  .call (.fetchInternalSubscriptionAccessSnapshot userId) .ofExcept

def generateVmSshKeyPair : VmProcess SshKeyPair := .call .generateVmSshKeyPair .ofExcept

def encryptVmPrivateKey (pem : String) : VmProcess String :=
  .call (.encryptVmPrivateKey pem) .ofExcept

def findVm (vmId : String) : VmProcess (Option VmRow) := .call (.findVm vmId) .ofExcept

def publish (subject : Subject) (data : Dict) : VmProcess Unit :=
  .call (.publish subject data) .ofExcept

section Transaction

/-- The user's rows that count against the quota: `status: { notIn: [DELETED] }`. -/
def activeVms (db : VmDb) (userId : String) : List VmRow :=
  db.vms.rows.filter fun r => r.userId = userId && r.status != .deleted

def usedCpu (db : VmDb) (userId : String) : Int := ((activeVms db userId).map VmRow.cpu).sum

def usedRam (db : VmDb) (userId : String) : Int := ((activeVms db userId).map VmRow.ramMb).sum

def usedDisk (db : VmDb) (userId : String) : Int := ((activeVms db userId).map VmRow.diskGb).sum

/-- `userQuota.upsert`: the limits are replaced, or a row is created. -/
def upsertQuota (quotas : Table VmQuotaRow.userId) (userId : String) (limits : QuotaLimits) :
    Table VmQuotaRow.userId :=
  if h : userId ∈ quotas.rows.map VmQuotaRow.userId then
    quotas.modify (fun q => q.userId = userId) fun q => { q with limits }
  else quotas.insert { userId, limits } h

/-- The tables after the transaction has read, and for an active subscription with limits
overwritten, the quota row. -/
def syncQuota (tx : CreateVmTx) (db : VmDb) : VmDb :=
  match tx.remoteQuota with
  | some ⟨true, _, some limits⟩ =>
      if tx.isAdmin then db else { db with quotas := upsertQuota db.quotas tx.userId limits }
  | _ => db

theorem syncQuota_vms (tx : CreateVmTx) (db : VmDb) : (syncQuota tx db).vms = db.vms := by
  unfold syncQuota
  split
  · split <;> rfl
  · rfl

/-- The quota row the transaction goes by: the one it read, or the one it upserted. -/
def txQuota (tx : CreateVmTx) (db : VmDb) : Option VmQuotaRow :=
  (syncQuota tx db).quotas.find? tx.userId

def maxSafeInteger : Int := 9007199254740991

/-- The limits the checks use: none for an admin, zero without a quota row. -/
def txLimits (tx : CreateVmTx) (db : VmDb) : QuotaLimits :=
  if tx.isAdmin then ⟨maxSafeInteger, maxSafeInteger, maxSafeInteger, maxSafeInteger⟩
  else match txQuota tx db with
    | some q => q.limits
    | none => ⟨0, 0, 0, 0⟩

/-- The row `virtualMachine.create` writes. -/
def newVm (tx : CreateVmTx) (newId : String) (now : Nat) : VmRow where
  id := newId
  name := tx.dto.name
  cpu := tx.dto.cpu
  ramMb := tx.dto.ramMb
  diskGb := tx.dto.diskGb
  osTemplate := tx.dto.osTemplate
  userId := tx.userId
  planId := tx.dto.planId.filter (· ≠ "")
  status := .pending
  sshUsername := some (match tx.dto.vmUsername.map jsTrim with
    | none | some "" => "cloudvm"
    | some u => u)
  sshPrivateKeyEncrypted := tx.encryptedPrivateKey
  createdAt := now
  updatedAt := now

/-- The body of the transaction. `newId` is the generated key of the new row. -/
def createVmBody (tx : CreateVmTx) (newId : String) (now : Nat) (db : VmDb) :
    Except TxFailure (VmRow × VmDb) :=
  let db' := syncQuota tx db
  let limits := txLimits tx db
  let maxVms := limits.maxVms
  let maxCpu := limits.maxCpu
  let maxRamMb := limits.maxRamMb
  let maxDiskGb := limits.maxDiskGb
  let cpu := tx.dto.cpu
  let ramMb := tx.dto.ramMb
  let diskGb := tx.dto.diskGb
  let count : Int := (activeVms db' tx.userId).length
  let uCpu := usedCpu db' tx.userId
  let uRam := usedRam db' tx.userId
  let uDisk := usedDisk db' tx.userId
  if count ≥ maxVms then
    .error (.forbidden s!"VM quota exceeded. Maximum {maxVms} VMs allowed.")
  else if uCpu + cpu > maxCpu then
    .error (.forbidden s!"CPU quota exceeded. Used: {uCpu}, Requested: {cpu}, Max: {maxCpu}")
  else if uRam + ramMb > maxRamMb then
    .error (.forbidden s!"RAM quota exceeded. Used: {uRam}MB, Requested: {ramMb}MB, Max: {maxRamMb}MB")
  else if uDisk + diskGb > maxDiskGb then
    .error (.forbidden
      s!"Disk quota exceeded. Used: {uDisk}GB, Requested: {diskGb}GB, Max: {maxDiskGb}GB")
  else
    let vm := newVm tx newId now
    if h : vm.id ∈ db'.vms.rows.map VmRow.id then .error .uniqueViolation
    else if db'.vms.rows.any (fun r => r.userId = vm.userId && r.name = vm.name) then
      .error .uniqueViolation
    else .ok (vm, { db' with vms := db'.vms.insert vm h })

/-- What a commit of the transaction did, and the four checks it passed. -/
theorem createVmBody_ok {tx : CreateVmTx} {newId : String} {now : Nat} {db db' : VmDb} {vm : VmRow}
    (h : createVmBody tx newId now db = .ok (vm, db')) :
    vm = newVm tx newId now ∧
    newId ∉ db.vms.rows.map VmRow.id ∧
    db'.vms.rows = db.vms.rows ++ [vm] ∧
    db'.quotas = (syncQuota tx db).quotas ∧
    ((activeVms db tx.userId).length : Int) < (txLimits tx db).maxVms ∧
    usedCpu db tx.userId + tx.dto.cpu ≤ (txLimits tx db).maxCpu ∧
    usedRam db tx.userId + tx.dto.ramMb ≤ (txLimits tx db).maxRamMb ∧
    usedDisk db tx.userId + tx.dto.diskGb ≤ (txLimits tx db).maxDiskGb := by
  have hvms := syncQuota_vms tx db
  have hact : activeVms (syncQuota tx db) tx.userId = activeVms db tx.userId := by
    rw [activeVms, activeVms, hvms]
  simp only [createVmBody, usedCpu, usedRam, usedDisk, hact, hvms] at h
  split at h
  · simp at h
  split at h
  · simp at h
  split at h
  · simp at h
  split at h
  · simp at h
  split at h
  · simp at h
  split at h
  · simp at h
  rename_i hcount hcpu hram hdisk hid hname
  simp only [Except.ok.injEq, Prod.mk.injEq] at h
  obtain ⟨rfl, rfl⟩ := h
  refine ⟨rfl, hid, rfl, rfl, ?_, ?_, ?_, ?_⟩
  · omega
  · simpa [usedCpu] using hcpu
  · simpa [usedRam] using hram
  · simpa [usedDisk] using hdisk

end Transaction

/-- The body of the `vm.create` message. `vmPassword: undefined` is left out of the JSON. -/
def createMessage (vm : VmRow) (dto : CreateVmDto) (sshPublicKey : String) : Dict :=
  [("vmId", .str vm.id), ("name", .str vm.name), ("cpu", .int vm.cpu), ("ramMb", .int vm.ramMb),
    ("diskGb", .int vm.diskGb), ("osTemplate", .str vm.osTemplate), ("userId", .str vm.userId),
    ("vmUsername", (vm.sshUsername.map Value.str).getD .null)] ++
  (dto.vmPassword.map fun p => ("vmPassword", Value.str p)).toList ++
  [("sshPublicKey", .str sshPublicKey)]

def actionMessage (vm : VmRow) (action : VmAction) (userId : String) : Dict :=
  [("vmId", .str vm.id), ("oneVmId", .ofOptionInt vm.oneVmId), ("action", .str action.name),
    ("userId", .str userId)]

def deleteMessage (vm : VmRow) (userId : String) : Dict :=
  [("vmId", .str vm.id), ("oneVmId", .ofOptionInt vm.oneVmId), ("userId", .str userId)]

/-- The transaction as one call; only a unique index gets its own answer. -/
def runCreateVmTransaction (tx : CreateVmTx) : VmProcess VmRow :=
  .call (.createVmTransaction tx) fun
    | .ok vm => .ret vm
    | .error .uniqueViolation => .raise ⟨.conflict, "You already have a VM with this name"⟩
    | .error (.forbidden message) => .raise ⟨.forbidden, message⟩
    | .error (.database message) => .raise ⟨.database, message⟩

/-- A new key pair, its private part also encrypted. -/
def generateSshKey : VmProcess (String × Option String × Option String) := do
  let pair ← generateVmSshKeyPair
  let encrypted ← encryptVmPrivateKey pair.privateKeyPem
  pure (pair.publicKeySsh, some pair.privateKeyPem, some encrypted)

/-- The key put into the VM: the caller's, or a generated one whose private part is stored. -/
def chooseSshKey (dto : CreateVmDto) : VmProcess (String × Option String × Option String) :=
  match dto.sshPublicKey.map jsTrim with
  | none | some "" => generateSshKey
  | some key => pure (key, none, none)

/-- `createVm` behind its subscription gate: the key, the transaction, the message. -/
def launchVm (dto : CreateVmDto) (userId : String) (isAdmin : Bool)
    (remoteQuota : Option InternalQuotaSnapshot) : VmProcess (VmRow × Option String) := do
  let (sshPublicKey, generated, encryptedPrivateKey) ← chooseSshKey dto
  let vm ← runCreateVmTransaction { dto, userId, isAdmin, remoteQuota, encryptedPrivateKey }
  publish .vmCreate (createMessage vm dto sshPublicKey)
  pure (vm, generated)

/-- Returns the row and the generated private key. -/
def createVm (dto : CreateVmDto) (userId : String) (role : Role) :
    VmProcess (VmRow × Option String) := do
  if role = .admin then launchVm dto userId true none
  else
    let remoteQuota ← fetchInternalQuotaSnapshot userId
    if !(remoteQuota.map (·.hasActiveSubscription)).getD false then
      throw ⟨.forbidden,
        "No active subscription found. Please purchase a plan before creating VMs."⟩
    else launchVm dto userId false remoteQuota

def getVm (vmId userId : String) (role : Role) : VmProcess VmRow := do
  match ← findVm vmId with
  | none => throw ⟨.notFound, "Virtual machine not found"⟩
  | some vm =>
    if role ≠ .admin ∧ vm.userId ≠ userId then throw ⟨.forbidden, "Access denied"⟩
    pure vm

def validTransitions : VmAction → List VmStatus
  | .start => [.stopped, .suspended, .error]
  | .stop => [.running]
  | .restart => [.running]
  | .delete => [.running, .stopped, .suspended, .error, .pending]

/-- `vmHoursUsed >= vmHoursIncluded`, both present, on a plan other than unlimited. -/
def hourLimitReached (a : InternalSubscriptionAccessSnapshot) : Bool :=
  a.activePlanId ≠ some "unlimited" &&
    match a.vmHoursIncluded, a.vmHoursUsed with
    | some included, some used => included ≤ used
    | _, _ => false

/-- The subscription gate of `start` and `restart`. -/
def checkHours (userId : String) : VmProcess Unit := do
  let access ← fetchInternalSubscriptionAccessSnapshot userId
  match access with
  | none => throw ⟨.forbidden, "No active subscription found. Please purchase a plan."⟩
  | some a =>
    match a.activePlanId with
    | none | some "" => throw ⟨.forbidden, "No active subscription found. Please purchase a plan."⟩
    | some _ =>
      if hourLimitReached a then
        throw ⟨.forbidden,
          "VM-hour limit reached for the current billing cycle. Stop VMs or upgrade your plan."⟩
      else pure ()

/-- The status check of `vmAction` and the message behind it. -/
def queueAction (vm : VmRow) (action : VmAction) (userId : String) : VmProcess String :=
  let actionName := action.name
  let statusName := vm.status.name
  let name := vm.name
  if (validTransitions action).contains vm.status then do
    publish .vmAction (actionMessage vm action userId)
    pure s!"Action '{actionName}' queued for VM {name}"
  else throw ⟨.badRequest, s!"Cannot perform '{actionName}' on a VM with status '{statusName}'"⟩

def vmAction (vmId : String) (action : VmAction) (userId : String) (role : Role) :
    VmProcess String := do
  let vm ← getVm vmId userId role
  if role ≠ .admin ∧ (action = .start ∨ action = .restart) then checkHours userId
  queueAction vm action userId

def deleteVm (vmId userId : String) (role : Role) : VmProcess String := do
  let vm ← getVm vmId userId role
  let name := vm.name
  if vm.status = .deleted then throw ⟨.badRequest, s!"VM '{name}' is already deleted"⟩
  else
    publish .vmDelete (deleteMessage vm userId)
    pure s!"VM '{name}' deletion queued"

section StatusUpdates

def truthyText (s : Option String) : Option String := s.filter fun t => t ≠ ""

def truthyInt (n : Option Int) : Option Int := n.filter fun k => k ≠ 0

/-- The columns a message other than `DELETED` writes. -/
def statusPatch (m : StatusUpdate) (status : VmStatus) (now : Nat) : StatusPatch where
  status := status
  stoppedAt := match status with
    | .stopped | .suspended | .error => some (some now)
    | .running => some none
    | _ => none
  ipAddress := truthyText m.ipAddress
  oneVmId := truthyInt m.oneVmId
  sshHost := truthyText m.sshHost
  sshPort := truthyInt m.sshPort

/-- The subscriber of `vm.status.update`; database errors are logged and dropped. -/
def onStatusUpdate (m : StatusUpdate) : VmProcess Unit :=
  match m.status with
  | .lcm _ => pure ()
  | .row .deleted =>
      tryCatch (do
        let updated ← .call (.markDeleted m.vmId) .ofExcept
        if updated = 0 then pure ()
        else
          let _ ← .call (.stampStopped m.vmId) .ofExcept
          pure ()) fun _ => pure ()
  | .row status => do
      let now ← .call .now .ret
      tryCatch (do
        let _ ← .call (.patchStatus m.vmId (statusPatch m status now)) .ofExcept
        pure ()) fun _ => pure ()

end StatusUpdates

end VmService

end CloudVM
