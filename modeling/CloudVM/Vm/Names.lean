import CloudVM.Vm.Handover
import CloudVM.Vm.Visible

/-!
# The name of a new VM

The table has a unique index on owner and name, over all its rows. A deleted VM keeps its row and
with it its name.
-/

namespace CloudVM.VmService

section Transaction

variable {tx : CreateVmTx} {db : VmDb}

/-- What the four checks of the transaction ask. -/
structure FitsQuota (tx : CreateVmTx) (db : VmDb) : Prop where
  vms : ((activeVms db tx.userId).length : Int) < (txLimits tx db).maxVms
  cpu : usedCpu db tx.userId + tx.dto.cpu ≤ (txLimits tx db).maxCpu
  ram : usedRam db tx.userId + tx.dto.ramMb ≤ (txLimits tx db).maxRamMb
  disk : usedDisk db tx.userId + tx.dto.diskGb ≤ (txLimits tx db).maxDiskGb

/-- The new row violates one of the two unique indexes. -/
def Taken (tx : CreateVmTx) (newId : String) (db : VmDb) : Prop :=
  newId ∈ db.vms.rows.map VmRow.id ∨
    ∃ r ∈ db.vms.rows, r.userId = tx.userId ∧ r.name = tx.dto.name

/-- Within the quota only the unique indexes are left to decide. -/
theorem createVmBody_fits (h : FitsQuota tx db) (newId : String) (now : Nat) :
    (Taken tx newId db ∧ createVmBody tx newId now db = .error .uniqueViolation) ∨
      (¬ Taken tx newId db ∧ ∃ out, createVmBody tx newId now db = .ok out) := by
  have hvms := syncQuota_vms tx db
  have hact : activeVms (syncQuota tx db) tx.userId = activeVms db tx.userId := by
    rw [activeVms, activeVms, hvms]
  have hcount := h.vms
  have hcpu := h.cpu
  have hram := h.ram
  have hdisk := h.disk
  simp only [usedCpu, usedRam, usedDisk] at hcpu hram hdisk
  simp only [createVmBody, usedCpu, usedRam, usedDisk, hact, hvms, ge_iff_le, gt_iff_lt]
  rw [if_neg (by omega), if_neg (by omega), if_neg (by omega), if_neg (by omega)]
  by_cases hid : newId ∈ db.vms.rows.map VmRow.id
  · left
    exact ⟨.inl hid, dif_pos hid⟩
  by_cases hname : db.vms.rows.any (fun r => r.userId = tx.userId && r.name = tx.dto.name) = true
  · left
    have hrow : ∃ r ∈ db.vms.rows, r.userId = tx.userId ∧ r.name = tx.dto.name := by
      simpa using hname
    exact ⟨.inr hrow, (dif_neg hid).trans (if_pos hname)⟩
  · right
    constructor
    · intro htaken
      cases htaken with
      | inl h => exact hid h
      | inr h =>
        apply hname
        simpa using h
    · exact ⟨_, (dif_neg hid).trans (if_neg hname)⟩

end Transaction

section Request

variable {dto : CreateVmDto} {userId : String} {role : Role} {s : Desk}

/-- The request passes its gate, has a key, and the database finds it within the quota. -/
structure WithinTheQuota (dto : CreateVmDto) (userId : String) (role : Role) (s : Desk)
    (tx : CreateVmTx) : Prop where
  request : tx.dto = dto ∧ tx.userId = userId ∧ tx.isAdmin = decide (role = .admin)
  gate : quotaGate s userId role = .ok tx.remoteQuota
  key : ∃ key generated, keyFor s dto = .ok (key, generated, tx.encryptedPrivateKey)
  database : s.dbFailure = none
  fits : FitsQuota tx s.db

def nameConflict : Failure := ⟨.conflict, "You already have a VM with this name"⟩

def FailsWithConflict (dto : CreateVmDto) (userId : String) (role : Role) (s : Desk) : Prop :=
  ((createVm dto userId role).exec Desk.answer s).1 = .error nameConflict

/-- JetStream does not answer with an exception of the controllers. -/
def Desk.OwnErrors (s : Desk) : Prop := ∀ e, s.jetStream = .error e → e.kind ≠ .conflict

/-- Any row of the user of that name is a conflict, deleted or not, and so is the generated key. -/
theorem createVm_conflict_iff {tx : CreateVmTx} (h : WithinTheQuota dto userId role s tx)
    (hnats : s.OwnErrors) : FailsWithConflict dto userId role s ↔ Taken tx s.newId s.db := by
  obtain ⟨rfl, rfl, hadmin⟩ := h.request
  obtain ⟨key, generated, hkey⟩ := h.key
  have htx : (⟨tx.dto, tx.userId, decide (role = .admin), tx.remoteQuota,
      tx.encryptedPrivateKey⟩ : CreateVmTx) = tx := by rw [← hadmin]
  have htransact : s.transact tx = createVmBody tx s.newId s.now s.db := by
    rw [Desk.transact, h.database]
  rw [FailsWithConflict, createVm_gate, h.gate]
  simp only [launchVm, Process.exec_bind, chooseSshKey_exec, hkey, runCreateVmTransaction,
    Process.exec_call, Desk.answer, htx, htransact]
  rcases createVmBody_fits h.fits s.newId s.now with ⟨htaken, hbody⟩ | ⟨hfree, ⟨vm, db⟩, hbody⟩
  · rw [hbody]
    exact iff_of_true rfl htaken
  · rw [hbody]
    refine iff_of_false ?_ hfree
    intro hconflict
    simp only [Process.exec_ret, ← Process.exec_bind, publish_exec, Desk.afterPublish,
      Desk.publish] at hconflict
    split at hconflict
    · split at hconflict
      · cases hconflict
      · rename_i e he
        have hkind := hnats e he
        cases hconflict
        exact hkind rfl
    · cases hconflict

/-- The user has a VM of that name that `listVms` shows without a filter. -/
def NameInUse (contains : String → String → Bool) (db : VmDb) (userId : String) (role : Role)
    (name : String) : Prop :=
  ∃ vm ∈ db.vms.rows, vm.userId = userId ∧ vm.name = name ∧
    (listFilter userId role {}).keeps contains vm = true

/-- Unless the name is in use, no deleted VM of the user has it, and the generated key is new. -/
def NameAvailable (contains : String → String → Bool) (s : Desk) (userId : String) (role : Role)
    (name : String) : Prop :=
  NameInUse contains s.db userId role name ∨
    (s.newId ∉ s.db.vms.rows.map VmRow.id ∧
      ∀ vm ∈ s.db.vms.rows, vm.userId = userId → vm.name = name → vm.status ≠ .deleted)

private theorem listed_iff {contains : String → String → Bool} {vm : VmRow}
    (h : vm.userId = userId) :
    (listFilter userId role {}).keeps contains vm = true ↔ vm.status ≠ .deleted := by
  have howner : (ownerFilter userId role).all (· == vm.userId) = true := by
    cases role with
    | user => simp [ownerFilter, h]
    | admin => rfl
  simp [VmWhere.keeps, listFilter, howner, truthyText, StatusFilter.keeps]

/-- The name is refused exactly when it is in use, as long as no deleted VM alone holds it. -/
theorem name_refused_iff (contains : String → String → Bool) {tx : CreateVmTx}
    (h : WithinTheQuota dto userId role s tx) (hnats : s.OwnErrors) :
    (FailsWithConflict dto userId role s ↔ NameInUse contains s.db userId role dto.name) ↔
      NameAvailable contains s userId role dto.name := by
  obtain ⟨hdto, huser, -⟩ := h.request
  rw [createVm_conflict_iff h hnats, Taken, hdto, huser]
  constructor
  · intro hiff
    by_cases huse : NameInUse contains s.db userId role dto.name
    · exact .inl huse
    · right
      constructor
      · intro hid
        exact huse (hiff.mp (.inl hid))
      · intro vm hvm howner hname _
        exact huse (hiff.mp (.inr ⟨vm, hvm, howner, hname⟩))
  · intro havailable
    constructor
    · intro htaken
      cases havailable with
      | inl huse => exact huse
      | inr hfree =>
        cases htaken with
        | inl hid => exact absurd hid hfree.1
        | inr hrow =>
          obtain ⟨vm, hvm, howner, hname⟩ := hrow
          exact ⟨vm, hvm, howner, hname, (listed_iff howner).mpr (hfree.2 vm hvm howner hname)⟩
    · intro huse
      obtain ⟨vm, hvm, howner, hname, -⟩ := huse
      exact .inr ⟨vm, hvm, howner, hname⟩

/-- A student whose only VM has this status; the plan allows two. -/
def onlyVm (status : VmStatus) : VmRow where
  id := "vm1"
  name := "web-1"
  status := status
  cpu := 1
  ramMb := 1024
  diskGb := 10
  osTemplate := "Ubuntu 24.04"
  userId := "u1"
  createdAt := 0
  updatedAt := 0

def studentAnswers : (c : VmCall) → c.Answer
  | .fetchInternalQuotaSnapshot _ => .ok (some ⟨true, some "student", some ⟨2, 2, 4096, 40⟩⟩)
  | c => noAnswer c

def studentDesk (status : VmStatus) : Desk where
  db := ⟨⟨[onlyVm status], List.nodup_singleton _⟩, .empty⟩
  accepted := []
  connected := true
  jetStream := .ok ()
  dbFailure := none
  newId := "3f2b8c1a-5d4e-4f6a-8b7c-9d0e1f2a3b4c"
  now := 0
  answers := studentAnswers

def requestedVm : CreateVmDto where
  name := "web-1"
  cpu := 1
  ramMb := 1024
  diskGb := 10
  osTemplate := "Ubuntu 24.04"
  sshPublicKey := some "ssh-ed25519 AAAAC3NzaC1lZDI1NTE5AAAAIB"

def requestedTx : CreateVmTx where
  dto := requestedVm
  userId := "u1"
  isAdmin := false
  remoteQuota := some ⟨true, some "student", some ⟨2, 2, 4096, 40⟩⟩
  encryptedPrivateKey := none

private theorem student_within (status : VmStatus) :
    WithinTheQuota requestedVm "u1" .user (studentDesk status) requestedTx where
  request := ⟨rfl, rfl, rfl⟩
  gate := rfl
  key := ⟨_, none, rfl⟩
  database := rfl
  fits := by
    cases status <;> exact ⟨by decide, by decide, by decide, by decide⟩

private theorem student_ownErrors (status : VmStatus) : (studentDesk status).OwnErrors := by
  intro e he
  cases he

/-- The name of a running VM is refused. -/
theorem name_refused_iff_running :
    FailsWithConflict requestedVm "u1" .user (studentDesk .running) ↔
      NameInUse (fun _ _ => false) (studentDesk .running).db "u1" .user "web-1" :=
  (name_refused_iff (fun _ _ => false) (student_within .running) (student_ownErrors .running)).mpr
    (.inl ⟨onlyVm .running, List.mem_singleton.mpr rfl, rfl, rfl, rfl⟩)

/-- So is the name of a deleted one, which the list does not show. -/
theorem deleted_name_refused :
    ¬ ∀ (dto : CreateVmDto) (userId : String) (role : Role) (s : Desk) (tx : CreateVmTx),
      dto.valid = true → WithinTheQuota dto userId role s tx → s.OwnErrors →
      (FailsWithConflict dto userId role s ↔
        NameInUse (fun _ _ => false) s.db userId role dto.name) := by
  intro h
  have hiff := h requestedVm "u1" .user (studentDesk .deleted) requestedTx (by decide)
    (student_within .deleted) (student_ownErrors .deleted)
  have hrefused : FailsWithConflict requestedVm "u1" .user (studentDesk .deleted) :=
    (createVm_conflict_iff (student_within .deleted) (student_ownErrors .deleted)).mpr
      (.inr ⟨onlyVm .deleted, List.mem_singleton.mpr rfl, rfl, rfl⟩)
  obtain ⟨vm, hvm, -, -, hlisted⟩ := hiff.mp hrefused
  rw [List.mem_singleton.mp hvm] at hlisted
  exact absurd hlisted (by decide)

end Request

end CloudVM.VmService
