import CloudVM.Worker.Template

/-!
# The worker

`VMHandler` and the three subscribers of the worker, as processes over the shared interface.
-/

namespace CloudVM.Worker

open Text

section Calls

def updateVmStatus (w : StatusWrite) : VmProcess Unit := .call (.updateVmStatus w) .ofExcept

def deleteVmRecord (vmId : String) : VmProcess Unit := .call (.deleteVmRecord vmId) .ofExcept

def publishStatus (m : StatusUpdate) : VmProcess Unit := .call (.publishStatus m) .ofExcept

def createTask (t : PollTask) : VmProcess Unit := .call (.createTask t) .ret

def oneVmInfo (oneVmId : Int) : VmProcess OneVmInfo := .call (.oneVmInfo oneVmId) .ofExcept

def oneVmAction (action : String) (oneVmId : Int) : VmProcess Unit :=
  .call (.oneVmAction action oneVmId) .ofExcept

def templatePoolInfo : VmProcess (List OneTemplate) := .call .templatePoolInfo .ofExcept

def templateInstantiate (templateId : Int) (name extraTemplate : String) : VmProcess Int :=
  .call (.templateInstantiate templateId name extraTemplate) .ofExcept

def templateDelete (templateId : Int) (images : Bool) : VmProcess Unit :=
  .call (.templateDelete templateId images) .ofExcept

def sleep (seconds : Nat) : VmProcess Unit := .call (.sleep seconds) .ret

def ack : VmProcess Unit := .call .ack .ret

def getVmOneId (vmId : String) : VmProcess (Option Int) :=
  .call (.selectOneVmId vmId) fun
    | .ok oneVmId => .ret oneVmId
    | .error _ => .ret none

def getUserSshKeys (userId : String) : VmProcess (List String) :=
  .call (.selectUserSshKeys userId) fun
    | .ok keys => .ret keys
    | .error _ => .ret []

def getVmsPendingSync : VmProcess (List PollTask) :=
  .call .selectPendingVms fun
    | .ok tasks => .ret tasks
    | .error _ => .ret []

def getAllActiveVms : VmProcess (List ActiveVm) :=
  .call .selectActiveVms fun
    | .ok vms => .ret vms
    | .error _ => .ret []

/-- `update_vm_status` followed by `_publish_status`. -/
def report (w : StatusWrite) (m : StatusUpdate) : VmProcess Unit := do
  updateVmStatus w
  publishStatus m

def ignoring (p : VmProcess Unit) : VmProcess Unit := tryCatch p fun _ => pure ()

end Calls

section Create

variable (cfg : WorkerConfig)

def loadTemplates : VmProcess Unit :=
  tryCatch (do
    let pool ← templatePoolInfo
    .call (.writeTemplateCache (some (pool.filter isCloudvmBaseTemplate))) .ret)
    fun _ => .call (.writeTemplateCache none) .ret

def readTemplateCache : VmProcess (Option (List OneTemplate)) := .call .readTemplateCache .ret

def searchCache (templateName : String) : VmProcess (Option Int) := do
  let cache ← readTemplateCache
  pure (cache.bind fun templates => findTemplateIn cfg templates templateName)

def findTemplate (templateName : String) : VmProcess (Option Int) := do
  let cache ← readTemplateCache
  if cache.isNone then loadTemplates
  searchCache cfg templateName

/-- A template of the pool that bears the VM's name, the base template apart, is taken away. -/
def deleteStale (name : String) (templateId : Int) (t : OneTemplate) : VmProcess Unit :=
  if t.name = name ∧ t.id ≠ templateId then templateDelete t.id true else pure ()

def cleanupStale (name : String) (templateId : Int) : VmProcess Unit :=
  ignoring do
    let pool ← templatePoolInfo
    Process.forEach (deleteStale name templateId) pool

def collectSshKeys (d : VmCreateData) : VmProcess (List String) := do
  let extra := if cfg.injectExtraSshKeys then cfg.extraSshKeys else []
  let keys ← if d.userId = "" then pure [] else getUserSshKeys d.userId
  pure (sanitizeSshPublicKeys (extra ++ keys ++ d.sshPublicKey.toList))

/-- A persistent instantiation with credentials, then one without. -/
def instantiate (d : VmCreateData) (templateId : Int) (sshKeys : List String) : VmProcess Int := do
  let base := extraTemplateBase d.cpu d.ramMb sshKeys
  let withCreds := base ++ credsSnippet d.vmUsername d.vmPassword
  cleanupStale d.name templateId
  tryCatch (templateInstantiate templateId d.name withCreds) fun _ => do
    cleanupStale d.name templateId
    templateInstantiate templateId d.name base

/-- Take the `CLOUDVM_BASE` flag off the clone. -/
def clearBaseFlag (oneVmId templateId : Int) : VmProcess Unit :=
  ignoring do
    let cloned ← oneVmInfo oneVmId
    match cloned.templateId with
    | none => pure ()
    | some .malformed => throw ⟨.value, "invalid literal for int()"⟩
    | some (.int clonedTemplateId) =>
      if clonedTemplateId ≠ templateId then
        .call (.templateUpdate clonedTemplateId "CLOUDVM_BASE=\"NO\"") .ofExcept
      else pure ()

/-- `create_vm` once the base template is known. -/
def launchFrom (d : VmCreateData) (templateId : Int) : VmProcess Unit := do
  let sshKeys ← collectSshKeys cfg d
  let oneVmId ← instantiate d templateId sshKeys
  clearBaseFlag oneVmId templateId
  report { vmId := d.vmId, status := .pending, oneVmId := some oneVmId }
    { vmId := d.vmId, status := .row .pending, oneVmId := some oneVmId }
  createTask { vmId := d.vmId, oneVmId, sshUsername := some d.vmUsername, diskGb := some d.diskGb }

def launch (d : VmCreateData) : VmProcess Unit := do
  match ← findTemplate cfg d.osTemplate with
  | none =>
    let osTemplate := d.osTemplate
    throw ⟨.other, s!"Template '{osTemplate}' not found in OpenNebula"⟩
  | some templateId => launchFrom cfg d templateId

/-- The body of `create_vm` once its lock is held. -/
def provision (d : VmCreateData) : VmProcess Unit := do
  match ← getVmOneId d.vmId with
  | some existing =>
    createTask { vmId := d.vmId, oneVmId := existing, sshUsername := some d.vmUsername }
  | none =>
    if vmNameOk d.name then launch cfg d else throw ⟨.value, "VM name contains invalid chars"⟩

def provisionFailed (vmId : String) : VmProcess Unit :=
  report { vmId, status := .error }
    { vmId, status := .row .error, error := some "VM provisioning failed. Contact support." }

def releaseCreateLock (vmId : String) : VmProcess Unit :=
  ignoring (.call (.releaseCreateLock vmId) .ofExcept)

def createVm (d : VmCreateData) : VmProcess Unit := do
  match ← VmCall.perform (.acquireCreateLock d.vmId) with
  | .error _ => provisionFailed d.vmId
  | .ok false => pure ()
  | .ok true =>
    Process.andFinally (tryCatch (provision cfg d) fun _ => provisionFailed d.vmId)
      (releaseCreateLock d.vmId)

end Create

section Action

/-- `action_map`. -/
def actionMap : VmAction → String × VmStatus
  | .start => ("resume", .running)
  | .stop => ("poweroff", .stopped)
  | .restart => ("reboot", .running)
  | .delete => ("terminate", .deleted)

/-- The status read off OpenNebula when it refused the action in the machine's state. -/
def correctStatus (vm : OneVmInfo) : VmStatus :=
  if vm.state = some 3 ∧ vm.lcmState = some 3 then .running
  else if vm.state = some 4 ∨ vm.state = some 8 then .stopped
  else .error

def syncRefused (d : VmActionData) : VmProcess Unit :=
  tryCatch (do
    let vm ← oneVmInfo d.oneVmId
    report { vmId := d.vmId, status := correctStatus vm }
      { vmId := d.vmId, status := .row (correctStatus vm), oneVmId := some d.oneVmId })
    fun _ => report { vmId := d.vmId, status := .error }
      { vmId := d.vmId, status := .row .error, oneVmId := some d.oneVmId }

/-- The `except` branches of `vm_action`. -/
def actionFailed (d : VmActionData) (e : Failure) : VmProcess Unit :=
  if e.kind = .connection then throw e
  else if contains e.message "not available for state" then syncRefused d
  else report { vmId := d.vmId, status := .error }
    { vmId := d.vmId, status := .row .error, oneVmId := some d.oneVmId,
      error := some "VM action failed. Please retry." }

def vmAction (d : VmActionData) : VmProcess Unit :=
  let (oneAction, targetStatus) := actionMap d.action
  tryCatch (do
    oneVmAction oneAction d.oneVmId
    report { vmId := d.vmId, status := targetStatus }
      { vmId := d.vmId, status := .row targetStatus, oneVmId := some d.oneVmId,
        action := some d.action.name })
    (actionFailed d)

end Action

section Delete

variable (cfg : WorkerConfig)

inductive ImageWait where
  | ready
  | gone
  | inUse
deriving DecidableEq, Repr

/-- Up to `rounds` looks at the image, two seconds apart. -/
def waitForImage (imageId : Int) : Nat → VmProcess ImageWait
  | 0 => pure .inUse
  | rounds + 1 => do
    match ← VmCall.perform (.imageInfo imageId) with
    | .ok (some 1) => pure .ready
    | .ok _ =>
      sleep 2
      waitForImage imageId rounds
    | .error e =>
      let text := cfg.lower e.message
      if contains text "error getting image" || contains text "image not found" then pure .gone
      else
        sleep 2
        waitForImage imageId rounds

/-- An attribute that `int(..)` can read. -/
def intOf : Option IntText → Option Int
  | some (.int n) => some n
  | _ => none

/-- `IMAGE_ID` of the first disk. -/
def firstImage (diskImageIds : List (Option IntText)) : Option Int := diskImageIds.head?.bind intOf

/-- The image and the template to take away with the machine, as far as they can be read. -/
def readClone (oneVmId : Int) : VmProcess (Option Int × Option Int) := do
  match ← VmCall.perform (.oneVmInfo oneVmId) with
  | .error _ => pure (none, none)
  | .ok vm => pure (firstImage vm.diskImageIds, intOf vm.templateId)

/-- `one.image.delete` once the image is free; whether it is gone afterwards. -/
def removeImage (imageId : Int) : VmProcess Bool := do
  match ← waitForImage cfg imageId 30 with
  | .gone => pure true
  | .inUse => pure false
  | .ready =>
    match ← VmCall.perform (.imageDelete imageId) with
    | .ok _ => pure true
    | .error _ => pure false

def removeClone (imageId templateId : Option Int) : VmProcess Unit := do
  match imageId with
  | none => pure ()
  | some imageId =>
    if imageId = 0 then pure ()
    else
      let imageDeleted ← removeImage cfg imageId
      match templateId with
      | none => pure ()
      | some templateId =>
        if imageDeleted && templateId != 0 then ignoring (templateDelete templateId false)
        else pure ()

/-- `delete_vm_record` and the news of it. -/
def reportDeleted (d : VmDeleteData) : VmProcess Unit := do
  deleteVmRecord d.vmId
  publishStatus
    { vmId := d.vmId, status := .row .deleted, oneVmId := d.oneVmId, userId := some d.userId }

def deleteVm (d : VmDeleteData) : VmProcess Unit :=
  match d.oneVmId with
  | none => reportDeleted d
  | some oneVmId =>
    tryCatch (do
      let (imageId, templateId) ← readClone oneVmId
      oneVmAction "terminate" oneVmId
      removeClone cfg imageId templateId
      reportDeleted d)
      fun _ => report { vmId := d.vmId, status := .error }
        { vmId := d.vmId, status := .row .error, oneVmId := some oneVmId,
          error := some "VM deletion failed. Please retry." }

end Delete

section Polling

variable (cfg : WorkerConfig)

/-- `LCM_STATUS_MAP`. -/
def lcmStatusMap : Int → Option UpdateStatus
  | 1 => some (.lcm .prolog)
  | 2 => some (.lcm .boot)
  | 3 => some (.row .running)
  | 5 => some (.lcm .migrate)
  | 6 => some (.lcm .saveStop)
  | 8 => some (.lcm .prologMigrate)
  | 14 => some (.lcm .shutdown)
  | 17 => some (.lcm .bootUnknown)
  | 18 => some (.lcm .bootPoweroff)
  | 19 => some (.lcm .bootSuspended)
  | 20 => some (.lcm .bootStopped)
  | _ => none

/-- An attribute of the answer that is missing raises. -/
def requireAttr (n : Option Int) (name : String) : VmProcess Int :=
  match n with
  | some n => pure n
  | none => throw ⟨.other, name⟩

/-- Show a state of the machine that has changed; the state shown last is returned. -/
def emitIntermediate (t : PollTask) (lcm lastLcm : Int) : VmProcess Int :=
  if lcm = lastLcm then pure lastLcm
  else match lcmStatusMap lcm with
    | none => pure lastLcm
    | some (.row _) => pure lcm
    | some (.lcm s) => do
      publishStatus { vmId := t.vmId, status := .lcm s, oneVmId := some t.oneVmId }
      pure lcm

/-- Resize the disk of a running machine and reboot it; failures do not matter. -/
def resizeDisk (t : PollTask) : VmProcess Unit :=
  match t.diskGb with
  | none => pure ()
  | some diskGb =>
    if 0 < diskGb then
      ignoring do
        .call (.diskResize t.oneVmId (diskGb * 1024)) .ofExcept
        ignoring (oneVmAction "reboot" t.oneVmId)
    else pure ()

/-- The part of a round for a machine that runs; `true` ends the polling. -/
def reportRunning (t : PollTask) (vm : OneVmInfo) : VmProcess Bool :=
  match (extractIp vm).filter fun ip => ip ≠ "" with
  | none => pure false
  | some originalIp => do
    let ip := applyIpOffset originalIp cfg.oneIpOffset
    resizeDisk t
    report
      { vmId := t.vmId, status := .running, ipAddress := some ip, oneVmId := some t.oneVmId,
        sshHost := some ip, sshUsername := t.sshUsername }
      { vmId := t.vmId, status := .row .running, oneVmId := some t.oneVmId, ipAddress := some ip,
        sshHost := some ip }
    pure true

def reportFailureState (t : PollTask) (state : Int) : VmProcess Unit :=
  report { vmId := t.vmId, status := .error, oneVmId := some t.oneVmId }
    { vmId := t.vmId, status := .row .error, oneVmId := some t.oneVmId,
      error := some s!"VM failure state={state}" }

/-- The first half of a round: a failure state ends the polling. -/
def pollState (t : PollTask) (lastLcm : Int) : VmProcess (Option (OneVmInfo × Int)) := do
  let vm ← oneVmInfo t.oneVmId
  let state ← requireAttr vm.state "STATE"
  let lcm ← requireAttr vm.lcmState "LCM_STATE"
  if state = 6 ∨ state = 7 then
    reportFailureState t state
    pure none
  else
    let lastLcm ← emitIntermediate t lcm lastLcm
    pure (some (vm, lastLcm))

/-- One round: whether polling is over, and the state shown last. An exception ends the round
and keeps what was assigned before it. -/
def pollRound (t : PollTask) (lastLcm : Int) : VmProcess (Bool × Int) := do
  match ← (pollState t lastLcm).attempt with
  | .error _ => pure (false, lastLcm)
  | .ok none => pure (true, lastLcm)
  | .ok (some (vm, lastLcm)) =>
    if vm.state = some 3 ∧ vm.lcmState = some 3 then
      match ← (reportRunning cfg t vm).attempt with
      | .error _ => pure (false, lastLcm)
      | .ok finished => pure (finished, lastLcm)
    else pure (false, lastLcm)

def pollTimedOut (t : PollTask) : VmProcess Unit :=
  report { vmId := t.vmId, status := .error, oneVmId := some t.oneVmId }
    { vmId := t.vmId, status := .row .error, oneVmId := some t.oneVmId,
      error := some "Timed out waiting for IP address" }

def pollRounds (t : PollTask) : Nat → Int → VmProcess Unit
  | 0, _ => pollTimedOut t
  | rounds + 1, lastLcm => do
    let (finished, lastLcm) ← pollRound cfg t lastLcm
    if finished then pure ()
    else
      sleep 8
      pollRounds t rounds lastLcm

/-- `while elapsed < 300`, eight seconds a round. -/
def waitForIpAndUpdate (t : PollTask) : VmProcess Unit := pollRounds cfg t 38 (-1)

end Polling

section Background

def reconcilePendingVms : VmProcess Unit := do
  let tasks ← getVmsPendingSync
  Process.forEach createTask tasks

def startWorker : VmProcess Unit := do
  loadTemplates
  reconcilePendingVms

/-- One round of `_opennebula_reconnect_loop`. -/
def reconnect : VmProcess Unit := do
  let cache ← readTemplateCache
  if cache.isNone then
    loadTemplates
    let cache ← readTemplateCache
    if cache.isSome then reconcilePendingVms

/-- The status OpenNebula's states stand for, where they settle it. -/
def realStatus (vm : OneVmInfo) : Option VmStatus :=
  match vm.state, vm.lcmState with
  | some state, some lcmState =>
    if state = 3 ∧ lcmState = 3 then some .running
    else if state = 4 ∨ state = 8 then some .stopped
    else if state = 6 then some .deleted
    else none
  | _, _ => none

def syncVm (a : ActiveVm) : VmProcess Unit :=
  ignoring do
    let vm ← oneVmInfo a.oneVmId
    match realStatus vm with
    | none => pure ()
    | some status =>
      if status = a.dbStatus then pure ()
      else
        updateVmStatus { vmId := a.vmId, status }
        ignoring (publishStatus
          { vmId := a.vmId, status := .row status, source := some "auto-sync" })

def syncAllVmStates : VmProcess Unit := do
  let cache ← readTemplateCache
  if cache.isSome then
    let vms ← getAllActiveVms
    Process.forEach syncVm vms

end Background

section Subscribers

variable (cfg : WorkerConfig)

/-- A subscriber: a message that fails its validator is acknowledged and dropped. -/
def subscriber {δ : Type} (accepted : Except String Unit) (data : Option δ)
    (handle : δ → VmProcess Unit) : VmProcess Unit :=
  match accepted, data with
  | .ok _, some d => tryCatch (do handle d; ack) fun _ => ack
  | _, _ => ack

def handleVmCreate (data : Dict) : VmProcess Unit :=
  subscriber (validateVmCreate data) (VmCreateData.ofDict? data) (createVm cfg)

def handleVmAction (data : Dict) : VmProcess Unit :=
  subscriber (validateVmAction data) (VmActionData.ofDict? data) vmAction

def handleVmDelete (data : Dict) : VmProcess Unit :=
  subscriber (validateVmDelete data) (VmDeleteData.ofDict? data) (deleteVm cfg)

def handleMessage : Subject → Dict → VmProcess Unit
  | .vmCreate, data => handleVmCreate cfg data
  | .vmAction, data => handleVmAction data
  | .vmDelete, data => handleVmDelete cfg data

/-- The verdict of the worker's validator for each subject. -/
def accepts : Subject → Dict → Except String Unit
  | .vmCreate, data => validateVmCreate data
  | .vmAction, data => validateVmAction data
  | .vmDelete, data => validateVmDelete data

end Subscribers

end CloudVM.Worker
