import CloudVM.Framework.Process
import CloudVM.Framework.Json
import CloudVM.Vm.Model

/-!
# Calls of the VM service and of the worker

Everything the two programs ask of Postgres, Redis, NATS, OpenNebula and the user service.
Calls whose exceptions the programs can see answer with `Except`.
-/

namespace CloudVM

inductive Subject where
  | vmCreate
  | vmAction
  | vmDelete
deriving DecidableEq, Repr

/-- Arguments of the transaction inside `createVm`. -/
structure CreateVmTx where
  dto : CreateVmDto
  userId : String
  isAdmin : Bool
  remoteQuota : Option InternalQuotaSnapshot
  encryptedPrivateKey : Option String

/-- Why the transaction inside `createVm` did not commit: its own exception, a unique index
(`P2002`), or any other database error. -/
inductive TxFailure where
  | forbidden (message : String)
  | uniqueViolation
  | database (message : String)
deriving DecidableEq, Repr

/-- `data` of the status handler's general `updateMany`; absent fields are not written. -/
structure StatusPatch where
  status : VmStatus
  stoppedAt : Option (Option Nat) := none
  ipAddress : Option String := none
  oneVmId : Option Int := none
  sshHost : Option String := none
  sshPort : Option Int := none
deriving DecidableEq, Repr

/-- Arguments of the worker's `update_vm_status`; `None` leaves a column alone. -/
structure StatusWrite where
  vmId : String
  status : VmStatus
  ipAddress : Option String := none
  oneVmId : Option Int := none
  sshHost : Option String := none
  sshUsername : Option String := none
deriving DecidableEq, Repr

/-- States of OpenNebula that are shown to the user but not stored. -/
inductive LcmStatus where
  | prolog
  | boot
  | migrate
  | saveStop
  | prologMigrate
  | shutdown
  | bootUnknown
  | bootPoweroff
  | bootSuspended
  | bootStopped
deriving DecidableEq, Repr

/-- The `status` of a `vm.status.update` message. -/
inductive UpdateStatus where
  | row (s : VmStatus)
  | lcm (s : LcmStatus)
deriving DecidableEq, Repr

/-- A `vm.status.update` message. -/
structure StatusUpdate where
  vmId : String
  status : UpdateStatus
  oneVmId : Option Int := none
  ipAddress : Option String := none
  sshHost : Option String := none
  sshPort : Option Int := none
  userId : Option String := none
  action : Option String := none
  error : Option String := none
  source : Option String := none
deriving DecidableEq, Repr

/-- A template of the OpenNebula pool with its `CLOUDVM_BASE` attribute. -/
structure OneTemplate where
  id : Int
  name : String
  cloudvmBase : Option String := none
deriving DecidableEq, Repr

/-- An attribute the worker converts with `int(..)`. -/
inductive IntText where
  | int (n : Int)
  | malformed
deriving DecidableEq, Repr

/-- The parts of `one.vm.info` the worker reads. A NIC or disk that is not a mapping has no
attributes. -/
structure OneVmInfo where
  state : Option Int := none
  lcmState : Option Int := none
  templateId : Option IntText := none
  diskImageIds : List (Option IntText) := []
  nicIps : List (Option String) := []
  eth0Ip : Option String := none
  guestIp : Option String := none
  guestIpAddresses : Option String := none
deriving DecidableEq, Repr

/-- Arguments of the background poller `_wait_for_ip_and_update`. -/
structure PollTask where
  vmId : String
  oneVmId : Int
  sshUsername : Option String := none
  diskGb : Option Int := none
deriving DecidableEq, Repr

/-- A row of `get_all_active_vms`. -/
structure ActiveVm where
  vmId : String
  oneVmId : Int
  dbStatus : VmStatus
deriving DecidableEq, Repr

inductive VmCall where
  | fetchInternalQuotaSnapshot (userId : String)
  | fetchInternalSubscriptionAccessSnapshot (userId : String)
  | generateVmSshKeyPair
  | encryptVmPrivateKey (pem : String)
  | createVmTransaction (tx : CreateVmTx)
  | findVm (vmId : String)
  | publish (subject : Subject) (data : Dict)
  | markDeleted (vmId : String)
  | stampStopped (vmId : String)
  | patchStatus (vmId : String) (patch : StatusPatch)
  | now
  | acquireCreateLock (vmId : String)
  | releaseCreateLock (vmId : String)
  | selectOneVmId (vmId : String)
  | selectPendingVms
  | selectActiveVms
  | selectUserSshKeys (userId : String)
  | updateVmStatus (w : StatusWrite)
  | deleteVmRecord (vmId : String)
  | readTemplateCache
  | writeTemplateCache (templates : Option (List OneTemplate))
  | templatePoolInfo
  | templateInstantiate (templateId : Int) (name : String) (extraTemplate : String)
  | templateDelete (templateId : Int) (images : Bool)
  | templateUpdate (templateId : Int) (text : String)
  | oneVmInfo (oneVmId : Int)
  | oneVmAction (action : String) (oneVmId : Int)
  | diskResize (oneVmId : Int) (sizeMb : Int)
  | imageInfo (imageId : Int)
  | imageDelete (imageId : Int)
  | publishStatus (m : StatusUpdate)
  | createTask (t : PollTask)
  | sleep (seconds : Nat)
  | ack

namespace VmCall

@[reducible] def Answer : VmCall → Type
  | .fetchInternalQuotaSnapshot _ => Except Failure (Option InternalQuotaSnapshot)
  | .fetchInternalSubscriptionAccessSnapshot _ =>
      Except Failure (Option InternalSubscriptionAccessSnapshot)
  | .generateVmSshKeyPair => Except Failure SshKeyPair
  | .encryptVmPrivateKey _ => Except Failure String
  | .createVmTransaction _ => Except TxFailure VmRow
  | .findVm _ => Except Failure (Option VmRow)
  | .publish _ _ => Except Failure Unit
  | .markDeleted _ => Except Failure Nat
  | .stampStopped _ => Except Failure Nat
  | .patchStatus _ _ => Except Failure Nat
  | .now => Nat
  | .acquireCreateLock _ => Except Failure Bool
  | .releaseCreateLock _ => Except Failure Unit
  | .selectOneVmId _ => Except Failure (Option Int)
  | .selectPendingVms => Except Failure (List PollTask)
  | .selectActiveVms => Except Failure (List ActiveVm)
  | .selectUserSshKeys _ => Except Failure (List String)
  | .updateVmStatus _ => Except Failure Unit
  | .deleteVmRecord _ => Except Failure Unit
  | .readTemplateCache => Option (List OneTemplate)
  | .writeTemplateCache _ => Unit
  | .templatePoolInfo => Except Failure (List OneTemplate)
  | .templateInstantiate _ _ _ => Except Failure Int
  | .templateDelete _ _ => Except Failure Unit
  | .templateUpdate _ _ => Except Failure Unit
  | .oneVmInfo _ => Except Failure OneVmInfo
  | .oneVmAction _ _ => Except Failure Unit
  | .diskResize _ _ => Except Failure Unit
  | .imageInfo _ => Except Failure (Option Int)
  | .imageDelete _ => Except Failure Unit
  | .publishStatus _ => Except Failure Unit
  | .createTask _ => Unit
  | .sleep _ => Unit
  | .ack => Unit

end VmCall

/-- The interface the VM service and the worker share. -/
@[reducible] def vmInterface : Interface where
  Call := VmCall
  Answer := VmCall.Answer

abbrev VmProcess (α : Type) := Process vmInterface Failure α

/-- One call, its answer handed over with a failure in it. -/
def VmCall.perform (c : VmCall) : VmProcess c.Answer := .call c .ret

end CloudVM
