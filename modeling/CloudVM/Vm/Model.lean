import CloudVM.Common
import CloudVM.Framework.Table
import CloudVM.Framework.Text
import Mathlib.Data.Rat.Defs

/-!
# Data of the VM service

Rows of `virtual_machines` and `user_quotas`, the request bodies, and the snapshots the VM
service fetches from the user service. Times are milliseconds.
-/

namespace CloudVM

inductive VmStatus where
  | pending
  | running
  | stopped
  | suspended
  | error
  | deleted
deriving DecidableEq, Repr

/-- A row of `virtual_machines`. -/
structure VmRow where
  id : String
  name : String
  oneVmId : Option Int := none
  status : VmStatus := .pending
  cpu : Int
  ramMb : Int
  diskGb : Int
  ipAddress : Option String := none
  osTemplate : String
  userId : String
  planId : Option String := none
  sshHost : Option String := none
  sshPort : Option Int := some 22
  sshUsername : Option String := some "root"
  sshPrivateKeyEncrypted : Option String := none
  stoppedAt : Option Nat := none
  createdAt : Nat
  updatedAt : Nat
deriving DecidableEq, Repr

abbrev VmTable := Table VmRow.id

/-- The four limits of a plan or a quota. -/
structure QuotaLimits where
  maxVms : Int
  maxCpu : Int
  maxRamMb : Int
  maxDiskGb : Int
deriving DecidableEq, Repr

/-- A row of `user_quotas` in the VM service's database. -/
structure VmQuotaRow where
  userId : String
  planId : Option String := none
  limits : QuotaLimits
deriving DecidableEq, Repr

/-- The tables the VM service works on. -/
structure VmDb where
  vms : VmTable
  quotas : Table VmQuotaRow.userId

/-- Body of `POST /vms`. -/
structure CreateVmDto where
  name : String
  cpu : Int
  ramMb : Int
  diskGb : Int
  osTemplate : String
  planId : Option String := none
  sshPublicKey : Option String := none
  vmUsername : Option String := none
  vmPassword : Option String := none
deriving DecidableEq, Repr

def CreateVmDto.sample : CreateVmDto where
  name := "web-1"
  cpu := 2
  ramMb := 2048
  diskGb := 20
  osTemplate := "Ubuntu 24.04"
  sshPublicKey := some "ssh-ed25519 AAAAC3NzaC1lZDI1NTE5AAAAIB"

def VmRow.sample (id userId : String) : VmRow where
  id := id
  name := "web-1"
  cpu := 2
  ramMb := 2048
  diskGb := 20
  osTemplate := "Ubuntu 24.04"
  userId := userId
  createdAt := 0
  updatedAt := 0

inductive VmAction where
  | start
  | stop
  | restart
  | delete
deriving DecidableEq, Repr

def VmAction.name : VmAction → String
  | .start => "start"
  | .stop => "stop"
  | .restart => "restart"
  | .delete => "delete"

def VmStatus.name : VmStatus → String
  | .pending => "PENDING"
  | .running => "RUNNING"
  | .stopped => "STOPPED"
  | .suspended => "SUSPENDED"
  | .error => "ERROR"
  | .deleted => "DELETED"

/-- What `/users/internal/quota/:userId` answers. -/
structure InternalQuotaSnapshot where
  hasActiveSubscription : Bool
  planId : Option String
  quota : Option QuotaLimits
deriving DecidableEq, Repr

/-- What `/users/internal/subscription-access/:userId` answers. -/
structure InternalSubscriptionAccessSnapshot where
  activePlanId : Option String
  canPurchaseSameOrLower : Bool
  vmHoursUsed : Option Rat
  vmHoursIncluded : Option Rat
deriving DecidableEq, Repr

/-- A generated RSA key pair: PKCS#1 private part, OpenSSH public part. -/
structure SshKeyPair where
  privateKeyPem : String
  publicKeySsh : String
deriving DecidableEq, Repr

section Validation

open Text

/-- `[a-zA-Z0-9-]`, the alphabet of VM names on both sides of the bus. -/
def isVmNameChar (c : Char) : Bool := c.isAlphanum || c == '-'

/-- Length as the validator library counts it: code points, variation selectors apart. -/
def validatorLength (s : String) : Nat :=
  (s.toList.filter fun c => c.toNat != 0xfe0e && c.toNat != 0xfe0f).length

def lengthBetween (s : String) (lo hi : Nat) : Bool :=
  lo ≤ validatorLength s && validatorLength s ≤ hi

def intBetween (n lo hi : Int) : Bool := lo ≤ n && n ≤ hi

/-- `/^(ssh-rsa|ssh-ed25519|ecdsa-sha2-nistp256)\s+\S+/`. -/
def looksLikePublicKey (s : String) : Bool :=
  ["ssh-rsa", "ssh-ed25519", "ecdsa-sha2-nistp256"].any fun p =>
    let rest := s.toList.drop p.length
    startsWith s p && (rest.head?.map jsSpace).getD false && !(rest.all jsSpace)

/-- The class-validator constraints of `CreateVmDto`. -/
def CreateVmDto.valid (dto : CreateVmDto) : Bool :=
  lengthBetween dto.name 1 64 && allIn isVmNameChar dto.name &&
  intBetween dto.cpu 1 32 && intBetween dto.ramMb 512 65536 && intBetween dto.diskGb 5 400 &&
  lengthBetween dto.osTemplate 1 100 && dto.osTemplate.toList.all (fun c => c != '<' && c != '>') &&
  dto.planId.all (["student", "pro", "enterprise", "unlimited"].contains ·) &&
  dto.sshPublicKey.all (fun s => lengthBetween s 32 4096 && looksLikePublicKey s) &&
  dto.vmUsername.all (fun s => lengthBetween s 1 32 &&
    allIn (fun c => c.isAlphanum || c == '_' || c == '-') s) &&
  dto.vmPassword.all (fun s => lengthBetween s 1 128)

end Validation

end CloudVM
