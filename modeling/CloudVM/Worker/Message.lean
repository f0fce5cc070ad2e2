import CloudVM.Framework.Json
import CloudVM.Vm.Model

/-!
# What the worker accepts from the bus

The three validators of the worker and the fields its handlers take from an accepted message.
A rejected message is acknowledged with the reason in the log and nothing else happens.
-/

namespace CloudVM.Worker

open Text

private def hexDigit (c : Char) : Bool :=
  c.isDigit || ('a' ≤ c && c ≤ 'f') || ('A' ≤ c && c ≤ 'F')

/-- The classes of `_UUID_RE`, position by position. -/
def uuidClasses : List (Char → Bool) :=
  let hex := hexDigit
  let dash := fun c => c == '-'
  List.replicate 8 hex ++ [dash] ++ List.replicate 4 hex ++ [dash] ++
    [fun c => '1' ≤ c && c ≤ '5'] ++ List.replicate 3 hex ++ [dash] ++
    [fun c => c == '8' || c == '9' || c == 'a' || c == 'b' || c == 'A' || c == 'B'] ++
    List.replicate 3 hex ++ [dash] ++ List.replicate 12 hex

/-- `_UUID_RE.match(s)`; `$` also matches before one closing line feed. -/
def isUuidText (s : String) : Bool :=
  match matchClasses uuidClasses s.toList with
  | some [] | some ['\n'] => true
  | _ => false

/-- `_is_uuid(data.get(..))`. -/
def isUuid : Option Value → Bool
  | some (.str s) => isUuidText s
  | _ => false

/-- `isinstance(data.get(..), int)`. -/
def isInt : Option Value → Bool
  | some v => v.asInt.isSome
  | none => false

/-- Whether the value is a text with something other than white space in it. -/
def isNonBlank : Option Value → Bool
  | some (.str s) => pyStrip s ≠ ""
  | _ => false

/-- `re.fullmatch(r"[a-zA-Z0-9-]{1,64}", name)`. -/
def vmNameOk (name : String) : Bool :=
  allIn isVmNameChar name && decide (name.toList.length ≤ 64)

def nameMatches : Option Value → Bool
  | some (.str s) => vmNameOk s
  | _ => false

def positiveInt : Option Value → Bool
  | some v => match v.asInt with
    | some n => 0 < n
    | none => false
  | none => false

/-- The first of the checks that fails gives the reason. -/
def firstFailure : List (Bool × String) → Except String Unit
  | [] => .ok ()
  | (ok, reason) :: rest => if ok then firstFailure rest else .error reason

/-- `if field not in data`, for each required field in order. -/
def requiredFields (data : Dict) (fields : List String) : List (Bool × String) :=
  fields.map fun field => (data.has field, s!"Missing required field '{field}'")

def validateVmCreate (data : Dict) : Except String Unit :=
  firstFailure <|
    requiredFields data ["vmId", "name", "cpu", "ramMb", "diskGb", "osTemplate", "userId"] ++
    [(isUuid (data.get? "vmId"), "vmId must be UUID"),
      (isUuid (data.get? "userId"), "userId must be UUID"),
      (isNonBlank (data.get? "name"), "name must be non-empty string"),
      (nameMatches (data.get? "name"), "name contains invalid chars"),
      (isNonBlank (data.get? "osTemplate"), "osTemplate must be non-empty string"),
      (positiveInt (data.get? "cpu"), "cpu must be positive integer"),
      (positiveInt (data.get? "ramMb"), "ramMb must be positive integer"),
      (positiveInt (data.get? "diskGb"), "diskGb must be positive integer")]

def knownAction : Option Value → Bool
  | some (.str s) => ["start", "stop", "restart", "delete"].contains s
  | _ => false

def validateVmAction (data : Dict) : Except String Unit :=
  firstFailure <|
    requiredFields data ["vmId", "oneVmId", "action", "userId"] ++
    [(isUuid (data.get? "vmId"), "vmId must be UUID"),
      (isUuid (data.get? "userId"), "userId must be UUID"),
      (isInt (data.get? "oneVmId"), "oneVmId must be integer"),
      (knownAction (data.get? "action"), "action must be one of start/stop/restart/delete")]

def absentOrInt : Option Value → Bool
  | none | some .null => true
  | some v => v.asInt.isSome

def validateVmDelete (data : Dict) : Except String Unit :=
  firstFailure
    [(data.has "vmId" && data.has "userId", "Missing required fields vmId/userId"),
      (isUuid (data.get? "vmId"), "vmId must be UUID"),
      (isUuid (data.get? "userId"), "userId must be UUID"),
      (absentOrInt (data.get? "oneVmId"), "oneVmId must be integer when provided")]

/-- What `create_vm` reads from its message. -/
structure VmCreateData where
  vmId : String
  name : String
  cpu : Int
  ramMb : Int
  diskGb : Int
  osTemplate : String
  userId : String
  sshPublicKey : Option String
  vmUsername : String
  vmPassword : Option String
deriving DecidableEq, Repr

/-- What `vm_action` reads from its message. -/
structure VmActionData where
  vmId : String
  oneVmId : Int
  action : VmAction
deriving DecidableEq, Repr

/-- What `delete_vm` reads from its message. -/
structure VmDeleteData where
  vmId : String
  oneVmId : Option Int
  userId : String
deriving DecidableEq, Repr

/-- The login name: the default where the field is missing, not a text or blank. -/
def usernameOf (v : Option Value) : String :=
  match v with
  | some (.str s) => if pyStrip s = "" then "cloudvm" else pyStrip s
  | _ => "cloudvm"

def strippedText (v : Option Value) : Option String :=
  match v with
  | some (.str s) => if pyStrip s = "" then none else some (pyStrip s)
  | _ => none

def textField (data : Dict) (key : String) : Option String := (data.get? key).bind Value.asStr

def intField (data : Dict) (key : String) : Option Int := (data.get? key).bind Value.asInt

/-- A JSON `true` is the number 1 here, as it is to the checks. That Python would write `True` for it
into the template is left out. -/
def VmCreateData.ofDict? (data : Dict) : Option VmCreateData := do
  let vmId ← textField data "vmId"
  let name ← textField data "name"
  let cpu ← intField data "cpu"
  let ramMb ← intField data "ramMb"
  let diskGb ← intField data "diskGb"
  let osTemplate ← textField data "osTemplate"
  let userId ← textField data "userId"
  some {
    vmId, name, cpu, ramMb, diskGb, osTemplate, userId
    sshPublicKey := strippedText (data.get? "sshPublicKey")
    vmUsername := usernameOf (data.get? "vmUsername")
    vmPassword := strippedText (data.get? "vmPassword") }

def actionOf (s : String) : Option VmAction :=
  match s with
  | "start" => some .start
  | "stop" => some .stop
  | "restart" => some .restart
  | "delete" => some .delete
  | _ => none

def VmActionData.ofDict? (data : Dict) : Option VmActionData := do
  let vmId ← textField data "vmId"
  let oneVmId ← intField data "oneVmId"
  let action ← (textField data "action").bind actionOf
  some { vmId, oneVmId, action }

def VmDeleteData.ofDict? (data : Dict) : Option VmDeleteData := do
  let vmId ← textField data "vmId"
  let userId ← textField data "userId"
  some { vmId, oneVmId := intField data "oneVmId", userId }

theorem firstFailure_ok (checks : List (Bool × String)) :
    firstFailure checks = .ok () ↔ ∀ c ∈ checks, c.1 = true := by
  induction checks with
  | nil => simp [firstFailure]
  | cons c checks ih =>
    obtain ⟨ok, reason⟩ := c
    cases ok
    · simp [firstFailure]
    · simp [firstFailure, ih]

section Accepted

variable {data : Dict} {key : String}

private theorem textField_of_isUuid (h : isUuid (data.get? key) = true) :
    ∃ text, textField data key = some text := by
  unfold isUuid at h
  split at h
  · rename_i text hget
    exact ⟨text, by simp [textField, hget, Value.asStr]⟩
  · cases h

private theorem textField_of_isNonBlank (h : isNonBlank (data.get? key) = true) :
    ∃ text, textField data key = some text := by
  unfold isNonBlank at h
  split at h
  · rename_i text hget
    exact ⟨text, by simp [textField, hget, Value.asStr]⟩
  · cases h

private theorem textField_of_nameMatches (h : nameMatches (data.get? key) = true) :
    ∃ name, textField data key = some name ∧ vmNameOk name = true := by
  unfold nameMatches at h
  split at h
  · rename_i name hget
    exact ⟨name, by simp [textField, hget, Value.asStr], h⟩
  · cases h

private theorem intField_of_isInt (h : isInt (data.get? key) = true) :
    ∃ n, intField data key = some n := by
  unfold isInt at h
  split at h
  · rename_i value hget
    obtain ⟨n, hn⟩ := Option.isSome_iff_exists.mp h
    exact ⟨n, by simp [intField, hget, hn]⟩
  · cases h

private theorem isInt_of_positiveInt {value : Option Value} (h : positiveInt value = true) :
    isInt value = true := by
  cases value with
  | none => cases h
  | some v =>
    simp only [positiveInt] at h
    simp only [isInt]
    cases hv : v.asInt with
    | none => simp [hv] at h
    | some n => rfl

theorem createData_of_accepted (h : validateVmCreate data = .ok ()) :
    ∃ d, VmCreateData.ofDict? data = some d ∧ vmNameOk d.name = true := by
  have hchecks := (firstFailure_ok _).mp h
  obtain ⟨vmId, hvm⟩ := textField_of_isUuid
    (hchecks (isUuid (data.get? "vmId"), "vmId must be UUID") (by simp))
  obtain ⟨userId, huser⟩ := textField_of_isUuid
    (hchecks (isUuid (data.get? "userId"), "userId must be UUID") (by simp))
  obtain ⟨name, hname, hok⟩ := textField_of_nameMatches
    (hchecks (nameMatches (data.get? "name"), "name contains invalid chars") (by simp))
  obtain ⟨osTemplate, hos⟩ := textField_of_isNonBlank
    (hchecks (isNonBlank (data.get? "osTemplate"), "osTemplate must be non-empty string") (by simp))
  obtain ⟨cpu, hcpu⟩ := intField_of_isInt (isInt_of_positiveInt
    (hchecks (positiveInt (data.get? "cpu"), "cpu must be positive integer") (by simp)))
  obtain ⟨ramMb, hram⟩ := intField_of_isInt (isInt_of_positiveInt
    (hchecks (positiveInt (data.get? "ramMb"), "ramMb must be positive integer") (by simp)))
  obtain ⟨diskGb, hdisk⟩ := intField_of_isInt (isInt_of_positiveInt
    (hchecks (positiveInt (data.get? "diskGb"), "diskGb must be positive integer") (by simp)))
  simp [VmCreateData.ofDict?, hvm, huser, hname, hos, hcpu, hram, hdisk, hok]

theorem actionData_of_accepted (h : validateVmAction data = .ok ()) :
    ∃ d, VmActionData.ofDict? data = some d := by
  have hchecks := (firstFailure_ok _).mp h
  obtain ⟨vmId, hvm⟩ := textField_of_isUuid
    (hchecks (isUuid (data.get? "vmId"), "vmId must be UUID") (by simp))
  obtain ⟨oneVmId, hone⟩ := intField_of_isInt
    (hchecks (isInt (data.get? "oneVmId"), "oneVmId must be integer") (by simp))
  have hknown : knownAction (data.get? "action") = true :=
    hchecks (knownAction (data.get? "action"), "action must be one of start/stop/restart/delete")
      (by simp)
  have haction : ∃ action, (textField data "action").bind actionOf = some action := by
    unfold knownAction at hknown
    split at hknown
    · rename_i text hget
      simp only [List.contains_iff_mem, List.mem_cons, List.not_mem_nil, or_false] at hknown
      rcases hknown with rfl | rfl | rfl | rfl <;> simp [textField, hget, Value.asStr, actionOf]
    · cases hknown
  obtain ⟨action, haction⟩ := haction
  exact ⟨⟨vmId, oneVmId, action⟩, by simp [VmActionData.ofDict?, hvm, hone, haction]⟩

theorem deleteData_of_accepted (h : validateVmDelete data = .ok ()) :
    ∃ d, VmDeleteData.ofDict? data = some d := by
  have hchecks := (firstFailure_ok _).mp h
  obtain ⟨vmId, hvm⟩ := textField_of_isUuid
    (hchecks (isUuid (data.get? "vmId"), "vmId must be UUID") (by simp))
  obtain ⟨userId, huser⟩ := textField_of_isUuid
    (hchecks (isUuid (data.get? "userId"), "userId must be UUID") (by simp))
  exact ⟨⟨vmId, intField data "oneVmId", userId⟩, by simp [VmDeleteData.ofDict?, hvm, huser]⟩

end Accepted

end CloudVM.Worker
