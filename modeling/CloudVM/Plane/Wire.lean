import CloudVM.Framework.JsonText
import CloudVM.Framework.Utf8
import CloudVM.Plane.Publish

/-!
# Messages as bytes

On the bus a message is JSON as UTF-8: `JSON.stringify` and `json.loads` on the way to the worker,
`json.dumps` and `JSON.parse` on the way back. What either side sends is what the other side
reads, whatever texts it carries.
-/

namespace CloudVM.Wire

open Plane VmService Worker JsonText Process

section Runtimes

/-- `JSON.stringify`: no blanks, and everything but control characters stands for itself. -/
def javaScript : Style where
  gap := []
  raw c := 0x20 ≤ c.toNat
  gap_blank := by simp
  raw_printable := by simp

/-- `json.dumps`: a blank after each comma and colon, and nothing but ASCII. -/
def python : Style where
  gap := [' ']
  raw c := ' ' ≤ c ∧ c ≤ '~'
  gap_blank := by simp [isBlank]
  raw_printable := by
    intro c hc
    have hle : ' ' ≤ c := (of_decide_eq_true hc).1
    exact hle

/-- `JSON.parse`: numbers are doubles, whose integers are exact up to 2^53. -/
def javaScriptValues : Runtime where
  integer n := if n.natAbs ≤ 2 ^ 53 then .int n else .float
  name _ := none
  name_letters _ _ := rfl

/-- The numbers of `json.loads` that are no JSON. -/
def pythonNames : List (List Char) := ["NaN".toList, "Infinity".toList, "-Infinity".toList]

theorem pythonNames_letters {cs : List Char} (h : ∃ c ∈ cs, c.isDigit = true) :
    cs ∉ pythonNames := by
  have hletters : pythonNames.all (fun name => name.all fun c => !c.isDigit) = true := by decide
  intro hmem
  obtain ⟨c, hc, hdigit⟩ := h
  have hno := List.all_eq_true.mp (List.all_eq_true.mp hletters cs hmem) c hc
  simp [hdigit] at hno

/-- `json.loads`: integers have any size. -/
def pythonValues : Runtime where
  integer := .int
  name cs := if cs ∈ pythonNames then some .float else none
  name_letters _ h := if_neg (pythonNames_letters h)

example : write python [("error", .str "é\n"), ("oneVmId", .null)] =
    some "\x7b\"error\": \"\\u00e9\\n\", \"oneVmId\": null\x7d".toList := by decide

end Runtimes

section Bus

/-- `sc.encode(JSON.stringify(data))`. -/
def stringify (data : Dict) : Option (List UInt8) := (write javaScript data).map Utf8.encode

/-- `bytes.decode()`, which refuses bytes that are no UTF-8. -/
def decode (bytes : List UInt8) : Option (List Char) :=
  let text := Utf8.decodeLossy bytes
  if Utf8.encode text = bytes then some text else none

/-- `json.loads(msg.data.decode())`, if it is an object. -/
def loads (bytes : List UInt8) : Option Dict :=
  match (decode bytes).bind (read pythonValues) with
  | some (.object data) => some data
  | _ => none

/-- A subscriber of the worker: what is no object is acknowledged and dropped. -/
def handleBytes (cfg : WorkerConfig) (subject : Subject) (bytes : List UInt8) : VmProcess Unit :=
  match loads bytes with
  | some data => handleMessage cfg subject data
  | none => ack

/-- `json.dumps(payload).encode()`. -/
def dumps (payload : Dict) : Option (List UInt8) := (write python payload).map Utf8.encode

-- a byte order mark in front, which `sc.decode` drops, is written by neither side
/-- `JSON.parse(sc.decode(msg.data))`, if it is an object. -/
def parse (bytes : List UInt8) : Option Dict :=
  match read javaScriptValues (Utf8.decodeLossy bytes) with
  | some (.object data) => some data
  | _ => none

/-- The scalars that have a content of their own. -/
def Plain (d : Dict) : Prop := ∀ e ∈ d, e.2 ≠ .float ∧ e.2 ≠ .compound

theorem decode_encode (text : List Char) : decode (Utf8.encode text) = some text := by
  simp [decode, Utf8.decodeLossy_encode]

theorem keptEntries_eq {rt : Runtime} {d : Dict} (h : ∀ e ∈ d, kept rt e.2 = e.2) :
    keptEntries rt d = d := by
  rw [keptEntries, List.map_congr_left (g := id) fun e he => by rw [h e he]; rfl, List.map_id]

/-- The worker reads the object that the VM service has sent. -/
theorem loads_stringify {data : Dict} (hplain : Plain data) (hkeys : (data.map Prod.fst).Nodup) :
    ∃ bytes, stringify data = some bytes ∧ loads bytes = some data := by
  obtain ⟨text, htext⟩ := write_isSome javaScript hplain
  have hread := read_write pythonValues htext hkeys
  have hkept : keptEntries pythonValues data = data := by
    apply keptEntries_eq
    intro e he
    cases e.2 <;> rfl
  rw [hkept] at hread
  refine ⟨Utf8.encode text, by rw [stringify, htext]; rfl, ?_⟩
  simp [loads, decode_encode, hread]

/-- The VM service reads the object that the worker has sent, if its numbers are not too large. -/
theorem parse_dumps {payload : Dict} (hplain : Plain payload)
    (hkeys : (payload.map Prod.fst).Nodup)
    (hsafe : ∀ e ∈ payload, ∀ n, e.2 = .int n → n.natAbs ≤ 2 ^ 53) :
    ∃ bytes, dumps payload = some bytes ∧ parse bytes = some payload := by
  obtain ⟨text, htext⟩ := write_isSome python hplain
  have hread := read_write javaScriptValues htext hkeys
  have hkept : keptEntries javaScriptValues payload = payload := by
    apply keptEntries_eq
    intro e he
    cases hv : e.2 with
    | int n => exact if_pos (hsafe e he n hv)
    | null | bool | float | str | compound => rfl
  rw [hkept] at hread
  refine ⟨Utf8.encode text, by rw [dumps, htext]; rfl, ?_⟩
  simp [parse, Utf8.decodeLossy_encode, hread]

end Bus

section Updates

def lcmName : LcmStatus → String
  | .prolog => "PROLOG"
  | .boot => "BOOT"
  | .migrate => "MIGRATE"
  | .saveStop => "SAVE_STOP"
  | .prologMigrate => "PROLOG_MIGRATE"
  | .shutdown => "SHUTDOWN"
  | .bootUnknown => "BOOT_UNKNOWN"
  | .bootPoweroff => "BOOT_POWEROFF"
  | .bootSuspended => "BOOT_SUSPENDED"
  | .bootStopped => "BOOT_STOPPED"

def statusName : UpdateStatus → String
  | .row s => s.name
  | .lcm s => lcmName s

def updateStatuses : List UpdateStatus :=
  [.row .pending, .row .running, .row .stopped, .row .suspended, .row .error, .row .deleted,
    .lcm .prolog, .lcm .boot, .lcm .migrate, .lcm .saveStop, .lcm .prologMigrate, .lcm .shutdown,
    .lcm .bootUnknown, .lcm .bootPoweroff, .lcm .bootSuspended, .lcm .bootStopped]

/-- The fields of an update, in the order of `StatusUpdate`. -/
def fields (m : StatusUpdate) : List (String × Option Value) :=
  [("vmId", some (.str m.vmId)), ("status", some (.str (statusName m.status))),
    ("oneVmId", m.oneVmId.map .int), ("ipAddress", m.ipAddress.map .str),
    ("sshHost", m.sshHost.map .str), ("sshPort", m.sshPort.map .int), ("userId", m.userId.map .str),
    ("action", m.action.map .str), ("error", m.error.map .str), ("source", m.source.map .str)]

/-- A field without a value is `None` or is not there. -/
def present (nones : List String) (field : String × Option Value) : Option (String × Value) :=
  match field.2 with
  | some v => some (field.1, v)
  | none => if field.1 ∈ nones then some (field.1, .null) else none

/-- The dictionary that `_publish_status` sends; `nones` are the keys that it is given as `None`. -/
def payload (nones : List String) (m : StatusUpdate) : Dict := (fields m).filterMap (present nones)

def textAt (d : Dict) (key : String) : Option String := (d.get? key).bind Value.asStr

def numberAt (d : Dict) (key : String) : Option ℤ :=
  match d.get? key with
  | some (.int n) => some n
  | _ => none

/-- What the subscriber of `vm.status.update` reads; every publisher names a VM and a status. -/
def ofDict? (d : Dict) : Option StatusUpdate := do
  let vmId ← textAt d "vmId"
  let name ← textAt d "status"
  let status ← updateStatuses.find? fun s => statusName s = name
  pure { vmId, status, oneVmId := numberAt d "oneVmId", ipAddress := textAt d "ipAddress",
         sshHost := textAt d "sshHost", sshPort := numberAt d "sshPort",
         userId := textAt d "userId", action := textAt d "action", error := textAt d "error",
         source := textAt d "source" }

def receivedUpdate (bytes : List UInt8) : Option StatusUpdate := (parse bytes).bind ofDict?

def Safe (m : StatusUpdate) : Prop :=
  (∀ n, m.oneVmId = some n → n.natAbs ≤ 2 ^ 53) ∧ ∀ n, m.sshPort = some n → n.natAbs ≤ 2 ^ 53

variable {nones : List String} {m : StatusUpdate}

theorem find_statusName (s : UpdateStatus) :
    (updateStatuses.find? fun s' => statusName s' = statusName s) = some s := by
  cases s with
  | row s => cases s <;> rfl
  | lcm s => cases s <;> rfl

theorem present_key {field : String × Option Value} {e : String × Value}
    (h : present nones field = some e) :
    e.1 = field.1 ∧ (field.2 = some e.2 ∨ field.2 = none ∧ e.2 = .null) := by
  obtain ⟨key, o⟩ := field
  cases o with
  | some v =>
    obtain rfl := Option.some.inj h
    exact ⟨rfl, .inl rfl⟩
  | none =>
    simp only [present] at h
    split at h
    · obtain rfl := Option.some.inj h
      exact ⟨rfl, .inr ⟨rfl, rfl⟩⟩
    · cases h

theorem filterMap_keys (fs : List (String × Option Value)) :
    ((fs.filterMap (present nones)).map Prod.fst).Sublist (fs.map Prod.fst) := by
  induction fs with
  | nil => exact .slnil
  | cons field fs ih =>
    rw [List.filterMap_cons]
    split
    · exact ih.cons _
    · rename_i e he
      rw [List.map_cons, List.map_cons, (present_key he).1]
      exact ih.cons_cons _

theorem get_filterMap {fs : List (String × Option Value)} (hkeys : (fs.map Prod.fst).Nodup)
    {field : String × Option Value} (hf : field ∈ fs) :
    Dict.get? (fs.filterMap (present nones)) field.1 = (present nones field).map Prod.snd := by
  have hget : ∀ {d : Dict} {key : String}, key ∉ d.map Prod.fst → d.get? key = none := by
    intro d key hno
    exact List.lookup_eq_none_iff.mpr fun e he =>
      bne_iff_ne.mpr fun heq => hno (heq ▸ List.mem_map_of_mem he)
  induction fs with
  | nil => cases hf
  | cons head fs ih =>
    rw [List.map_cons, List.nodup_cons] at hkeys
    obtain ⟨hnew, hkeys⟩ := hkeys
    rw [List.filterMap_cons]
    rcases List.mem_cons.mp hf with rfl | hf
    · split
      · rename_i hnone
        rw [hnone]
        exact hget fun hm => hnew ((filterMap_keys fs).subset hm)
      · rename_i e he
        rw [he, ← (present_key he).1]
        exact List.lookup_cons_self
    · have hne : field.1 ≠ head.1 := fun heq => hnew (heq ▸ List.mem_map_of_mem hf)
      split
      · exact ih hkeys hf
      · rename_i e he
        rw [← (present_key he).1] at hne
        have hskip : (field.1 == e.1) = false := by simpa using hne
        have hrest := ih hkeys hf
        rw [Dict.get?] at hrest ⊢
        rw [List.lookup_cons, hskip]
        exact hrest

theorem fields_keys (m : StatusUpdate) : ((fields m).map Prod.fst).Nodup := by
  simp [fields]

theorem textAt_payload {key : String} {o : Option String} (hf : (key, o.map Value.str) ∈ fields m) :
    textAt (payload nones m) key = o := by
  rw [textAt, payload, get_filterMap (fields_keys m) hf]
  cases o with
  | some s => rfl
  | none =>
    simp only [present, Option.map_none]
    split <;> rfl

theorem numberAt_payload {key : String} {o : Option ℤ} (hf : (key, o.map Value.int) ∈ fields m) :
    numberAt (payload nones m) key = o := by
  rw [numberAt, payload, get_filterMap (fields_keys m) hf]
  cases o with
  | some n => rfl
  | none =>
    by_cases hnull : key ∈ nones <;> simp [present, hnull]

theorem ofDict_payload (nones : List String) (m : StatusUpdate) :
    ofDict? (payload nones m) = some m := by
  have hvmId : textAt (payload nones m) "vmId" = some m.vmId :=
    textAt_payload (o := some m.vmId) (by simp [fields])
  have hstatus : textAt (payload nones m) "status" = some (statusName m.status) :=
    textAt_payload (o := some (statusName m.status)) (by simp [fields])
  have hone : numberAt (payload nones m) "oneVmId" = m.oneVmId :=
    numberAt_payload (by simp [fields])
  have hport : numberAt (payload nones m) "sshPort" = m.sshPort :=
    numberAt_payload (by simp [fields])
  have htext : ∀ (key : String) (o : Option String), (key, o.map Value.str) ∈ fields m →
      textAt (payload nones m) key = o := fun key o hf => textAt_payload hf
  simp only [ofDict?, hvmId, hstatus, hone, hport, find_statusName,
    htext "ipAddress" m.ipAddress (by simp [fields]), htext "sshHost" m.sshHost (by simp [fields]),
    htext "userId" m.userId (by simp [fields]), htext "action" m.action (by simp [fields]),
    htext "error" m.error (by simp [fields]), htext "source" m.source (by simp [fields]),
    Option.bind_eq_bind, Option.bind_some, find_statusName]
  rfl

theorem mem_payload {e : String × Value} (h : e ∈ payload nones m) :
    (e.1, some e.2) ∈ fields m ∨ e.2 = .null := by
  obtain ⟨field, hf, he⟩ := List.mem_filterMap.mp h
  obtain ⟨hkey, hvalue | ⟨-, hnull⟩⟩ := present_key he
  · rw [hkey, ← hvalue]
    exact .inl hf
  · exact .inr hnull

theorem fields_value {key : String} {v : Value} (h : (key, some v) ∈ fields m) :
    (∃ s, v = .str s) ∨ ∃ n, v = .int n ∧ (m.oneVmId = some n ∨ m.sshPort = some n) := by
  have htext : ∀ o : Option String, some v = o.map Value.str → ∃ s, v = .str s := by
    intro o ho
    obtain ⟨s, -, rfl⟩ := Option.map_eq_some_iff.mp ho.symm
    exact ⟨s, rfl⟩
  have hnumber : ∀ o : Option ℤ, some v = o.map Value.int → ∃ n, v = .int n ∧ o = some n := by
    intro o ho
    obtain ⟨n, hn, rfl⟩ := Option.map_eq_some_iff.mp ho.symm
    exact ⟨n, rfl, hn⟩
  simp only [fields, List.mem_cons, List.not_mem_nil, or_false, Prod.mk.injEq,
    Option.some.injEq] at h
  rcases h with ⟨-, h⟩ | ⟨-, h⟩ | ⟨-, h⟩ | ⟨-, h⟩ | ⟨-, h⟩ | ⟨-, h⟩ | ⟨-, h⟩ | ⟨-, h⟩ | ⟨-, h⟩ |
    ⟨-, h⟩
  case inr.inr.inl =>
    obtain ⟨n, hv, hn⟩ := hnumber _ h
    exact .inr ⟨n, hv, .inl hn⟩
  case inr.inr.inr.inr.inr.inl =>
    obtain ⟨n, hv, hn⟩ := hnumber _ h
    exact .inr ⟨n, hv, .inr hn⟩
  case inl | inr.inl => exact .inl ⟨_, h⟩
  all_goals exact .inl (htext _ h)

/-- Every status update reaches the VM service as it is, however missing values are written. -/
theorem updates_arrive (nones : List String) (hm : Safe m) :
    ∃ bytes, dumps (payload nones m) = some bytes ∧ receivedUpdate bytes = some m := by
  have hentry : ∀ e ∈ payload nones m, (e.2 ≠ .float ∧ e.2 ≠ .compound) ∧
      ∀ n, e.2 = .int n → n.natAbs ≤ 2 ^ 53 := by
    intro e he
    rcases mem_payload he with hf | hnull
    · rcases fields_value hf with ⟨s, hv⟩ | ⟨n, hv, hn⟩
      · simp [hv]
      · rw [hv]
        refine ⟨by simp, ?_⟩
        rintro n' ⟨⟩
        exact hn.elim (hm.1 n) (hm.2 n)
    · simp [hnull]
  have hkeys : ((payload nones m).map Prod.fst).Nodup :=
    (filterMap_keys (fields m)).nodup (fields_keys m)
  obtain ⟨bytes, hbytes, hparse⟩ :=
    parse_dumps (fun e he => (hentry e he).1) hkeys fun e he => (hentry e he).2
  exact ⟨bytes, hbytes, by rw [receivedUpdate, hparse, Option.bind_some, ofDict_payload]⟩

end Updates

section Messages

/-- The worker does with the bytes of the message what it does with the message. -/
def Arrives (cfg : WorkerConfig) (subject : Subject) (data : Dict) : Prop :=
  ∃ bytes, stringify data = some bytes ∧
    handleBytes cfg subject bytes = handleMessage cfg subject data

variable {cfg : WorkerConfig} {subject : Subject}

theorem arrives {data : Dict} (hplain : Plain data) (hkeys : (data.map Prod.fst).Nodup) :
    Arrives cfg subject data := by
  obtain ⟨bytes, hbytes, hloads⟩ := loads_stringify hplain hkeys
  exact ⟨bytes, hbytes, by rw [handleBytes, hloads]⟩

theorem ofOptionInt_plain (o : Option ℤ) :
    Value.ofOptionInt o ≠ .float ∧ Value.ofOptionInt o ≠ .compound := by
  cases o <;> simp [Value.ofOptionInt]

theorem createMessage_arrives (vm : VmRow) (dto : CreateVmDto) (sshPublicKey : String) :
    Arrives cfg subject (createMessage vm dto sshPublicKey) := by
  apply arrives
  · have hname : (vm.sshUsername.map Value.str).getD .null ≠ .float ∧
        (vm.sshUsername.map Value.str).getD .null ≠ .compound := by
      cases vm.sshUsername <;> simp
    cases hpassword : dto.vmPassword <;> simp [Plain, createMessage, hpassword, hname]
  · cases hpassword : dto.vmPassword <;> simp [createMessage, hpassword]

theorem actionMessage_arrives (vm : VmRow) (action : VmAction) (userId : String) :
    Arrives cfg subject (actionMessage vm action userId) := by
  apply arrives
  · have hone := ofOptionInt_plain vm.oneVmId
    simp [Plain, actionMessage, hone]
  · simp [actionMessage]

theorem deleteMessage_arrives (vm : VmRow) (userId : String) :
    Arrives cfg subject (deleteMessage vm userId) := by
  apply arrives
  · have hone := ofOptionInt_plain vm.oneVmId
    simp [Plain, deleteMessage, hone]
  · simp [deleteMessage]

/-- What a request publishes, whatever texts it carries and whatever the calls before it answer,
the worker handles as if it had been given the object itself; and the VM service reads every status
update as the worker meant it. -/
theorem messages_arrive (env : Env) (w : World) (userId : String) (role : Role) :
    (∀ dto, Sends env w (VmService.createVm dto userId role) (Arrives env.cfg)) ∧
    (∀ vmId action, Sends env w (VmService.vmAction vmId action userId role) (Arrives env.cfg)) ∧
    (∀ vmId, Sends env w (VmService.deleteVm vmId userId role) (Arrives env.cfg)) ∧
    ∀ nones (m : StatusUpdate), Safe m →
      ∃ bytes, dumps (payload nones m) = some bytes ∧ receivedUpdate bytes = some m := by
  refine ⟨fun dto => ?_, fun vmId action => ?_, fun vmId => ?_, fun nones m hm => ?_⟩
  · exact createVm_sends (fun tx newId now key _ _ _ => createMessage_arrives _ dto key) role w
  · exact vmAction_sends (fun vm _ => actionMessage_arrives vm action userId) role
  · exact deleteVm_sends (fun vm _ => deleteMessage_arrives vm userId) role
  · exact updates_arrive nones hm

end Messages

section Sample

private def wireEnv : Env where
  cfg := { lower := id, asciiFold := id }
  uuid s := isUuidText s = true

private def failedUpdate : StatusUpdate where
  vmId := "0b0e3c1a-5d2f-4f6a-9c3e-1a2b3c4d5e6f"
  status := .row .error
  oneVmId := some 42
  error := some "échec : \"disque\"\n"

/-- The text of a failure has accents, quotes and a line break. -/
theorem messages_arrive_failed : ∃ bytes,
    dumps (payload ["userId"] failedUpdate) = some bytes ∧
    receivedUpdate bytes = some failedUpdate := by
  have hsafe : Safe failedUpdate := by
    refine ⟨?_, ?_⟩
    · rintro n ⟨⟩
      decide
    · rintro n ⟨⟩
  exact (messages_arrive wireEnv (World.initial ⟨.empty, .empty⟩) "u" .admin).2.2.2 ["userId"]
    failedUpdate hsafe

end Sample

end CloudVM.Wire
