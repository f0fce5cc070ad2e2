import CloudVM.Framework.Logic
import CloudVM.Vm.Service

/-!
# What a request hands over

One request of the VM service is run to its end against the tables, the connection to NATS and
the answers of everybody else. `NatsService.publish` has three outcomes: JetStream acknowledges
the message, JetStream reports an error that is raised again, or there is no connection and the
message is dropped with a line in the log.
-/

namespace CloudVM.VmService

/-- An answer for a call that the requests of this module do not make. -/
def noAnswer : (c : VmCall) → c.Answer
  | .now => (0 : Nat)
  | .readTemplateCache => none
  | .writeTemplateCache _ | .createTask _ | .sleep _ | .ack => ()
  | .createVmTransaction _ => .error (.database "")
  | .fetchInternalQuotaSnapshot _ | .fetchInternalSubscriptionAccessSnapshot _
  | .generateVmSshKeyPair | .encryptVmPrivateKey _ | .findVm _ | .publish _ _ | .markDeleted _
  | .stampStopped _ | .patchStatus _ _ | .acquireCreateLock _ | .releaseCreateLock _
  | .selectOneVmId _ | .selectPendingVms | .selectActiveVms | .selectUserSshKeys _
  | .updateVmStatus _ | .deleteVmRecord _ | .templatePoolInfo | .templateInstantiate _ _ _
  | .templateDelete _ _ | .templateUpdate _ _ | .oneVmInfo _ | .oneVmAction _ _ | .diskResize _ _
  | .imageInfo _ | .imageDelete _ | .publishStatus _ => .error ⟨.other, ""⟩

/-- Everything a request meets. `accepted` holds what JetStream has acknowledged, `newId` and
`now` are what the database would generate, and `answers` are those of other services. -/
structure Desk where
  db : VmDb
  accepted : List (Subject × Dict)
  connected : Bool
  jetStream : Except Failure Unit
  dbFailure : Option Failure
  newId : String
  now : Nat
  answers : (c : VmCall) → c.Answer

namespace Desk

/-- `NatsService.publish`; the three subjects of the requests all go through JetStream. -/
def publish (s : Desk) (m : Subject × Dict) : Except Failure Unit × Desk :=
  if s.connected then
    match s.jetStream with
    | .ok _ => (.ok (), { s with accepted := s.accepted ++ [m] })
    | .error e => (.error e, s)
  else (.ok (), s)

/-- The transaction of `createVm`; a failing database rolls back. -/
def transact (s : Desk) (tx : CreateVmTx) : Except TxFailure (VmRow × VmDb) :=
  match s.dbFailure with
  | some e => .error (.database e.message)
  | none => createVmBody tx s.newId s.now s.db

def lookup (s : Desk) (vmId : String) : Except Failure (Option VmRow) :=
  match s.dbFailure with
  | some e => .error e
  | none => .ok (s.db.vms.find? vmId)

/-- The answer to each call and the desk after it. -/
def answer : (c : VmCall) → Desk → c.Answer × Desk
  | .createVmTransaction tx, s =>
      match s.transact tx with
      | .ok (vm, db) => (.ok vm, { s with db })
      | .error e => (.error e, s)
  | .findVm vmId, s => (s.lookup vmId, s)
  | .publish subject data, s => s.publish (subject, data)
  | c, s => (s.answers c, s)

def Accepting (s : Desk) : Prop := s.connected = true ∧ s.jetStream = .ok ()

theorem publish_accepting {s : Desk} (h : s.Accepting) (m : Subject × Dict) :
    s.publish m = (.ok (), { s with accepted := s.accepted ++ [m] }) := by
  simp [publish, h.1, h.2]

theorem publish_refused {s : Desk} (h : ¬ s.Accepting) (m : Subject × Dict) :
    ∃ r, s.publish m = (r, s) ∧ (r = .ok () ↔ s.connected = false) := by
  cases hc : s.connected with
  | false => exact ⟨.ok (), by simp [publish, hc], by simp⟩
  | true =>
    cases hj : s.jetStream with
    | ok u => exact absurd ⟨hc, hj⟩ h
    | error e => exact ⟨.error e, by simp [publish, hc, hj], by simp⟩

end Desk

/-- The outcome of a request that ends with a `publish`. -/
def Desk.afterPublish {α : Type} (s : Desk) (m : Subject × Dict) (a : α) : Except Failure α × Desk :=
  ((s.publish m).1.map fun _ => a, (s.publish m).2)

theorem publish_exec {α : Type} (subject : Subject) (data : Dict) (a : α) (s : Desk) :
    (publish subject data >>= fun _ => (pure a : VmProcess α)).exec Desk.answer s =
      s.afterPublish (subject, data) a := by
  simp only [publish, Process.exec_bind, Process.exec_call, Desk.answer, Desk.afterPublish]
  cases s.publish (subject, data) with
  | mk r t => cases r <;> rfl

section Create

/-- The subscription check of `createVm` and the snapshot it hands on. -/
def quotaGate (s : Desk) (userId : String) (role : Role) :
    Except Failure (Option InternalQuotaSnapshot) :=
  if role = .admin then .ok none
  else match s.answers (.fetchInternalQuotaSnapshot userId) with
    | .error e => .error e
    | .ok remoteQuota =>
      if (remoteQuota.map (·.hasActiveSubscription)).getD false then .ok remoteQuota
      else .error ⟨.forbidden,
        "No active subscription found. Please purchase a plan before creating VMs."⟩

def keyFor (s : Desk) (dto : CreateVmDto) : Except Failure (String × Option String × Option String) :=
  ((chooseSshKey dto).exec Desk.answer s).1

/-- The request gets past its gate and its transaction commits. -/
def Commits (dto : CreateVmDto) (userId : String) (role : Role) (s : Desk) : Prop :=
  ∃ remoteQuota key generated encryptedPrivateKey out,
    quotaGate s userId role = .ok remoteQuota ∧
    keyFor s dto = .ok (key, generated, encryptedPrivateKey) ∧
    s.transact { dto, userId, isAdmin := role = .admin, remoteQuota, encryptedPrivateKey } = .ok out

theorem chooseSshKey_exec (dto : CreateVmDto) (s : Desk) :
    (chooseSshKey dto).exec Desk.answer s = (keyFor s dto, s) := by
  have h : ((chooseSshKey dto).exec Desk.answer s).2 = s := by
    simp only [chooseSshKey]
    split
    case h_3 => rfl
    all_goals
      simp only [generateSshKey, generateVmSshKeyPair, encryptVmPrivateKey, Process.exec_bind,
        Process.exec_call, Desk.answer]
      cases s.answers .generateVmSshKeyPair with
      | error e => rfl
      | ok pair =>
        simp only [Process.ofExcept_ok, Process.exec_ret]
        cases s.answers (.encryptVmPrivateKey pair.privateKeyPem) <;> rfl
  exact Prod.ext rfl h

private theorem launchVm_exec (dto : CreateVmDto) (userId : String) (isAdmin : Bool)
    (remoteQuota : Option InternalQuotaSnapshot) (s : Desk) :
    (∃ e, (launchVm dto userId isAdmin remoteQuota).exec Desk.answer s = (.error e, s) ∧
      ∀ key generated encryptedPrivateKey out,
        keyFor s dto = .ok (key, generated, encryptedPrivateKey) →
        s.transact ⟨dto, userId, isAdmin, remoteQuota, encryptedPrivateKey⟩ ≠ .ok out) ∨
    ∃ key generated encryptedPrivateKey vm db,
      keyFor s dto = .ok (key, generated, encryptedPrivateKey) ∧
      s.transact ⟨dto, userId, isAdmin, remoteQuota, encryptedPrivateKey⟩ = .ok (vm, db) ∧
      (launchVm dto userId isAdmin remoteQuota).exec Desk.answer s =
        Desk.afterPublish { s with db } (.vmCreate, createMessage vm dto key) (vm, generated) := by
  simp only [launchVm, Process.exec_bind, chooseSshKey_exec]
  cases hk : keyFor s dto with
  | error e => exact .inl ⟨e, rfl, by simp⟩
  | ok k =>
    obtain ⟨key, generated, encryptedPrivateKey⟩ := k
    simp only [runCreateVmTransaction, Process.exec_call, Desk.answer]
    cases ht : s.transact ⟨dto, userId, isAdmin, remoteQuota, encryptedPrivateKey⟩ with
    | error e =>
      left
      have hne : ∀ out, s.transact ⟨dto, userId, isAdmin, remoteQuota, encryptedPrivateKey⟩ ≠
          .ok out := by simp [ht]
      cases e with
      | forbidden message =>
        exact ⟨_, rfl, fun _ _ _ out h => by cases h; exact hne out⟩
      | uniqueViolation => exact ⟨_, rfl, fun _ _ _ out h => by cases h; exact hne out⟩
      | database message =>
        exact ⟨_, rfl, fun _ _ _ out h => by cases h; exact hne out⟩
    | ok out =>
      obtain ⟨vm, db⟩ := out
      refine .inr ⟨key, generated, encryptedPrivateKey, vm, db, rfl, ht, ?_⟩
      simp only [Process.exec_ret]
      rw [← publish_exec, Process.exec_bind]

theorem createVm_gate (dto : CreateVmDto) (userId : String) (role : Role) (s : Desk) :
    (createVm dto userId role).exec Desk.answer s =
      match quotaGate s userId role with
      | .ok remoteQuota => (launchVm dto userId (role = .admin) remoteQuota).exec Desk.answer s
      | .error e => (.error e, s) := by
  cases role with
  | admin => rfl
  | user =>
    simp only [createVm, quotaGate, fetchInternalQuotaSnapshot, reduceCtorEq, if_false,
      Process.exec_bind, Process.exec_call, Desk.answer]
    cases s.answers (.fetchInternalQuotaSnapshot userId) with
    | error e => rfl
    | ok remoteQuota =>
      by_cases hq : (remoteQuota.map (·.hasActiveSubscription)).getD false = true
      · simp [hq]
      · simp [hq]

/-- A request that does not commit fails and leaves everything alone; one that commits goes on
to publish its message. -/
theorem createVm_exec (dto : CreateVmDto) (userId : String) (role : Role) (s : Desk) :
    (¬ Commits dto userId role s ∧
      ∃ e, (createVm dto userId role).exec Desk.answer s = (.error e, s)) ∨
    (Commits dto userId role s ∧ ∃ tx key generated vm db,
      s.transact tx = .ok (vm, db) ∧
      (createVm dto userId role).exec Desk.answer s =
        Desk.afterPublish { s with db } (.vmCreate, createMessage vm dto key) (vm, generated)) := by
  rw [createVm_gate]
  cases hgate : quotaGate s userId role with
  | error e =>
    left
    constructor
    · rintro ⟨q, key, generated, encryptedPrivateKey, out, hq, -, -⟩
      rw [hgate] at hq
      cases hq
    · exact ⟨e, rfl⟩
  | ok remoteQuota =>
    rcases launchVm_exec dto userId (role = .admin) remoteQuota s with ⟨e, he, hno⟩ |
      ⟨key, generated, encryptedPrivateKey, vm, db, hk, ht, he⟩
    · left
      constructor
      · rintro ⟨q, key, generated, encryptedPrivateKey, out, hq, hk, ht⟩
        rw [hgate] at hq
        cases hq
        exact hno key generated encryptedPrivateKey out hk ht
      · exact ⟨e, he⟩
    · right
      constructor
      · exact ⟨remoteQuota, key, generated, encryptedPrivateKey, _, hgate, hk, ht⟩
      · exact ⟨_, key, generated, vm, db, ht, he⟩

end Create

section Queue

def Owned (s : Desk) (vmId userId : String) (role : Role) (vm : VmRow) : Prop :=
  s.lookup vmId = .ok (some vm) ∧ (role = .admin ∨ vm.userId = userId)

/-- The subscription gate of `start` and `restart` is open. -/
def HoursOpen (s : Desk) (userId : String) : Prop :=
  ∃ a, s.answers (.fetchInternalSubscriptionAccessSnapshot userId) = .ok (some a) ∧
    a.activePlanId ≠ none ∧ a.activePlanId ≠ some "" ∧ hourLimitReached a = false

/-- The request gets to its `publish`. -/
def ActionQueues (s : Desk) (vmId : String) (action : VmAction) (userId : String) (role : Role)
    (vm : VmRow) : Prop :=
  Owned s vmId userId role vm ∧
    (role ≠ .admin ∧ (action = .start ∨ action = .restart) → HoursOpen s userId) ∧
    vm.status ∈ validTransitions action

def DeleteQueues (s : Desk) (vmId userId : String) (role : Role) (vm : VmRow) : Prop :=
  Owned s vmId userId role vm ∧ vm.status ≠ .deleted

private theorem getVm_exec (vmId userId : String) (role : Role) (s : Desk) :
    (∃ vm, Owned s vmId userId role vm ∧
      (getVm vmId userId role).exec Desk.answer s = (.ok vm, s)) ∨
    ((∀ vm, ¬ Owned s vmId userId role vm) ∧
      ∃ e, (getVm vmId userId role).exec Desk.answer s = (.error e, s)) := by
  simp only [getVm, findVm, Process.exec_bind, Process.exec_call, Desk.answer, Owned]
  cases hl : s.lookup vmId with
  | error e => exact .inr ⟨by simp, e, rfl⟩
  | ok found =>
    cases found with
    | none => exact .inr ⟨by simp, _, rfl⟩
    | some vm =>
      by_cases hu : role ≠ .admin ∧ vm.userId ≠ userId
      · right
        constructor
        · rintro vm' ⟨hvm, ho⟩
          cases hvm
          exact ho.elim hu.1 hu.2
        · exact ⟨⟨.forbidden, "Access denied"⟩, by simp [hu]⟩
      · left
        have ho : role = .admin ∨ vm.userId = userId := by
          by_cases hr : role = .admin
          · exact .inl hr
          · exact .inr (not_not.mp fun h => hu ⟨hr, h⟩)
        exact ⟨vm, ⟨rfl, ho⟩, by simp [hu]⟩

private theorem checkHours_exec (userId : String) (s : Desk) :
    (HoursOpen s userId ∧ (checkHours userId).exec Desk.answer s = (.ok (), s)) ∨
    (¬ HoursOpen s userId ∧ ∃ e, (checkHours userId).exec Desk.answer s = (.error e, s)) := by
  simp only [checkHours, fetchInternalSubscriptionAccessSnapshot, Process.exec_bind,
    Process.exec_call, Desk.answer, HoursOpen]
  cases s.answers (.fetchInternalSubscriptionAccessSnapshot userId) with
  | error e => exact .inr ⟨by simp, e, rfl⟩
  | ok access =>
    cases access with
    | none => exact .inr ⟨by simp, _, rfl⟩
    | some a =>
      simp only [Process.ofExcept_ok, Process.exec_ret]
      split
      case h_1 hp => exact .inr ⟨by simp [hp], _, rfl⟩
      case h_2 hp => exact .inr ⟨by simp [hp], _, rfl⟩
      case h_3 p hne hp =>
        by_cases hh : hourLimitReached a = true
        · exact .inr ⟨by simp [hh], _, by simp [hh]; rfl⟩
        · left
          have hopen : a.activePlanId ≠ some "" := by
            rw [hp]
            simpa using hne
          exact ⟨⟨a, rfl, by simp [hp], hopen, by simpa using hh⟩, by simp [hh]⟩

private theorem queueAction_exec (vm : VmRow) (action : VmAction) (userId : String) (s : Desk) :
    (vm.status ∈ validTransitions action ∧ ∃ text,
      (queueAction vm action userId).exec Desk.answer s =
        s.afterPublish (.vmAction, actionMessage vm action userId) text) ∨
    (vm.status ∉ validTransitions action ∧
      ∃ e, (queueAction vm action userId).exec Desk.answer s = (.error e, s)) := by
  by_cases hs : vm.status ∈ validTransitions action
  · left
    simp only [queueAction, List.contains_iff_mem, hs, if_true]
    exact ⟨trivial, _, publish_exec _ _ _ s⟩
  · right
    simp only [queueAction, List.contains_iff_mem, hs, if_false]
    exact ⟨not_false, _, rfl⟩

theorem vmAction_exec (vmId : String) (action : VmAction) (userId : String) (role : Role)
    (s : Desk) :
    (∃ vm text, ActionQueues s vmId action userId role vm ∧
      (vmAction vmId action userId role).exec Desk.answer s =
        s.afterPublish (.vmAction, actionMessage vm action userId) text) ∨
    ((∀ vm, ¬ ActionQueues s vmId action userId role vm) ∧
      ∃ e, (vmAction vmId action userId role).exec Desk.answer s = (.error e, s)) := by
  rcases getVm_exec vmId userId role s with ⟨vm, hvm, hget⟩ | ⟨hno, e, hget⟩
  case inr =>
    right
    constructor
    · intro vm h
      exact hno vm h.1
    · exact ⟨e, by simp only [vmAction, Process.exec_bind, hget]⟩
  have hsame : ∀ vm', Owned s vmId userId role vm' → vm' = vm := by
    intro vm' h
    have heq := h.1.symm.trans hvm.1
    cases heq
    rfl
  -- behind the gate only the status of the row decides
  have hqueue : (role ≠ .admin ∧ (action = .start ∨ action = .restart) → HoursOpen s userId) →
      (vmAction vmId action userId role).exec Desk.answer s =
        (queueAction vm action userId).exec Desk.answer s →
      (∃ vm text, ActionQueues s vmId action userId role vm ∧
        (vmAction vmId action userId role).exec Desk.answer s =
          s.afterPublish (.vmAction, actionMessage vm action userId) text) ∨
      ((∀ vm, ¬ ActionQueues s vmId action userId role vm) ∧
        ∃ e, (vmAction vmId action userId role).exec Desk.answer s = (.error e, s)) := by
    intro hgate hexec
    rw [hexec]
    rcases queueAction_exec vm action userId s with ⟨hs, text, hq⟩ | ⟨hs, hq⟩
    · exact .inl ⟨vm, text, ⟨hvm, hgate, hs⟩, hq⟩
    · right
      constructor
      · intro vm' h
        rw [hsame vm' h.1] at h
        exact hs h.2.2
      · exact hq
  by_cases hg : role ≠ .admin ∧ (action = .start ∨ action = .restart)
  · rcases checkHours_exec userId s with ⟨hopen, hcheck⟩ | ⟨hclosed, e, hcheck⟩
    · apply hqueue fun _ => hopen
      simp only [vmAction, Process.exec_bind, hget, if_pos hg, hcheck]
    · right
      constructor
      · intro vm' h
        exact hclosed (h.2.1 hg)
      · exact ⟨e, by simp only [vmAction, Process.exec_bind, hget, if_pos hg, hcheck]⟩
  · apply hqueue fun h => absurd h hg
    simp only [vmAction, Process.exec_bind, hget, if_neg hg]

theorem deleteVm_exec (vmId userId : String) (role : Role) (s : Desk) :
    (∃ vm text, DeleteQueues s vmId userId role vm ∧
      (deleteVm vmId userId role).exec Desk.answer s =
        s.afterPublish (.vmDelete, deleteMessage vm userId) text) ∨
    ((∀ vm, ¬ DeleteQueues s vmId userId role vm) ∧
      ∃ e, (deleteVm vmId userId role).exec Desk.answer s = (.error e, s)) := by
  rcases getVm_exec vmId userId role s with ⟨vm, hvm, hget⟩ | ⟨hno, e, hget⟩
  case inr =>
    right
    constructor
    · intro vm h
      exact hno vm h.1
    · exact ⟨e, by simp only [deleteVm, Process.exec_bind, hget]⟩
  by_cases hd : vm.status = .deleted
  · right
    constructor
    · intro vm' h
      have heq := h.1.1.symm.trans hvm.1
      cases heq
      exact h.2 hd
    · simp only [deleteVm, Process.exec_bind, hget, if_pos hd]
      exact ⟨_, rfl⟩
  · left
    have hexec : ∃ text, (deleteVm vmId userId role).exec Desk.answer s =
        s.afterPublish (.vmDelete, deleteMessage vm userId) text := by
      rw [deleteVm, Process.exec_bind, hget]
      simp only [if_neg hd]
      exact ⟨_, publish_exec _ _ _ s⟩
    obtain ⟨text, he⟩ := hexec
    exact ⟨vm, text, ⟨hvm, hd⟩, he⟩

end Queue

section Requests

/-- The requests that end with a message to the worker. -/
inductive Request where
  | createVm (dto : CreateVmDto) (userId : String) (role : Role)
  | vmAction (vmId : String) (action : VmAction) (userId : String) (role : Role)
  | deleteVm (vmId userId : String) (role : Role)

/-- The body of the request passes its validation. -/
def Request.valid : Request → Bool
  | .createVm dto _ _ => dto.valid
  | _ => true

/-- The run of the request ends well in one sense if it returns, in another if it raises. -/
def Outcome {α : Type} (p : VmProcess α) (s : Desk) (ok : α → Desk → Prop)
    (error : Failure → Desk → Prop) : Prop :=
  Process.Post ok error (p.exec Desk.answer s).1 (p.exec Desk.answer s).2

/-- Success means work handed over, and a failed creation leaves no VM: what each kind of
request promises about its outcome and the desk after it. -/
def Honest : Request → Desk → Prop
  | .createVm dto userId role, s =>
      Outcome (createVm dto userId role) s
        (fun out t => out.1.status = .pending ∧ t.db.vms.rows = s.db.vms.rows ++ [out.1] ∧
          ∃ key, t.accepted = s.accepted ++ [(.vmCreate, createMessage out.1 dto key)])
        fun _ t => t.db.vms.rows = s.db.vms.rows
  | .vmAction vmId action userId role, s =>
      Outcome (vmAction vmId action userId role) s
        (fun _ t => ∃ vm ∈ s.db.vms.rows, vm.id = vmId ∧
          t.accepted = s.accepted ++ [(.vmAction, actionMessage vm action userId)])
        fun _ _ => True
  | .deleteVm vmId userId role, s =>
      Outcome (deleteVm vmId userId role) s
        (fun _ t => ∃ vm ∈ s.db.vms.rows, vm.id = vmId ∧
          t.accepted = s.accepted ++ [(.vmDelete, deleteMessage vm userId)])
        fun _ _ => True

/-- A creation needs JetStream to take its message once its row is committed; the other
requests need a connection once they get as far as their message. -/
def HandsOver : Request → Desk → Prop
  | .createVm dto userId role, s => Commits dto userId role s → s.Accepting
  | .vmAction vmId action userId role, s =>
      (∃ vm, ActionQueues s vmId action userId role vm) → s.connected = true
  | .deleteVm vmId userId role, s =>
      (∃ vm, DeleteQueues s vmId userId role vm) → s.connected = true

private theorem afterPublish_accepting {α : Type} {s : Desk} (h : s.Accepting) (m : Subject × Dict)
    (a : α) : s.afterPublish m a = (.ok a, { s with accepted := s.accepted ++ [m] }) := by
  simp only [Desk.afterPublish, Desk.publish_accepting h]
  rfl

private theorem afterPublish_connected {α : Type} {s : Desk} (h : s.connected = true)
    (m : Subject × Dict) (a : α) :
    s.afterPublish m a = (.ok a, { s with accepted := s.accepted ++ [m] }) ∨
      ∃ e, s.afterPublish m a = (.error e, s) := by
  by_cases ha : s.Accepting
  · exact .inl (afterPublish_accepting ha m a)
  · obtain ⟨r, hp, hr⟩ := Desk.publish_refused ha m
    cases r with
    | ok u =>
      have hc := hr.mp rfl
      simp [h] at hc
    | error e => exact .inr ⟨e, by simp only [Desk.afterPublish, hp]; rfl⟩

private theorem afterPublish_disconnected {α : Type} {s : Desk} (h : s.connected = false)
    (m : Subject × Dict) (a : α) : s.afterPublish m a = (.ok a, s) := by
  simp [Desk.afterPublish, Desk.publish, h, Except.map]

private theorem Desk.transact_ok {s : Desk} {tx : CreateVmTx} {vm : VmRow} {db : VmDb}
    (h : s.transact tx = .ok (vm, db)) :
    vm.status = .pending ∧ db.vms.rows = s.db.vms.rows ++ [vm] := by
  simp only [Desk.transact] at h
  split at h
  · cases h
  · obtain ⟨hvm, -, hrows, -⟩ := createVmBody_ok h
    exact ⟨by rw [hvm]; rfl, hrows⟩

private theorem createVm_honest_iff (dto : CreateVmDto) (userId : String) (role : Role) (s : Desk) :
    Honest (.createVm dto userId role) s ↔ HandsOver (.createVm dto userId role) s := by
  simp only [Honest, HandsOver]
  rcases createVm_exec dto userId role s with ⟨hno, e, he⟩ | ⟨hc, tx, key, generated, vm, db, ht, he⟩
  · simp [Outcome, he, hno]
  obtain ⟨hpending, hrows⟩ := Desk.transact_ok ht
  rw [Outcome, he]
  constructor
  · intro h _
    by_contra hna
    have hna' : ¬ Desk.Accepting { s with db } := hna
    obtain ⟨r, hp, -⟩ := Desk.publish_refused hna' (.vmCreate, createMessage vm dto key)
    simp only [Desk.afterPublish, hp] at h
    cases r with
    | ok u =>
      obtain ⟨-, -, key, hk⟩ := h
      simp at hk
    | error e => simp [Except.map, hrows] at h
  · intro h
    have ha : Desk.Accepting { s with db } := h hc
    rw [afterPublish_accepting ha]
    exact ⟨hpending, hrows, key, rfl⟩

private theorem queued_iff {α : Type} {p : VmProcess α} {s : Desk} {m : Subject × Dict} {a : α}
    (he : p.exec Desk.answer s = s.afterPublish m a) {P : Desk → Prop}
    (hP : P { s with accepted := s.accepted ++ [m] }) (hn : ¬ P s) :
    Outcome p s (fun _ t => P t) (fun _ _ => True) ↔ s.connected = true := by
  rw [Outcome, he]
  constructor
  · intro h
    by_contra hc
    rw [afterPublish_disconnected (by simpa using hc)] at h
    exact hn h
  · intro hc
    rcases afterPublish_connected hc m a with h | ⟨e, h⟩
    · rw [h]
      exact hP
    · rw [h]
      trivial

private theorem Owned.mem {s : Desk} {vmId userId : String} {role : Role} {vm : VmRow}
    (h : Owned s vmId userId role vm) : vm ∈ s.db.vms.rows ∧ vm.id = vmId := by
  have hl := h.1
  simp only [Desk.lookup] at hl
  split at hl
  · cases hl
  · simp only [Except.ok.injEq] at hl
    exact (Table.find?_eq_some _).mp hl

/-- For every request, every state of the tables and every outcome of `publish`: success means
that the work was handed over, and a failed creation leaves no VM, exactly when JetStream takes
the message of a creation that commits and there is a connection for any other request that gets
as far as its message. -/
theorem request_honest_iff (q : Request) (s : Desk) : Honest q s ↔ HandsOver q s := by
  cases q with
  | createVm dto userId role => exact createVm_honest_iff dto userId role s
  | vmAction vmId action userId role =>
    simp only [Honest, HandsOver]
    rcases vmAction_exec vmId action userId role s with ⟨vm, text, hq, he⟩ | ⟨hno, e, he⟩
    · have hm := hq.1.mem
      rw [queued_iff he (P := fun t => ∃ vm ∈ s.db.vms.rows, vm.id = vmId ∧
        t.accepted = s.accepted ++ [(Subject.vmAction, actionMessage vm action userId)])
        ⟨vm, hm.1, hm.2, rfl⟩ (by simp)]
      exact ⟨fun h _ => h, fun h => h ⟨vm, hq⟩⟩
    · simp [Outcome, he, hno]
  | deleteVm vmId userId role =>
    simp only [Honest, HandsOver]
    rcases deleteVm_exec vmId userId role s with ⟨vm, text, hq, he⟩ | ⟨hno, e, he⟩
    · have hm := hq.1.mem
      rw [queued_iff he (P := fun t => ∃ vm ∈ s.db.vms.rows, vm.id = vmId ∧
        t.accepted = s.accepted ++ [(Subject.vmDelete, deleteMessage vm userId)])
        ⟨vm, hm.1, hm.2, rfl⟩ (by simp)]
      exact ⟨fun h _ => h, fun h => h ⟨vm, hq⟩⟩
    · simp [Outcome, he, hno]

private def plainDto : CreateVmDto := .sample

private def unconnected : Desk where
  db := ⟨.empty, .empty⟩
  accepted := []
  connected := false
  jetStream := .ok ()
  dbFailure := none
  newId := "3f2b8c1a-5d4e-4f6a-8b7c-9d0e1f2a3b4c"
  now := 0
  answers := noAnswer

/-- An admin's creation is answered with success and its message is nowhere. -/
theorem createVm_not_handed_over :
    ¬ ∀ (q : Request) (s : Desk), q.valid = true → Honest q s := by
  intro h
  have hvalid : plainDto.valid = true := by decide
  have hh := (createVm_honest_iff plainDto "u1" .admin unconnected).mp (h _ _ hvalid)
  have hcommits : Commits plainDto "u1" .admin unconnected :=
    ⟨none, _, none, none, _, rfl, rfl, rfl⟩
  have ha := (hh hcommits).1
  simp [unconnected] at ha

end Requests

section Hours

/-- The access snapshot shows an active plan with limited hours, all of them used. -/
def HoursSpent (s : Desk) (userId : String) : Prop :=
  ∃ a plan used included,
    s.answers (.fetchInternalSubscriptionAccessSnapshot userId) = .ok (some a) ∧
    a.activePlanId = some plan ∧ plan ≠ "unlimited" ∧
    a.vmHoursUsed = some used ∧ a.vmHoursIncluded = some included ∧ included ≤ used

/-- The worker answers the message by starting or restarting a machine. -/
def startsMachine : Subject × Dict → Bool
  | (.vmCreate, _) => true
  | (.vmAction, data) =>
      data.get? "action" = some (.str "start") ∨ data.get? "action" = some (.str "restart")
  | (.vmDelete, _) => false

/-- The caller of a request and the role in the caller's token. -/
def Request.caller : Request → String × Role
  | .createVm _ userId role => (userId, role)
  | .vmAction _ _ userId role => (userId, role)
  | .deleteVm _ userId role => (userId, role)

def Desk.after (s : Desk) : Request → Desk
  | .createVm dto userId role => ((createVm dto userId role).exec Desk.answer s).2
  | .vmAction vmId action userId role => ((vmAction vmId action userId role).exec Desk.answer s).2
  | .deleteVm vmId userId role => ((deleteVm vmId userId role).exec Desk.answer s).2

def Request.published (q : Request) (s : Desk) : List (Subject × Dict) :=
  (s.after q).accepted.drop s.accepted.length

private theorem afterPublish_accepted {α : Type} (s : Desk) (m : Subject × Dict) (a : α) :
    (s.Accepting ∧ (s.afterPublish m a).2.accepted = s.accepted ++ [m]) ∨
      (¬ s.Accepting ∧ (s.afterPublish m a).2.accepted = s.accepted) := by
  by_cases ha : s.Accepting
  · exact .inl ⟨ha, by rw [afterPublish_accepting ha]⟩
  · obtain ⟨r, hp, -⟩ := Desk.publish_refused ha m
    exact .inr ⟨ha, by rw [Desk.afterPublish, hp]⟩

private theorem HoursSpent.not_open {s : Desk} {userId : String} (h : HoursSpent s userId) :
    ¬ HoursOpen s userId := by
  obtain ⟨a, plan, used, included, ha, hplan, hne, hused, hincluded, hle⟩ := h
  rintro ⟨a', ha', -, -, hopen⟩
  rw [ha] at ha'
  cases ha'
  simp [hourLimitReached, hplan, hne, hused, hincluded, hle] at hopen

private theorem startsMachine_action {vm : VmRow} {action : VmAction} {userId : String}
    (h : ¬ (action = .start ∨ action = .restart)) :
    startsMachine (.vmAction, actionMessage vm action userId) = false := by
  cases action with
  | start => exact absurd (.inl rfl) h
  | restart => exact absurd (.inr rfl) h
  | stop => rfl
  | delete => rfl

/-- Once the hours of a user are used up, a request of that user puts no message into the stream
that starts a machine, unless it is a creation that commits and whose message is taken. -/
theorem hours_guard_iff (userId : String) (s : Desk) (h : HoursSpent s userId) (q : Request)
    (hq : q.caller = (userId, .user)) :
    (∀ m ∈ q.published s, startsMachine m = false) ↔
      ¬ ∃ dto, q = .createVm dto userId .user ∧ Commits dto userId .user s ∧ s.Accepting := by
  cases q with
  | createVm dto userId' role =>
    obtain ⟨rfl, rfl⟩ : userId' = userId ∧ role = .user := Prod.mk.inj hq
    simp only [Request.published, Desk.after]
    rcases createVm_exec dto userId' .user s with ⟨hno, e, he⟩ |
      ⟨hc, tx, key, generated, vm, db, ht, he⟩
    · simp [he, hno]
    rw [he]
    rcases afterPublish_accepted { s with db } (.vmCreate, createMessage vm dto key) (vm, generated)
      with ⟨ha, hacc⟩ | ⟨ha, hacc⟩
    · have ha' : s.Accepting := ha
      simp [hacc, startsMachine, hc, ha']
    · have ha' : ¬ s.Accepting := ha
      simp [hacc, ha']
  | vmAction vmId action userId' role =>
    obtain ⟨rfl, rfl⟩ : userId' = userId ∧ role = .user := Prod.mk.inj hq
    simp only [Request.published, Desk.after, reduceCtorEq, false_and, exists_false,
      not_false_iff, iff_true]
    rcases vmAction_exec vmId action userId' .user s with ⟨vm, text, hqueue, he⟩ | ⟨hno, e, he⟩
    · have hgated : ¬ (action = .start ∨ action = .restart) := by
        intro hg
        exact h.not_open (hqueue.2.1 ⟨by simp, hg⟩)
      rw [he]
      rcases afterPublish_accepted s (.vmAction, actionMessage vm action userId') text
        with ⟨-, hacc⟩ | ⟨-, hacc⟩
      · simp [hacc, startsMachine_action hgated]
      · simp [hacc]
    · simp [he]
  | deleteVm vmId userId' role =>
    obtain ⟨rfl, rfl⟩ : userId' = userId ∧ role = .user := Prod.mk.inj hq
    simp only [Request.published, Desk.after, reduceCtorEq, false_and, exists_false,
      not_false_iff, iff_true]
    rcases deleteVm_exec vmId userId' .user s with ⟨vm, text, -, he⟩ | ⟨hno, e, he⟩
    · rw [he]
      rcases afterPublish_accepted s (.vmDelete, deleteMessage vm userId') text
        with ⟨-, hacc⟩ | ⟨-, hacc⟩
      · simp [hacc, startsMachine]
      · simp [hacc]
    · simp [he]

private def spentAnswers : (c : VmCall) → c.Answer
  | .fetchInternalQuotaSnapshot _ => .ok (some ⟨true, some "student", some ⟨2, 2, 4096, 40⟩⟩)
  | .fetchInternalSubscriptionAccessSnapshot _ => .ok (some ⟨some "student", true, some 60, some 60⟩)
  | c => noAnswer c

private def spentDesk : Desk := { unconnected with connected := true, answers := spentAnswers }

private theorem spentDesk_spent : HoursSpent spentDesk "u1" :=
  ⟨_, "student", 60, 60, rfl, rfl, by decide, rfl, rfl, by decide⟩

private theorem spentDesk_commits : Commits plainDto "u1" .user spentDesk :=
  ⟨_, _, none, none, _, rfl, rfl, rfl⟩

/-- The student's restart is refused. -/
theorem hours_guard_iff_student :
    HoursSpent spentDesk "u1" ∧
      ∀ m ∈ (Request.vmAction "vm1" .restart "u1" .user).published spentDesk,
        startsMachine m = false :=
  ⟨spentDesk_spent, (hours_guard_iff "u1" spentDesk spentDesk_spent _ rfl).mpr (by simp)⟩

/-- But a new machine is theirs: `createVm` asks only whether there is a plan. -/
theorem createVm_beyond_hours :
    ¬ ∀ (userId : String) (s : Desk) (q : Request), HoursSpent s userId →
      q.caller = (userId, .user) → q.valid = true →
      ∀ m ∈ q.published s, startsMachine m = false := by
  intro h
  have hvalid : plainDto.valid = true := by decide
  have hm := h "u1" spentDesk (.createVm plainDto "u1" .user) spentDesk_spent rfl hvalid
  rcases createVm_exec plainDto "u1" .user spentDesk with ⟨hno, -⟩ |
    ⟨-, tx, key, generated, vm, db, -, he⟩
  · exact hno spentDesk_commits
  · have ha : Desk.Accepting { spentDesk with db } := ⟨rfl, rfl⟩
    have hacc : ((createVm plainDto "u1" .user).exec Desk.answer spentDesk).2.accepted =
        [(.vmCreate, createMessage vm plainDto key)] := by
      rw [he, afterPublish_accepting ha]
      rfl
    have hmem : (.vmCreate, createMessage vm plainDto key) ∈
        (Request.createVm plainDto "u1" .user).published spentDesk := by
      rw [Request.published, Desk.after, hacc]
      exact List.mem_singleton.mpr rfl
    have hstart := hm _ hmem
    simp [startsMachine] at hstart

end Hours

end CloudVM.VmService
