import CloudVM.Framework.Run
import CloudVM.Vm.Service
import CloudVM.Worker.Handler

/-!
# The VM service and the worker together

Both programs work on one `virtual_machines` table and talk over the bus. A message of
`vm.create`, `vm.action` or `vm.delete` stays in the stream until it is delivered for the last
time; a status update is delivered at most once. A database write whose connection breaks may
have been committed although its caller sees an error. Answers of OpenNebula are arbitrary.
-/

namespace CloudVM.Plane

open VmService Worker

/-- The parts that are not code of the two programs: the worker's settings and the values
that Prisma's `uuid()` generates. -/
structure Env where
  cfg : WorkerConfig
  uuid : String → Prop

structure World where
  db : VmDb
  stream : List (Subject × Dict)
  updates : List StatusUpdate
  tasks : List PollTask
  locks : List String
  cache : Option (List OneTemplate)

/-- The plane before the first request, over any tables. -/
def World.initial (db : VmDb) : World := ⟨db, [], [], [], [], none⟩

section Writes

/-- `SET ..` of `update_vm_status`, on the row it names. -/
def StatusWrite.apply (u : StatusWrite) (now : Nat) (r : VmRow) : VmRow :=
  { r with
    status := u.status
    updatedAt := now
    ipAddress := u.ipAddress <|> r.ipAddress
    oneVmId := u.oneVmId <|> r.oneVmId
    sshHost := u.sshHost <|> r.sshHost
    sshUsername := u.sshUsername <|> r.sshUsername
    stoppedAt := if u.status = .stopped then r.stoppedAt <|> some now else r.stoppedAt }

/-- `data` of the status subscriber's `updateMany`. -/
def StatusPatch.apply (p : StatusPatch) (now : Nat) (r : VmRow) : VmRow :=
  { r with
    status := p.status
    updatedAt := now
    stoppedAt := p.stoppedAt.getD r.stoppedAt
    ipAddress := p.ipAddress <|> r.ipAddress
    oneVmId := p.oneVmId <|> r.oneVmId
    sshHost := p.sshHost <|> r.sshHost
    sshPort := p.sshPort <|> r.sshPort }

/-- What a writing call does to each row of `virtual_machines`. -/
def rowUpdate (now : Nat) : VmCall → VmRow → VmRow
  | .updateVmStatus u, r => if r.id = u.vmId then StatusWrite.apply u now r else r
  | .deleteVmRecord vmId, r =>
      if r.id = vmId then
        { r with status := .deleted, stoppedAt := r.stoppedAt <|> some now, updatedAt := now }
      else r
  | .markDeleted vmId, r =>
      if r.id = vmId then { r with status := .deleted, updatedAt := now } else r
  | .stampStopped vmId, r =>
      if r.id = vmId ∧ r.stoppedAt = none then { r with stoppedAt := some now, updatedAt := now }
      else r
  | .patchStatus vmId p, r => if r.id = vmId then StatusPatch.apply p now r else r
  | _, r => r

@[simp] theorem rowUpdate_id (now : Nat) (c : VmCall) (r : VmRow) : (rowUpdate now c r).id = r.id := by
  cases c <;> simp only [rowUpdate]
  all_goals
    split
    · rfl
    · rfl

@[simp] theorem rowUpdate_userId (now : Nat) (c : VmCall) (r : VmRow) :
    (rowUpdate now c r).userId = r.userId := by
  cases c <;> simp only [rowUpdate]
  all_goals
    split
    · rfl
    · rfl

def World.written (w : World) (c : VmCall) (now : Nat) : World :=
  { w with db := { w.db with
    vms := w.db.vms.modify (fun _ => true) (rowUpdate now c) (rowUpdate_id now c) } }

end Writes

section Reads

/-- `get_vms_pending_sync`. -/
def pendingVms (vms : VmTable) : List PollTask :=
  vms.rows.filterMap fun r =>
    if r.status = .pending ∨ r.status = .error then
      r.oneVmId.map fun n => { vmId := r.id, oneVmId := n }
    else none

/-- `get_all_active_vms`. -/
def activeRows (vms : VmTable) : List ActiveVm :=
  vms.rows.filterMap fun r =>
    if r.status = .deleted then none
    else r.oneVmId.map fun n => { vmId := r.id, oneVmId := n, dbStatus := r.status }

end Reads

section Effect

/-- A write to the table: done and confirmed, or reported as failed, done or not. -/
def DbWrite {α : Type} (w : World) (c : VmCall) (value : α → Prop) (r : Except Failure α)
    (w' : World) : Prop :=
  ∃ now, (∃ a, value a ∧ r = .ok a ∧ w' = w.written c now) ∨
    (∃ e, r = .error e ∧ (w' = w.written c now ∨ w' = w))

def DbRead {α : Type} (w : World) (value : α) (r : Except Failure α) (w' : World) : Prop :=
  w' = w ∧ (r = .ok value ∨ ∃ e, r = .error e)

variable (env : Env)

/-- The answers to each call and what it leaves behind. -/
def worldEffect : (c : VmCall) → World → VmCall.Answer c → World → Prop
  | .createVmTransaction tx, w, r, w' =>
      (∃ newId now vm db, env.uuid newId ∧ createVmBody tx newId now w.db = .ok (vm, db) ∧
        w' = { w with db } ∧ (r = .ok vm ∨ ∃ message, r = .error (.database message))) ∨
      (∃ e, r = .error e ∧ w' = w)
  | .findVm vmId, w, r, w' => DbRead w (w.db.vms.find? vmId) r w'
  | .publish subject data, w, _, w' =>
      w' = w ∨ w' = { w with stream := w.stream ++ [(subject, data)] }
  | .markDeleted vmId, w, r, w' =>
      DbWrite w (.markDeleted vmId) (fun n : Nat => n = (w.db.vms.find? vmId).toList.length) r w'
  | .stampStopped vmId, w, r, w' => DbWrite w (.stampStopped vmId) (fun _ : Nat => True) r w'
  | .patchStatus vmId p, w, r, w' => DbWrite w (.patchStatus vmId p) (fun _ : Nat => True) r w'
  | .acquireCreateLock vmId, w, r, w' =>
      (r = .ok true ∧ vmId ∉ w.locks ∧ w' = { w with locks := vmId :: w.locks }) ∨
      (r = .ok false ∧ vmId ∈ w.locks ∧ w' = w) ∨
      (∃ e, r = .error e ∧ (w' = w ∨ w' = { w with locks := vmId :: w.locks }))
  | .releaseCreateLock vmId, w, _, w' => w' = w ∨ w' = { w with locks := w.locks.erase vmId }
  | .selectOneVmId vmId, w, r, w' =>
      DbRead w ((w.db.vms.find? vmId).bind VmRow.oneVmId) r w'
  | .selectPendingVms, w, r, w' => DbRead w (pendingVms w.db.vms) r w'
  | .selectActiveVms, w, r, w' => DbRead w (activeRows w.db.vms) r w'
  | .updateVmStatus u, w, r, w' => DbWrite w (.updateVmStatus u) (fun _ : Unit => True) r w'
  | .deleteVmRecord vmId, w, r, w' => DbWrite w (.deleteVmRecord vmId) (fun _ : Unit => True) r w'
  | .readTemplateCache, w, r, w' => r = w.cache ∧ w' = w
  | .writeTemplateCache templates, w, _, w' => w' = { w with cache := templates }
  | .publishStatus m, w, _, w' => w' = w ∨ w' = { w with updates := w.updates ++ [m] }
  | .createTask t, w, _, w' => w' = { w with tasks := w.tasks ++ [t] }
  | _, w, _, w' => w' = w

/-- What a call can do to the VM rows: nothing, its update of each row, or one new row. -/
theorem worldEffect_vms {env : Env} {c : VmCall} {w w' : World} {r : VmCall.Answer c}
    (h : worldEffect env c w r w') :
    w'.db.vms = w.db.vms ∨ (∃ now, w' = w.written c now) ∨
      ∃ tx newId now, c = .createVmTransaction tx ∧ env.uuid newId ∧
        newId ∉ w.db.vms.rows.map VmRow.id ∧
        w'.db.vms.rows = w.db.vms.rows ++ [newVm tx newId now] := by
  cases c
  case createVmTransaction tx =>
    rcases h with ⟨newId, now, vm, db, hu, hbody, rfl, -⟩ | ⟨e, -, rfl⟩
    · obtain ⟨rfl, hfresh, hrows, -⟩ := createVmBody_ok hbody
      exact .inr (.inr ⟨tx, newId, now, rfl, hu, hfresh, hrows⟩)
    · exact .inl rfl
  case acquireCreateLock vmId =>
    rcases h with ⟨-, -, rfl⟩ | ⟨-, -, rfl⟩ | ⟨e, -, rfl | rfl⟩ <;> exact .inl rfl
  case publish | publishStatus | releaseCreateLock =>
    rcases h with rfl | rfl <;> exact .inl rfl
  case markDeleted | stampStopped | patchStatus | updateVmStatus | deleteVmRecord =>
    rcases h with ⟨now, ⟨a, -, -, rfl⟩ | ⟨e, -, rfl | rfl⟩⟩
    · exact .inr (.inl ⟨now, rfl⟩)
    · exact .inr (.inl ⟨now, rfl⟩)
    · exact .inl rfl
  case findVm | selectOneVmId | selectPendingVms | selectActiveVms =>
    obtain ⟨rfl, -⟩ := h
    exact .inl rfl
  case readTemplateCache =>
    obtain ⟨-, rfl⟩ := h
    exact .inl rfl
  all_goals
    obtain rfl := h
    exact .inl rfl

theorem worldEffect_queues {env : Env} {c : VmCall} {w w' : World} {r : VmCall.Answer c}
    (he : worldEffect env c w r w') :
    (∀ m ∈ w'.stream, m ∈ w.stream ∨ c = .publish m.1 m.2) ∧
    (∀ m ∈ w'.updates, m ∈ w.updates ∨ c = .publishStatus m) ∧
    (∀ t ∈ w'.tasks, t ∈ w.tasks ∨ c = .createTask t) := by
  cases c
  case publish subject data =>
    rcases he with rfl | rfl
    · exact ⟨fun _ => .inl, fun _ => .inl, fun _ => .inl⟩
    · refine ⟨fun m hm => ?_, fun _ => .inl, fun _ => .inl⟩
      rcases List.mem_append.mp hm with hm | hm
      · exact .inl hm
      · rw [List.mem_singleton] at hm
        subst hm
        exact .inr rfl
  case publishStatus m =>
    rcases he with rfl | rfl
    · exact ⟨fun _ => .inl, fun _ => .inl, fun _ => .inl⟩
    · refine ⟨fun _ => .inl, fun m' hm => ?_, fun _ => .inl⟩
      rcases List.mem_append.mp hm with hm | hm
      · exact .inl hm
      · rw [List.mem_singleton] at hm
        subst hm
        exact .inr rfl
  case createTask t =>
    obtain rfl := he
    refine ⟨fun _ => .inl, fun _ => .inl, fun t' ht => ?_⟩
    rcases List.mem_append.mp ht with ht | ht
    · exact .inl ht
    · rw [List.mem_singleton] at ht
      subst ht
      exact .inr rfl
  case createVmTransaction tx =>
    rcases he with ⟨newId, now, vm, db, -, -, rfl, -⟩ | ⟨e, -, rfl⟩ <;>
      exact ⟨fun _ => .inl, fun _ => .inl, fun _ => .inl⟩
  case acquireCreateLock vmId =>
    rcases he with ⟨-, -, rfl⟩ | ⟨-, -, rfl⟩ | ⟨e, -, rfl | rfl⟩ <;>
      exact ⟨fun _ => .inl, fun _ => .inl, fun _ => .inl⟩
  case releaseCreateLock vmId =>
    rcases he with rfl | rfl <;> exact ⟨fun _ => .inl, fun _ => .inl, fun _ => .inl⟩
  case markDeleted | stampStopped | patchStatus | updateVmStatus | deleteVmRecord =>
    rcases he with ⟨now, ⟨a, -, -, rfl⟩ | ⟨e, -, rfl | rfl⟩⟩ <;>
      exact ⟨fun _ => .inl, fun _ => .inl, fun _ => .inl⟩
  case findVm | selectOneVmId | selectPendingVms | selectActiveVms =>
    obtain ⟨rfl, -⟩ := he
    exact ⟨fun _ => .inl, fun _ => .inl, fun _ => .inl⟩
  case readTemplateCache =>
    obtain ⟨-, rfl⟩ := he
    exact ⟨fun _ => .inl, fun _ => .inl, fun _ => .inl⟩
  all_goals
    obtain rfl := he
    exact ⟨fun _ => .inl, fun _ => .inl, fun _ => .inl⟩

/-- A request whose result is sent to the caller. -/
def request {α : Type} (p : VmProcess α) : VmProcess Unit := do
  let _ ← p
  pure ()

/-- What may start: requests of users, deliveries, background tasks and the worker's loops. -/
inductive Starts : World → VmProcess Unit → World → Prop
  | createVm {w : World} (dto : CreateVmDto) (userId : String) (role : Role)
      (hv : dto.valid = true) (hu : env.uuid userId) :
      Starts w (request (VmService.createVm dto userId role)) w
  | vmAction {w : World} (vmId : String) (action : VmAction) (userId : String) (role : Role)
      (hu : env.uuid userId) : Starts w (request (VmService.vmAction vmId action userId role)) w
  | deleteVm {w : World} (vmId userId : String) (role : Role) (hu : env.uuid userId) :
      Starts w (request (VmService.deleteVm vmId userId role)) w
  | redeliver {w : World} {subject : Subject} {data : Dict} (hm : (subject, data) ∈ w.stream) :
      Starts w (handleMessage env.cfg subject data) w
  | deliver {w : World} {subject : Subject} {data : Dict} (hm : (subject, data) ∈ w.stream) :
      Starts w (handleMessage env.cfg subject data)
        { w with stream := w.stream.erase (subject, data) }
  | update {w : World} {m : StatusUpdate} (hm : m ∈ w.updates) :
      Starts w (onStatusUpdate m) { w with updates := w.updates.erase m }
  | poll {w : World} {t : PollTask} (ht : t ∈ w.tasks) :
      Starts w (waitForIpAndUpdate env.cfg t) { w with tasks := w.tasks.erase t }
  | startWorker {w : World} : Starts w startWorker w
  | reconnect {w : World} : Starts w reconnect w
  | syncAllVmStates {w : World} : Starts w syncAllVmStates w

/-- A lock runs out, a message or an update is lost, the worker forgets what it had in memory. -/
inductive Loses : World → World → Prop
  | lock {w : World} (vmId : String) : Loses w { w with locks := w.locks.erase vmId }
  | message {w : World} (m : Subject × Dict) : Loses w { w with stream := w.stream.erase m }
  | update {w : World} (m : StatusUpdate) : Loses w { w with updates := w.updates.erase m }
  | restart {w : World} : Loses w { w with tasks := [], cache := none }

def plane : Surroundings vmInterface Failure Unit World where
  effect := worldEffect env
  start := Starts env
  change := Loses

abbrev PlanePool := Pool vmInterface Failure Unit World

/-- The states of the plane that a run from any tables of well-formed rows leads to. -/
def Reachable (x : PlanePool) : Prop :=
  ∃ db trace, (∀ r ∈ db.vms.rows, env.uuid r.id) ∧
    Run (Pool.Step (plane env)) ⟨World.initial db, []⟩ trace x

end Effect

end CloudVM.Plane
