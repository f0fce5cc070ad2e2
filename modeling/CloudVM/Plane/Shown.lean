import CloudVM.Plane.Calls

/-!
# Who is shown a status change

The events gateway sends a status update to the room of one user and to the admins. The user is
whom the message names, or else the owner of the VM. A message that names a user comes from a
deletion, and names who has asked for it.
-/

namespace CloudVM

open Process

section Gateway

inductive Room where
  | user (userId : String)
  | admin
deriving DecidableEq, Repr

/-- The payload of `vm:status`; `vmName` is there once the VM was looked up. -/
structure VmStatusEvent where
  data : StatusUpdate
  vmName : Option String := none
deriving DecidableEq, Repr

inductive EventCall where
  | findVm (vmId : String)
  | emit (room : Room) (event : VmStatusEvent)

@[reducible] def EventCall.Answer : EventCall → Type
  | .findVm _ => Except Failure (Option VmRow)
  | .emit _ _ => Except Failure Unit

@[reducible] def eventInterface : Interface where
  Call := EventCall
  Answer := EventCall.Answer

namespace VmEventsGateway

def findVm (vmId : String) : Process eventInterface Failure (Option VmRow) :=
  .call (.findVm vmId) .ofExcept

def emit (room : Room) (event : VmStatusEvent) : Process eventInterface Failure Unit :=
  .call (.emit room event) .ofExcept

def emitTo (userId : String) (event : VmStatusEvent) : Process eventInterface Failure Unit := do
  emit (.user userId) event
  emit .admin event

def broadcastVmStatus (data : StatusUpdate) : Process eventInterface Failure Unit :=
  tryCatch (do
    match VmService.truthyText data.userId with
    | some userId => emitTo userId { data }
    | none =>
      match ← findVm data.vmId with
      | none => pure ()
      | some vm => emitTo vm.userId { data, vmName := some vm.name })
    fun _ => pure ()

/-- The rooms are there; the database answers from the tables or fails. -/
def answer (failure : Option Failure) (vms : VmTable) :
    (c : EventCall) → List (Room × VmStatusEvent) → c.Answer × List (Room × VmStatusEvent)
  | .findVm vmId, sent =>
      (match failure with
        | some e => .error e
        | none => .ok (vms.find? vmId), sent)
  | .emit room event, sent => (.ok (), sent ++ [(room, event)])

def rooms (failure : Option Failure) (vms : VmTable) (data : StatusUpdate) : List Room :=
  ((broadcastVmStatus data).exec (answer failure vms) []).2.map Prod.fst

/-- The update is shown to the owner of the VM and to the admins, and to nobody else. -/
def Shown (failure : Option Failure) (vms : VmTable) (vm : VmRow) (data : StatusUpdate) : Prop :=
  rooms failure vms data = [.user vm.userId, .admin]

/-- A message is shown as it should exactly if it names the owner, or nobody while the database
works. -/
theorem shown_iff {failure : Option Failure} {vms : VmTable} {vm : VmRow} {data : StatusUpdate}
    (hvm : vm ∈ vms.rows) (hid : vm.id = data.vmId) :
    Shown failure vms vm data ↔
      match VmService.truthyText data.userId with
      | some userId => userId = vm.userId
      | none => failure = none := by
  have hfind : vms.find? data.vmId = some vm := (Table.find?_eq_some _).mpr ⟨hvm, hid⟩
  unfold Shown rooms broadcastVmStatus
  cases huser : VmService.truthyText data.userId with
  | some userId => simp [emitTo, emit, answer]
  | none =>
    cases failure with
    | some e => simp [findVm, answer]
    | none => simp [findVm, answer, hfind, emitTo, emit]

end VmEventsGateway

end Gateway

namespace Plane

open VmService Worker VmEventsGateway

section Runs

variable {env : Env} {x y : PlanePool} {l : PoolLabel vmInterface} {w w' : World}

def Owns (w : World) (v userId : String) : Prop :=
  ∃ r ∈ w.db.vms.rows, r.id = v ∧ r.userId = userId

def NamesOwner (w : World) (c : VmCall) : Prop :=
  ∀ v userId, namedUser c = some (v, userId) → Owns w v userId

/-- A deletion that is handed to the worker was asked for by the owner. -/
def OwnDeletion (x : PlanePool) (l : PoolLabel vmInterface) : Prop :=
  ∀ (i : Nat) (data : Dict) (a : Except Failure Unit) (d : VmDeleteData),
    l = .act i (VmCall.publish .vmDelete data) a → VmDeleteData.ofDict? data = some d →
    Owns x.state d.vmId d.userId

structure Owned (x : PlanePool) : Prop where
  procs : ∀ p ∈ x.procs, p.Only (NamesOwner x.state)
  stream : ∀ data d, (Subject.vmDelete, data) ∈ x.state.stream →
    VmDeleteData.ofDict? data = some d → Owns x.state d.vmId d.userId
  updates : ∀ m ∈ x.state.updates, NamesOwner x.state (.publishStatus m)

theorem Owns.effect {c : VmCall} {r : c.Answer} {v userId : String} (h : Owns w v userId)
    (he : worldEffect env c w r w') : Owns w' v userId := by
  obtain ⟨row, hrow, hid, howner⟩ := h
  rcases worldEffect_vms he with heq | ⟨now, rfl⟩ | ⟨tx, newId, now, -, -, -, hrows⟩
  · exact ⟨row, heq ▸ hrow, hid, howner⟩
  · refine ⟨rowUpdate now c row, ?_, ?_, ?_⟩
    · simp only [World.written, Table.rows_modify, if_true]
      exact List.mem_map_of_mem hrow
    · rw [rowUpdate_id, hid]
    · rw [rowUpdate_userId, howner]
  · refine ⟨row, ?_, hid, howner⟩
    rw [hrows]
    exact List.mem_append_left _ hrow

private theorem NamesOwner.mono {c : VmCall} (h : NamesOwner w c)
    (hw : ∀ v userId, Owns w v userId → Owns w' v userId) : NamesOwner w' c :=
  fun v userId hnamed => hw v userId (h v userId hnamed)

private theorem namesOwner_of_anonymous {p : VmProcess Unit} (h : p.Only Anonymous) :
    p.Only (NamesOwner w) := by
  apply h.mono
  intro c hc v userId hnamed
  rw [hc] at hnamed
  cases hnamed

private theorem namesOwner_of_discreet {p : VmProcess Unit} (h : p.Only (Discreet none)) :
    p.Only (NamesOwner w) :=
  namesOwner_of_anonymous (h.mono fun _ => anonymous_of_discreet)

private theorem only_subscriber {M : VmCall → Prop} {δ : Type} (accepted : Except String Unit)
    {data : Option δ} {handle : δ → VmProcess Unit} (hack : M .ack)
    (h : ∀ d, data = some d → (handle d).Only M) : (subscriber accepted data handle).Only M := by
  have hacks : ack.Only M := ⟨hack, fun _ => trivial⟩
  unfold subscriber
  split
  · exact only_tryCatch (only_bind (h _ rfl) fun _ => hacks) fun _ => hacks
  · exact hacks

private theorem handleMessage_namesOwner {subject : Subject} {data : Dict}
    (h : subject = .vmDelete → ∀ d, VmDeleteData.ofDict? data = some d →
      Owns w d.vmId d.userId) : (handleMessage env.cfg subject data).Only (NamesOwner w) := by
  have hack : NamesOwner w .ack := by
    rintro v userId ⟨⟩
  cases subject with
  | vmCreate =>
    apply only_subscriber _ hack
    intro d hd
    exact namesOwner_of_discreet (createVm_discreet env.cfg d)
  | vmAction =>
    apply only_subscriber _ hack
    intro d hd
    exact namesOwner_of_anonymous (vmAction_anonymous d)
  | vmDelete =>
    apply only_subscriber _ hack
    intro d hd
    apply (deleteVm_discreet env.cfg d).mono
    rintro c ⟨-, hnobody | huser⟩ v userId hnamed
    · rw [hnobody] at hnamed
      cases hnamed
    · rw [huser] at hnamed
      cases hnamed
      exact h rfl d hd

private theorem start_namesOwner {p : VmProcess Unit} (hs : Starts env w p w')
    (hstream : ∀ data d, (Subject.vmDelete, data) ∈ w.stream →
      VmDeleteData.ofDict? data = some d → Owns w d.vmId d.userId) : p.Only (NamesOwner w) := by
  cases hs with
  | createVm dto userId role =>
    exact namesOwner_of_discreet (createVm_request_discreet dto userId role)
  | vmAction vmId action userId role =>
    exact namesOwner_of_discreet (vmAction_request_discreet vmId action userId role)
  | deleteVm vmId userId role =>
    exact namesOwner_of_discreet (deleteVm_request_discreet vmId userId role)
  | redeliver hm =>
    apply handleMessage_namesOwner
    rintro rfl d hd
    exact hstream _ d hm hd
  | deliver hm =>
    apply handleMessage_namesOwner
    rintro rfl d hd
    exact hstream _ d hm hd
  | update hm => exact namesOwner_of_anonymous (onStatusUpdate_anonymous _)
  | poll ht => exact namesOwner_of_discreet (waitForIpAndUpdate_discreet env.cfg _)
  | startWorker => exact namesOwner_of_discreet startWorker_discreet
  | reconnect => exact namesOwner_of_discreet reconnect_discreet
  | syncAllVmStates => exact namesOwner_of_anonymous syncAllVmStates_anonymous

private theorem owned_step (hx : Owned x) (hown : OwnDeletion x l)
    (h : Pool.Step (plane env) x l y) : Owned y := by
  -- what no answer and no start changes
  have hkeep : ∀ {z : PlanePool}, (∀ p ∈ z.procs, p.Only (NamesOwner x.state)) →
      z.state.db = x.state.db → (∀ m ∈ z.state.stream, m ∈ x.state.stream) →
      (∀ m ∈ z.state.updates, m ∈ x.state.updates) → Owned z := by
    intro z hprocs hdb hstream hupdates
    have howns : ∀ v userId, Owns x.state v userId → Owns z.state v userId := by
      intro v userId hv
      unfold Owns
      rw [hdb]
      exact hv
    refine ⟨fun p hp => (hprocs p hp).mono fun c hc => hc.mono howns, ?_, ?_⟩
    · intro data d hm hd
      exact howns _ _ (hx.stream data d (hstream _ hm) hd)
    · intro m hm
      exact (hx.updates m (hupdates m hm)).mono howns
  cases l with
  | act i c a =>
    obtain ⟨k, hp, he, hprocs⟩ := h.act_inv
    obtain ⟨hcall, hnext⟩ := hx.procs _ (List.mem_of_getElem? hp)
    obtain ⟨hstream, hupdates, -⟩ := worldEffect_queues he
    have howns : ∀ v userId, Owns x.state v userId → Owns y.state v userId :=
      fun v userId hv => hv.effect he
    refine ⟨?_, ?_, ?_⟩
    · rw [hprocs]
      apply forall_mem_set
      · intro j p _ hj
        exact (hx.procs p (List.mem_of_getElem? hj)).mono fun c hc => hc.mono howns
      · exact (hnext a).mono fun c hc => hc.mono howns
    · intro data d hm hd
      apply howns
      rcases hstream _ hm with hm | rfl
      · exact hx.stream data d hm hd
      · exact hown i data a d rfl hd
    · intro m hm
      rcases hupdates m hm with hm | rfl
      · exact (hx.updates m hm).mono howns
      · exact hcall.mono howns
  | start =>
    cases h with
    | start hs =>
      have hnew := start_namesOwner hs hx.stream
      have hprocs := fun p hp => (List.mem_append.mp hp).elim (hx.procs p)
        fun hp => List.mem_singleton.mp hp ▸ hnew
      cases hs
      case deliver hm => exact hkeep hprocs rfl (fun _ => List.mem_of_mem_erase) fun _ => id
      case update hm => exact hkeep hprocs rfl (fun _ => id) fun _ => List.mem_of_mem_erase
      all_goals exact hkeep hprocs rfl (fun _ => id) fun _ => id
  | crash =>
    cases h with
    | crash i => exact hkeep (fun p hp => hx.procs p (List.mem_of_mem_eraseIdx hp)) rfl (fun _ => id) fun _ => id
  | surroundings =>
    cases h with
    | surroundings hc =>
      cases hc with
      | lock vmId => exact hkeep hx.procs rfl (fun _ => id) fun _ => id
      | message m => exact hkeep hx.procs rfl (fun _ => List.mem_of_mem_erase) fun _ => id
      | update m => exact hkeep hx.procs rfl (fun _ => id) fun _ => List.mem_of_mem_erase
      | restart => exact hkeep hx.procs rfl (fun _ => id) fun _ => id

/-- Where only owners' deletions are handed to the worker, every status update that is on its way is
shown to the owner of its VM, unless the owner has to be looked up and the database fails. -/
theorem updates_shown (env : Env) (db : VmDb)
    {trace : List (PoolLabel vmInterface × PlanePool)} {x : PlanePool}
    (h : Run (fun x l y => Pool.Step (plane env) x l y ∧ OwnDeletion x l) ⟨World.initial db, []⟩
      trace x) {m : StatusUpdate} (hm : m ∈ x.state.updates) {vm : VmRow}
    (hvm : vm ∈ x.state.db.vms.rows) (hid : vm.id = m.vmId) (failure : Option Failure) :
    Shown failure x.state.db.vms vm m ↔ (truthyText m.userId = none → failure = none) := by
  have hstart : Owned ⟨World.initial db, []⟩ := by
    constructor
    · simp
    · simp [World.initial]
    · simp [World.initial]
  have hx : Owned x := h.invariant hstart fun _ _ _ ht hs => owned_step ht hs.2 hs.1
  rw [shown_iff hvm hid]
  cases huser : truthyText m.userId with
  | none => simp
  | some userId =>
    have hnamed : m.userId = some userId := by
      unfold truthyText at huser
      exact (Option.filter_eq_some_iff.mp huser).1
    obtain ⟨row, hrow, hrowid, howner⟩ := hx.updates m hm m.vmId userId (by simp [namedUser, hnamed])
    have hsame : row = vm := x.state.db.vms.eq_of_key_eq hrow hvm (hrowid.trans hid.symm)
    rw [hsame] at howner
    simp [howner]

end Runs

section Sample

private def eventEnv : Env where
  cfg := { lower := id, asciiFold := id }
  uuid s := isUuidText s = true

private def ownerId : String := "7f1d6c1e-3a52-4c8b-9d07-5b1f0e2a6c34"

private def operatorId : String := "2c9e4f10-6b7a-4d35-8e21-0f9a8b7c6d5e"

private def unmadeVm : VmRow := .sample "0b0e3c1a-5d2f-4f6a-9c3e-1a2b3c4d5e6f" ownerId

private def unmadeDb : VmDb := ⟨Table.empty.insert unmadeVm (by simp), .empty⟩

private def deletionNews (userId : String) : StatusUpdate :=
  { vmId := unmadeVm.id, status := .row .deleted, userId := some userId }

/-- The news of the deletion that `userId` asked for is on its way. -/
private def Announced (userId : String) (x : PlanePool) : Prop :=
  deletionNews userId ∈ x.state.updates ∧
    ∃ vm ∈ x.state.db.vms.rows, vm.id = unmadeVm.id ∧ vm.userId = ownerId

private theorem foreign_run : Reaches (Pool.Step (plane eventEnv)) ⟨World.initial unmadeDb, []⟩
    (Announced operatorId) := by
  have hu : eventEnv.uuid operatorId := by
    unfold eventEnv
    decide
  apply Reaches.next (.start (.deleteVm unmadeVm.id operatorId .admin hu))
  apply Reaches.next (.act (I := vmInterface) (i := 0) (c := .findVm unmadeVm.id)
    (r := .ok (some unmadeVm)) rfl ⟨rfl, .inl rfl⟩)
  apply Reaches.next (.act (I := vmInterface) (i := 0)
    (c := .publish .vmDelete (deleteMessage unmadeVm operatorId)) (r := .ok ()) rfl (.inr rfl))
  apply Reaches.next (.start (.deliver (.head _)))
  apply Reaches.next (.act (I := vmInterface) (i := 1) (c := .deleteVmRecord unmadeVm.id)
    (r := .ok ()) rfl ⟨0, .inl ⟨(), trivial, rfl, rfl⟩⟩)
  apply Reaches.next (.act (I := vmInterface) (i := 1) (c := .publishStatus (deletionNews operatorId))
    (r := .ok ()) rfl (.inr rfl))
  apply Reaches.here
  exact ⟨.head _, _, .head _, rfl, rfl⟩

/-- An admin deletes the VM of another user. The news goes to the admin's own room. -/
theorem foreign_deletion_not_shown : ¬ ∀ (env : Env) (db : VmDb)
    (trace : List (PoolLabel vmInterface × PlanePool)) (x : PlanePool) (m : StatusUpdate) (vm : VmRow),
    Run (Pool.Step (plane env)) ⟨World.initial db, []⟩ trace x → m ∈ x.state.updates →
    vm ∈ x.state.db.vms.rows → vm.id = m.vmId → Shown none x.state.db.vms vm m := by
  intro h
  obtain ⟨trace, x, hrun, hm, vm, hvm, hid, howner⟩ := foreign_run
  have hsame : operatorId = vm.userId := (shown_iff hvm hid).mp (h _ _ _ _ _ _ hrun hm hvm hid)
  rw [howner] at hsame
  revert hsame
  decide

private theorem own_run :
    Reaches (fun x l y => Pool.Step (plane eventEnv) x l y ∧ OwnDeletion x l)
      ⟨World.initial unmadeDb, []⟩ (Announced ownerId) := by
  have hu : eventEnv.uuid ownerId := by
    unfold eventEnv
    decide
  have hother : ∀ x (l : PoolLabel vmInterface), (∀ (i : Nat) (data : Dict) (a : Except Failure Unit),
      l ≠ .act i (VmCall.publish .vmDelete data) a) → OwnDeletion x l :=
    fun x l hl i data a d heq _ => absurd heq (hl i data a)
  have hown : ∀ (procs : List (VmProcess Unit)) (a : Except Failure Unit),
      OwnDeletion ⟨World.initial unmadeDb, procs⟩
        (.act 0 (VmCall.publish .vmDelete (deleteMessage unmadeVm ownerId)) a) := by
    intro procs a i data a' d heq hd
    simp only [PoolLabel.act.injEq, VmCall.publish.injEq] at heq
    obtain ⟨-, ⟨-, rfl⟩, -⟩ := heq
    cases hd
    exact ⟨unmadeVm, .head _, rfl, rfl⟩
  apply Reaches.next ⟨.start (.deleteVm unmadeVm.id ownerId .user hu), hother _ _ (by simp)⟩
  apply Reaches.next ⟨.act (I := vmInterface) (i := 0) (c := .findVm unmadeVm.id)
    (r := .ok (some unmadeVm)) rfl ⟨rfl, .inl rfl⟩, hother _ _ (by simp)⟩
  apply Reaches.next ⟨.act (I := vmInterface) (i := 0)
    (c := .publish .vmDelete (deleteMessage unmadeVm ownerId)) (r := .ok ()) rfl (.inr rfl), hown _ _⟩
  apply Reaches.next ⟨.start (.deliver (.head _)), hother _ _ (by simp)⟩
  apply Reaches.next ⟨.act (I := vmInterface) (i := 1) (c := .deleteVmRecord unmadeVm.id)
    (r := .ok ()) rfl ⟨0, .inl ⟨(), trivial, rfl, rfl⟩⟩, hother _ _ (by simp)⟩
  apply Reaches.next ⟨.act (I := vmInterface) (i := 1) (c := .publishStatus (deletionNews ownerId))
    (r := .ok ()) rfl (.inr rfl), hother _ _ (by simp)⟩
  apply Reaches.here
  exact ⟨.head _, _, .head _, rfl, rfl⟩

/-- The owner sees the end of a deletion of their own. -/
theorem updates_shown_own : ∃ trace x vm,
    Run (fun x l y => Pool.Step (plane eventEnv) x l y ∧ OwnDeletion x l)
      ⟨World.initial unmadeDb, []⟩ trace x ∧
    vm ∈ x.state.db.vms.rows ∧ Shown none x.state.db.vms vm (deletionNews ownerId) := by
  obtain ⟨trace, x, hrun, hm, vm, hvm, hid, -⟩ := own_run
  exact ⟨trace, x, vm, hrun, hvm,
    (updates_shown eventEnv unmadeDb hrun hm hvm hid none).mpr fun _ => rfl⟩

end Sample

end Plane

end CloudVM
