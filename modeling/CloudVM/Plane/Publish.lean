import CloudVM.Framework.Logic
import CloudVM.Plane.World

/-!
# What the VM service publishes, the worker accepts

The messages of `createVm`, `vmAction` and `deleteVm` against the three validators of the
worker, over every reachable state of the plane.
-/

namespace CloudVM.Plane

open VmService Worker Text Process

section Names

private theorem vmNameChar_range {c : Char} (h : isVmNameChar c = true) :
    c.toNat = 45 ∨ (48 ≤ c.toNat ∧ c.toNat ≤ 122) := by
  delta isVmNameChar Char.isAlphanum Char.isAlpha Char.isUpper Char.isLower Char.isDigit at h
  simp only [Bool.or_eq_true, Bool.and_eq_true, decide_eq_true_eq, beq_iff_eq, ge_iff_le,
    UInt32.le_iff_toNat_le] at h
  change _ ∨ (48 ≤ c.val.toNat ∧ c.val.toNat ≤ 122)
  rcases h with ((h | h) | h) | h
  · right
    exact ⟨le_trans (by decide) h.1, le_trans h.2 (by decide)⟩
  · right
    exact ⟨le_trans (by decide) h.1, le_trans h.2 (by decide)⟩
  · right
    exact ⟨le_trans (by decide) h.1, le_trans h.2 (by decide)⟩
  · left
    subst h
    rfl

private theorem vmNameChar_not_space {c : Char} (h : isVmNameChar c = true) : pySpace c = false := by
  have hr := vmNameChar_range h
  simp only [pySpace, Bool.or_eq_false_iff, Bool.and_eq_false_iff, decide_eq_false_iff_not,
    beq_eq_false_iff_ne]
  omega

/-- A name the API accepts passes both name checks of the worker. -/
theorem name_accepted {name : String} (hl : lengthBetween name 1 64 = true)
    (hc : allIn isVmNameChar name = true) : vmNameOk name = true ∧ pyStrip name ≠ "" := by
  simp only [allIn, Bool.and_eq_true, Bool.not_eq_true', List.isEmpty_eq_false_iff,
    List.all_eq_true] at hc
  obtain ⟨hne, hall⟩ := hc
  have hlen : validatorLength name = name.toList.length := by
    rw [validatorLength, List.filter_eq_self.mpr]
    intro c hm
    have hr := vmNameChar_range (hall c hm)
    simp only [Bool.and_eq_true, bne_iff_ne, ne_eq]
    omega
  constructor
  · simp only [vmNameOk, allIn, Bool.and_eq_true, Bool.not_eq_true', List.isEmpty_eq_false_iff,
      List.all_eq_true, decide_eq_true_eq]
    simp only [lengthBetween, hlen, Bool.and_eq_true, decide_eq_true_eq] at hl
    exact ⟨⟨hne, hall⟩, hl.2⟩
  · intro he
    obtain ⟨c, hm⟩ := List.exists_mem_of_ne_nil _ hne
    have hspace := List.all_eq_true.mp ((stripBy_eq_empty pySpace name).mp he) c hm
    rw [vmNameChar_not_space (hall c hm)] at hspace
    exact Bool.noConfusion hspace

end Names

section Messages

/-- The worker takes a `vm.create` message of a valid request unless the template name is
blank to it. -/
theorem createMessage_accepted {dto : CreateVmDto} {tx : CreateVmTx} {newId key : String}
    {now : Nat} (hdto : tx.dto = dto) (hv : dto.valid = true) (hid : isUuidText newId = true)
    (hu : isUuidText tx.userId = true) :
    validateVmCreate (createMessage (newVm tx newId now) dto key) = .ok () ↔
      ¬ dto.osTemplate.toList.all pySpace = true := by
  subst hdto
  simp only [CreateVmDto.valid, Bool.and_eq_true, intBetween, decide_eq_true_eq] at hv
  obtain ⟨⟨⟨⟨⟨⟨⟨⟨⟨⟨hlen, hchars⟩, hcpu⟩, hram⟩, hdisk⟩, -⟩, -⟩, -⟩, -⟩, -⟩, -⟩ := hv
  obtain ⟨hname, hstrip⟩ := name_accepted hlen hchars
  rw [← stripBy_eq_empty, validateVmCreate, firstFailure_ok]
  simp [requiredFields, createMessage, newVm, Dict.has, Dict.get?, List.lookup_cons, isUuid, hid, hu,
    isNonBlank, hstrip, nameMatches, hname, positiveInt, Value.asInt]
  exact and_iff_left ⟨by omega, by omega, by omega⟩

/-- The worker takes a `vm.action` message exactly if the row has its OpenNebula id. -/
theorem actionMessage_accepted {vm : VmRow} {action : VmAction} {userId : String}
    (hid : isUuidText vm.id = true) (hu : isUuidText userId = true) :
    validateVmAction (actionMessage vm action userId) = .ok () ↔ vm.oneVmId ≠ none := by
  rw [validateVmAction, firstFailure_ok]
  cases hone : vm.oneVmId with
  | none =>
    simp [requiredFields, actionMessage, Dict.has, Dict.get?, List.lookup_cons, isUuid, hid, hu, isInt,
      hone, Value.ofOptionInt, Value.asInt]
  | some n =>
    cases action <;>
      simp [requiredFields, actionMessage, Dict.has, Dict.get?, List.lookup_cons, isUuid, hid, hu, isInt,
        hone, Value.ofOptionInt, Value.asInt, knownAction, VmAction.name]

theorem deleteMessage_accepted {vm : VmRow} {userId : String} (hid : isUuidText vm.id = true)
    (hu : isUuidText userId = true) : validateVmDelete (deleteMessage vm userId) = .ok () := by
  rw [validateVmDelete, firstFailure_ok]
  cases hone : vm.oneVmId <;>
    simp [deleteMessage, Dict.has, Dict.get?, List.lookup_cons, isUuid, hid, hu, hone,
      Value.ofOptionInt, absentOrInt, Value.asInt]

end Messages

section Reachable

variable {env : Env}

theorem rowIds_effect (c : VmCall) (w : World) (r : VmCall.Answer c) (w' : World)
    (h : ∀ x ∈ w.db.vms.rows, env.uuid x.id) (he : worldEffect env c w r w') :
    ∀ x ∈ w'.db.vms.rows, env.uuid x.id := by
  rcases worldEffect_vms he with heq | ⟨now, rfl⟩ | ⟨tx, newId, now, -, hu, -, hrows⟩
  · rw [heq]
    exact h
  · intro x hx
    simp only [World.written, Table.rows_modify, if_true, List.mem_map] at hx
    obtain ⟨y, hy, rfl⟩ := hx
    rw [rowUpdate_id]
    exact h y hy
  · rw [hrows]
    intro x hx
    rcases List.mem_append.mp hx with hx | hx
    · exact h x hx
    · rw [List.mem_singleton] at hx
      subst hx
      exact hu

/-- In every reachable state every VM row bears a generated id. -/
theorem rowIds_reachable {x : PlanePool} (hx : Reachable env x) :
    ∀ r ∈ x.state.db.vms.rows, env.uuid r.id := by
  obtain ⟨db, trace, hdb, hrun⟩ := hx
  refine hrun.invariant (J := fun x => ∀ r ∈ x.state.db.vms.rows, env.uuid r.id) hdb ?_
  apply Pool.state_invariant (J := fun w : World => ∀ r ∈ w.db.vms.rows, env.uuid r.id)
  · exact rowIds_effect
  · intro w p w' h hs
    cases hs <;> exact h
  · intro w w' h hc
    cases hc <;> exact h

end Reachable

section Sends

variable {env : Env} {M : Subject → Dict → Prop}

/-- Calls that publish nothing outside `M`. -/
def MessagesIn (M : Subject → Dict → Prop) : World → VmCall → Prop
  | _, .publish subject data => M subject data
  | _, _ => True

/-- Every message that the process publishes when run from `w` satisfies `M`. -/
def Sends (env : Env) (w : World) {α : Type} (p : VmProcess α) (M : Subject → Dict → Prop) : Prop :=
  p.Wp (MessagesIn M) (worldEffect env) (fun _ _ => True) w

private theorem generateSshKey_wp
    {Q : Except Failure (String × Option String × Option String) → World → Prop}
    (hQ : ∀ r w, Q r w) (w : World) :
    generateSshKey.Wp (MessagesIn M) (worldEffect env) Q w := by
  refine (wp_bind _ _ _ _).mpr ⟨trivial, fun r w _ => ?_⟩
  cases r with
  | error e => exact hQ _ _
  | ok pair =>
    refine (wp_bind _ _ _ _).mpr ⟨trivial, fun r w _ => ?_⟩
    cases r <;> exact hQ _ _

private theorem chooseSshKey_wp (dto : CreateVmDto)
    {Q : Except Failure (String × Option String × Option String) → World → Prop}
    (hQ : ∀ r w, Q r w) (w : World) :
    (chooseSshKey dto).Wp (MessagesIn M) (worldEffect env) Q w := by
  unfold chooseSshKey
  split
  · exact generateSshKey_wp hQ w
  · exact generateSshKey_wp hQ w
  · exact hQ _ _

private theorem runCreateVmTransaction_wp (tx : CreateVmTx)
    {Q : Except Failure VmRow → World → Prop} (herr : ∀ e w, Q (.error e) w)
    (hok : ∀ newId now w, env.uuid newId → Q (.ok (newVm tx newId now)) w) (w : World) :
    (runCreateVmTransaction tx).Wp (MessagesIn M) (worldEffect env) Q w := by
  refine ⟨trivial, fun r w' he => ?_⟩
  rcases he with ⟨newId, now, vm, db, hu, hbody, -, rfl | ⟨message, rfl⟩⟩ | ⟨e, rfl, -⟩
  · obtain ⟨rfl, -⟩ := createVmBody_ok hbody
    exact hok newId now w' hu
  · exact herr _ w'
  · cases e <;> exact herr _ w'

private theorem launchVm_sends {dto : CreateVmDto} {userId : String}
    (hM : ∀ tx newId now key, tx.dto = dto → tx.userId = userId → env.uuid newId →
      M .vmCreate (createMessage (newVm tx newId now) dto key)) (isAdmin : Bool)
    (remoteQuota : Option InternalQuotaSnapshot) (w : World) :
    Sends env w (launchVm dto userId isAdmin remoteQuota) M := by
  unfold Sends launchVm
  rw [wp_bind]
  apply chooseSshKey_wp
  intro r w
  cases r with
  | error e => trivial
  | ok keys =>
    rw [post_ok, wp_bind]
    apply runCreateVmTransaction_wp
    · intro e w
      trivial
    · intro newId now w hu
      rw [post_ok, wp_bind]
      refine ⟨hM _ newId now keys.1 rfl rfl hu, fun r w' _ => ?_⟩
      cases r <;> trivial

/-- `createVm` publishes nothing but the message of the row that its transaction wrote. -/
theorem createVm_sends {dto : CreateVmDto} {userId : String}
    (hM : ∀ tx newId now key, tx.dto = dto → tx.userId = userId → env.uuid newId →
      M .vmCreate (createMessage (newVm tx newId now) dto key)) (role : Role) (w : World) :
    Sends env w (VmService.createVm dto userId role) M := by
  unfold VmService.createVm
  split
  · exact launchVm_sends hM _ _ w
  · refine ⟨trivial, fun r w' _ => ?_⟩
    cases r with
    | error e => trivial
    | ok remoteQuota =>
      simp only [ofExcept_ok, bind_def, ret_bind]
      split
      · trivial
      · exact launchVm_sends hM _ _ w'

private theorem getVm_wp {vmId userId : String} {role : Role}
    {Q : Except Failure VmRow → World → Prop} {w : World} (herr : ∀ e, Q (.error e) w)
    (hok : ∀ vm, w.db.vms.find? vmId = some vm → Q (.ok vm) w) :
    (getVm vmId userId role).Wp (MessagesIn M) (worldEffect env) Q w := by
  unfold getVm
  refine ⟨trivial, fun r w' he => ?_⟩
  obtain ⟨rfl, rfl | ⟨e, rfl⟩⟩ := he
  · cases hf : w'.db.vms.find? vmId with
    | none => exact herr _
    | some vm =>
      simp only [ofExcept_ok, bind_def, ret_bind]
      split
      · exact herr _
      · exact hok vm hf
  · exact herr e

private theorem checkHours_wp (userId : String) {Q : Except Failure Unit → World → Prop}
    (hQ : ∀ r w, Q r w) (w : World) :
    (checkHours userId).Wp (MessagesIn M) (worldEffect env) Q w := by
  unfold checkHours
  refine (wp_bind _ _ _ _).mpr ⟨trivial, fun r w _ => ?_⟩
  cases r with
  | error e => exact hQ _ _
  | ok access =>
    simp only [wp_ofExcept, post_ok]
    split
    · exact hQ _ _
    · split
      · exact hQ _ _
      · exact hQ _ _
      · split
        · exact hQ _ _
        · exact hQ _ _

private theorem publish_wp {subject : Subject} {data : Dict} (h : M subject data)
    {Q : Except Failure Unit → World → Prop} (hQ : ∀ r w, Q r w) (w : World) :
    (publish subject data).Wp (MessagesIn M) (worldEffect env) Q w := by
  refine ⟨h, fun r w _ => ?_⟩
  rw [wp_ofExcept]
  exact hQ r w

private theorem queueAction_sends {vm : VmRow} {action : VmAction} {userId : String}
    (h : M .vmAction (actionMessage vm action userId)) (w : World) :
    Sends env w (queueAction vm action userId) M := by
  unfold queueAction
  simp only
  split
  · refine (wp_bind _ _ _ _).mpr (publish_wp h (fun r w => ?_) w)
    cases r <;> trivial
  · trivial

/-- `vmAction` publishes nothing but the message of the row it read. -/
theorem vmAction_sends {vmId userId : String} {action : VmAction} {w : World}
    (hM : ∀ vm, w.db.vms.find? vmId = some vm → M .vmAction (actionMessage vm action userId))
    (role : Role) : Sends env w (VmService.vmAction vmId action userId role) M := by
  unfold VmService.vmAction
  refine (wp_bind _ _ _ _).mpr (getVm_wp (fun e => trivial) fun vm hvm => ?_)
  have hqueue : ∀ w', Sends env w' (queueAction vm action userId) M :=
    queueAction_sends (hM vm hvm)
  rw [post_ok]
  simp only
  split
  · refine (wp_bind _ _ _ _).mpr (checkHours_wp userId (fun r w => ?_) w)
    cases r with
    | error e => trivial
    | ok u => exact hqueue w
  · exact hqueue w

/-- `deleteVm` publishes nothing but the message of the row it read. -/
theorem deleteVm_sends {vmId userId : String} {w : World}
    (hM : ∀ vm, w.db.vms.find? vmId = some vm → M .vmDelete (deleteMessage vm userId))
    (role : Role) : Sends env w (VmService.deleteVm vmId userId role) M := by
  unfold VmService.deleteVm
  refine (wp_bind _ _ _ _).mpr (getVm_wp (fun e => trivial) fun vm hvm => ?_)
  rw [post_ok]
  simp only
  split
  · trivial
  · refine (wp_bind _ _ _ _).mpr (publish_wp (hM vm hvm) (fun r w => ?_) w)
    cases r <;> trivial

end Sends

/-- From every reachable state, the worker accepts what `createVm` publishes exactly if the
template name is not blank to it, what `vmAction` publishes exactly if the row has its
OpenNebula id, and everything that `deleteVm` publishes. -/
theorem published_accepted_iff {env : Env} (huuid : ∀ s, env.uuid s → isUuidText s = true)
    {x : PlanePool} (hx : Reachable env x) {userId : String} (hu : env.uuid userId) (role : Role) :
    (∀ dto : CreateVmDto, dto.valid = true →
      Sends env x.state (VmService.createVm dto userId role) fun subject data =>
        accepts subject data = .ok () ↔ ¬ dto.osTemplate.toList.all pySpace = true) ∧
    (∀ vmId action, Sends env x.state (VmService.vmAction vmId action userId role)
      fun subject data => ∃ vm, x.state.db.vms.find? vmId = some vm ∧
        (accepts subject data = .ok () ↔ vm.oneVmId ≠ none)) ∧
    (∀ vmId, Sends env x.state (VmService.deleteVm vmId userId role)
      fun subject data => accepts subject data = .ok ()) := by
  have huser := huuid userId hu
  have hrow : ∀ vmId vm, x.state.db.vms.find? vmId = some vm → isUuidText vm.id = true := by
    intro vmId vm hvm
    exact huuid _ (rowIds_reachable hx vm (Table.find?_eq_some _ |>.mp hvm).1)
  refine ⟨fun dto hv => ?_, fun vmId action => ?_, fun vmId => ?_⟩
  · apply createVm_sends
    intro tx newId now key hdto hid hnew
    exact createMessage_accepted hdto hv (huuid newId hnew) (hid ▸ huser)
  · apply vmAction_sends
    intro vm hvm
    exact ⟨vm, hvm, actionMessage_accepted (hrow vmId vm hvm) huser⟩
  · apply deleteVm_sends
    intro vm hvm
    exact deleteMessage_accepted (hrow vmId vm hvm) huser

section Sample

private def plainEnv : Env where
  cfg := { lower := id, asciiFold := id }
  uuid s := isUuidText s = true

private def adminId : String := "7f1d6c1e-3a52-4c8b-9d07-5b1f0e2a6c34"

private def sampleId : String := "0b0e3c1a-5d2f-4f6a-9c3e-1a2b3c4d5e6f"

private def sampleRequest : CreateVmDto := .sample

private def sampleTx : CreateVmTx := ⟨sampleRequest, adminId, true, none, none⟩

private def sampleVm : VmRow := newVm sampleTx sampleId 0

private def emptyTables : VmDb := ⟨.empty, .empty⟩

private theorem sample_run : ∃ trace x,
    Run (Pool.Step (plane plainEnv)) ⟨World.initial emptyTables, []⟩ trace x ∧
      x.state.db.vms.find? sampleId = some sampleVm := by
  refine ⟨_, _, Run.head (.start (.createVm sampleRequest adminId .admin (by decide)
      (by unfold plainEnv; decide)))
    (Run.single (.act (I := vmInterface) (i := 0) (c := .createVmTransaction sampleTx)
      (r := .ok sampleVm) rfl (.inl ⟨sampleId, 0, sampleVm, _, ?_, rfl, rfl, .inl rfl⟩))), ?_⟩
  · unfold plainEnv
    decide
  · rfl

/-- A `delete` action on a VM that is not instantiated yet is queued and then dropped. -/
theorem action_before_instantiation_rejected : ∃ trace x,
    Run (Pool.Step (plane plainEnv)) ⟨World.initial emptyTables, []⟩ trace x ∧
      x.state.db.vms.find? sampleId = some sampleVm ∧
      (validTransitions .delete).contains sampleVm.status = true ∧
      ¬ Sends plainEnv x.state (VmService.vmAction sampleId .delete adminId .admin)
        fun subject data => accepts subject data = .ok () := by
  obtain ⟨trace, x, hrun, hvm⟩ := sample_run
  refine ⟨trace, x, hrun, hvm, by decide, fun h => ?_⟩
  have hsent := (h.2 (.ok (some sampleVm)) x.state ⟨rfl, .inl (by rw [hvm])⟩).1
  have hone := (actionMessage_accepted (by decide) (by decide)).mp hsent
  exact hone rfl

theorem published_accepted_iff_sample : ∃ x : PlanePool, Reachable plainEnv x ∧
    x.state.db.vms.find? sampleId = some sampleVm ∧
    Sends plainEnv x.state (VmService.vmAction sampleId .delete adminId .admin)
      fun subject data => ∃ vm, x.state.db.vms.find? sampleId = some vm ∧
        (accepts subject data = .ok () ↔ vm.oneVmId ≠ none) := by
  obtain ⟨trace, x, hrun, hvm⟩ := sample_run
  have hx : Reachable plainEnv x := ⟨emptyTables, trace, by simp [emptyTables], hrun⟩
  refine ⟨x, hx, hvm, ?_⟩
  exact (published_accepted_iff (fun s hs => hs) hx (by unfold plainEnv; decide) .admin).2.1
    sampleId .delete

end Sample

end CloudVM.Plane
