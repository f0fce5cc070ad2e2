import CloudVM.Plane.World
import CloudVM.Worker.Aside

/-!
# Processes that leave a deleted VM deleted

For one VM `v` a ghost bit says whether its row is `DELETED`. A process is sound from a bit if,
whatever it is answered, it never acts towards another status of `v` while the bit is set. The
bit can be set by the process's own confirmed write.
-/

namespace CloudVM.Plane

open VmService Worker Process

section Ghost

/-- A message on which the worker may give `v` a status other than `DELETED`. -/
def Reviving (v : String) : Subject → Dict → Prop
  | .vmCreate, data => validateVmCreate data = .ok () ∧
      ∃ d, VmCreateData.ofDict? data = some d ∧ d.vmId = v
  | .vmAction, data => validateVmAction data = .ok () ∧
      ∃ d, VmActionData.ofDict? data = some d ∧ d.vmId = v
  | .vmDelete, data => validateVmDelete data = .ok () ∧
      ∃ d, VmDeleteData.ofDict? data = some d ∧ d.vmId = v ∧ d.oneVmId ≠ none

/-- A status update on which the VM service gives `v` a status other than `DELETED`. -/
def LiveUpdate (v : String) (m : StatusUpdate) : Prop :=
  m.vmId = v ∧ ∃ s, m.status = .row s ∧ s ≠ .deleted

/-- Calls towards a status of `v` other than `DELETED`. -/
def Touches (v : String) : VmCall → Prop
  | .updateVmStatus u => u.vmId = v ∧ u.status ≠ .deleted
  | .patchStatus vmId p => vmId = v ∧ p.status ≠ .deleted
  | .publishStatus m => LiveUpdate v m
  | .createTask t => t.vmId = v
  | .publish subject data => Reviving v subject data
  | _ => False

/-- Calls that make `v` `DELETED`. -/
def MarksDeleted (v : String) : VmCall → Prop
  | .updateVmStatus u => u.vmId = v ∧ u.status = .deleted
  | .deleteVmRecord vmId => vmId = v
  | .markDeleted vmId => vmId = v
  | .patchStatus vmId p => vmId = v ∧ p.status = .deleted
  | _ => False

def Confirmed : (c : VmCall) → VmCall.Answer c → Prop
  | .updateVmStatus _, r => r = .ok ()
  | .deleteVmRecord _, r => r = .ok ()
  | .markDeleted _, r => ∃ n, r = .ok n
  | .patchStatus _ _, r => ∃ n, r = .ok n
  | .publishStatus _, r => r = .ok ()
  | _, _ => True

/-- What the tables can answer, given whether `v` is `DELETED`; the news of the deletion gets
through. -/
def Consistent (v : String) (deleted : Bool) : (c : VmCall) → VmCall.Answer c → Prop
  | .findVm vmId, r => ∀ vm, r = .ok (some vm) →
      vm.id = vmId ∧ (deleted = true → vmId = v → vm.status = .deleted)
  | .createVmTransaction _, r => ∀ vm, r = .ok vm → deleted = true → vm.id ≠ v
  | .selectActiveVms, r => ∀ vms, r = .ok vms →
      (vms.map ActiveVm.vmId).Nodup ∧ (deleted = true → ∀ a ∈ vms, a.vmId ≠ v)
  | .selectPendingVms, r => ∀ tasks, r = .ok tasks → deleted = true → ∀ t ∈ tasks, t.vmId ≠ v
  | .publishStatus m, r => deleted = true → m.vmId = v → m.status = .row .deleted → r = .ok ()
  | _, _ => True

def Permitted (v : String) (deleted : Bool) (c : VmCall) : Prop := deleted = true → ¬ Touches v c

/-- How the bit moves with an answer: it stays set, and a confirmed write may set it. -/
def Ghost (v : String) (c : VmCall) (deleted : Bool) (r : VmCall.Answer c) (deleted' : Bool) :
    Prop :=
  Consistent v deleted c r ∧ (deleted = true → deleted' = true) ∧
    (deleted = false → deleted' = true → MarksDeleted v c ∧ Confirmed c r)

/-- From the given bit on, the process never acts towards another status of a deleted `v`. -/
def Sound (v : String) (deleted : Bool) {α : Type} (p : VmProcess α) : Prop :=
  p.Wp (Permitted v) (Ghost v) (fun _ _ => True) deleted

/-- A sound process that does not delete `v` itself. -/
def Calm (v : String) (deleted : Bool) {α : Type} (p : VmProcess α) : Prop :=
  p.Keeps (Permitted v) (Ghost v) (fun d => d = deleted)

end Ghost

section Rules

variable {v : String} {b : Bool} {α β : Type}

theorem Calm.sound {p : VmProcess α} (h : Calm v b p) : Sound v b p :=
  (h b rfl).mono fun _ _ _ => trivial

theorem calm_ret (a : α) : Calm v b (.ret a : VmProcess α) := keeps_ret a

theorem calm_raise (e : Failure) : Calm v b (.raise e : VmProcess α) := keeps_raise e

theorem calm_call {c : VmCall} {k : c.Answer → VmProcess α} (hm : ¬ MarksDeleted v c)
    (ht : b = true → ¬ Touches v c) (hk : ∀ r, Consistent v b c r → Calm v b (k r)) :
    Calm v b (.call c k : VmProcess α) := by
  apply keeps_call
  · intro d hd hb
    exact ht (hd ▸ hb)
  · intro r d d' hd hg
    subst hd
    obtain ⟨hc, hstay, hset⟩ := hg
    refine ⟨?_, hk r hc⟩
    cases d with
    | true => exact hstay rfl
    | false =>
      cases d' with
      | true => exact absurd (hset rfl rfl).1 hm
      | false => rfl

theorem calm_ofExcept (r : Except Failure α) : Calm v b (Process.ofExcept r : VmProcess α) :=
  keeps_ofExcept r

theorem calm_bind {p : VmProcess α} {f : α → VmProcess β} (hp : Calm v b p)
    (hf : ∀ a, Calm v b (f a)) : Calm v b (p >>= f) := keeps_bind hp hf

theorem calm_tryCatch {p : VmProcess α} {h : Failure → VmProcess α} (hp : Calm v b p)
    (hh : ∀ e, Calm v b (h e)) : Calm v b (tryCatch p h) := keeps_tryCatch hp hh

theorem calm_ignoring {p : VmProcess Unit} (hp : Calm v b p) : Calm v b (ignoring p) :=
  calm_tryCatch hp fun _ => calm_ret ()

theorem calm_forEach {f : β → VmProcess Unit} {bs : List β} (hf : ∀ x ∈ bs, Calm v b (f x)) :
    Calm v b (Process.forEach f bs) := keeps_forEach bs hf

/-- A call that neither concerns the status of `v` nor reads it. -/
theorem calm_plain {c : VmCall} {k : c.Answer → VmProcess α} (hm : ¬ MarksDeleted v c)
    (ht : ¬ Touches v c) (hk : ∀ r, Calm v b (k r)) : Calm v b (.call c k : VmProcess α) :=
  calm_call hm (fun _ => ht) fun r _ => hk r

theorem sound_bind {p : VmProcess α} {f : α → VmProcess β} (hp : Calm v b p)
    (hf : ∀ a, Sound v b (f a)) : Sound v b (p >>= f) := by
  apply (hp b rfl).bind
  · intro e d _
    trivial
  · intro a d hd
    subst hd
    exact hf a

end Rules

section WorkerParts

variable {v : String} {b : Bool}

theorem calm_updateVmStatus {w : StatusWrite} (hw : w.vmId = v → w.status ≠ .deleted)
    (hid : b = true → w.vmId ≠ v) : Calm v b (updateVmStatus w) :=
  calm_call (fun h => hw h.1 h.2) (fun hb h => hid hb h.1) fun r _ => calm_ofExcept r

theorem calm_publishStatus {m : StatusUpdate} (hm : b = true → ¬ LiveUpdate v m) :
    Calm v b (publishStatus m) :=
  calm_call id hm fun r _ => calm_ofExcept r

theorem calm_report {w : StatusWrite} {m : StatusUpdate} (hw : w.vmId = v → w.status ≠ .deleted)
    (hid : b = true → w.vmId ≠ v ∧ m.vmId ≠ v) : Calm v b (report w m) :=
  calm_bind (calm_updateVmStatus hw fun hb => (hid hb).1)
    fun _ => calm_publishStatus fun hb h => (hid hb).2 h.1

theorem calm_createTask {t : PollTask} (hid : b = true → t.vmId ≠ v) : Calm v b (createTask t) :=
  calm_call id hid fun _ _ => calm_ret _

/-- What goes to OpenNebula without making a machine is calm whatever `v` is. -/
theorem calm_aside {α : Type} {p : VmProcess α} (h : p.Only Aside) : Calm v b p := by
  induction p with
  | ret a => exact calm_ret a
  | raise e => exact calm_raise e
  | call c k ih =>
    have hplain : ¬ MarksDeleted v c ∧ ¬ Touches v c := by
      have hc := h.1
      cases c <;> first | exact hc.elim | exact ⟨id, id⟩
    exact calm_plain hplain.1 hplain.2 fun r => ih r (h.2 r)

private theorem calm_instantiate (d : VmCreateData) (templateId : Int) (keys : List String) :
    Calm v b (instantiate d templateId keys) := by
  have hinst : ∀ text, Calm v b (templateInstantiate templateId d.name text) :=
    fun _ => calm_plain id id calm_ofExcept
  refine calm_bind (calm_aside (cleanupStale_aside _ _)) fun _ => calm_tryCatch (hinst _) fun _ => ?_
  exact calm_bind (calm_aside (cleanupStale_aside _ _)) fun _ => hinst _

private theorem calm_launch (cfg : WorkerConfig) {d : VmCreateData} (hid : b = true → d.vmId ≠ v) :
    Calm v b (launch cfg d) := by
  refine calm_bind (calm_aside (findTemplate_aside cfg _)) fun found => ?_
  cases found with
  | none => exact calm_raise _
  | some templateId =>
    refine calm_bind (calm_aside (collectSshKeys_aside cfg d)) fun _ => ?_
    refine calm_bind (calm_instantiate _ _ _) fun _ => ?_
    refine calm_bind (calm_aside (clearBaseFlag_aside _ _)) fun _ => ?_
    refine calm_bind (calm_report (by simp) fun hb => ⟨hid hb, hid hb⟩) fun _ => ?_
    exact calm_createTask hid

private theorem calm_provision (cfg : WorkerConfig) {d : VmCreateData} (hid : b = true → d.vmId ≠ v) :
    Calm v b (provision cfg d) := by
  have hone : Calm v b (getVmOneId d.vmId) := by
    refine calm_plain id id fun r => ?_
    cases r <;> exact calm_ret _
  refine calm_bind hone fun existing => ?_
  cases existing with
  | some existing => exact calm_createTask hid
  | none =>
    simp only
    split
    · exact calm_launch cfg hid
    · exact calm_raise _

private theorem calm_provisionFailed {vmId : String} (hid : b = true → vmId ≠ v) :
    Calm v b (provisionFailed vmId) :=
  calm_report (by simp) fun hb => ⟨hid hb, hid hb⟩

theorem calm_createVm (cfg : WorkerConfig) {d : VmCreateData} (hid : b = true → d.vmId ≠ v) :
    Calm v b (Worker.createVm cfg d) := by
  unfold Worker.createVm
  refine calm_bind (calm_plain id id calm_ret) fun r => ?_
  have hfail : Calm v b (provisionFailed d.vmId) := calm_provisionFailed hid
  split
  · exact hfail
  · exact calm_ret ()
  · exact keeps_andFinally (calm_tryCatch (calm_provision cfg hid) fun _ => hfail)
      (calm_ignoring (calm_plain id id calm_ofExcept))

private theorem calm_syncRefused {d : VmActionData} (hid : b = true → d.vmId ≠ v) :
    Calm v b (syncRefused d) := by
  have hlive : ∀ vm, correctStatus vm ≠ .deleted := by
    intro vm
    unfold correctStatus
    split
    · simp
    · split <;> simp
  refine calm_tryCatch (calm_bind (calm_aside (oneVmInfo_aside _)) fun vm => ?_) fun _ => ?_
  · exact calm_report (fun _ => hlive vm) fun hb => ⟨hid hb, hid hb⟩
  · exact calm_report (by simp) fun hb => ⟨hid hb, hid hb⟩

end WorkerParts

section Deleting

variable {v : String} {b : Bool}

private theorem not_live_of_deleted {m : StatusUpdate} (hm : m.status = .row .deleted) :
    ¬ LiveUpdate v m := by
  intro h
  obtain ⟨-, s, hs, hne⟩ := h
  rw [hm] at hs
  cases hs
  exact hne rfl

private theorem publishDeleted_wp {m : StatusUpdate} (hm : m.status = .row .deleted)
    {Q : Except Failure Unit → Bool → Prop} (hid : b = true → m.vmId = v)
    (hok : ∀ d, Q (.ok ()) d) (herr : ∀ e, Q (.error e) false) :
    (publishStatus m).Wp (Permitted v) (Ghost v) Q b := by
  refine ⟨fun _ => not_live_of_deleted hm, fun r d hg => ?_⟩
  obtain ⟨hc, hstay, hset⟩ := hg
  rw [wp_ofExcept]
  cases b with
  | true =>
    obtain rfl := hc rfl (hid rfl) hm
    exact hok d
  | false =>
    cases d with
    | true => exact absurd (hset rfl rfl).1 id
    | false =>
      cases r with
      | ok u => exact hok false
      | error e => exact herr e

private theorem report_wp {w : StatusWrite} {m : StatusUpdate} (hid : w.vmId = m.vmId)
    (hs : m.status = .row w.status) {Q : Except Failure Unit → Bool → Prop}
    (hok : ∀ d, Q (.ok ()) d) (herr : ∀ e, Q (.error e) false) :
    (report w m).Wp (Permitted v) (Ghost v) Q false := by
  by_cases hw : w.vmId = v ∧ w.status = .deleted
  · refine (wp_bind _ _ _ _).mpr ⟨fun hb => Bool.noConfusion hb, fun r d hg => ?_⟩
    obtain ⟨-, -, hset⟩ := hg
    rw [wp_ofExcept]
    cases r with
    | ok u => exact publishDeleted_wp (hw.2 ▸ hs) (fun _ => hid ▸ hw.1) hok herr
    | error e =>
      cases d with
      | true =>
        have hconf : (Except.error e : Except Failure Unit) = .ok () := (hset rfl rfl).2
        exact absurd hconf (by simp)
      | false => exact herr e
  · have hcalm : Calm v false (report w m) :=
      calm_report (fun h h' => hw ⟨h, h'⟩) fun hb => Bool.noConfusion hb
    apply (hcalm false rfl).mono
    intro r d hd
    subst hd
    cases r with
    | ok u => exact hok false
    | error e => exact herr e

theorem sound_vmAction {d : VmActionData} (hid : b = true → d.vmId ≠ v) :
    Sound v b (Worker.vmAction d) := by
  have hfail : ∀ e, Calm v b (actionFailed d e) := by
    intro e
    unfold actionFailed
    split
    · exact calm_raise e
    · split
      · exact calm_syncRefused hid
      · exact calm_report (by simp) fun hb => ⟨hid hb, hid hb⟩
  by_cases hv : d.vmId = v
  · have hb : b = false := by
      cases b with
      | true => exact absurd hv (hid rfl)
      | false => rfl
    subst hb
    unfold Sound Worker.vmAction
    rw [wp_tryCatch, wp_bind]
    apply (calm_aside (oneVmAction_aside _ _) false rfl).mono
    intro r t ht
    subst ht
    cases r with
    | error e => exact (hfail e).sound
    | ok u => exact report_wp rfl rfl (fun _ => trivial) fun e => (hfail e).sound
  · exact (calm_tryCatch (calm_bind (calm_aside (oneVmAction_aside _ _)) fun _ =>
      calm_report (fun h => absurd h hv) fun _ => ⟨hv, hv⟩) hfail).sound

private theorem sound_reportDeleted (d : VmDeleteData) : Sound v b (reportDeleted d) := by
  refine (wp_bind _ _ _ _).mpr ⟨fun _ => id, fun r b' _ => ?_⟩
  rw [wp_ofExcept]
  cases r with
  | error e => trivial
  | ok u =>
    refine ⟨fun _ => not_live_of_deleted rfl, fun r b'' _ => ?_⟩
    rw [wp_ofExcept]
    trivial

private theorem reportDeleted_wp {d : VmDeleteData} (hid : d.vmId = v)
    {Q : Except Failure Unit → Bool → Prop} (hok : ∀ d, Q (.ok ()) d)
    (herr : ∀ e, Q (.error e) false) :
    (reportDeleted d).Wp (Permitted v) (Ghost v) Q false := by
  refine (wp_bind _ _ _ _).mpr ⟨fun _ => id, fun r d hg => ?_⟩
  obtain ⟨-, -, hset⟩ := hg
  rw [wp_ofExcept]
  cases r with
  | ok u => exact publishDeleted_wp rfl (fun _ => hid) hok herr
  | error e =>
    cases d with
    | true =>
      have hconf : (Except.error e : Except Failure Unit) = .ok () := (hset rfl rfl).2
      exact absurd hconf (by simp)
    | false => exact herr e

private theorem calm_reportDeleted {d : VmDeleteData} (hid : d.vmId ≠ v) :
    Calm v b (reportDeleted d) :=
  calm_bind (calm_call hid (fun _ => id) fun r _ => calm_ofExcept r)
    fun _ => calm_publishStatus fun _ h => hid h.1

theorem sound_deleteVm (cfg : WorkerConfig) {d : VmDeleteData}
    (hid : b = true → d.vmId = v → d.oneVmId = none) : Sound v b (Worker.deleteVm cfg d) := by
  unfold Worker.deleteVm
  split
  · exact sound_reportDeleted d
  · rename_i oneVmId hone
    have hb : b = true → d.vmId ≠ v := by
      intro hb hv
      rw [hid hb hv] at hone
      cases hone
    have hfail : Calm v b (report { vmId := d.vmId, status := .error }
        { vmId := d.vmId, status := .row .error, oneVmId := some oneVmId,
          error := some "VM deletion failed. Please retry." }) :=
      calm_report (by simp) fun hb' => ⟨hb hb', hb hb'⟩
    by_cases hv : d.vmId = v
    · have hb : b = false := by
        cases b with
        | true => exact absurd hv (hb rfl)
        | false => rfl
      subst hb
      unfold Sound
      rw [wp_tryCatch, wp_bind]
      apply (calm_aside (readClone_aside _) false rfl).mono
      intro r t ht
      subst ht
      cases r with
      | error e => exact hfail.sound
      | ok clone =>
        -- the record is not touched before the machine is gone
        rw [post_ok, wp_bind]
        apply (calm_aside (oneVmAction_aside _ _) false rfl).mono
        intro r t ht
        subst ht
        cases r with
        | error e => exact hfail.sound
        | ok u =>
          rw [post_ok, wp_bind]
          apply (calm_aside (removeClone_aside cfg _ _) false rfl).mono
          intro r t ht
          subst ht
          cases r with
          | error e => exact hfail.sound
          | ok u => exact reportDeleted_wp hv (fun _ => trivial) fun _ => hfail.sound
    · refine (calm_tryCatch (calm_bind (calm_aside (readClone_aside _)) fun _ => ?_) fun _ => hfail).sound
      refine calm_bind (calm_aside (oneVmAction_aside _ _)) fun _ => ?_
      exact calm_bind (calm_aside (removeClone_aside cfg _ _)) fun _ => calm_reportDeleted hv

end Deleting

section Background

variable {v : String} {b : Bool}

private theorem calm_requireAttr (n : Option Int) (name : String) : Calm v b (requireAttr n name) := by
  unfold requireAttr
  split
  · exact calm_ret _
  · exact calm_raise _

private theorem calm_emitIntermediate {t : PollTask} (hid : b = true → t.vmId ≠ v)
    (lcm lastLcm : Int) : Calm v b (emitIntermediate t lcm lastLcm) := by
  unfold emitIntermediate
  split
  · exact calm_ret _
  · split
    · exact calm_ret _
    · exact calm_ret _
    · exact calm_bind (calm_publishStatus fun hb h => hid hb h.1) fun _ => calm_ret _

private theorem calm_reportRunning (cfg : WorkerConfig) {t : PollTask} (hid : b = true → t.vmId ≠ v)
    (vm : OneVmInfo) : Calm v b (reportRunning cfg t vm) := by
  unfold reportRunning
  split
  · exact calm_ret _
  · refine calm_bind (calm_aside (resizeDisk_aside t)) fun _ => ?_
    exact calm_bind (calm_report (by simp) fun hb => ⟨hid hb, hid hb⟩) fun _ => calm_ret _

private theorem calm_pollState {t : PollTask} (hid : b = true → t.vmId ≠ v) (lastLcm : Int) :
    Calm v b (pollState t lastLcm) := by
  refine calm_bind (calm_aside (oneVmInfo_aside _)) fun vm => ?_
  refine calm_bind (calm_requireAttr _ _) fun state => ?_
  refine calm_bind (calm_requireAttr _ _) fun lcm => ?_
  split
  · exact calm_bind (calm_report (by simp) fun hb => ⟨hid hb, hid hb⟩) fun _ => calm_ret _
  · exact calm_bind (calm_emitIntermediate hid _ _) fun _ => calm_ret _

private theorem calm_pollRound (cfg : WorkerConfig) {t : PollTask} (hid : b = true → t.vmId ≠ v)
    (lastLcm : Int) : Calm v b (pollRound cfg t lastLcm) := by
  refine calm_bind (keeps_attempt (calm_pollState hid lastLcm)) fun r => ?_
  split
  · exact calm_ret _
  · exact calm_ret _
  · split
    · refine calm_bind (keeps_attempt (calm_reportRunning cfg hid _)) fun r => ?_
      split <;> exact calm_ret _
    · exact calm_ret _

private theorem calm_pollRounds (cfg : WorkerConfig) {t : PollTask} (hid : b = true → t.vmId ≠ v)
    (rounds : Nat) (lastLcm : Int) : Calm v b (pollRounds cfg t rounds lastLcm) := by
  induction rounds generalizing lastLcm with
  | zero => exact calm_report (by simp) fun hb => ⟨hid hb, hid hb⟩
  | succ rounds ih =>
    refine calm_bind (calm_pollRound cfg hid lastLcm) fun r => ?_
    simp only
    split
    · exact calm_ret ()
    · exact calm_bind (calm_plain id id calm_ret) fun _ => ih _

theorem calm_waitForIpAndUpdate (cfg : WorkerConfig) {t : PollTask}
    (hid : b = true → t.vmId ≠ v) : Calm v b (waitForIpAndUpdate cfg t) :=
  calm_pollRounds cfg hid 38 (-1)

theorem calm_reconcilePendingVms : Calm v b reconcilePendingVms := by
  refine calm_call id (fun _ => id) fun r hc => ?_
  cases r with
  | error e => exact calm_forEach fun t ht => absurd ht (by simp)
  | ok tasks => exact calm_forEach fun t ht => calm_createTask fun hb => hc tasks rfl hb t ht

theorem calm_startWorker : Calm v b startWorker :=
  calm_bind (calm_aside loadTemplates_aside) fun _ => calm_reconcilePendingVms

theorem calm_reconnect : Calm v b reconnect := by
  refine calm_bind (calm_aside readTemplateCache_aside) fun cache => ?_
  split
  · refine calm_bind (calm_aside loadTemplates_aside) fun _ => calm_bind (calm_aside readTemplateCache_aside) fun cache => ?_
    split
    · exact calm_reconcilePendingVms
    · exact calm_ret ()
  · exact calm_ret ()

private theorem calm_syncVm {a : ActiveVm} (hid : a.vmId ≠ v) : Calm v b (syncVm a) := by
  refine calm_ignoring (calm_bind (calm_aside (oneVmInfo_aside _)) fun vm => ?_)
  split
  · exact calm_ret ()
  · split
    · exact calm_ret ()
    · refine calm_bind (calm_updateVmStatus (fun h => absurd h hid) fun _ => hid) fun _ => ?_
      exact calm_ignoring (calm_publishStatus fun _ h => hid h.1)

private theorem syncVm_wp (a : ActiveVm) {Q : Except Failure Unit → Bool → Prop}
    (hok : ∀ d, Q (.ok ()) d) : (syncVm a).Wp (Permitted v) (Ghost v) Q false := by
  unfold syncVm ignoring
  rw [wp_tryCatch, wp_bind]
  apply (calm_aside (oneVmInfo_aside _) false rfl).mono
  intro r t ht
  subst ht
  cases r with
  | error e => exact hok false
  | ok vm =>
    simp only [post_ok]
    split
    · exact hok false
    · rename_i status hstatus
      split
      · exact hok false
      · refine (wp_bind _ _ _ _).mpr ⟨fun hb => Bool.noConfusion hb, fun r d hg => ?_⟩
        obtain ⟨-, -, hset⟩ := hg
        rw [wp_ofExcept]
        cases r with
        | error e => exact hok d
        | ok u =>
          have hnews : d = true → ¬ LiveUpdate v
              { vmId := a.vmId, status := .row status, source := some "auto-sync" } := by
            intro hd
            exact not_live_of_deleted (congrArg UpdateStatus.row (hset rfl hd).1.2)
          refine (wp_tryCatch _ _ _ _).mpr ⟨hnews, fun r d _ => ?_⟩
          rw [wp_ofExcept]
          cases r <;> exact hok d

private theorem sound_syncVms (vms : List ActiveVm) (hn : (vms.map ActiveVm.vmId).Nodup)
    (hid : b = true → ∀ a ∈ vms, a.vmId ≠ v) : Sound v b (Process.forEach syncVm vms) := by
  induction vms generalizing b with
  | nil => exact (calm_ret ()).sound
  | cons a vms ih =>
    rw [List.map_cons, List.nodup_cons] at hn
    by_cases ha : a.vmId = v
    · have hb : b = false := by
        cases b with
        | true => exact absurd ha (hid rfl a (by simp))
        | false => rfl
      subst hb
      have hrest : ∀ a' ∈ vms, a'.vmId ≠ v := by
        intro a' ha' he
        exact hn.1 (ha ▸ he ▸ List.mem_map_of_mem ha')
      refine (wp_bind _ _ _ _).mpr (syncVm_wp a fun d => ?_)
      exact ih hn.2 fun _ => hrest
    · refine sound_bind (calm_syncVm ha) fun _ => ih hn.2 fun hb a' ha' => ?_
      exact hid hb a' (by simp [ha'])

theorem sound_syncAllVmStates : Sound v b syncAllVmStates := by
  refine sound_bind (calm_aside readTemplateCache_aside) fun cache => ?_
  split
  · refine ⟨fun _ => id, fun r d hg => ?_⟩
    obtain ⟨hc, hstay, hset⟩ := hg
    have hd : d = b := by
      cases b with
      | true => exact hstay rfl
      | false =>
        cases d with
        | true => exact absurd (hset rfl rfl).1 id
        | false => rfl
    subst hd
    cases r with
    | error e => exact sound_syncVms [] List.nodup_nil (by simp)
    | ok vms => exact sound_syncVms vms (hc vms rfl).1 (hc vms rfl).2
  · exact (calm_ret ()).sound

end Background

section Messages

variable {v : String} {b : Bool}

private theorem sound_subscriber {δ : Type} {accepted : Except String Unit} {data : Option δ}
    {handle : δ → VmProcess Unit}
    (h : accepted = .ok () → ∀ d, data = some d → Sound v b (handle d)) :
    Sound v b (subscriber accepted data handle) := by
  have hack : ∀ d, Sound v d ack := fun d => ⟨fun _ => id, fun _ _ _ => trivial⟩
  unfold subscriber
  split
  · rename_i d
    refine (wp_tryCatch _ _ _ _).mpr ((wp_bind _ _ _ _).mpr ((h rfl d rfl).mono fun r t _ => ?_))
    cases r with
    | error e => exact hack t
    | ok u => exact ⟨fun _ => id, fun _ _ _ => trivial⟩
  · exact hack b

/-- The worker's subscribers, on messages that cannot revive a deleted `v`. -/
theorem sound_handleMessage (cfg : WorkerConfig) {subject : Subject} {data : Dict}
    (h : b = true → ¬ Reviving v subject data) : Sound v b (handleMessage cfg subject data) := by
  cases subject with
  | vmCreate =>
    refine sound_subscriber fun hok d hd => (calm_createVm cfg fun hb hv => ?_).sound
    exact h hb ⟨hok, d, hd, hv⟩
  | vmAction =>
    refine sound_subscriber fun hok d hd => sound_vmAction fun hb hv => ?_
    exact h hb ⟨hok, d, hd, hv⟩
  | vmDelete =>
    refine sound_subscriber fun hok d hd => sound_deleteVm cfg fun hb hv => ?_
    by_contra hone
    exact h hb ⟨hok, d, hd, hv, hone⟩

/-- The subscriber of status updates, on news that cannot revive a deleted `v`. -/
theorem sound_onStatusUpdate {m : StatusUpdate} (h : b = true → ¬ LiveUpdate v m) :
    Sound v b (onStatusUpdate m) := by
  unfold onStatusUpdate
  split
  · exact (calm_ret ()).sound
  · refine (wp_tryCatch _ _ _ _).mpr ((wp_bind _ _ _ _).mpr ⟨fun _ => id, fun r d _ => ?_⟩)
    rw [wp_ofExcept]
    cases r with
    | error e => trivial
    | ok updated =>
      simp only [post_ok]
      split
      · trivial
      · refine (wp_bind _ _ _ _).mpr ⟨fun _ => id, fun r d _ => ?_⟩
        rw [wp_ofExcept]
        cases r <;> trivial
  · rename_i status hne hs
    refine (calm_bind (calm_plain id id calm_ret) fun now => ?_).sound
    refine calm_tryCatch (calm_bind (calm_call (fun hm => hne hm.2) ?_ fun r _ => calm_ofExcept r)
      fun _ => calm_ret _) fun _ => calm_ret _
    intro hb ht
    exact h hb ⟨ht.1, status, hs, ht.2⟩

private theorem createMessage_vmId {vm : VmRow} {dto : CreateVmDto} {key : String} {d : VmCreateData}
    (h : VmCreateData.ofDict? (createMessage vm dto key) = some d) : d.vmId = vm.id := by
  simp [VmCreateData.ofDict?, textField, intField, Dict.get?, createMessage, List.lookup_cons,
    Value.asStr, Value.asInt] at h
  rw [← h]

private theorem actionMessage_vmId {vm : VmRow} {action : VmAction} {userId : String}
    {d : VmActionData} (h : VmActionData.ofDict? (actionMessage vm action userId) = some d) :
    d.vmId = vm.id := by
  simp [VmActionData.ofDict?, textField, intField, Dict.get?, actionMessage, List.lookup_cons,
    Value.asStr, Option.bind_eq_some_iff] at h
  obtain ⟨n, -, a, -, rfl⟩ := h
  rfl

private theorem deleteMessage_vmId {vm : VmRow} {userId : String} {d : VmDeleteData}
    (h : VmDeleteData.ofDict? (deleteMessage vm userId) = some d) : d.vmId = vm.id := by
  simp [VmDeleteData.ofDict?, textField, intField, Dict.get?, deleteMessage, List.lookup_cons,
    Value.asStr] at h
  rw [← h]

end Messages

section Requests

variable {v : String} {b : Bool}

private theorem calm_publish {subject : Subject} {data : Dict}
    (h : b = true → ¬ Reviving v subject data) : Calm v b (publish subject data) :=
  calm_call id h fun r _ => calm_ofExcept r

private theorem calm_chooseSshKey (dto : CreateVmDto) : Calm v b (chooseSshKey dto) := by
  have hgen : Calm v b generateSshKey :=
    calm_bind (calm_plain id id calm_ofExcept) fun _ =>
      calm_bind (calm_plain id id calm_ofExcept) fun _ => calm_ret _
  unfold chooseSshKey
  split
  · exact hgen
  · exact hgen
  · exact calm_ret _

private theorem calm_launchVm (dto : CreateVmDto) (userId : String) (isAdmin : Bool)
    (remoteQuota : Option InternalQuotaSnapshot) :
    Calm v b (launchVm dto userId isAdmin remoteQuota) := by
  refine calm_bind (calm_chooseSshKey dto) fun keys => ?_
  refine calm_call id (fun _ => id) fun r hc => ?_
  cases r with
  | error e => cases e <;> exact calm_raise _
  | ok vm =>
    change Calm v b (publish .vmCreate (createMessage vm dto keys.1) >>= fun _ => .ret (vm, keys.2.1))
    refine calm_bind (calm_publish fun hb hr => ?_) fun _ => calm_ret _
    obtain ⟨-, d, hd, hv⟩ := hr
    exact hc vm rfl hb (createMessage_vmId hd ▸ hv)

theorem calm_createVm_request (dto : CreateVmDto) (userId : String) (role : Role) :
    Calm v b (request (VmService.createVm dto userId role)) := by
  refine calm_bind ?_ fun _ => calm_ret ()
  unfold VmService.createVm
  split
  · exact calm_launchVm _ _ _ _
  · refine calm_bind (calm_plain id id calm_ofExcept) fun remoteQuota => ?_
    split
    · exact calm_raise _
    · exact calm_launchVm _ _ _ _

private theorem calm_getVm_bind {α : Type} {vmId userId : String} {role : Role}
    {f : VmRow → VmProcess α}
    (hf : ∀ vm, (b = true → vm.id = v → vm.status = .deleted) → Calm v b (f vm)) :
    Calm v b (getVm vmId userId role >>= f) := by
  refine calm_call id (fun _ => id) fun r hc => ?_
  cases r with
  | error e => exact calm_raise e
  | ok found =>
    cases found with
    | none => exact calm_raise _
    | some vm =>
      have hdel : b = true → vm.id = v → vm.status = .deleted := by
        intro hb hv
        obtain ⟨hid, hd⟩ := hc vm rfl
        exact hd hb (hid ▸ hv)
      simp only [ofExcept_ok, bind_def, ret_bind]
      split
      · exact calm_raise _
      · exact hf vm hdel

theorem calm_vmAction_request (vmId : String) (action : VmAction) (userId : String) (role : Role) :
    Calm v b (request (VmService.vmAction vmId action userId role)) := by
  refine calm_bind (calm_getVm_bind fun vm hdel => ?_) fun _ => calm_ret ()
  have hqueue : Calm v b (queueAction vm action userId) := by
    unfold queueAction
    simp only
    split
    · rename_i hvalid
      refine calm_bind (calm_publish fun hb hr => ?_) fun _ => calm_ret _
      obtain ⟨-, d, hd, hv⟩ := hr
      rw [hdel hb (actionMessage_vmId hd ▸ hv)] at hvalid
      cases action <;> simp [validTransitions] at hvalid
    · exact calm_raise _
  have hhours : Calm v b (checkHours userId) := by
    refine calm_bind (calm_plain id id calm_ofExcept) fun access => ?_
    split
    · exact calm_raise _
    · split
      · exact calm_raise _
      · exact calm_raise _
      · split
        · exact calm_raise _
        · exact calm_ret ()
  simp only
  split
  · exact calm_bind hhours fun _ => hqueue
  · exact hqueue

theorem calm_deleteVm_request (vmId userId : String) (role : Role) :
    Calm v b (request (VmService.deleteVm vmId userId role)) := by
  refine calm_bind (calm_getVm_bind fun vm hdel => ?_) fun _ => calm_ret ()
  simp only
  split
  · exact calm_raise _
  · rename_i hlive
    refine calm_bind (calm_publish fun hb hr => ?_) fun _ => calm_ret _
    obtain ⟨-, d, hd, hv, -⟩ := hr
    exact hlive (hdel hb (deleteMessage_vmId hd ▸ hv))

end Requests

end CloudVM.Plane
