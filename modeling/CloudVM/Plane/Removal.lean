import CloudVM.Plane.Publish
import CloudVM.Vm.Handover
import Mathlib.Data.Finset.Erase

/-!
# Two ways to delete a VM

`DELETE /vms/:id` and the action `delete` end in different handlers of the worker. Both are run
from the request to the end of the delivery, against the same row and the same OpenNebula, whose
answers are arbitrary.
-/

namespace CloudVM.Removal

open VmService Worker Process Plane

section Site

/-- The operations of OpenNebula that a deletion uses. -/
inductive OneOperation where
  | vmInfo
  | vmAction
  | imageInfo
  | imageDelete
  | templateDelete
deriving DecidableEq, Repr

/-- What OpenNebula answers to the first, second and further calls of each operation. -/
structure OneAnswers where
  vmInfo : Nat → Except Failure OneVmInfo
  vmAction : Nat → Except Failure Unit
  imageInfo : Nat → Except Failure (Option Int)
  imageDelete : Nat → Except Failure Unit
  templateDelete : Nat → Except Failure Unit

/-- The objects of OpenNebula by their ids. -/
@[ext] structure OneObjects where
  machines : Finset Int
  images : Finset Int
  templates : Finset Int
deriving DecidableEq

/-- One row of `virtual_machines`, the objects, the operations asked for and the messages sent. -/
structure Site where
  row : VmRow
  objects : OneObjects
  asked : List OneOperation
  stream : List (Subject × Dict)

def Site.nth (s : Site) (op : OneOperation) : Nat := s.asked.count op

def Site.ask (s : Site) (op : OneOperation) : Site := { s with asked := s.asked ++ [op] }

@[simp] theorem Site.ask_row (s : Site) (op : OneOperation) : (s.ask op).row = s.row := rfl

@[simp] theorem Site.ask_objects (s : Site) (op : OneOperation) :
    (s.ask op).objects = s.objects := rfl

@[simp] theorem Site.nth_ask (s : Site) (op op' : OneOperation) :
    (s.ask op).nth op' = s.nth op' + if op = op' then 1 else 0 := by
  simp [nth, ask, List.count_append, List.count_singleton]

/-- An operation on the objects takes place if it is answered with success. -/
def Site.perform (s : Site) (op : OneOperation) (r : Except Failure Unit)
    (change : OneObjects → OneObjects) : Except Failure Unit × Site :=
  match r with
  | .ok _ => (r, { s.ask op with objects := change s.objects })
  | .error _ => (r, s.ask op)

variable (one : OneAnswers) (now : Nat)

/-- The answer to each call and the site after it. Database and bus work. -/
def answer : (c : VmCall) → Site → c.Answer × Site
  | .findVm vmId, s => (.ok (if s.row.id = vmId then some s.row else none), s)
  | .publish subject data, s => (.ok (), { s with stream := s.stream ++ [(subject, data)] })
  | .updateVmStatus u, s => (.ok (), { s with row := rowUpdate now (.updateVmStatus u) s.row })
  | .deleteVmRecord vmId, s => (.ok (), { s with row := rowUpdate now (.deleteVmRecord vmId) s.row })
  | .publishStatus _, s => (.ok (), s)
  | .oneVmInfo _, s => (one.vmInfo (s.nth .vmInfo), s.ask .vmInfo)
  | .oneVmAction action n, s =>
      s.perform .vmAction (one.vmAction (s.nth .vmAction)) fun o =>
        if action = "terminate" then { o with machines := o.machines.erase n } else o
  | .imageInfo _, s => (one.imageInfo (s.nth .imageInfo), s.ask .imageInfo)
  | .imageDelete i, s =>
      s.perform .imageDelete (one.imageDelete (s.nth .imageDelete)) fun o =>
        { o with images := o.images.erase i }
  | .templateDelete t _, s =>
      s.perform .templateDelete (one.templateDelete (s.nth .templateDelete)) fun o =>
        { o with templates := o.templates.erase t }
  | c, s => (noAnswer c, s)

variable (cfg : WorkerConfig)

/-- The site once the worker has processed a message. -/
def delivered (s : Site) (m : Subject × Dict) : Site :=
  ((handleMessage cfg m.1 m.2).exec (answer one now) s).2

/-- The site after a request and the delivery of everything it has sent. -/
def processed (request : VmProcess String) (s : Site) : Site :=
  let s := (request.exec (answer one now) s).2
  s.stream.foldl (delivered one now cfg) s

def Site.start (row : VmRow) (objects : OneObjects) : Site := ⟨row, objects, [], []⟩

def viaAction (row : VmRow) (objects : OneObjects) (userId : String) (role : Role) : Site :=
  processed one now cfg (VmService.vmAction row.id .delete userId role) (.start row objects)

def viaDelete (row : VmRow) (objects : OneObjects) (userId : String) (role : Role) : Site :=
  processed one now cfg (VmService.deleteVm row.id userId role) (.start row objects)

/-- The status of the row and the objects that are left. -/
def Site.outcome (s : Site) : VmStatus × OneObjects := (s.row.status, s.objects)

end Site

section Delivery

variable (one : OneAnswers) (now : Nat) (cfg : WorkerConfig)

private theorem report_exec {s : Site} {vmId : String} (hid : s.row.id = vmId)
    (status : VmStatus) (m : StatusUpdate) :
    (report { vmId, status } m).exec (answer one now) s =
      (.ok (), { s with row := StatusWrite.apply { vmId, status } now s.row }) := by
  have hrow : rowUpdate now (.updateVmStatus { vmId, status }) s.row =
      StatusWrite.apply { vmId, status } now s.row := by simp [rowUpdate, hid]
  simp only [report, updateVmStatus, publishStatus, exec_bind, exec_call, answer, exec_ofExcept,
    hrow]

private theorem subscriber_exec {δ : Type} (d : δ) (handle : δ → VmProcess Unit) (s : Site) :
    ((subscriber (.ok ()) (some d) handle).exec (answer one now) s).2 =
      ((handle d).exec (answer one now) s).2 := by
  simp only [subscriber, exec_tryCatch, exec_bind]
  cases (handle d).exec (answer one now) s with
  | mk out t => cases out <;> rfl

private theorem subscriber_dropped {δ : Type} {reason : String} (d : Option δ)
    (handle : δ → VmProcess Unit) (s : Site) :
    ((subscriber (.error reason) d handle).exec (answer one now) s).2 = s := rfl

/-- The status that `vm_action` leaves when OpenNebula refuses to terminate the machine. -/
def refusedStatus (status : VmStatus) (info : Except Failure OneVmInfo) (e : Failure) : VmStatus :=
  if e.kind = .connection then status
  else if Text.contains e.message "not available for state" then
    match info with
    | .ok vm => correctStatus vm
    | .error _ => .error
  else .error

def OneObjects.terminate (o : OneObjects) (n : Int) : OneObjects :=
  { o with machines := o.machines.erase n }

private theorem action_outcome (s : Site) (n : Int) (h : s.asked = []) :
    ((Worker.vmAction ⟨s.row.id, n, .delete⟩).exec (answer one now) s).2.outcome =
      match one.vmAction 0 with
      | .ok _ => (.deleted, s.objects.terminate n)
      | .error e => (refusedStatus s.row.status (one.vmInfo 0) e, s.objects) := by
  have hnth : ∀ op, s.nth op = 0 := by simp [Site.nth, h]
  simp only [Worker.vmAction, actionMap, oneVmAction, exec_tryCatch, exec_bind, exec_call, answer,
    hnth, exec_ofExcept, Site.perform]
  cases one.vmAction 0 with
  | ok u =>
    simp only
    rw [report_exec]
    · rfl
    · rfl
  | error e =>
    simp only [actionFailed, refusedStatus]
    split
    · rfl
    · split
      · simp only [syncRefused, oneVmInfo, exec_tryCatch, exec_bind, exec_call, answer,
          exec_ofExcept, Site.nth_ask, hnth]
        simp only [reduceCtorEq, if_false]
        cases one.vmInfo 0 with
        | ok vm =>
          simp only
          rw [report_exec]
          · rfl
          · rfl
        | error e =>
          simp only
          rw [report_exec]
          · rfl
          · rfl
      · rw [report_exec]
        · rfl
        · rfl

/-- What a look at the image tells `waitForImage`, if anything. -/
def lookAt (cfg : WorkerConfig) : Except Failure (Option Int) → Option ImageWait
  | .ok (some 1) => some .ready
  | .ok _ => none
  | .error e =>
    let text := cfg.lower e.message
    if Text.contains text "error getting image" || Text.contains text "image not found" then
      some .gone
    else none

def watch (cfg : WorkerConfig) (one : OneAnswers) : ImageWait :=
  ((List.range' 0 30).findSome? fun k => lookAt cfg (one.imageInfo k)).getD .inUse

private theorem waitForImage_exec (imageId : Int) (rounds : Nat) (s : Site) :
    ∃ t, (waitForImage cfg imageId rounds).exec (answer one now) s =
      (.ok (((List.range' (s.nth .imageInfo) rounds).findSome? fun k =>
        lookAt cfg (one.imageInfo k)).getD .inUse), t) ∧
      t.row = s.row ∧ t.objects = s.objects ∧ ∀ op, op ≠ .imageInfo → t.nth op = s.nth op := by
  induction rounds generalizing s with
  | zero => exact ⟨s, rfl, rfl, rfl, fun _ _ => rfl⟩
  | succ rounds ih =>
    obtain ⟨t, hagain, hrow, hobjects, hother⟩ := ih (s.ask .imageInfo)
    rw [Site.nth_ask, if_pos rfl] at hagain
    have hasked : ∀ op, op ≠ .imageInfo → (s.ask .imageInfo).nth op = s.nth op := by
      intro op hop
      simp [Ne.symm hop]
    have hrest : ∀ op, op ≠ .imageInfo → t.nth op = s.nth op :=
      fun op hop => (hother op hop).trans (hasked op hop)
    simp only [waitForImage, VmCall.perform, exec_bind, exec_call, exec_ret, answer,
      List.range'_succ, List.findSome?_cons]
    split
    · rename_i hlook
      rw [hlook]
      exact ⟨s.ask .imageInfo, rfl, rfl, rfl, hasked⟩
    · rename_i r hready hlook
      have hnone : lookAt cfg (.ok r) = none := by
        unfold lookAt
        split <;> simp_all
      rw [hlook, hnone]
      exact ⟨t, hagain, hrow, hobjects, hrest⟩
    · rename_i e hlook
      rw [hlook]
      simp only [lookAt]
      split
      · exact ⟨s.ask .imageInfo, rfl, rfl, rfl, hasked⟩
      · exact ⟨t, hagain, hrow, hobjects, hrest⟩

/-- Whether `removeImage` finds or makes the image gone. -/
def imageAway (cfg : WorkerConfig) (one : OneAnswers) : Bool :=
  match watch cfg one with
  | .gone => true
  | .inUse => false
  | .ready => (one.imageDelete 0).isOk

def OneObjects.withoutImage (cfg : WorkerConfig) (one : OneAnswers) (o : OneObjects) (i : Int) :
    OneObjects :=
  if watch cfg one = .ready ∧ (one.imageDelete 0).isOk = true then
    { o with images := o.images.erase i }
  else o

/-- The objects once `removeClone` is through. -/
def OneObjects.cleared (cfg : WorkerConfig) (one : OneAnswers) (o : OneObjects) :
    Option Int × Option Int → OneObjects
  | (none, _) => o
  | (some i, templateId) =>
    if i = 0 then o
    else
      let o := o.withoutImage cfg one i
      match templateId with
      | none => o
      | some t =>
        if imageAway cfg one && t != 0 && (one.templateDelete 0).isOk then
          { o with templates := o.templates.erase t }
        else o

private theorem removeImage_exec (i : Int) (s : Site) (himage : s.nth .imageInfo = 0)
    (hdelete : s.nth .imageDelete = 0) :
    ∃ t, (removeImage cfg i).exec (answer one now) s = (.ok (imageAway cfg one), t) ∧
      t.row = s.row ∧ t.objects = s.objects.withoutImage cfg one i ∧
      t.nth .templateDelete = s.nth .templateDelete := by
  obtain ⟨t, hwait, hrow, hobjects, hother⟩ :=
    waitForImage_exec one now cfg i 30 s
  rw [himage] at hwait
  change _ = ((.ok (watch cfg one), t) : Except Failure ImageWait × Site) at hwait
  have hdelete' : t.nth .imageDelete = 0 := (hother _ (by decide)).trans hdelete
  have hkeep : (t.ask .imageDelete).nth .templateDelete = s.nth .templateDelete := by
    rw [Site.nth_ask, if_neg (by decide), add_zero]
    exact hother _ (by decide)
  simp only [removeImage, exec_bind, hwait, imageAway, OneObjects.withoutImage]
  cases hwatch : watch cfg one with
  | gone => exact ⟨t, rfl, hrow, by simp [hobjects], hother _ (by decide)⟩
  | inUse => exact ⟨t, rfl, hrow, by simp [hobjects], hother _ (by decide)⟩
  | ready =>
    simp only [VmCall.perform, exec_bind, exec_call, exec_ret, answer, hdelete', Site.perform]
    cases hr : one.imageDelete 0 with
    | ok u =>
      refine ⟨_, rfl, hrow, ?_, ?_⟩
      · simp [hobjects, Except.isOk, Except.toBool]
      · exact hkeep
    | error e =>
      refine ⟨_, rfl, hrow, ?_, ?_⟩
      · simp [hobjects, Except.isOk, Except.toBool]
      · exact hkeep

private theorem templateDelete_exec (t : Int) (images : Bool) (s : Site)
    (h : s.nth .templateDelete = 0) :
    ∃ s', (ignoring (templateDelete t images)).exec (answer one now) s = (.ok (), s') ∧
      s'.row = s.row ∧ s'.objects = if (one.templateDelete 0).isOk = true then
        { s.objects with templates := s.objects.templates.erase t } else s.objects := by
  simp only [ignoring, templateDelete, exec_tryCatch, exec_call, answer, h, Site.perform]
  cases one.templateDelete 0 with
  | ok u => exact ⟨_, rfl, rfl, by simp [Except.isOk, Except.toBool]⟩
  | error e => exact ⟨_, rfl, rfl, by simp [Except.isOk, Except.toBool]⟩

private theorem removeClone_exec (clone : Option Int × Option Int) (s : Site)
    (himage : s.nth .imageInfo = 0) (hdelete : s.nth .imageDelete = 0)
    (htemplate : s.nth .templateDelete = 0) :
    ∃ t, (removeClone cfg clone.1 clone.2).exec (answer one now) s = (.ok (), t) ∧
      t.row = s.row ∧ t.objects = s.objects.cleared cfg one clone := by
  obtain ⟨imageId, templateId⟩ := clone
  cases imageId with
  | none => exact ⟨s, rfl, rfl, rfl⟩
  | some i =>
    by_cases hi : i = 0
    · simp only [removeClone, if_pos hi, OneObjects.cleared]
      exact ⟨s, rfl, rfl, rfl⟩
    · obtain ⟨t, hremove, hrow, hobjects, hkeep⟩ :=
        removeImage_exec one now cfg i s himage hdelete
      simp only [removeClone, if_neg hi, exec_bind, hremove, OneObjects.cleared]
      cases templateId with
      | none => exact ⟨t, rfl, hrow, hobjects⟩
      | some templateId =>
        by_cases haway : (imageAway cfg one && templateId != 0) = true
        · obtain ⟨t', hdel, hrow', hobjects'⟩ := templateDelete_exec one now templateId false t
            (hkeep.trans htemplate)
          simp only [haway, if_true, Bool.true_and]
          refine ⟨t', hdel, hrow'.trans hrow, ?_⟩
          rw [hobjects', hobjects]
        · simp only [haway, Bool.false_and]
          exact ⟨t, rfl, hrow, hobjects⟩

/-- What the answer to `one.vm.info` tells about the clone of the machine. -/
def cloneOf : Except Failure OneVmInfo → Option Int × Option Int
  | .error _ => (none, none)
  | .ok vm => (firstImage vm.diskImageIds, intOf vm.templateId)

private theorem readClone_exec (n : Int) (s : Site) (h : s.nth .vmInfo = 0) :
    (readClone n).exec (answer one now) s = (.ok (cloneOf (one.vmInfo 0)), s.ask .vmInfo) := by
  simp only [readClone, VmCall.perform, exec_bind, exec_call, exec_ret, answer, h]
  cases one.vmInfo 0 with
  | ok vm => rfl
  | error e => rfl

private theorem reportDeleted_exec (d : VmDeleteData) (s : Site) (hid : s.row.id = d.vmId) :
    ((reportDeleted d).exec (answer one now) s).1 = .ok () ∧
    ((reportDeleted d).exec (answer one now) s).2.outcome = (.deleted, s.objects) := by
  have hrow : (rowUpdate now (.deleteVmRecord d.vmId) s.row).status = .deleted := by
    simp [rowUpdate, hid]
  constructor
  · rfl
  · simp only [reportDeleted, deleteVmRecord, publishStatus, exec_bind, exec_call, answer,
      exec_ofExcept, Site.outcome, hrow]

private theorem delete_outcome (s : Site) (userId : String) (n : Int) (h : s.asked = []) :
    ((Worker.deleteVm cfg ⟨s.row.id, some n, userId⟩).exec (answer one now) s).2.outcome =
      match one.vmAction 0 with
      | .ok _ => (.deleted, (s.objects.terminate n).cleared cfg one (cloneOf (one.vmInfo 0)))
      | .error _ => (.error, s.objects) := by
  have hnth : ∀ op, s.nth op = 0 := by simp [Site.nth, h]
  simp only [Worker.deleteVm, exec_tryCatch, exec_bind, readClone_exec one now n s (hnth _), oneVmAction,
    exec_call, answer, Site.nth_ask, hnth, exec_ofExcept, Site.perform, reduceCtorEq, if_false]
  cases one.vmAction 0 with
  | error e =>
    simp only
    rw [report_exec]
    · rfl
    · rfl
  | ok u =>
    simp only
    generalize hs' : Site.mk _ _ _ _ = s'
    have hrow' : s'.row = s.row := by rw [← hs']; rfl
    have hobjects' : s'.objects = s.objects.terminate n := by rw [← hs']; rfl
    have hasked : s'.asked = [.vmInfo, .vmAction] := by
      rw [← hs']
      simp [Site.ask, h]
    obtain ⟨t, hclone, hrow, hobjects⟩ := removeClone_exec one now cfg (cloneOf (one.vmInfo 0)) s'
      (by simp [Site.nth, hasked]) (by simp [Site.nth, hasked]) (by simp [Site.nth, hasked])
    obtain ⟨hok, hend⟩ := reportDeleted_exec one now ⟨s.row.id, some n, userId⟩ t
      (by rw [hrow, hrow'])
    rw [hclone]
    simp only
    rw [← hobjects', ← hobjects, ← hend]
    split
    · rename_i heq
      rw [heq]
    · rename_i heq
      rw [heq] at hok
      cases hok

private theorem delete_outcome_none (s : Site) (userId : String) :
    ((Worker.deleteVm cfg ⟨s.row.id, none, userId⟩).exec (answer one now) s).2.outcome =
      (.deleted, s.objects) :=
  (reportDeleted_exec one now ⟨s.row.id, none, userId⟩ s rfl).2

end Delivery

section Requests

variable {row : VmRow} {userId : String} {role : Role}

def Allowed (row : VmRow) (userId : String) (role : Role) : Prop :=
  role = .admin ∨ row.userId = userId

/-- The worker's validators take the ids of the row and of the caller. -/
def Named (row : VmRow) (userId : String) : Prop :=
  isUuidText row.id = true ∧ isUuidText userId = true

variable (one : OneAnswers) (now : Nat) (cfg : WorkerConfig) (objects : OneObjects)

private theorem getVm_exec (h : Allowed row userId role) :
    (getVm row.id userId role).exec (answer one now) (.start row objects) =
      (.ok row, .start row objects) := by
  have hopen : ¬ (role ≠ .admin ∧ row.userId ≠ userId) := by
    rintro ⟨hrole, hne⟩
    rcases h with h | h
    · exact hrole h
    · exact hne h
  simp [getVm, findVm, answer, Site.start, hopen]

private theorem getVm_refused (h : ¬ Allowed row userId role) :
    (getVm row.id userId role).exec (answer one now) (.start row objects) =
      (.error ⟨.forbidden, "Access denied"⟩, .start row objects) := by
  have hclosed : role ≠ .admin ∧ row.userId ≠ userId := by
    simpa [Allowed, not_or] using h
  simp [getVm, findVm, answer, Site.start, hclosed]

private theorem viaAction_sent (hrow : row.status ≠ .deleted) (h : Allowed row userId role) :
    viaAction one now cfg row objects userId role =
      delivered one now cfg
        ⟨row, objects, [], [(.vmAction, actionMessage row .delete userId)]⟩
        (.vmAction, actionMessage row .delete userId) := by
  have hallowed : row.status ∈ validTransitions .delete := by
    cases hs : row.status <;> simp_all [validTransitions]
  simp only [viaAction, processed, VmService.vmAction, exec_bind, getVm_exec one now objects h]
  simp [queueAction, hallowed, publish, answer, Site.start]

private theorem viaDelete_sent (hrow : row.status ≠ .deleted) (h : Allowed row userId role) :
    viaDelete one now cfg row objects userId role =
      delivered one now cfg
        ⟨row, objects, [], [(.vmDelete, deleteMessage row userId)]⟩
        (.vmDelete, deleteMessage row userId) := by
  simp only [viaDelete, processed, VmService.deleteVm, exec_bind, getVm_exec one now objects h]
  simp [hrow, publish, answer, Site.start]

private theorem via_refused (h : ¬ Allowed row userId role) :
    viaAction one now cfg row objects userId role = .start row objects ∧
      viaDelete one now cfg row objects userId role = .start row objects := by
  constructor
  · simp only [viaAction, processed, VmService.vmAction, exec_bind, getVm_refused one now objects h]
    rfl
  · simp only [viaDelete, processed, VmService.deleteVm, exec_bind, getVm_refused one now objects h]
    rfl

private theorem named_of_validateVmAction
    (h : validateVmAction (actionMessage row .delete userId) = .ok ()) :
    Named row userId ∧ row.oneVmId ≠ none := by
  have hchecks := (firstFailure_ok _).mp h
  have hid : isUuid ((actionMessage row .delete userId).get? "vmId") = true :=
    hchecks (isUuid ((actionMessage row .delete userId).get? "vmId"), "vmId must be UUID") (by simp)
  have huser : isUuid ((actionMessage row .delete userId).get? "userId") = true :=
    hchecks (isUuid ((actionMessage row .delete userId).get? "userId"), "userId must be UUID") (by simp)
  exact ⟨⟨hid, huser⟩, (actionMessage_accepted hid huser).mp h⟩

private theorem named_of_validateVmDelete
    (h : validateVmDelete (deleteMessage row userId) = .ok ()) : Named row userId := by
  have hchecks := (firstFailure_ok _).mp h
  have hid : isUuid ((deleteMessage row userId).get? "vmId") = true :=
    hchecks (isUuid ((deleteMessage row userId).get? "vmId"), "vmId must be UUID") (by simp)
  have huser : isUuid ((deleteMessage row userId).get? "userId") = true :=
    hchecks (isUuid ((deleteMessage row userId).get? "userId"), "userId must be UUID") (by simp)
  exact ⟨hid, huser⟩

private theorem delivered_rejected (s : Site) {subject : Subject} {data : Dict}
    (h : accepts subject data ≠ .ok ()) : delivered one now cfg s (subject, data) = s := by
  have hreason : ∃ reason, accepts subject data = .error reason := by
    cases hr : accepts subject data with
    | ok u => exact absurd hr h
    | error reason => exact ⟨reason, rfl⟩
  obtain ⟨reason, hreason⟩ := hreason
  cases subject with
  | vmCreate =>
    have hcheck : validateVmCreate data = .error reason := hreason
    simp only [delivered, handleMessage, handleVmCreate, hcheck, subscriber_dropped]
  | vmAction =>
    have hcheck : validateVmAction data = .error reason := hreason
    simp only [delivered, handleMessage, handleVmAction, hcheck, subscriber_dropped]
  | vmDelete =>
    have hcheck : validateVmDelete data = .error reason := hreason
    simp only [delivered, handleMessage, handleVmDelete, hcheck, subscriber_dropped]

private theorem delivered_action {n : Int} (s : Site) (hs : s.row = row) (hasked : s.asked = [])
    (hnamed : Named row userId) (hn : row.oneVmId = some n) :
    (delivered one now cfg s (.vmAction, actionMessage row .delete userId)).outcome =
      match one.vmAction 0 with
      | .ok _ => (.deleted, s.objects.terminate n)
      | .error e => (refusedStatus row.status (one.vmInfo 0) e, s.objects) := by
  subst hs
  have haccepted : validateVmAction (actionMessage s.row .delete userId) = .ok () :=
    (actionMessage_accepted hnamed.1 hnamed.2).mpr (by simp [hn])
  have hdata : VmActionData.ofDict? (actionMessage s.row .delete userId) =
      some ⟨s.row.id, n, .delete⟩ := by
    simp [VmActionData.ofDict?, actionMessage, textField, intField, Dict.get?, List.lookup_cons, hn,
      Value.ofOptionInt, Value.asInt, Value.asStr, VmAction.name, actionOf]
  simp only [delivered, handleMessage, handleVmAction, haccepted, hdata, subscriber_exec]
  exact action_outcome one now s n hasked

private theorem delivered_delete (s : Site) (hs : s.row = row) (hasked : s.asked = [])
    (hnamed : Named row userId) :
    (delivered one now cfg s (.vmDelete, deleteMessage row userId)).outcome =
      match row.oneVmId, one.vmAction 0 with
      | none, _ => (.deleted, s.objects)
      | some n, .ok _ => (.deleted, (s.objects.terminate n).cleared cfg one (cloneOf (one.vmInfo 0)))
      | some _, .error _ => (.error, s.objects) := by
  subst hs
  have haccepted : validateVmDelete (deleteMessage s.row userId) = .ok () :=
    deleteMessage_accepted hnamed.1 hnamed.2
  have hdata : VmDeleteData.ofDict? (deleteMessage s.row userId) =
      some ⟨s.row.id, s.row.oneVmId, userId⟩ := by
    cases hn : s.row.oneVmId <;>
      simp [VmDeleteData.ofDict?, deleteMessage, textField, intField, Dict.get?, List.lookup_cons, hn,
        Value.ofOptionInt, Value.asInt, Value.asStr]
  simp only [delivered, handleMessage, handleVmDelete, haccepted, hdata, subscriber_exec]
  cases hn : s.row.oneVmId with
  | none => exact delete_outcome_none one now cfg s userId
  | some n =>
    rw [delete_outcome one now cfg s userId n hasked]
    cases one.vmAction 0 <;> rfl

/-- From the machine and its clone nothing is left to take away once the machine is gone: the image
is still in use, cannot be deleted or is not there, and likewise the template. -/
def Spared (cfg : WorkerConfig) (one : OneAnswers) (objects : OneObjects)
    (clone : Option Int × Option Int) : Prop :=
  ∀ i, clone.1 = some i → i ≠ 0 →
    (watch cfg one = .ready → (one.imageDelete 0).isOk = true → i ∉ objects.images) ∧
    (imageAway cfg one = true → ∀ t, clone.2 = some t → t ≠ 0 →
      (one.templateDelete 0).isOk = true → t ∉ objects.templates)

private theorem withoutImage_eq_iff (i : Int) :
    objects.withoutImage cfg one i = objects ↔
      (watch cfg one = .ready → (one.imageDelete 0).isOk = true → i ∉ objects.images) := by
  unfold OneObjects.withoutImage
  split
  · rename_i h
    rw [OneObjects.ext_iff]
    simp [h.1, h.2, Finset.erase_eq_self]
  · rename_i h
    exact iff_of_true rfl fun hready hok => absurd ⟨hready, hok⟩ h

theorem cleared_eq_iff (clone : Option Int × Option Int) :
    objects.cleared cfg one clone = objects ↔ Spared cfg one objects clone := by
  obtain ⟨imageId, templateId⟩ := clone
  cases imageId with
  | none => simp [OneObjects.cleared, Spared]
  | some i =>
    by_cases hi : i = 0
    · simp [OneObjects.cleared, Spared, hi]
    · have himage := withoutImage_eq_iff one cfg objects i
      have htemplates : (objects.withoutImage cfg one i).templates = objects.templates := by
        unfold OneObjects.withoutImage
        split <;> rfl
      have hspared : Spared cfg one objects (some i, templateId) ↔
          (objects.withoutImage cfg one i = objects ∧
            (imageAway cfg one = true → ∀ t, templateId = some t → t ≠ 0 →
              (one.templateDelete 0).isOk = true → t ∉ objects.templates)) := by
        simp [Spared, himage, hi]
      rw [hspared]
      simp only [OneObjects.cleared, if_neg hi]
      cases templateId with
      | none => simp
      | some t =>
        simp only
        split
        · rename_i hgo
          simp only [Bool.and_eq_true, bne_iff_ne] at hgo
          obtain ⟨⟨haway, ht⟩, hok⟩ := hgo
          constructor
          · intro heq
            have hsame : t ∉ objects.templates := by
              have herase := congrArg OneObjects.templates heq
              simp only [htemplates] at herase
              exact Finset.erase_eq_self.mp herase
            refine ⟨?_, fun _ t' ht' _ _ => Option.some.inj ht' ▸ hsame⟩
            have hmachines := congrArg OneObjects.machines heq
            have himages := congrArg OneObjects.images heq
            exact OneObjects.ext hmachines himages htemplates
          · rintro ⟨himg, htpl⟩
            rw [himg]
            rw [OneObjects.ext_iff]
            simp [htpl haway t rfl ht hok]
        · rename_i hstop
          constructor
          · intro heq
            refine ⟨heq, fun haway t' ht' hne hok => absurd ?_ hstop⟩
            cases ht'
            simp [haway, hne, hok]
          · exact And.left

def Agrees (cfg : WorkerConfig) (one : OneAnswers) (row : VmRow) (objects : OneObjects)
    (userId : String) (role : Role) : Prop :=
  ¬ Allowed row userId role ∨ ¬ Named row userId ∨ ∃ n, row.oneVmId = some n ∧
    match one.vmAction 0 with
    | .ok _ => Spared cfg one objects (cloneOf (one.vmInfo 0))
    | .error e => refusedStatus row.status (one.vmInfo 0) e = .error

/-- **Two deletions.** They leave the same status and the same objects exactly if neither is carried
out, or the machine is terminated and has left nothing else, or it is not and ends in `ERROR`. -/
theorem deletions_agree_iff (hrow : row.status ≠ .deleted) :
    (viaAction one now cfg row objects userId role).outcome =
        (viaDelete one now cfg row objects userId role).outcome ↔
      Agrees cfg one row objects userId role := by
  by_cases hallowed : Allowed row userId role
  · rw [viaAction_sent one now cfg objects hrow hallowed,
      viaDelete_sent one now cfg objects hrow hallowed]
    by_cases hnamed : Named row userId
    · rw [delivered_delete one now cfg ⟨row, objects, [], _⟩ rfl rfl hnamed]
      cases hn : row.oneVmId with
      | none =>
        have hdropped : accepts .vmAction (actionMessage row .delete userId) ≠ .ok () :=
          fun h => (named_of_validateVmAction h).2 hn
        rw [delivered_rejected one now cfg _ hdropped]
        apply iff_of_false
        · intro h
          exact hrow (congrArg Prod.fst h)
        · rintro (h | h | ⟨n, hn', -⟩)
          · exact h hallowed
          · exact h hnamed
          · rw [hn] at hn'
            cases hn'
      | some n =>
        rw [delivered_action one now cfg ⟨row, objects, [], _⟩ rfl rfl hnamed hn]
        have hagrees : Agrees cfg one row objects userId role ↔
            match one.vmAction 0 with
            | .ok _ => Spared cfg one objects (cloneOf (one.vmInfo 0))
            | .error e => refusedStatus row.status (one.vmInfo 0) e = .error := by
          simp [Agrees, hallowed, hnamed, hn]
        rw [hagrees]
        cases one.vmAction 0 with
        | ok u =>
          simp only [Prod.mk.injEq, true_and]
          rw [eq_comm, cleared_eq_iff]
          exact Iff.rfl
        | error e => simp
    · have haction : accepts .vmAction (actionMessage row .delete userId) ≠ .ok () :=
        fun h => hnamed (named_of_validateVmAction h).1
      have hdelete : accepts .vmDelete (deleteMessage row userId) ≠ .ok () :=
        fun h => hnamed (named_of_validateVmDelete h)
      rw [delivered_rejected one now cfg _ haction, delivered_rejected one now cfg _ hdelete]
      exact iff_of_true rfl (.inr (.inl hnamed))
  · obtain ⟨haction, hdelete⟩ := via_refused one now cfg objects hallowed
    rw [haction, hdelete]
    exact iff_of_true rfl (.inl hallowed)

end Requests

section Sample

private def caller : String := "7f1d6c1e-3a52-4c8b-9d07-5b1f0e2a6c34"

private def machineRow : VmRow :=
  { VmRow.sample "0b0e3c1a-5d2f-4f6a-9c3e-1a2b3c4d5e6f" caller with
    oneVmId := some 7, status := .stopped }

private def plainCfg : WorkerConfig := { lower := id, asciiFold := id }

private def machineObjects : OneObjects := ⟨{7}, {5}, {9}⟩

/-- OpenNebula does everything it is asked for; `info` is what it tells about the machine. -/
private def willing (info : OneVmInfo) : OneAnswers where
  vmInfo _ := .ok info
  vmAction _ := .ok ()
  imageInfo _ := .ok (some 1)
  imageDelete _ := .ok ()
  templateDelete _ := .ok ()

/-- A machine whose disk is not an image of its own. -/
theorem deletions_agree_diskless : machineRow.status ≠ .deleted ∧
    (viaAction (willing {}) 0 plainCfg machineRow machineObjects caller .user).outcome =
      (viaDelete (willing {}) 0 plainCfg machineRow machineObjects caller .user).outcome := by
  have hrow : machineRow.status ≠ .deleted := by decide
  refine ⟨hrow, (deletions_agree_iff _ _ _ _ hrow).mpr (.inr (.inr ⟨7, rfl, ?_⟩))⟩
  rintro i ⟨⟩

/-- The action leaves the persistent image and the cloned template of the machine behind. -/
theorem action_leaves_image : ¬ ∀ (one : OneAnswers) (now : Nat) (cfg : WorkerConfig) (row : VmRow)
    (objects : OneObjects) (userId : String) (role : Role), row.status ≠ .deleted →
    (viaAction one now cfg row objects userId role).outcome =
      (viaDelete one now cfg row objects userId role).outcome := by
  intro h
  have hsame := h (willing { templateId := some (.int 9), diskImageIds := [some (.int 5)] }) 0
    plainCfg machineRow machineObjects caller .user (by decide)
  revert hsame
  decide +kernel

end Sample

end CloudVM.Removal
