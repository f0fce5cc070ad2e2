import CloudVM.Plane.World
import CloudVM.Worker.Aside

/-!
# What the operations write and tell

Which calls of the two programs show a VM as running without its address, and which messages name
a user. Only the news of a deletion does, and it names whom the message of the deletion names.
-/

namespace CloudVM.Plane

open VmService Worker Process

section Calls

/-- The VM that a write or a message shows as running without telling where it is. -/
def bareRunning : VmCall → Option String
  | .updateVmStatus u => if u.status = .running ∧ u.sshHost = none then some u.vmId else none
  | .patchStatus vmId p => if p.status = .running ∧ p.sshHost = none then some vmId else none
  | .publishStatus m =>
      if m.status = .row .running ∧ truthyText m.sshHost = none then some m.vmId else none
  | _ => none

/-- The VM that a message is about and the user whom it names. -/
def namedUser : VmCall → Option (String × String)
  | .publishStatus m => m.userId.map fun userId => (m.vmId, userId)
  | _ => none

def Anonymous (c : VmCall) : Prop := namedUser c = none

/-- No VM is shown as running without its address, and at most `named` is named. -/
def Discreet (named : Option (String × String)) (c : VmCall) : Prop :=
  bareRunning c = none ∧ (namedUser c = none ∨ namedUser c = named)

theorem anonymous_of_discreet {c : VmCall} (h : Discreet none c) : Anonymous c :=
  h.2.elim id id

theorem discreet_of_eq {named : Option (String × String)} {c : VmCall} (h : bareRunning c = none)
    (h' : namedUser c = none) : Discreet named c := ⟨h, .inl h'⟩

end Calls

section Worker

variable (cfg : WorkerConfig) {named : Option (String × String)}

private theorem discreet_of_aside {α : Type} {p : VmProcess α} (h : p.Only Aside) :
    p.Only (Discreet named) := by
  apply h.mono
  intro c hc
  cases c <;> first | exact hc.elim | exact discreet_of_eq rfl rfl

private theorem report_discreet {u : StatusWrite} {m : StatusUpdate}
    (hu : bareRunning (.updateVmStatus u) = none) (hm : bareRunning (.publishStatus m) = none)
    (hn : namedUser (.publishStatus m) = none) : (report u m).Only (Discreet named) :=
  only_bind (only_request (discreet_of_eq hu rfl)) fun _ => only_request (discreet_of_eq hm hn)

private theorem createTask_discreet (t : PollTask) : (createTask t).Only (Discreet named) :=
  ⟨discreet_of_eq rfl rfl, fun _ => trivial⟩

private theorem getVmOneId_discreet (vmId : String) : (getVmOneId vmId).Only (Discreet named) := by
  refine ⟨discreet_of_eq rfl rfl, fun r => ?_⟩
  cases r <;> trivial

private theorem launch_discreet (d : VmCreateData) : (launch cfg d).Only (Discreet named) := by
  have hmake : ∀ templateId text, (templateInstantiate templateId d.name text).Only (Discreet named) :=
    fun _ _ => only_request (discreet_of_eq rfl rfl)
  apply only_bind (discreet_of_aside (findTemplate_aside cfg d.osTemplate))
  intro templateId
  cases templateId with
  | none => trivial
  | some templateId =>
    apply only_bind (discreet_of_aside (collectSshKeys_aside cfg d))
    intro sshKeys
    apply only_bind
    · apply only_bind (discreet_of_aside (cleanupStale_aside d.name templateId))
      intro u
      apply only_tryCatch (hmake _ _)
      intro e
      exact only_bind (discreet_of_aside (cleanupStale_aside d.name templateId)) fun _ => hmake _ _
    · intro oneVmId
      apply only_bind (discreet_of_aside (clearBaseFlag_aside oneVmId templateId))
      intro u
      exact only_bind (report_discreet rfl rfl rfl) fun _ => createTask_discreet _

theorem createVm_discreet (d : VmCreateData) : (Worker.createVm cfg d).Only (Discreet named) := by
  have hlock : (VmCall.perform (.acquireCreateLock d.vmId)).Only (Discreet named) :=
    only_perform (discreet_of_eq rfl rfl)
  apply only_bind hlock
  intro r
  rcases r with e | _ | _
  · exact report_discreet rfl rfl rfl
  · trivial
  · have hbody : (provision cfg d).Only (Discreet named) := by
      apply only_bind (getVmOneId_discreet d.vmId)
      intro existing
      cases existing with
      | some oneVmId => exact createTask_discreet _
      | none =>
        simp only
        split
        · exact launch_discreet cfg d
        · trivial
    have hrelease : (releaseCreateLock d.vmId).Only (Discreet named) :=
      only_ignoring (only_request (discreet_of_eq rfl rfl))
    apply only_andFinally _ hrelease
    apply only_tryCatch hbody
    intro e
    exact report_discreet rfl rfl rfl

/-- Neither does a deletion, whose news names the user of its message. -/
theorem deleteVm_discreet (d : VmDeleteData) :
    (Worker.deleteVm cfg d).Only (Discreet (some (d.vmId, d.userId))) := by
  have hreport : (reportDeleted d).Only (Discreet (some (d.vmId, d.userId))) :=
    only_bind (only_request (discreet_of_eq rfl rfl)) fun _ => only_request ⟨rfl, .inr rfl⟩
  unfold Worker.deleteVm
  split
  · exact hreport
  · rename_i oneVmId hid
    apply only_tryCatch
    · apply only_bind (discreet_of_aside (readClone_aside oneVmId))
      intro clone
      apply only_bind (discreet_of_aside (oneVmAction_aside _ _))
      intro u
      exact only_bind (discreet_of_aside (removeClone_aside cfg _ _)) fun _ => hreport
    · intro e
      exact report_discreet rfl rfl rfl

private theorem applyIpOffset_ne_empty {ip : String} (hip : ip ≠ "") (offset : Int) :
    applyIpOffset ip offset ≠ "" := by
  unfold applyIpOffset
  split
  · exact hip
  · simp only
    split
    · exact hip
    · split
      · split
        · exact hip
        · split
          · exact hip
          · intro hempty
            simpa [toString] using congrArg String.toList hempty
      · exact hip

private theorem reportRunning_discreet (t : PollTask) (vm : OneVmInfo) :
    (reportRunning cfg t vm).Only (Discreet named) := by
  unfold reportRunning
  split
  · trivial
  · rename_i ip hfound
    have hip : ip ≠ "" := by simpa using (Option.filter_eq_some_iff.mp hfound).2
    apply only_bind (discreet_of_aside (resizeDisk_aside t))
    intro u
    apply only_bind
    · apply report_discreet
      · simp [bareRunning]
      · have haddress := applyIpOffset_ne_empty hip cfg.oneIpOffset
        simp [bareRunning, truthyText, haddress]
      · rfl
    · intro u
      trivial

private theorem pollState_discreet (t : PollTask) (lastLcm : Int) :
    (pollState t lastLcm).Only (Discreet named) := by
  have hattr : ∀ n name, (requireAttr n name).Only (Discreet named) := by
    intro n name
    cases n <;> trivial
  have hemit : ∀ lcm, (emitIntermediate t lcm lastLcm).Only (Discreet named) := by
    intro lcm
    unfold emitIntermediate
    split
    · trivial
    · split
      · trivial
      · trivial
      · exact only_bind (only_request (discreet_of_eq rfl rfl)) fun _ => only_pure _
  apply only_bind (discreet_of_aside (oneVmInfo_aside t.oneVmId))
  intro vm
  apply only_bind (hattr _ _)
  intro state
  apply only_bind (hattr _ _)
  intro lcm
  split
  · exact only_bind (report_discreet rfl rfl rfl) fun _ => only_pure _
  · exact only_bind (hemit lcm) fun _ => only_pure _

private theorem pollRound_discreet (t : PollTask) (lastLcm : Int) :
    (pollRound cfg t lastLcm).Only (Discreet named) := by
  apply only_bind (only_attempt (pollState_discreet t lastLcm))
  intro out
  rcases out with e | _ | ⟨vm, lcm⟩
  · trivial
  · trivial
  · simp only
    split
    · apply only_bind (only_attempt (reportRunning_discreet cfg t vm))
      intro out
      cases out <;> trivial
    · trivial

/-- The poller tells the address of a VM that it shows as running. -/
theorem waitForIpAndUpdate_discreet (t : PollTask) :
    (waitForIpAndUpdate cfg t).Only (Discreet named) := by
  have hrounds : ∀ rounds lastLcm, (pollRounds cfg t rounds lastLcm).Only (Discreet named) := by
    intro rounds
    induction rounds with
    | zero => exact fun _ => report_discreet rfl rfl rfl
    | succ rounds ih =>
      intro lastLcm
      apply only_bind (pollRound_discreet cfg t lastLcm)
      intro out
      obtain ⟨finished, lcm⟩ := out
      simp only
      split
      · trivial
      · exact only_bind (discreet_of_aside (sleep_aside 8)) fun _ => ih lcm
  exact hrounds 38 (-1)

private theorem reconcilePendingVms_discreet : reconcilePendingVms.Only (Discreet named) := by
  refine ⟨discreet_of_eq rfl rfl, fun r => ?_⟩
  cases r <;> exact only_forEach _ createTask_discreet

theorem startWorker_discreet : startWorker.Only (Discreet named) :=
  only_bind (discreet_of_aside loadTemplates_aside) fun _ => reconcilePendingVms_discreet

theorem reconnect_discreet : reconnect.Only (Discreet named) := by
  have hread : readTemplateCache.Only (Discreet named) := discreet_of_aside readTemplateCache_aside
  apply only_bind hread
  intro cache
  split
  · apply only_bind (discreet_of_aside loadTemplates_aside)
    intro u
    apply only_bind hread
    intro cache
    split
    · exact reconcilePendingVms_discreet
    · trivial
  · trivial

theorem anonymous_of_aside {α : Type} {p : VmProcess α} (h : p.Only Aside) : p.Only Anonymous := by
  apply h.mono
  intro c hc
  cases c <;> first | exact hc.elim | rfl

private theorem report_anonymous (u : StatusWrite) {m : StatusUpdate}
    (hm : namedUser (.publishStatus m) = none) : (report u m).Only Anonymous :=
  only_bind (only_request rfl) fun _ => only_request hm

theorem vmAction_anonymous (d : VmActionData) : (Worker.vmAction d).Only Anonymous := by
  apply only_tryCatch
  · apply only_bind (anonymous_of_aside (oneVmAction_aside _ _))
    intro u
    exact report_anonymous _ rfl
  · intro e
    unfold actionFailed
    split
    · trivial
    · split
      · apply only_tryCatch
        · apply only_bind (anonymous_of_aside (oneVmInfo_aside d.oneVmId))
          intro vm
          exact report_anonymous _ rfl
        · intro e
          exact report_anonymous _ rfl
      · exact report_anonymous _ rfl

private theorem syncVm_anonymous (a : ActiveVm) : (syncVm a).Only Anonymous := by
  apply only_ignoring
  apply only_bind (anonymous_of_aside (oneVmInfo_aside a.oneVmId))
  intro vm
  split
  · trivial
  · split
    · trivial
    · exact only_bind (only_request rfl) fun _ => only_ignoring (only_request rfl)

theorem syncAllVmStates_anonymous : syncAllVmStates.Only Anonymous := by
  apply only_bind (anonymous_of_aside readTemplateCache_aside)
  intro cache
  split
  · refine ⟨rfl, fun r => ?_⟩
    cases r <;> exact only_forEach _ syncVm_anonymous
  · trivial

end Worker

section Service

private theorem anonymous_call {α : Type} {c : VmCall} {f : c.Answer → Except Failure α}
    (h : namedUser c = none) :
    (.call c fun r => Process.ofExcept (f r) : VmProcess α).Only Anonymous := only_request h

theorem onStatusUpdate_anonymous (m : StatusUpdate) : (onStatusUpdate m).Only Anonymous := by
  unfold onStatusUpdate
  split
  · trivial
  · apply only_tryCatch
    · apply only_bind (anonymous_call rfl)
      intro updated
      split
      · trivial
      · exact only_bind (only_request rfl) fun _ => only_pure _
    · intro e
      trivial
  · refine ⟨rfl, fun now => ?_⟩
    apply only_tryCatch
    · exact only_bind (only_request rfl) fun _ => only_pure _
    · intro e
      trivial

variable {named : Option (String × String)}

private theorem discreet_call {α : Type} {c : VmCall} {f : c.Answer → Except Failure α}
    (h : Discreet named c) :
    (.call c fun r => Process.ofExcept (f r) : VmProcess α).Only (Discreet named) := only_request h

private theorem getVm_discreet (vmId userId : String) (role : Role) :
    (getVm vmId userId role).Only (Discreet named) := by
  apply only_bind (discreet_call (discreet_of_eq rfl rfl))
  intro found
  cases found with
  | none => trivial
  | some vm =>
    simp only
    split <;> trivial

private theorem request_discreet {α : Type} {p : VmProcess α} (h : p.Only (Discreet named)) :
    (request p).Only (Discreet named) := only_bind h fun _ => only_pure ()

theorem createVm_request_discreet (dto : CreateVmDto) (userId : String) (role : Role) :
    (request (VmService.createVm dto userId role)).Only (Discreet named) := by
  have hkey : (chooseSshKey dto).Only (Discreet named) := by
    have hgenerated : generateSshKey.Only (Discreet named) :=
      only_bind (only_request (discreet_of_eq rfl rfl)) fun _ => only_bind (only_request (discreet_of_eq rfl rfl)) fun _ => only_pure _
    unfold chooseSshKey
    split
    · exact hgenerated
    · exact hgenerated
    · trivial
  have hlaunch : ∀ isAdmin quota, (launchVm dto userId isAdmin quota).Only (Discreet named) := by
    intro isAdmin quota
    apply only_bind hkey
    intro key
    apply only_bind
    · refine ⟨discreet_of_eq rfl rfl, fun r => ?_⟩
      rcases r with e | vm
      · cases e <;> trivial
      · trivial
    · intro vm
      exact only_bind (only_request (discreet_of_eq rfl rfl)) fun _ => only_pure _
  apply request_discreet
  unfold VmService.createVm
  split
  · exact hlaunch _ _
  · apply only_bind (discreet_call (discreet_of_eq rfl rfl))
    intro quota
    split
    · trivial
    · exact hlaunch _ _

theorem vmAction_request_discreet (vmId : String) (action : VmAction) (userId : String)
    (role : Role) : (request (VmService.vmAction vmId action userId role)).Only (Discreet named) := by
  have hhours : (checkHours userId).Only (Discreet named) := by
    apply only_bind (discreet_call (discreet_of_eq rfl rfl))
    intro access
    cases access with
    | none => trivial
    | some a =>
      simp only
      split
      · trivial
      · trivial
      · split <;> trivial
  have hqueue : ∀ vm, (queueAction vm action userId).Only (Discreet named) := by
    intro vm
    unfold queueAction
    split
    · exact only_bind (only_request (discreet_of_eq rfl rfl)) fun _ => only_pure _
    · trivial
  apply request_discreet
  apply only_bind (getVm_discreet vmId userId role)
  intro vm
  simp only
  split
  · exact only_bind hhours fun _ => hqueue vm
  · exact hqueue vm

theorem deleteVm_request_discreet (vmId userId : String) (role : Role) :
    (request (VmService.deleteVm vmId userId role)).Only (Discreet named) := by
  apply request_discreet
  apply only_bind (getVm_discreet vmId userId role)
  intro vm
  simp only
  split
  · trivial
  · exact only_bind (only_request (discreet_of_eq rfl rfl)) fun _ => only_pure _

end Service

end CloudVM.Plane
