import CloudVM.Worker.Aside

/-!
# Every write of the worker is told

Each operation of the worker writes a row by `update_vm_status` or `delete_vm_record` and then
publishes the news of that write. A ghost remembers the write whose news is owed; no operation
makes another call before it has published what it owes.
-/

namespace CloudVM.Split

open Worker Process

section Ghost

/-- A write of the worker to one row. -/
inductive RowWrite where
  | status (u : StatusWrite)
  | record (vmId : String)
deriving DecidableEq, Repr

def RowWrite.vmId : RowWrite → String
  | .status u => u.vmId
  | .record vmId => vmId

/-- The message says what the write did. It may name the machine where the write does not. -/
structure StatusNews (u : StatusWrite) (m : StatusUpdate) : Prop where
  vmId : m.vmId = u.vmId
  status : m.status = .row u.status
  ipAddress : m.ipAddress = u.ipAddress
  sshHost : m.sshHost = u.sshHost
  oneVmId : u.oneVmId ≠ none → m.oneVmId = u.oneVmId
  ipAddress_ne : u.ipAddress ≠ some ""
  sshHost_ne : u.sshHost ≠ some ""
  bare : u.status = .deleted → u.oneVmId = none ∧ u.ipAddress = none ∧ u.sshHost = none

def News : RowWrite → StatusUpdate → Prop
  | .status u, m => StatusNews u m
  | .record vmId, m => m.vmId = vmId ∧ m.status = .row .deleted

/-- Calls that neither write a row nor send news. -/
def Plain : VmCall → Prop
  | .updateVmStatus _ | .deleteVmRecord _ | .publishStatus _ | .createVmTransaction _
  | .markDeleted _ | .stampStopped _ | .patchStatus _ _ => False
  | _ => True

/-- Whoever owes news publishes it next. Otherwise a message is about an intermediate state. -/
def Tells (owed : Option RowWrite) : VmCall → Prop
  | .updateVmStatus _ => owed = none
  | .deleteVmRecord _ => owed = none
  | .publishStatus m =>
      match owed with
      | some u => News u m
      | none => ∃ s, m.status = .lcm s
  | c => owed = none ∧ Plain c

/-- A confirmed write is owed until the next message. -/
def Owes : (c : VmCall) → Option RowWrite → c.Answer → Option RowWrite → Prop
  | .updateVmStatus u, _, .ok _, owed => owed = some (.status u)
  | .deleteVmRecord vmId, _, .ok _, owed => owed = some (.record vmId)
  | .publishStatus _, _, _, owed => owed = none
  | _, owed, _, owed' => owed' = owed

/-- Starting and ending with nothing owed, the process tells every write. -/
def Telling {α : Type} (p : VmProcess α) : Prop := p.Keeps Tells Owes (· = none)

end Ghost

section Rules

variable {α β : Type}

theorem tells_plain {c : VmCall} (h : Plain c) : Tells none c := by
  cases c <;> first | exact h.elim | exact ⟨rfl, h⟩

theorem owes_plain {c : VmCall} (h : Plain c) {owed owed' : Option RowWrite} {r : c.Answer}
    (he : Owes c owed r owed') : owed' = owed := by
  cases c <;> first | exact h.elim | exact he

theorem plain_of_aside {c : VmCall} (h : Aside c) : Plain c := by
  cases c <;> first | exact h.elim | exact trivial

theorem telling_plain {c : VmCall} {k : c.Answer → VmProcess α} (h : Plain c)
    (hk : ∀ r, Telling (k r)) : Telling (.call c k : VmProcess α) := by
  apply keeps_call
  · intro owed howed
    subst howed
    exact tells_plain h
  · intro r owed owed' howed he
    exact ⟨(owes_plain h he).trans howed, hk r⟩

theorem telling_aside {p : VmProcess α} (h : p.Only Aside) : Telling p := by
  induction p with
  | ret a => exact keeps_ret a
  | raise e => exact keeps_raise e
  | call c k ih => exact telling_plain (plain_of_aside h.1) fun r => ih r (h.2 r)

theorem telling_perform {c : VmCall} (h : Plain c) : Telling c.perform :=
  telling_plain h fun r => keeps_ret r

theorem telling_request {c : VmCall} {f : c.Answer → Except Failure α} (h : Plain c) :
    Telling (.call c fun r => Process.ofExcept (f r) : VmProcess α) :=
  telling_plain h fun r => keeps_ofExcept (f r)

theorem telling_ignoring {p : VmProcess Unit} (h : Telling p) : Telling (ignoring p) :=
  keeps_tryCatch h fun _ => keeps_ret ()

theorem telling_lcm {m : StatusUpdate} {s : LcmStatus} (h : m.status = .lcm s) :
    Telling (publishStatus m) := by
  apply keeps_call
  · intro owed howed
    subst howed
    exact ⟨s, h⟩
  · intro r owed owed' _ he
    exact ⟨he, keeps_ofExcept r⟩

private theorem publish_owed {u : RowWrite} {m : StatusUpdate} (h : News u m) :
    (publishStatus m).Wp Tells Owes (fun _ owed => owed = none) (some u) := by
  refine ⟨h, fun r owed he => ?_⟩
  exact (wp_ofExcept _ _ _).mpr he

theorem telling_report {u : StatusWrite} {m : StatusUpdate} (h : StatusNews u m) :
    Telling (report u m) := by
  intro owed howed
  subst howed
  refine ⟨rfl, fun r owed he => ?_⟩
  cases r with
  | error e => exact he
  | ok a =>
    obtain rfl : owed = some (.status u) := he
    exact publish_owed h

theorem telling_syncReport {u : StatusWrite} {m : StatusUpdate} (h : StatusNews u m) :
    Telling (do updateVmStatus u; ignoring (publishStatus m)) := by
  intro owed howed
  subst howed
  refine ⟨rfl, fun r owed he => ?_⟩
  cases r with
  | error e => exact he
  | ok a =>
    obtain rfl : owed = some (.status u) := he
    apply (wp_tryCatch _ _ _ _).mpr
    apply (publish_owed (u := .status u) h).mono
    intro out owed howed
    cases out <;> exact howed

theorem telling_reportDeleted (d : VmDeleteData) : Telling (reportDeleted d) := by
  intro owed howed
  subst howed
  refine ⟨rfl, fun r owed he => ?_⟩
  cases r with
  | error e => exact he
  | ok a =>
    obtain rfl : owed = some (.record d.vmId) := he
    exact publish_owed ⟨rfl, rfl⟩

end Rules

section Operations

variable (cfg : WorkerConfig)

private theorem bareNews {vmId : String} {status : VmStatus} {m : StatusUpdate} (hid : m.vmId = vmId)
    (hs : m.status = .row status) (hip : m.ipAddress = none) (hhost : m.sshHost = none) :
    StatusNews { vmId, status } m where
  vmId := hid
  status := hs
  ipAddress := hip
  sshHost := hhost
  oneVmId h := absurd rfl h
  ipAddress_ne := by simp
  sshHost_ne := by simp
  bare _ := ⟨rfl, rfl, rfl⟩

private theorem namedNews {vmId : String} {status : VmStatus} {n : Int} {m : StatusUpdate}
    (hid : m.vmId = vmId) (hs : m.status = .row status) (hip : m.ipAddress = none)
    (hhost : m.sshHost = none) (hn : m.oneVmId = some n) (hd : status ≠ .deleted) :
    StatusNews { vmId, status, oneVmId := some n } m where
  vmId := hid
  status := hs
  ipAddress := hip
  sshHost := hhost
  oneVmId _ := hn
  ipAddress_ne := by simp
  sshHost_ne := by simp
  bare h := absurd h hd

private theorem telling_instantiate (d : VmCreateData) (templateId : Int) (keys : List String) :
    Telling (instantiate d templateId keys) := by
  have hclean : Telling (cleanupStale d.name templateId) := telling_aside (cleanupStale_aside _ _)
  have hmake : ∀ text, Telling (templateInstantiate templateId d.name text) :=
    fun _ => telling_request trivial
  apply keeps_bind hclean
  intro _
  apply keeps_tryCatch (hmake _)
  intro e
  exact keeps_bind hclean fun _ => hmake _

private theorem telling_launchFrom (d : VmCreateData) (templateId : Int) :
    Telling (launchFrom cfg d templateId) := by
  apply keeps_bind (telling_aside (collectSshKeys_aside cfg d))
  intro keys
  apply keeps_bind (telling_instantiate d templateId keys)
  intro oneVmId
  apply keeps_bind (telling_aside (clearBaseFlag_aside oneVmId templateId))
  intro _
  apply keeps_bind
  · exact telling_report (namedNews rfl rfl rfl rfl rfl (by simp))
  · intro _
    exact telling_perform trivial

private theorem telling_provision (d : VmCreateData) : Telling (provision cfg d) := by
  have hone : Telling (getVmOneId d.vmId) := by
    refine telling_plain trivial fun r => ?_
    cases r <;> exact keeps_ret _
  apply keeps_bind hone
  intro existing
  cases existing with
  | some existing => exact telling_perform trivial
  | none =>
    simp only
    split
    · apply keeps_bind (telling_aside (findTemplate_aside cfg d.osTemplate))
      intro found
      cases found with
      | none => exact keeps_raise _
      | some templateId => exact telling_launchFrom cfg d templateId
    · exact keeps_raise _

theorem telling_createVm (d : VmCreateData) : Telling (Worker.createVm cfg d) := by
  have hfailed : Telling (provisionFailed d.vmId) := telling_report (bareNews rfl rfl rfl rfl)
  have hrelease : Telling (releaseCreateLock d.vmId) := telling_ignoring (telling_request trivial)
  have hacquire : Telling (VmCall.perform (.acquireCreateLock d.vmId)) := telling_perform trivial
  apply keeps_bind hacquire
  intro r
  split
  · exact hfailed
  · exact keeps_ret ()
  · exact keeps_andFinally (keeps_tryCatch (telling_provision cfg d) fun _ => hfailed) hrelease

theorem telling_vmAction (d : VmActionData) : Telling (Worker.vmAction d) := by
  apply keeps_tryCatch
  · apply keeps_bind (telling_aside (oneVmAction_aside _ d.oneVmId))
    intro _
    exact telling_report (bareNews rfl rfl rfl rfl)
  · intro e
    unfold actionFailed
    split
    · exact keeps_raise e
    · split
      · apply keeps_tryCatch
        · apply keeps_bind (telling_aside (oneVmInfo_aside d.oneVmId))
          intro vm
          exact telling_report (bareNews rfl rfl rfl rfl)
        · intro e
          exact telling_report (bareNews rfl rfl rfl rfl)
      · exact telling_report (bareNews rfl rfl rfl rfl)

theorem telling_deleteVm (d : VmDeleteData) : Telling (Worker.deleteVm cfg d) := by
  unfold Worker.deleteVm
  split
  · exact telling_reportDeleted d
  · rename_i oneVmId _
    apply keeps_tryCatch
    · apply keeps_bind (telling_aside (readClone_aside oneVmId))
      intro clone
      apply keeps_bind (telling_aside (oneVmAction_aside "terminate" oneVmId))
      intro _
      apply keeps_bind (telling_aside (removeClone_aside cfg clone.1 clone.2))
      intro _
      exact telling_reportDeleted d
    · intro e
      exact telling_report (bareNews rfl rfl rfl rfl)

private theorem telling_emitIntermediate (t : PollTask) (lcm lastLcm : Int) :
    Telling (emitIntermediate t lcm lastLcm) := by
  unfold emitIntermediate
  split
  · exact keeps_ret _
  · split
    · exact keeps_ret _
    · exact keeps_ret _
    · exact keeps_bind (telling_lcm rfl) fun _ => keeps_ret _

private theorem telling_requireAttr (n : Option Int) (name : String) :
    Telling (requireAttr n name) := by
  cases n with
  | none => exact keeps_raise _
  | some n => exact keeps_ret n

private theorem telling_pollState (t : PollTask) (lastLcm : Int) :
    Telling (pollState t lastLcm) := by
  apply keeps_bind (telling_aside (oneVmInfo_aside t.oneVmId))
  intro vm
  apply keeps_bind (telling_requireAttr vm.state "STATE")
  intro state
  apply keeps_bind (telling_requireAttr vm.lcmState "LCM_STATE")
  intro lcm
  split
  · apply keeps_bind
    · exact telling_report (namedNews rfl rfl rfl rfl rfl (by simp))
    · intro _
      exact keeps_ret _
  · exact keeps_bind (telling_emitIntermediate t lcm lastLcm) fun _ => keeps_ret _

private theorem applyIpOffset_ne {ip : String} (h : ip ≠ "") (offset : Int) :
    applyIpOffset ip offset ≠ "" := by
  unfold applyIpOffset
  split
  · exact h
  · simp only
    split
    · exact h
    · split
      · split
        · exact h
        · split
          · exact h
          · have hdot : toString "." ≠ "" := by decide
            simp [hdot]
      · exact h

private theorem telling_reportRunning (t : PollTask) (vm : OneVmInfo) :
    Telling (reportRunning cfg t vm) := by
  unfold reportRunning
  split
  · exact keeps_ret _
  · rename_i originalIp hip
    have hne : originalIp ≠ "" := by
      have := (Option.filter_eq_some_iff.mp hip).2
      simpa using this
    have hadjusted := applyIpOffset_ne hne cfg.oneIpOffset
    apply keeps_bind (telling_aside (resizeDisk_aside t))
    intro _
    apply keeps_bind
    · apply telling_report
      constructor <;> simp [hadjusted]
    · intro _
      exact keeps_ret _

private theorem telling_pollRound (t : PollTask) (lastLcm : Int) :
    Telling (pollRound cfg t lastLcm) := by
  apply keeps_bind (keeps_attempt (telling_pollState t lastLcm))
  intro out
  split
  · exact keeps_ret _
  · exact keeps_ret _
  · split
    · apply keeps_bind (keeps_attempt (telling_reportRunning cfg t _))
      intro out
      split <;> exact keeps_ret _
    · exact keeps_ret _

private theorem telling_pollRounds (t : PollTask) (rounds : Nat) (lastLcm : Int) :
    Telling (pollRounds cfg t rounds lastLcm) := by
  induction rounds generalizing lastLcm with
  | zero => exact telling_report (namedNews rfl rfl rfl rfl rfl (by simp))
  | succ rounds ih =>
    apply keeps_bind (telling_pollRound cfg t lastLcm)
    intro ⟨finished, lastLcm⟩
    simp only
    split
    · exact keeps_ret ()
    · exact keeps_bind (telling_aside (sleep_aside 8)) fun _ => ih _

theorem telling_waitForIpAndUpdate (t : PollTask) : Telling (waitForIpAndUpdate cfg t) :=
  telling_pollRounds cfg t 38 (-1)

theorem telling_syncAllVmStates : Telling syncAllVmStates := by
  have hvms : Telling getAllActiveVms := by
    refine telling_plain trivial fun r => ?_
    cases r <;> exact keeps_ret _
  apply keeps_bind (telling_aside readTemplateCache_aside)
  intro cache
  split
  · apply keeps_bind hvms
    intro vms
    apply keeps_forEach
    intro a _
    apply telling_ignoring
    apply keeps_bind (telling_aside (oneVmInfo_aside a.oneVmId))
    intro vm
    split
    · exact keeps_ret ()
    · split
      · exact keeps_ret ()
      · exact telling_syncReport (bareNews rfl rfl rfl rfl)
  · exact keeps_ret ()

private theorem telling_reconcile : Telling reconcilePendingVms := by
  have htasks : Telling getVmsPendingSync := by
    refine telling_plain trivial fun r => ?_
    cases r <;> exact keeps_ret _
  apply keeps_bind htasks
  intro tasks
  apply keeps_forEach
  intro t _
  exact telling_perform trivial

theorem telling_startWorker : Telling startWorker :=
  keeps_bind (telling_aside loadTemplates_aside) fun _ => telling_reconcile

theorem telling_reconnect : Telling reconnect := by
  apply keeps_bind (telling_aside readTemplateCache_aside)
  intro cache
  split
  · apply keeps_bind (telling_aside loadTemplates_aside)
    intro _
    apply keeps_bind (telling_aside readTemplateCache_aside)
    intro cache
    split
    · exact telling_reconcile
    · exact keeps_ret ()
  · exact keeps_ret ()

private theorem telling_subscriber {δ : Type} (accepted : Except String Unit) (data : Option δ)
    {handle : δ → VmProcess Unit} (h : ∀ d, Telling (handle d)) :
    Telling (subscriber accepted data handle) := by
  have hack : Telling ack := telling_perform trivial
  unfold subscriber
  split
  · exact keeps_tryCatch (keeps_bind (h _) fun _ => hack) fun _ => hack
  · exact hack

theorem telling_handleMessage (subject : Subject) (data : Dict) :
    Telling (handleMessage cfg subject data) := by
  cases subject with
  | vmCreate => exact telling_subscriber _ _ (telling_createVm cfg)
  | vmAction => exact telling_subscriber _ _ telling_vmAction
  | vmDelete => exact telling_subscriber _ _ (telling_deleteVm cfg)

end Operations

end CloudVM.Split
