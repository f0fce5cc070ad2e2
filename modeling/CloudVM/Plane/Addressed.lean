import CloudVM.Plane.Calls
import CloudVM.Plane.Requests

/-!
# Where a running VM is

The poller writes the status `RUNNING` and the address together. An action, its correction and the
automatic synchronisation write `RUNNING` alone, on the word of OpenNebula, and the status
subscriber repeats it. A VM that is shown as running can be reached as long as OpenNebula gives
that word only about VMs whose address is known.
-/

namespace CloudVM.Plane

open VmService Worker Process

section Rows

def HasAddress (r : VmRow) : Prop := r.status = .running → r.sshHost ≠ none

def Addressed (w : World) : Prop := ∀ r ∈ w.db.vms.rows, HasAddress r

instance (w : World) : Decidable (Addressed w) :=
  inferInstanceAs (Decidable (∀ r ∈ w.db.vms.rows, r.status = .running → r.sshHost ≠ none))

def HasHost (w : World) (vmId : String) : Prop :=
  ∃ r ∈ w.db.vms.rows, r.id = vmId ∧ r.sshHost ≠ none

instance (w : World) (vmId : String) : Decidable (HasHost w vmId) :=
  inferInstanceAs (Decidable (∃ r ∈ w.db.vms.rows, r.id = vmId ∧ r.sshHost ≠ none))

private theorem orElse_ne_none {a b : Option String} (h : b ≠ none) : (a <|> b) ≠ none := by
  cases a with
  | none => simpa using h
  | some _ => simp

private theorem rowUpdate_sshHost {now : Nat} {c : VmCall} {r : VmRow} (hr : r.sshHost ≠ none) :
    (rowUpdate now c r).sshHost ≠ none := by
  cases c <;> simp only [rowUpdate]
  case updateVmStatus u =>
    split
    · exact orElse_ne_none hr
    · exact hr
  case patchStatus vmId p =>
    split
    · exact orElse_ne_none hr
    · exact hr
  case deleteVmRecord | markDeleted | stampStopped => split <;> exact hr
  all_goals exact hr

private theorem rowUpdate_addressed {now : Nat} {c : VmCall} {r : VmRow} (hr : HasAddress r)
    (hc : bareRunning c = some r.id → r.sshHost ≠ none) : HasAddress (rowUpdate now c r) := by
  cases c <;> simp only [rowUpdate]
  case updateVmStatus u =>
    split
    · rename_i hid
      intro hrunning
      have hstatus : u.status = .running := hrunning
      change (u.sshHost <|> r.sshHost) ≠ none
      cases hhost : u.sshHost with
      | some host => simp
      | none =>
        apply orElse_ne_none
        apply hc
        simp [bareRunning, hstatus, hhost, hid]
    · exact hr
  case patchStatus vmId p =>
    split
    · rename_i hid
      intro hrunning
      have hstatus : p.status = .running := hrunning
      change (p.sshHost <|> r.sshHost) ≠ none
      cases hhost : p.sshHost with
      | some host => simp
      | none =>
        apply orElse_ne_none
        apply hc
        simp [bareRunning, hstatus, hhost, hid]
    · exact hr
  case deleteVmRecord | markDeleted =>
    split
    · rintro ⟨⟩
    · exact hr
  case stampStopped => split <;> exact hr
  all_goals exact hr

variable {env : Env} {c : VmCall} {w w' : World} {a : c.Answer}

private theorem hasHost_of_db {vmId : String} (h : HasHost w vmId) (hdb : w'.db = w.db) :
    HasHost w' vmId := by
  rw [HasHost, hdb]
  exact h

private theorem hasHost_effect {vmId : String} (h : HasHost w vmId)
    (he : worldEffect env c w a w') : HasHost w' vmId := by
  obtain ⟨r, hr, hid, hhost⟩ := h
  rcases worldEffect_vms he with heq | ⟨now, rfl⟩ | ⟨tx, newId, now, -, -, -, hrows⟩
  · exact ⟨r, heq ▸ hr, hid, hhost⟩
  · refine ⟨rowUpdate now c r, ?_, ?_, rowUpdate_sshHost hhost⟩
    · simp only [World.written, Table.rows_modify, if_true]
      exact List.mem_map_of_mem hr
    · rw [rowUpdate_id, hid]
  · refine ⟨r, ?_, hid, hhost⟩
    rw [hrows]
    exact List.mem_append_left _ hr

private theorem addressed_effect (hw : Addressed w) (he : worldEffect env c w a w')
    (hc : ∀ vmId, bareRunning c = some vmId → HasHost w vmId) : Addressed w' := by
  intro r' hr'
  rcases worldEffect_vms he with heq | ⟨now, rfl⟩ | ⟨tx, newId, now, -, -, -, hrows⟩
  · exact hw r' (heq ▸ hr')
  · simp only [World.written, Table.rows_modify, if_true, List.mem_map] at hr'
    obtain ⟨r, hr, rfl⟩ := hr'
    apply rowUpdate_addressed (hw r hr)
    intro hbare
    obtain ⟨known, hknown, hid, hhost⟩ := hc r.id hbare
    rwa [← w.db.vms.eq_of_key_eq hknown hr hid]
  · rw [hrows] at hr'
    rcases List.mem_append.mp hr' with hr' | hr'
    · exact hw r' hr'
    · obtain rfl := List.mem_singleton.mp hr'
      rintro ⟨⟩

end Rows

section Told

/-- By an answer, given after `before`, OpenNebula tells the request that the VM runs: it accepts a
start or a restart, it refuses an action for the machine runs already, or it shows the machine of a
row that says otherwise. -/
inductive Tells : PlaneRequest → List VmEvent → VmEvent → String → Prop
  | accepted {data : Dict} {last : Bool} {before : List VmEvent} {d : VmActionData} {action : String}
      (hd : VmActionData.ofDict? data = some d) (ha : actionMap d.action = (action, .running)) :
      Tells (.message .vmAction data last) before ⟨.oneVmAction action d.oneVmId, .ok ()⟩ d.vmId
  | refused {data : Dict} {last : Bool} {before : List VmEvent} {d : VmActionData} {vm : OneVmInfo}
      (hd : VmActionData.ofDict? data = some d) (hs : correctStatus vm = .running) :
      Tells (.message .vmAction data last) before ⟨.oneVmInfo d.oneVmId, .ok vm⟩ d.vmId
  | synced {before : List VmEvent} {vms : List ActiveVm} {a : ActiveVm} {vm : OneVmInfo}
      (hvms : ⟨.selectActiveVms, .ok vms⟩ ∈ before) (ha : a ∈ vms)
      (hs : realStatus vm = some .running) (hdb : a.dbStatus ≠ .running) :
      Tells .syncAllVmStates before ⟨.oneVmInfo a.oneVmId, .ok vm⟩ a.vmId

def Told (q : PlaneRequest) (log : List VmEvent) (vmId : String) : Prop :=
  ∃ before e after, log = before ++ e :: after ∧ Tells q before e vmId

/-- It has been told so by OpenNebula, or it has taken the news of it. -/
def Heard (q : PlaneRequest) (log : List PlaneEvent) (vmId : String) : Prop :=
  Told q (vmLog log) vmId ∨
    ∃ m, q = .statusUpdate m ∧ ⟨.take, true⟩ ∈ log ∧ bareRunning (.publishStatus m) = some vmId

variable {q : PlaneRequest} {log : List VmEvent} {vmId : String}

private theorem Told.append (h : Told q log vmId) (e : VmEvent) : Told q (log ++ [e]) vmId := by
  obtain ⟨before, e', after, rfl, htells⟩ := h
  exact ⟨before, e', after ++ [e], by simp, htells⟩

private theorem told_of_tells {e : VmEvent} (h : Tells q log e vmId) : Told q (log ++ [e]) vmId :=
  ⟨log, e, [], rfl, h⟩

private theorem told_append {e : VmEvent} (h : Told q (log ++ [e]) vmId) :
    Told q log vmId ∨ Tells q log e vmId := by
  obtain ⟨before, e', after, heq, htells⟩ := h
  rcases List.eq_nil_or_concat after with rfl | ⟨after, last, rfl⟩
  · obtain ⟨rfl, rfl⟩ := List.append_singleton_inj.mp heq
    exact .inr htells
  · have hsplit : log ++ [e] = (before ++ e' :: after) ++ [last] := by simpa using heq
    obtain ⟨rfl, -⟩ := List.append_singleton_inj.mp hsplit
    exact .inl ⟨before, e', after, rfl, htells⟩

end Told

section Programs

variable (q : PlaneRequest)

/-- The program shows a VM as running without its address if its request has been told so. -/
def Reporting (log : List VmEvent) (c : VmCall) : Prop :=
  ∀ vmId, bareRunning c = some vmId → Told q log vmId

variable {q : PlaneRequest}

private abbrev Reports {α : Type} (q : PlaneRequest) (p : VmProcess α) (log : List VmEvent) : Prop :=
  p.Wp (Reporting q) (logged fun _ _ => True) (fun _ _ => True) log

private theorem reporting_of_none {log : List VmEvent} {c : VmCall} (h : bareRunning c = none) :
    Reporting q log c := by
  intro vmId hbare
  rw [h] at hbare
  cases hbare

private theorem reports_of_discreet (named : Option (String × String)) {p : VmProcess Unit}
    (h : p.Only (Discreet named)) (log : List VmEvent) : Reports q p log :=
  h.keeps (J := fun _ => True) (fun _ _ hc => reporting_of_none hc.1) (fun _ _ _ _ _ _ _ => trivial)
    log trivial

private theorem reporting_write {vmId : String} {status : VmStatus} {log : List VmEvent}
    (h : status = .running → Told q log vmId) :
    Reporting q log (.updateVmStatus { vmId, status }) := by
  intro v hbare
  simp only [bareRunning] at hbare
  split at hbare
  · rename_i hrunning
    obtain rfl := Option.some.inj hbare
    exact h hrunning.1
  · cases hbare

private theorem reporting_news {m : StatusUpdate} {log : List VmEvent}
    (h : m.status = .row .running → Told q log m.vmId) : Reporting q log (.publishStatus m) := by
  intro v hbare
  simp only [bareRunning] at hbare
  split at hbare
  · rename_i hrunning
    obtain rfl := Option.some.inj hbare
    exact h hrunning.1
  · cases hbare

private theorem report_reports {vmId : String} {status : VmStatus} {m : StatusUpdate}
    {log : List VmEvent} (hid : m.vmId = vmId) (hm : m.status = .row status)
    (h : status = .running → Told q log vmId) : Reports q (report { vmId, status } m) log := by
  refine ⟨reporting_write h, ?_⟩
  rintro r log ⟨-, rfl⟩
  cases r with
  | error e => trivial
  | ok u =>
    refine ⟨?_, fun r log _ => ?_⟩
    · apply reporting_news
      intro hrunning
      rw [hm] at hrunning
      rw [hid]
      exact (h (UpdateStatus.row.inj hrunning)).append _
    · exact (wp_ofExcept _ _ _).mpr trivial

private theorem syncRefused_reports {data : Dict} {last : Bool} {d : VmActionData}
    (hd : VmActionData.ofDict? data = some d) (log : List VmEvent) :
    Reports (.message .vmAction data last) (syncRefused d) log := by
  apply Wp.recover (R := fun _ _ => True)
  · refine ⟨reporting_of_none rfl, ?_⟩
    rintro r log ⟨-, rfl⟩
    cases r with
    | error e => trivial
    | ok vm =>
      apply report_reports
      · rfl
      · rfl
      · intro hs
        exact told_of_tells (.refused hd hs)
  · intro u log h
    trivial
  · intro e log h
    exact report_reports rfl rfl nofun

private theorem vmAction_reports {data : Dict} {last : Bool} {d : VmActionData}
    (hd : VmActionData.ofDict? data = some d) (log : List VmEvent) :
    Reports (.message .vmAction data last) (Worker.vmAction d) log := by
  apply Wp.recover (R := fun _ _ => True)
  · refine ⟨reporting_of_none rfl, ?_⟩
    rintro r log ⟨-, rfl⟩
    cases r with
    | error e => trivial
    | ok u =>
      apply report_reports
      · rfl
      · rfl
      · intro hs
        exact told_of_tells (.accepted hd (Prod.ext rfl hs))
  · intro u log h
    trivial
  · intro e log h
    unfold actionFailed
    split
    · trivial
    · split
      · exact syncRefused_reports hd log
      · exact report_reports rfl rfl nofun

private theorem syncVm_keeps {vms : List ActiveVm} {a : ActiveVm} (ha : a ∈ vms) :
    (syncVm a).Keeps (Reporting .syncAllVmStates) (logged fun _ _ => True)
      fun log => ⟨.selectActiveVms, .ok vms⟩ ∈ log := by
  intro log hlog
  apply Wp.recover (R := fun _ log => ⟨.selectActiveVms, .ok vms⟩ ∈ log)
  · refine ⟨reporting_of_none rfl, ?_⟩
    rintro r log' ⟨-, rfl⟩
    have hread : ⟨.selectActiveVms, .ok vms⟩ ∈ log ++ [(⟨.oneVmInfo a.oneVmId, r⟩ : VmEvent)] :=
      List.mem_append_left _ hlog
    cases r with
    | error e => exact hread
    | ok vm =>
      simp only [ofExcept_ok, bind_def, ret_bind]
      cases hs : realStatus vm with
      | none => exact hread
      | some status =>
        simp only
        split
        · exact hread
        · rename_i hne
          have htold : status = .running →
              Told .syncAllVmStates (log ++ [⟨.oneVmInfo a.oneVmId, .ok vm⟩]) a.vmId := by
            rintro rfl
            exact told_of_tells (.synced hlog ha hs (Ne.symm hne))
          refine ⟨reporting_write htold, ?_⟩
          rintro r log' ⟨-, rfl⟩
          have hwritten := List.mem_append_left [(⟨.updateVmStatus _, r⟩ : VmEvent)] hread
          cases r with
          | error e => exact hwritten
          | ok u =>
            refine ⟨?_, ?_⟩
            · apply reporting_news
              intro hrunning
              exact (htold (UpdateStatus.row.inj hrunning)).append _
            · rintro r log' ⟨-, rfl⟩
              cases r <;> exact List.mem_append_left _ hwritten
  · exact fun _ _ h => h
  · exact fun _ _ h => h

private theorem syncAllVmStates_reports (log : List VmEvent) :
    Reports .syncAllVmStates Worker.syncAllVmStates log := by
  refine ⟨reporting_of_none rfl, ?_⟩
  rintro cache log ⟨-, rfl⟩
  cases cache with
  | none => trivial
  | some templates =>
    refine ⟨reporting_of_none rfl, ?_⟩
    rintro r log' ⟨-, rfl⟩
    cases r with
    | error e => trivial
    | ok vms =>
      have hrows := keeps_forEach vms fun a ha => syncVm_keeps ha
      exact (hrows _ (by simp)).mono fun _ _ _ => trivial

private theorem handleMessage_reports (cfg : WorkerConfig) (subject : Subject) (data : Dict)
    (last : Bool) (log : List VmEvent) :
    Reports (.message subject data last) (handleMessage cfg subject data) log := by
  have hack : ∀ log, Reports (.message subject data last) ack log :=
    fun log => ⟨reporting_of_none rfl, fun _ _ _ => trivial⟩
  have hsubscriber : ∀ {δ : Type} (accepted : Except String Unit) (parsed : Option δ)
      (handle : δ → VmProcess Unit),
      (∀ d, parsed = some d → Reports (.message subject data last) (handle d) log) →
      Reports (.message subject data last) (subscriber accepted parsed handle) log := by
    intro δ accepted parsed handle hd
    unfold subscriber
    split
    · apply Wp.recover (R := fun _ _ => True)
      · exact (hd _ rfl).bind (fun _ _ _ => trivial) fun _ t _ => hack t
      · intro u t h
        trivial
      · exact fun _ t _ => hack t
    · exact hack log
  cases subject with
  | vmCreate =>
    apply hsubscriber
    intro d hd
    exact reports_of_discreet none (createVm_discreet cfg d) log
  | vmAction =>
    apply hsubscriber
    intro d hd
    exact vmAction_reports hd log
  | vmDelete =>
    apply hsubscriber
    intro d hd
    exact reports_of_discreet _ (deleteVm_discreet cfg d) log

/-- Each program reports as running only what it has been told of, the repetition of news apart. -/
private theorem program_reports (cfg : WorkerConfig) {q : PlaneRequest}
    (hq : ∀ m, q ≠ .statusUpdate m) (log : List VmEvent) : Reports q (q.program cfg) log := by
  cases q with
  | createVm dto userId role =>
    exact reports_of_discreet none (createVm_request_discreet dto userId role) log
  | vmAction vmId action userId role =>
    apply reports_of_discreet none
    exact vmAction_request_discreet vmId action userId role
  | deleteVm vmId userId role =>
    exact reports_of_discreet none (deleteVm_request_discreet vmId userId role) log
  | message subject data last => exact handleMessage_reports cfg subject data last log
  | statusUpdate m => exact absurd rfl (hq m)
  | poll t => exact reports_of_discreet none (waitForIpAndUpdate_discreet cfg t) log
  | startWorker => exact reports_of_discreet none startWorker_discreet log
  | reconnect => exact reports_of_discreet none reconnect_discreet log
  | syncAllVmStates => exact syncAllVmStates_reports log

private def Repeats (m : StatusUpdate) (c : VmCall) : Prop :=
  ∀ vmId, bareRunning c = some vmId → bareRunning (.publishStatus m) = some vmId

private theorem repeats_of_none {m : StatusUpdate} {c : VmCall} (h : bareRunning c = none) :
    Repeats m c := by
  intro vmId hbare
  rw [h] at hbare
  cases hbare

private theorem onStatusUpdate_repeats (m : StatusUpdate) : (onStatusUpdate m).Only (Repeats m) := by
  unfold onStatusUpdate
  split
  · trivial
  · apply only_tryCatch
    · apply only_bind
      · apply only_request
        exact repeats_of_none rfl
      · intro updated
        split
        · trivial
        · apply only_bind
          · apply only_request
            exact repeats_of_none rfl
          · exact fun _ => only_pure _
    · intro e
      trivial
  · rename_i status _ hstatus
    refine ⟨repeats_of_none rfl, fun now => ?_⟩
    apply only_tryCatch
    · apply only_bind
      · apply only_request
        intro vmId hbare
        simp only [bareRunning] at hbare ⊢
        split at hbare
        · rename_i hrunning
          have hrow : status = .running := hrunning.1
          rw [if_pos ⟨by rw [hstatus, hrow], hrunning.2⟩]
          exact hbare
        · cases hbare
      · exact fun _ => only_pure _
    · intro e
      trivial

/-- A call that shows a VM as running without its address comes from a request that has heard so. -/
def Voices (q : PlaneRequest) (log : List PlaneEvent) : PlaneCall → Prop
  | .take => True
  | .vm c => ∀ vmId, bareRunning c = some vmId → Heard q log vmId

private theorem voices_of_repeats {m : StatusUpdate} {p : VmProcess Unit} (h : p.Only (Repeats m))
    {log : List PlaneEvent} (ht : ⟨.take, true⟩ ∈ log) :
    (ofVm p).Wp (Voices (.statusUpdate m)) (logged fun _ _ => True) (fun _ _ => True) log := by
  induction p generalizing log with
  | ret a => trivial
  | raise e => trivial
  | call c k ih =>
    refine ⟨fun vmId hbare => .inr ⟨m, rfl, ht, h.1 vmId hbare⟩, ?_⟩
    rintro r log ⟨-, rfl⟩
    exact ih r (h.2 r) (List.mem_append_left _ ht)

private theorem program_voices (cfg : WorkerConfig) (q : PlaneRequest) {log : List PlaneEvent}
    (h : ⟨.take, true⟩ ∈ log) :
    (ofVm (q.program cfg)).Wp (Voices q) (logged fun _ _ => True) (fun _ _ => True) log := by
  by_cases hq : ∃ m, q = .statusUpdate m
  · obtain ⟨m, rfl⟩ := hq
    exact voices_of_repeats (onStatusUpdate_repeats m) h
  · have hreports := program_reports cfg (fun m hm => hq ⟨m, hm⟩) (vmLog log)
    apply hreports.lift vmLog
    · intro t c hc vmId hbare
      exact .inl (hc vmId hbare)
    · rintro t c r t' ⟨-, rfl⟩
      exact ⟨trivial, vmLog_vm t c r⟩

def planeContract (env : Env) : (planeServer env).Contract where
  fits _ _ := True
  permits := Voices
  returns _ _ _ := True
  sound := by
    intros
    trivial
  holds := by
    intro q
    refine ⟨trivial, ?_⟩
    rintro taken log ⟨-, rfl⟩
    cases taken with
    | false => trivial
    | true =>
      apply (program_voices env.cfg q (by simp)).mono
      intro out t h
      cases out <;> trivial

end Programs

section Runs

variable (env : Env)

/-- What OpenNebula tells a request of a running VM it tells when the VM's address is known. -/
def Meets (x : PlaneStage) : StageLabel planeInterface PlaneRequest → Prop
  | .act i (.vm c) r => ∀ task, x.tasks[i]? = some task → ∀ vmId,
      Tells task.request (vmLog task.log) ⟨c, r⟩ vmId → HasHost x.state vmId
  | _ => True

/-- What every request has heard and every news on its way tells is about VMs with an address. -/
structure Backed (x : PlaneStage) : Prop where
  addressed : Addressed x.state
  news : ∀ m ∈ x.state.updates, ∀ vmId, bareRunning (.publishStatus m) = some vmId →
    HasHost x.state vmId
  heard : ∀ task ∈ x.tasks, ∀ vmId, Heard task.request task.log vmId → HasHost x.state vmId
  kept : ∀ task ∈ x.tasks, (planeContract env).Kept task

variable {env : Env} {x y : PlaneStage} {w w' : World}

private theorem taken_db {q : PlaneRequest} (h : q.Taken env w w') :
    w'.db = w.db ∧ w'.updates ⊆ w.updates := by
  cases q
  case createVm | vmAction | deleteVm =>
    obtain rfl : w' = w := by
      simp only [PlaneRequest.Taken] at h
      tauto
    exact ⟨rfl, fun _ h => h⟩
  case message =>
    obtain ⟨-, rfl⟩ := h
    split <;> exact ⟨rfl, fun _ h => h⟩
  case statusUpdate =>
    obtain ⟨-, rfl⟩ := h
    exact ⟨rfl, List.erase_subset⟩
  case poll =>
    obtain ⟨-, rfl⟩ := h
    exact ⟨rfl, fun _ h => h⟩
  all_goals
    obtain rfl := h
    exact ⟨rfl, fun _ h => h⟩

private theorem loses_db (h : Loses w w') : w'.db = w.db ∧ w'.updates ⊆ w.updates := by
  cases h with
  | lock => exact ⟨rfl, fun _ h => h⟩
  | message => exact ⟨rfl, fun _ h => h⟩
  | update => exact ⟨rfl, List.erase_subset⟩
  | restart => exact ⟨rfl, fun _ h => h⟩

private theorem heard_append {q : PlaneRequest} {log : List PlaneEvent} {c : VmCall} {r : c.Answer}
    {vmId : String} (h : Heard q (log ++ [⟨.vm c, r⟩]) vmId) :
    Heard q log vmId ∨ Tells q (vmLog log) ⟨c, r⟩ vmId := by
  rcases h with htold | ⟨m, rfl, htake, hbare⟩
  · rw [vmLog_vm] at htold
    rcases told_append htold with hold | hnew
    · exact .inl (.inl hold)
    · exact .inr hnew
  · have hbefore : ⟨.take, true⟩ ∈ log := by
      rcases List.mem_append.mp htake with htake | htake
      · exact htake
      · cases List.mem_singleton.mp htake
    exact .inl (.inr ⟨m, rfl, hbefore, hbare⟩)

private theorem heard_take {q : PlaneRequest} {log : List PlaneEvent} {r : Bool} {vmId : String}
    (h : Heard q (log ++ [⟨.take, r⟩]) vmId) :
    Heard q log vmId ∨
      r = true ∧ ∃ m, q = .statusUpdate m ∧ bareRunning (.publishStatus m) = some vmId := by
  rcases h with htold | ⟨m, rfl, htake, hbare⟩
  · rw [vmLog_take] at htold
    exact .inl (.inl htold)
  · rcases List.mem_append.mp htake with htake | htake
    · exact .inl (.inr ⟨m, rfl, htake, hbare⟩)
    · cases List.mem_singleton.mp htake
      exact .inr ⟨rfl, m, rfl, hbare⟩

private theorem Backed.of_db (hx : Backed env x) (hdb : y.state.db = x.state.db)
    (hupdates : y.state.updates ⊆ x.state.updates)
    (hheard : ∀ task ∈ y.tasks, ∀ vmId, Heard task.request task.log vmId → HasHost x.state vmId)
    (hkept : ∀ task ∈ y.tasks, (planeContract env).Kept task) : Backed env y where
  addressed := by
    rw [Addressed, hdb]
    exact hx.addressed
  news m hm vmId hbare := hasHost_of_db (hx.news m (hupdates hm) vmId hbare) hdb
  heard task ht vmId h := hasHost_of_db (hheard task ht vmId h) hdb
  kept := hkept

private theorem Backed.heard_set (hx : Backed env x) {i : Nat}
    {moved : Task planeInterface Failure Unit PlaneRequest}
    (hmoved : ∀ vmId, Heard moved.request moved.log vmId → HasHost x.state vmId) :
    ∀ task ∈ x.tasks.set i moved, ∀ vmId, Heard task.request task.log vmId →
      HasHost x.state vmId := by
  intro task htask vmId hheard
  rcases mem_set_cases htask with rfl | ⟨j, -, hj⟩
  · exact hmoved vmId hheard
  · exact hx.heard task (List.mem_of_getElem? hj) vmId hheard

private theorem backed_step (hx : Backed env x) {l : StageLabel planeInterface PlaneRequest}
    (hl : Meets x l) (h : (planeServer env).Step x l y) : Backed env y := by
  have hkept := (planeContract env).kept_step x l y hx.kept h
  cases h with
  | begin q =>
    refine hx.of_db ?_ ?_ ?_ hkept
    · rfl
    · exact fun _ h => h
    · intro task ht vmId hheard
      rcases List.mem_append.mp ht with ht | ht
      · exact hx.heard task ht vmId hheard
      · obtain rfl := List.mem_singleton.mp ht
        rcases hheard with ⟨before, e, after, heq, -⟩ | ⟨m, -, htake, -⟩
        · simp [vmLog] at heq
        · cases htake
  | crash e ht hlive =>
    refine hx.of_db rfl (fun _ h => h) (hx.heard_set ?_) hkept
    intro vmId hheard
    exact hx.heard _ (List.mem_of_getElem? ht) vmId hheard
  | change hc =>
    obtain ⟨hdb, hupdates⟩ := loses_db hc
    exact hx.of_db hdb hupdates hx.heard hkept
  | @act s s' tasks i q log c k r ht he =>
    have hmem := List.mem_of_getElem? ht
    cases c with
    | take =>
      have hdb : s'.db = s.db ∧ s'.updates ⊆ s.updates := by
        rcases he with ⟨-, htaken⟩ | ⟨-, rfl⟩
        · exact taken_db htaken
        · exact ⟨rfl, fun _ h => h⟩
      refine hx.of_db hdb.1 hdb.2 (hx.heard_set ?_) hkept
      intro vmId hheard
      rcases heard_take hheard with hold | ⟨rfl, m, rfl, hbare⟩
      · exact hx.heard _ hmem vmId hold
      · rcases he with ⟨-, htaken⟩ | ⟨hfalse, -⟩
        · exact hx.news m htaken.1 vmId hbare
        · cases hfalse
    | vm c =>
      have hcall : ∀ vmId, bareRunning c = some vmId → HasHost s vmId := fun vmId hbare =>
        hx.heard _ hmem vmId ((hx.kept _ hmem).1 vmId hbare)
      have hhost : ∀ vmId, HasHost s vmId → HasHost s' vmId :=
        fun vmId hhost => hasHost_effect hhost he
      refine ⟨addressed_effect hx.addressed he hcall, ?_, ?_, hkept⟩
      · intro m hm vmId hbare
        rcases (worldEffect_queues he).2.1 m hm with hold | rfl
        · exact hhost vmId (hx.news m hold vmId hbare)
        · exact hhost vmId (hcall vmId hbare)
      · intro task htask vmId hheard
        apply hhost
        refine hx.heard_set ?_ task htask vmId hheard
        intro vmId hheard
        rcases heard_append hheard with hold | hnew
        · exact hx.heard _ hmem vmId hold
        · exact hl _ ht vmId hnew

/-- Along a run every running VM has an address if OpenNebula tells requests that a VM runs only
when the VM's address is known. -/
theorem running_addressed (env : Env) (db : VmDb)
    {trace : List (StageLabel planeInterface PlaneRequest × PlaneStage)} {x : PlaneStage}
    (h : Run (planeServer env).Step ⟨World.initial db, []⟩ trace x)
    (hdb : Addressed (World.initial db)) (hmeets : Along Meets ⟨World.initial db, []⟩ trace) :
    ∀ e ∈ trace, Addressed e.2.state := by
  have hinitial : Backed env ⟨World.initial db, []⟩ :=
    ⟨hdb, by simp [World.initial], by simp, by simp⟩
  have hall := h.forall_along (fun _ _ _ hx hl hs => backed_step hx hl hs) hinitial hmeets
  exact fun e he => (hall e he).addressed

end Runs

section Sample

private def hostEnv : Env where
  cfg := { lower := id, asciiFold := id }
  uuid s := isUuidText s = true

private def bootId : String := "0b0e3c1a-5d2f-4f6a-9c3e-1a2b3c4d5e6f"

private def booting : VmRow :=
  { VmRow.sample bootId "7f1d6c1e-3a52-4c8b-9d07-5b1f0e2a6c34" with oneVmId := some 7 }

private def bootDb : VmDb := ⟨Table.empty.insert booting (by simp), .empty⟩

private def bootTask : PollTask := { vmId := bootId, oneVmId := 7 }

private def bootActive : ActiveVm := { vmId := bootId, oneVmId := 7, dbStatus := .pending }

private abbrev HostStep (x : PlaneStage) (l : StageLabel planeInterface PlaneRequest)
    (y : PlaneStage) : Prop := (planeServer hostEnv).Step x l y ∧ Meets x l

variable {s s' : World} {tasks : List (Task planeInterface Failure Unit PlaneRequest)} {i : Nat}
  {q : PlaneRequest} {log : List PlaneEvent}

private theorem host_begin (q : PlaneRequest) :
    HostStep ⟨s, tasks⟩ (.begin q) ⟨s, tasks ++ [⟨q, [], q.handle hostEnv.cfg⟩]⟩ :=
  ⟨.begin q, trivial⟩

private theorem host_take {k : Bool → PlaneProcess} (i : Nat)
    (ht : tasks[i]? = some ⟨q, [], .call PlaneCall.take k⟩) (h : q.Taken hostEnv s s') :
    HostStep ⟨s, tasks⟩ (.act i PlaneCall.take true)
      ⟨s', tasks.set i ⟨q, [⟨PlaneCall.take, true⟩], k true⟩⟩ :=
  ⟨.act ht (.inl ⟨rfl, h⟩), trivial⟩

private theorem host_answer (i : Nat) (c : VmCall) (r : c.Answer) {k : c.Answer → PlaneProcess}
    (ht : tasks[i]? = some ⟨q, log, .call (PlaneCall.vm c) k⟩) (he : worldEffect hostEnv c s r s') :
    (planeServer hostEnv).Step ⟨s, tasks⟩ (.act i (PlaneCall.vm c) r)
      ⟨s', tasks.set i ⟨q, log ++ [⟨PlaneCall.vm c, r⟩], k r⟩⟩ :=
  .act ht he

private theorem host_vm (i : Nat) (c : VmCall) (r : c.Answer) {k : c.Answer → PlaneProcess}
    (ht : tasks[i]? = some ⟨q, log, .call (PlaneCall.vm c) k⟩) (he : worldEffect hostEnv c s r s')
    (hm : ∀ vmId, Tells q (vmLog log) ⟨c, r⟩ vmId → HasHost s vmId) :
    HostStep ⟨s, tasks⟩ (.act i (PlaneCall.vm c) r)
      ⟨s', tasks.set i ⟨q, log ++ [⟨PlaneCall.vm c, r⟩], k r⟩⟩ := by
  refine ⟨host_answer i c r ht he, ?_⟩
  intro task htask
  obtain rfl := Option.some.inj (ht.symm.trans htask)
  exact hm

private theorem boot_run : Reaches HostStep ⟨World.initial bootDb, []⟩ fun x =>
      x.state = { World.initial bootDb with tasks := [bootTask], cache := some [] } ∧
      ∃ first log rest, x.tasks = [first, ⟨.syncAllVmStates, log, rest⟩] ∧
        vmLog log = [⟨.readTemplateCache, some []⟩, ⟨.selectActiveVms, .ok [bootActive]⟩] ∧
        rest = ofVm (Process.forEach syncVm [bootActive]) := by
  refine Reaches.next (host_begin .startWorker) ?_
  refine Reaches.next (host_take 0 rfl rfl) ?_
  refine Reaches.next (host_vm 0 .templatePoolInfo (.ok []) rfl rfl nofun) ?_
  refine Reaches.next (host_vm 0 (.writeTemplateCache (some [])) () rfl rfl nofun) ?_
  refine Reaches.next (host_vm 0 .selectPendingVms (.ok [bootTask]) rfl ⟨rfl, .inl rfl⟩ nofun) ?_
  refine Reaches.next (host_vm 0 (.createTask bootTask) () rfl rfl nofun) ?_
  refine Reaches.next (host_begin .syncAllVmStates) ?_
  refine Reaches.next (host_take 1 rfl rfl) ?_
  refine Reaches.next (host_vm 1 .readTemplateCache (some []) rfl ⟨rfl, rfl⟩ nofun) ?_
  refine Reaches.next (host_vm 1 .selectActiveVms (.ok [bootActive]) rfl ⟨rfl, .inl rfl⟩ nofun) ?_
  exact Reaches.here ⟨rfl, _, _, _, rfl, rfl, rfl⟩

private def machineUp : OneVmInfo := { state := some 3, lcmState := some 3 }

private theorem synced_run : Reaches (planeServer hostEnv).Step ⟨World.initial bootDb, []⟩
    fun x => ¬ Addressed x.state := by
  apply (boot_run.mono fun _ _ _ h => h.1).trans
  rintro ⟨s, tasks⟩ ⟨rfl, first, log, rest, rfl, -, rfl⟩
  refine Reaches.next (host_answer 1 (.oneVmInfo 7) (.ok machineUp) rfl rfl) ?_
  refine Reaches.next (host_answer 1 (.updateVmStatus { vmId := bootId, status := .running }) (.ok ())
    rfl ⟨1, .inl ⟨(), trivial, rfl, rfl⟩⟩) ?_
  apply Reaches.here
  intro haddressed
  exact haddressed _ (.head _) rfl rfl

/-- The states are synchronised before the machine has an address. -/
theorem synced_without_address : ¬ ∀ (env : Env) (db : VmDb)
    (trace : List (StageLabel planeInterface PlaneRequest × PlaneStage)) (x : PlaneStage),
    Addressed (World.initial db) → Run (planeServer env).Step ⟨World.initial db, []⟩ trace x →
    Addressed x.state := by
  intro h
  obtain ⟨trace, x, hrun, hx⟩ := synced_run
  exact hx (h hostEnv bootDb trace x (by decide) hrun)

private theorem told_boot {r : Except Failure OneVmInfo} {vmId : String}
    (h : Tells .syncAllVmStates
      [⟨.readTemplateCache, some []⟩, ⟨.selectActiveVms, .ok [bootActive]⟩] ⟨.oneVmInfo 7, r⟩ vmId) :
    vmId = bootId := by
  generalize (⟨.oneVmInfo 7, r⟩ : VmEvent) = e at h
  cases h with
  | @synced _ vms a vm hvms ha hs hdb =>
    obtain rfl : vms = [bootActive] := by simpa using hvms
    obtain rfl := List.mem_singleton.mp ha
    rfl

private theorem polled_run : Reaches HostStep ⟨World.initial bootDb, []⟩ fun x =>
    ∃ r ∈ x.state.db.vms.rows, r.status = .running ∧ r.sshHost = some "10.0.0.7" := by
  apply boot_run.trans
  rintro ⟨s, tasks⟩ ⟨rfl, first, log, rest, rfl, hlog, rfl⟩
  refine Reaches.next (host_begin (.poll bootTask)) ?_
  refine Reaches.next (host_take 2 rfl ⟨.head _, rfl⟩) ?_
  refine Reaches.next (host_vm 2 (.oneVmInfo 7)
    (.ok { machineUp with nicIps := [some "10.0.0.7"] }) rfl rfl nofun) ?_
  refine Reaches.next (host_vm 2
    (.updateVmStatus
      { vmId := bootId, status := .running, ipAddress := some "10.0.0.7", oneVmId := some 7,
        sshHost := some "10.0.0.7" })
    (.ok ()) rfl ⟨1, .inl ⟨(), trivial, rfl, rfl⟩⟩ nofun) ?_
  refine Reaches.next (host_vm 1 (.oneVmInfo 7) (.ok machineUp) rfl rfl ?_) ?_
  · intro vmId htells
    rw [hlog] at htells
    rw [told_boot htells]
    decide
  refine Reaches.next (host_vm 1 (.updateVmStatus { vmId := bootId, status := .running }) (.ok ()) rfl
    ⟨2, .inl ⟨(), trivial, rfl, rfl⟩⟩ nofun) ?_
  exact Reaches.here ⟨_, .head _, rfl, rfl⟩

/-- The poller finds the address, and the synchronisation shows the VM as running once more. -/
theorem running_addressed_polled : ∃ trace x,
    Run (planeServer hostEnv).Step ⟨World.initial bootDb, []⟩ trace x ∧
    (∀ e ∈ trace, Addressed e.2.state) ∧
    ∃ r ∈ x.state.db.vms.rows, r.status = .running ∧ r.sshHost = some "10.0.0.7" := by
  obtain ⟨trace, x, hrun, hmeets, hx⟩ := polled_run.along
  exact ⟨trace, x, hrun, running_addressed hostEnv bootDb hrun (by decide) hmeets, hx⟩

end Sample

end CloudVM.Plane
