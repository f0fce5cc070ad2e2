import CloudVM.Framework.Requests
import CloudVM.Plane.World
import CloudVM.Worker.Aside

/-!
# The phases of a creation

A delivery of a `vm.create` message takes the lock of its VM, looks whether a machine is
assigned, instantiates one, writes its id down and gives the lock back. What it may do next is
read off its log.
-/

namespace CloudVM.Plane.Once

open Worker Process

section Phase

/-- How far a delivery has come. -/
inductive Phase where
  | outside
  | locked
  | cleared
  | made
  | saved
  | released
deriving DecidableEq, Repr

def Phase.next (p : Phase) : Event vmInterface → Phase
  | ⟨.acquireCreateLock _, .ok true⟩ => .locked
  | ⟨.selectOneVmId _, .ok none⟩ => .cleared
  | ⟨.selectOneVmId _, .error _⟩ => .cleared
  | ⟨.templateInstantiate _ _ _, .ok _⟩ => .made
  | ⟨.updateVmStatus w, _⟩ => if w.oneVmId.isSome then .saved else p
  | ⟨.releaseCreateLock _, _⟩ => .released
  | _ => p

abbrev VmLog := List (Event vmInterface)

def phase (log : VmLog) : Phase := log.foldl Phase.next .outside

@[simp] theorem phase_nil : phase [] = .outside := rfl

@[simp] theorem phase_snoc (log : VmLog) (e : Event vmInterface) :
    phase (log ++ [e]) = (phase log).next e := by
  simp [phase]

/-- Between taking the lock and asking for its release. -/
def Phase.holding : Phase → Bool
  | .locked | .cleared | .made | .saved => true
  | .outside | .released => false

/-- The lock is held and no machine waits to be written down. -/
def Phase.settled : Phase → Bool
  | .locked | .cleared | .saved => true
  | .outside | .made | .released => false

def isMade : Event vmInterface → Bool
  | ⟨.templateInstantiate _ _ _, .ok _⟩ => true
  | _ => false

def madeIn (log : VmLog) : Nat := log.countP isMade

@[simp] theorem madeIn_nil : madeIn [] = 0 := rfl

@[simp] theorem madeIn_snoc (log : VmLog) (e : Event vmInterface) :
    madeIn (log ++ [e]) = madeIn log + if isMade e then 1 else 0 := by
  simp [madeIn, List.countP_append, List.countP_singleton]

/-- Calls that neither concern the lock nor the machine's id. -/
def Neutral : VmCall → Prop
  | .acquireCreateLock _ | .releaseCreateLock _ | .selectOneVmId _ | .templateInstantiate _ _ _
  | .updateVmStatus _ => False
  | _ => True

theorem next_neutral {c : VmCall} (h : Neutral c) (p : Phase) (r : c.Answer) :
    p.next ⟨c, r⟩ = p := by
  cases c <;> first | rfl | exact h.elim

end Phase

section Contract

def vmIdOf (data : Dict) : Option String := (VmCreateData.ofDict? data).map VmCreateData.vmId

/-- The order in which a delivery works, in terms of its log. -/
structure Permitted (data : Dict) (log : VmLog) (c : VmCall) : Prop where
  acquires : ∀ u, c = .acquireCreateLock u → vmIdOf data = some u ∧ phase log = .outside
  looks : ∀ u, c = .selectOneVmId u → vmIdOf data = some u ∧ phase log = .locked
  makes : ∀ t n e, c = .templateInstantiate t n e → phase log = .cleared
  saves : ∀ w, c = .updateVmStatus w →
    vmIdOf data = some w.vmId ∧ (w.oneVmId.isSome ↔ phase log = .made)
  releases : ∀ u, c = .releaseCreateLock u → vmIdOf data = some u ∧ (phase log).settled = true

theorem permitted_neutral {data : Dict} {log : VmLog} {c : VmCall} (h : Neutral c) :
    Permitted data log c := by
  constructor <;> intros <;> subst_vars <;> exact h.elim

/-- The judgement of this module: every call in order, every outcome in the postcondition. -/
abbrev Does {α : Type} (data : Dict) (p : VmProcess α) (Q : Except Failure α → VmLog → Prop)
    (log : VmLog) : Prop :=
  p.Wp (Permitted data) (logged fun _ _ => True) Q log

variable {α β : Type} {data : Dict} {log : VmLog}

theorem Does.neutral {p : VmProcess α} (h : p.Only Neutral) {ph : Phase} (hlog : phase log = ph) :
    Does data p (fun _ log => phase log = ph) log := by
  apply h.keeps (J := fun log => phase log = ph) _ _ _ hlog
  · intro log c hc
    exact permitted_neutral hc
  · intro c log r log' hc hlog he
    obtain ⟨-, rfl⟩ := he
    rw [phase_snoc, next_neutral hc, hlog]

theorem Does.ignoring {p : VmProcess Unit} (h : p.Only Neutral) {ph : Phase}
    (hlog : phase log = ph) :
    Does data (ignoring p) (Post (fun _ log => phase log = ph) fun _ _ => False) log := by
  apply (Does.neutral h hlog).recover
  · intro u log hlog
    exact hlog
  · intro e log hlog
    exact hlog

variable (cfg : WorkerConfig)

private theorem createTask_neutral (t : PollTask) : (createTask t).Only Neutral :=
  ⟨trivial, fun _ => trivial⟩

private theorem neutral_of_aside {p : VmProcess α} (h : p.Only Aside) : p.Only Neutral := by
  apply h.mono
  intro c hc
  cases c <;> first | exact hc.elim | trivial

private theorem instantiate_does (d : VmCreateData) (templateId : Int) (sshKeys : List String)
    (hlog : phase log = .cleared) :
    Does data (instantiate d templateId sshKeys)
      (Post (fun _ log => phase log = .made) fun _ log => phase log = .cleared) log := by
  have hmake : ∀ text log, phase log = .cleared →
      Does data (templateInstantiate templateId d.name text)
        (Post (fun _ log => phase log = .made) fun _ log => phase log = .cleared) log := by
    intro text log hlog
    refine ⟨⟨by simp, by simp, fun _ _ _ _ => hlog, by simp, by simp⟩, fun r log' he => ?_⟩
    obtain ⟨-, rfl⟩ := he
    cases r with
    | ok n => simp [Phase.next]
    | error e => simp [Phase.next, hlog]
  apply (Does.neutral (neutral_of_aside (cleanupStale_aside d.name templateId)) hlog).bind
  · intro e log hlog
    exact hlog
  · intro u log hlog
    apply (hmake _ log hlog).recover
    · intro n log hlog
      exact hlog
    · intro e log hlog
      apply (Does.neutral (neutral_of_aside (cleanupStale_aside d.name templateId)) hlog).bind
      · intro e log hlog
        exact hlog
      · intro u log hlog
        exact hmake _ log hlog

private theorem updateVmStatus_does {w : StatusWrite} (hv : vmIdOf data = some w.vmId)
    (hw : w.oneVmId.isSome ↔ phase log = .made) :
    Does data (updateVmStatus w)
      (fun _ log' => phase log' = if w.oneVmId.isSome then .saved else phase log) log := by
  refine ⟨⟨by simp, by simp, by simp, ?_, by simp⟩, fun r log' he => ?_⟩
  · intro w' hw'
    cases hw'
    exact ⟨hv, hw⟩
  · obtain ⟨-, rfl⟩ := he
    apply (wp_ofExcept _ _ _).mpr
    rw [phase_snoc]
    rfl

private theorem report_does {w : StatusWrite} {m : StatusUpdate} (hv : vmIdOf data = some w.vmId)
    (hw : w.oneVmId.isSome ↔ phase log = .made) :
    Does data (report w m)
      (fun _ log' => phase log' = if w.oneVmId.isSome then .saved else phase log) log := by
  apply (updateVmStatus_does hv hw).bind
  · intro e log' hlog'
    exact hlog'
  · intro u log' hlog'
    have hpublish : (publishStatus m).Only Neutral := only_request trivial
    exact Does.neutral hpublish hlog'

private theorem launchFrom_does {d : VmCreateData} (hv : vmIdOf data = some d.vmId)
    (templateId : Int) (hlog : phase log = .cleared) :
    Does data (launchFrom cfg d templateId) (fun _ log => (phase log).settled = true) log := by
  apply (Does.neutral (neutral_of_aside (collectSshKeys_aside cfg d)) hlog).bind
  · intro e log hlog
    rw [hlog]
    rfl
  · intro sshKeys log hlog
    apply (instantiate_does d templateId sshKeys hlog).bind
    · intro e log hlog
      have hcleared : phase log = .cleared := hlog
      rw [hcleared]
      rfl
    · intro oneVmId log hlog
      -- here nothing may raise before the id is written down
      have hclear : (clearBaseFlag oneVmId templateId).Only Neutral :=
        neutral_of_aside (clearBaseFlag_aside oneVmId templateId)
      apply (Does.ignoring (only_of_ignoring hclear) hlog).bind
      · intro e log hlog
        exact hlog.elim
      · intro u log hlog
        have hmade : phase log = .made := hlog
        apply (report_does hv (by simp [hmade])).bind
        · intro e log hlog
          have hsaved : phase log = .saved := hlog
          rw [hsaved]
          rfl
        · intro u log hlog
          have hsaved : phase log = .saved := hlog
          apply (Does.neutral (createTask_neutral _) hsaved).mono
          intro out log hlog
          rw [hlog]
          rfl

private theorem provision_does {d : VmCreateData} (hv : vmIdOf data = some d.vmId)
    (hlog : phase log = .locked) :
    Does data (provision cfg d) (fun _ log => (phase log).settled = true) log := by
  have hlook : Does data (getVmOneId d.vmId)
      (fun out log => (∃ n, out = .ok (some n) ∧ phase log = .locked) ∨
        (out = .ok none ∧ phase log = .cleared)) log := by
    refine ⟨⟨by simp, ?_, by simp, by simp, by simp⟩, fun r log' he => ?_⟩
    · intro u hu
      cases hu
      exact ⟨hv, hlog⟩
    · obtain ⟨-, rfl⟩ := he
      cases r with
      | error e => exact .inr ⟨rfl, by simp [Phase.next]⟩
      | ok found =>
        cases found with
        | none => exact .inr ⟨rfl, by simp [Phase.next]⟩
        | some n => exact .inl ⟨n, rfl, by simp [Phase.next, hlog]⟩
  apply (wp_bind _ _ _ _).mpr
  apply hlook.mono
  rintro out log (⟨n, rfl, hlog⟩ | ⟨rfl, hlog⟩)
  · apply (Does.neutral (createTask_neutral _) hlog).mono
    intro out log hlog
    rw [hlog]
    rfl
  · simp only [post_ok]
    by_cases hname : vmNameOk d.name = true
    · rw [if_pos hname]
      apply (Does.neutral (neutral_of_aside (findTemplate_aside cfg d.osTemplate)) hlog).bind
      · intro e log hlog
        rw [hlog]
        rfl
      · intro found log hlog
        cases found with
        | none =>
          simp only [throw_def, wp_raise]
          rw [hlog]
          rfl
        | some templateId => exact launchFrom_does cfg hv templateId hlog
    · rw [if_neg hname, throw_def, wp_raise]
      rw [hlog]
      rfl

private theorem provisionFailed_does {vmId : String} (hv : vmIdOf data = some vmId) {ph : Phase}
    (hne : ph ≠ .made) (hlog : phase log = ph) :
    Does data (provisionFailed vmId) (fun _ log => phase log = ph) log := by
  have hnot : ¬ phase log = .made := by rwa [hlog]
  apply (report_does hv (by simp [hnot])).mono
  intro out log' hlog'
  rw [hlog', ← hlog]
  rfl

private theorem releaseCreateLock_does {vmId : String} (hv : vmIdOf data = some vmId)
    (hlog : (phase log).settled = true) :
    Does data (releaseCreateLock vmId) (fun _ log => phase log = .released) log := by
  apply (wp_tryCatch _ _ _ _).mpr
  refine ⟨⟨by simp, by simp, by simp, by simp, ?_⟩, fun r log' he => ?_⟩
  · intro u hu
    cases hu
    exact ⟨hv, hlog⟩
  · obtain ⟨-, rfl⟩ := he
    apply (wp_ofExcept _ _ _).mpr
    cases r with
    | ok u => exact phase_snoc _ _
    | error e => exact phase_snoc _ _

/-- A delivery ends without the lock: it never took it, or it has asked for its release. -/
def Ended (log : VmLog) : Prop := phase log = .outside ∨ phase log = .released

theorem createVm_does {d : VmCreateData} (hv : vmIdOf data = some d.vmId)
    (hlog : phase log = .outside) :
    Does data (createVm cfg d) (fun _ log => Ended log) log := by
  apply (wp_bind _ _ _ _).mpr
  refine ⟨⟨?_, by simp, by simp, by simp, by simp⟩, fun r log' he => ?_⟩
  · intro u hu
    cases hu
    exact ⟨hv, hlog⟩
  obtain ⟨-, rfl⟩ := he
  rcases r with e | acquired
  · have hout : phase (log ++ [⟨VmCall.acquireCreateLock d.vmId, .error e⟩]) = .outside := by
      simp [Phase.next, hlog]
    apply (provisionFailed_does hv (by simp) hout).mono
    intro out log hlog
    exact .inl hlog
  cases acquired with
  | false => exact .inl (by simp [Phase.next, hlog])
  | true =>
    have hlocked : phase (log ++ [⟨VmCall.acquireCreateLock d.vmId, .ok true⟩]) = .locked := by
      simp [Phase.next]
    have hbody : Does data (tryCatch (provision cfg d) fun _ => provisionFailed d.vmId)
        (fun _ log => (phase log).settled = true)
        (log ++ [⟨VmCall.acquireCreateLock d.vmId, .ok true⟩]) := by
      apply (provision_does cfg hv hlocked).recover
      · intro u log hlog
        exact hlog
      · intro e log hlog
        have hne : phase log ≠ .made := by
          intro h
          rw [h] at hlog
          cases hlog
        apply (provisionFailed_does hv hne rfl).mono
        intro out log' hlog'
        rw [hlog']
        exact hlog
    apply (wp_bind _ _ _ _).mpr
    apply (wp_attempt _ _ _).mpr
    apply hbody.mono
    intro out log hlog
    apply (releaseCreateLock_does hv hlog).bind
    · intro e log hlog
      exact .inr hlog
    · intro u log hlog
      exact (wp_ofExcept _ _ _).mpr (.inr hlog)

theorem handleVmCreate_does (data : Dict) :
    Does data (handleVmCreate cfg data) (fun _ log => Ended log) [] := by
  have hack : ∀ log, Ended log → Does data ack (fun _ log => Ended log) log := by
    intro log hlog
    refine ⟨permitted_neutral trivial, fun r log' he => ?_⟩
    obtain ⟨-, rfl⟩ := he
    rw [wp_ret, Ended, phase_snoc]
    exact hlog
  simp only [handleVmCreate, subscriber]
  split
  · rename_i d ha hd
    have hv : vmIdOf data = some d.vmId := by rw [vmIdOf, hd]; rfl
    apply (wp_tryCatch _ _ _ _).mpr
    apply (wp_bind _ _ _ _).mpr
    apply (createVm_does cfg hv rfl).mono
    intro out log hlog
    cases out with
    | error e => exact hack log hlog
    | ok u =>
      apply (hack log hlog).mono
      intro out log hlog
      cases out with
      | ok u => exact hlog
      | error e => exact hack log hlog
  · exact hack [] (.inl rfl)

end Contract

end CloudVM.Plane.Once
