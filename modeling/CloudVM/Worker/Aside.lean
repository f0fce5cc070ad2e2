import CloudVM.Framework.Logic
import CloudVM.Worker.Handler

/-!
# Parts of the worker that leave the rows alone

Finding a template, cleaning up, collecting keys and taking an image away go to OpenNebula and to
the template cache. Whatever the answers are, none of these parts reads or writes a row, takes a
lock, starts a poller or sends news.
-/

namespace CloudVM.Worker

open Process

/-- Calls to OpenNebula that make no machine, the template cache, the users' keys and the clock. -/
def Aside : VmCall → Prop
  | .selectUserSshKeys _ | .readTemplateCache | .writeTemplateCache _ | .templatePoolInfo
  | .templateDelete _ _ | .templateUpdate _ _ | .oneVmInfo _ | .oneVmAction _ _ | .diskResize _ _
  | .imageInfo _ | .imageDelete _ | .sleep _ => True
  | _ => False

def Templates : VmCall → Prop
  | .readTemplateCache | .writeTemplateCache _ | .templatePoolInfo | .templateDelete _ _ => True
  | _ => False

theorem aside_of_templates {α : Type} {p : VmProcess α} (h : p.Only Templates) : p.Only Aside :=
  h.mono fun c hc => by cases c <;> trivial

theorem only_ignoring {M : VmCall → Prop} {p : VmProcess Unit} (h : p.Only M) :
    (ignoring p).Only M := only_tryCatch h fun _ => only_pure ()

theorem only_of_ignoring {M : VmCall → Prop} {p : VmProcess Unit} (h : (ignoring p).Only M) :
    p.Only M := by
  induction p with
  | ret a => trivial
  | raise e => trivial
  | call c k ih => exact ⟨h.1, fun r => ih r (h.2 r)⟩

theorem only_perform {M : VmCall → Prop} {c : VmCall} (h : M c) : c.perform.Only M :=
  ⟨h, fun _ => trivial⟩

theorem oneVmInfo_aside (oneVmId : Int) : (oneVmInfo oneVmId).Only Aside := only_request trivial

theorem oneVmAction_aside (action : String) (oneVmId : Int) :
    (oneVmAction action oneVmId).Only Aside := only_request trivial

theorem sleep_aside (seconds : Nat) : (sleep seconds).Only Aside := ⟨trivial, fun _ => trivial⟩

theorem readTemplateCache_aside : readTemplateCache.Only Aside := ⟨trivial, fun _ => trivial⟩

section Create

variable (cfg : WorkerConfig)

theorem loadTemplates_templates : loadTemplates.Only Templates := by
  apply only_tryCatch
  · apply only_bind (only_request trivial)
    intro pool
    exact ⟨trivial, fun _ => trivial⟩
  · intro e
    exact ⟨trivial, fun _ => trivial⟩

theorem findTemplate_templates (name : String) : (findTemplate cfg name).Only Templates := by
  have hread : readTemplateCache.Only Templates := ⟨trivial, fun _ => trivial⟩
  have hsearch : (searchCache cfg name).Only Templates := only_bind hread fun _ => only_pure _
  apply only_bind hread
  intro cache
  split
  · exact only_bind loadTemplates_templates fun _ => hsearch
  · exact hsearch

theorem cleanupStale_templates (name : String) (templateId : Int) :
    (cleanupStale name templateId).Only Templates := by
  apply only_ignoring
  apply only_bind (only_request trivial)
  intro pool
  apply only_forEach
  intro t
  unfold deleteStale
  split
  · exact only_request trivial
  · trivial

theorem loadTemplates_aside : loadTemplates.Only Aside := aside_of_templates loadTemplates_templates

theorem findTemplate_aside (name : String) : (findTemplate cfg name).Only Aside :=
  aside_of_templates (findTemplate_templates cfg name)

theorem cleanupStale_aside (name : String) (templateId : Int) :
    (cleanupStale name templateId).Only Aside :=
  aside_of_templates (cleanupStale_templates name templateId)

theorem collectSshKeys_only {M : VmCall → Prop} (h : ∀ userId, M (.selectUserSshKeys userId))
    (d : VmCreateData) : (collectSshKeys cfg d).Only M := by
  have hkeys : (getUserSshKeys d.userId).Only M := by
    constructor
    · exact h d.userId
    · intro r
      cases r <;> trivial
  simp only [collectSshKeys]
  split
  · exact only_bind (only_pure _) fun _ => only_pure _
  · exact only_bind hkeys fun _ => only_pure _

theorem collectSshKeys_aside (d : VmCreateData) : (collectSshKeys cfg d).Only Aside :=
  collectSshKeys_only cfg (fun _ => trivial) d

theorem clearBaseFlag_aside (oneVmId templateId : Int) :
    (clearBaseFlag oneVmId templateId).Only Aside := by
  apply only_ignoring
  apply only_bind (oneVmInfo_aside oneVmId)
  intro cloned
  split
  · trivial
  · trivial
  · split
    · exact only_request trivial
    · trivial

end Create

section Delete

variable (cfg : WorkerConfig)

theorem waitForImage_aside (imageId : Int) (rounds : Nat) :
    (waitForImage cfg imageId rounds).Only Aside := by
  induction rounds with
  | zero => trivial
  | succ rounds ih =>
    have hagain : (do sleep 2; waitForImage cfg imageId rounds).Only Aside :=
      only_bind (sleep_aside 2) fun _ => ih
    unfold waitForImage
    apply only_bind (only_perform trivial)
    intro r
    split
    · trivial
    · exact hagain
    · simp only
      split
      · trivial
      · exact hagain

theorem readClone_aside (oneVmId : Int) : (readClone oneVmId).Only Aside := by
  refine ⟨trivial, fun r => ?_⟩
  cases r <;> trivial

theorem removeImage_aside (imageId : Int) : (removeImage cfg imageId).Only Aside := by
  apply only_bind (waitForImage_aside cfg imageId 30)
  intro state
  cases state with
  | gone => trivial
  | inUse => trivial
  | ready =>
    refine ⟨trivial, fun r => ?_⟩
    cases r <;> trivial

theorem removeClone_aside (imageId templateId : Option Int) :
    (removeClone cfg imageId templateId).Only Aside := by
  unfold removeClone
  split
  · trivial
  · split
    · trivial
    · apply only_bind (removeImage_aside cfg _)
      intro deleted
      split
      · trivial
      · split
        · exact only_ignoring (only_request trivial)
        · trivial

end Delete

theorem resizeDisk_aside (t : PollTask) : (resizeDisk t).Only Aside := by
  unfold resizeDisk
  split
  · trivial
  · split
    · apply only_ignoring
      apply only_bind (only_request trivial)
      intro _
      exact only_ignoring (oneVmAction_aside "reboot" t.oneVmId)
    · trivial

end CloudVM.Worker
