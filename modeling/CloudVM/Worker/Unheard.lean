import CloudVM.Vm.Handover
import CloudVM.Worker.Aside

/-!
# Commands that nobody hears of again

Every handler acknowledges its message at the end, whatever went wrong. One run of a handler is
followed for one command, with any answers to its calls; what the user can still notice of the
command afterwards is kept in a trail.
-/

namespace CloudVM.Worker

open Process VmService Text

section Trail

/-- The operations that a handler asks for more than once, and all others. -/
inductive Operation where
  | cache
  | instantiate
  | write
  | rest
deriving DecidableEq, Repr

def operation : VmCall → Operation
  | .readTemplateCache => .cache
  | .templateInstantiate _ _ _ => .instantiate
  | .updateVmStatus _ => .write
  | _ => .rest

/-- What OpenNebula, the database, Redis and the memory of the worker answer while one message is
served: to the one call of an operation, or to its first, second and further calls. -/
structure Answers where
  lock : Except Failure Bool
  oneVmId : Except Failure (Option Int)
  action : Except Failure Unit
  info : Except Failure OneVmInfo
  deleteRecord : Except Failure Unit
  cache : ℕ → Option (List OneTemplate)
  instantiate : ℕ → Except Failure Int
  write : ℕ → Except Failure Unit
  rest : ℕ → (c : VmCall) → c.Answer

/-- The answer to the `n`-th call of an operation. The bus takes every message. -/
def Answers.answer (a : Answers) (n : ℕ) : (c : VmCall) → c.Answer
  | .acquireCreateLock _ => a.lock
  | .selectOneVmId _ => a.oneVmId
  | .oneVmAction _ _ => a.action
  | .oneVmInfo _ => a.info
  | .deleteVmRecord _ => a.deleteRecord
  | .readTemplateCache => a.cache n
  | .templateInstantiate _ _ _ => a.instantiate n
  | .updateVmStatus _ => a.write n
  | .publishStatus _ => .ok ()
  | c => a.rest n c

/-- A command for a row: the action asked of its machine, the status the row is to have, and
whether there is no machine at all. -/
structure Command where
  vmId : String
  oneAction : Option String
  outcome : VmStatus
  machineless : Bool

namespace Command

variable (k : Command)

def accepted : (c : VmCall) → c.Answer → Bool
  | .templateInstantiate _ _ _, r => Except.isOk r
  | .oneVmAction action _, r => k.oneAction = some action && Except.isOk r
  | _, _ => false

/-- The operation is found in progress or done: the machine is being made, has been made, is in the
status that was asked for, or there was none and its row is gone. -/
def found : (c : VmCall) → c.Answer → Bool
  | .acquireCreateLock _, .ok acquired => !acquired
  | .selectOneVmId _, .ok oneVmId => oneVmId.isSome
  | .oneVmInfo _, .ok vm => correctStatus vm = k.outcome
  | .deleteVmRecord _, r => k.machineless && Except.isOk r
  | _, _ => false

/-- The row is set to `ERROR`. -/
def marked : (c : VmCall) → c.Answer → Bool
  | .updateVmStatus w, r => w.vmId = k.vmId && w.status = .error && Except.isOk r
  | _, _ => false

/-- A status update shows another status than the one that was asked for. -/
def told : VmCall → Bool
  | .publishStatus m => m.vmId = k.vmId && m.status != .row k.outcome
  | _ => false

end Command

/-- The operations a command has led to, and what can be noticed of it. -/
structure Trail where
  made : List Operation := []
  heard : Bool := false
  acked : Bool := false

def Trail.after (k : Command) (s : Trail) (c : VmCall) (r : c.Answer) : Trail where
  made := s.made ++ [operation c]
  heard := s.heard || k.accepted c r || k.found c r || k.marked c r || k.told c
  acked := s.acked || match c with
    | .ack => true
    | _ => false

def observe (a : Answers) (k : Command) (c : VmCall) (s : Trail) : c.Answer × Trail :=
  (a.answer (s.made.count (operation c)) c,
    s.after k c (a.answer (s.made.count (operation c)) c))

/-- The trail of a handler that serves a command. -/
def served (a : Answers) (k : Command) (handler : VmProcess Unit) : Trail :=
  (handler.exec (observe a k) ⟨[], false, false⟩).2

end Trail

section Conditions

variable (cfg : WorkerConfig) (a : Answers)

/-- A machine is made, or was found to be made already. -/
def Made (d : VmCreateData) : Prop :=
  match a.lock with
  | .error _ => False
  | .ok false => True
  | .ok true => (∃ oneVmId, a.oneVmId = .ok (some oneVmId)) ∨
      ((a.cache 1).bind fun templates => findTemplateIn cfg templates d.osTemplate).isSome = true ∧
        ((a.instantiate 0).isOk = true ∨ (a.instantiate 1).isOk = true)

/-- A creation is noticed if a machine is there or the first status write succeeds. -/
def CreateHeeded (d : VmCreateData) : Prop := Made cfg a d ∨ (a.write 0).isOk = true

/-- An action is noticed if OpenNebula takes it. If OpenNebula cannot be reached, it is not; if it
refuses, the first status write must succeed, or the machine has been looked at and is in the status
asked for, or the second status write succeeds. -/
def ActionHeeded (d : VmActionData) : Prop :=
  match a.action with
  | .ok _ => True
  | .error e => e.kind ≠ .connection ∧ ((a.write 0).isOk = true ∨
      contains e.message "not available for state" = true ∧
        ∃ vm, a.info = .ok vm ∧ (correctStatus vm = (actionMap d.action).2 ∨ (a.write 1).isOk = true))

/-- A deletion without a machine is noticed if the row is deleted, with one if OpenNebula takes it or
the first status write succeeds. -/
def DeleteHeeded (d : VmDeleteData) : Prop :=
  match d.oneVmId with
  | none => a.deleteRecord.isOk = true
  | some _ => a.action.isOk = true ∨ (a.write 0).isOk = true

end Conditions

section Calls

variable (cfg : WorkerConfig) (a : Answers) (k : Command) {s : Trail}

/-- Nothing has been noticed, with the numbers of instantiations and of status writes so far. -/
structure Waiting (instantiated written : ℕ) (s : Trail) : Prop where
  unheard : s.heard = false
  instantiated : s.made.count .instantiate = instantiated
  written : s.made.count .write = written

variable {i w : ℕ}

def Unnoticed : VmCall → Prop
  | .selectUserSshKeys _ | .readTemplateCache | .writeTemplateCache _ | .templatePoolInfo
  | .templateDelete _ _ | .releaseCreateLock _ | .ack => True
  | _ => False

private theorem waiting_call {c : VmCall} (hc : Unnoticed c) (hs : Waiting i w s) :
    Waiting i w (observe a k c s).2 := by
  obtain ⟨hheard, hi, hw⟩ := hs
  cases c <;> first
    | exact hc.elim
    | exact ⟨by simp [observe, Trail.after, hheard, Command.accepted, Command.found, Command.marked,
        Command.told], by simpa [observe, Trail.after, operation, List.count_append] using hi,
        by simpa [observe, Trail.after, operation, List.count_append] using hw⟩

private theorem waiting_exec {α : Type} {p : VmProcess α} (h : p.Only Unnoticed)
    (hs : Waiting i w s) : Waiting i w (p.exec (observe a k) s).2 :=
  h.exec_invariant (fun _ _ hc ht => waiting_call a k hc ht) hs

private theorem heard_exec {α : Type} (p : VmProcess α) (hs : s.heard = true) :
    (p.exec (observe a k) s).2.heard = true := by
  induction p generalizing s with
  | ret a => exact hs
  | raise e => exact hs
  | call c f ih => exact ih _ (by simp [observe, Trail.after, hs])

private theorem heard_call {α : Type} {c : VmCall} {f : c.Answer → VmProcess α}
    (h : (observe a k c s).2.heard = true) :
    ((Process.call c f : VmProcess α).exec (observe a k) s).2.heard = true := heard_exec a k (f _) h

private theorem heard_unnoticed {α : Type} {p : VmProcess α} (h : p.Only Unnoticed) (s : Trail) :
    (p.exec (observe a k) s).2.heard = s.heard := by
  cases hs : s.heard with
  | true => exact heard_exec a k p hs
  | false => exact (waiting_exec a k h ⟨hs, rfl, rfl⟩).unheard

/-- A part of a handler is noticed, or it raises with nothing noticed and a trail in `P`. -/
structure Settles {α : Type} (P : Trail → Prop) (noticed : Prop) (out : Except Failure α × Trail) :
    Prop where
  heard : noticed → out.2.heard = true
  fails : ¬ noticed → (∃ e, out.1 = .error e) ∧ P out.2

section Parts

variable {α β : Type} {P Q : Trail → Prop} {noticed again : Prop}

private theorem Settles.mono {out : Except Failure α × Trail} (h : Settles P noticed out)
    (hP : ∀ t, P t → Q t) : Settles Q noticed out :=
  ⟨h.heard, fun hno => ⟨(h.fails hno).1, hP _ (h.fails hno).2⟩⟩

private theorem Settles.heard_iff {out : Except Failure α × Trail} (h : Settles P noticed out)
    (hP : ∀ t, P t → t.heard = false) : out.2.heard = true ↔ noticed := by
  constructor
  · intro hheard
    by_contra hno
    rw [hP _ (h.fails hno).2] at hheard
    cases hheard
  · exact h.heard

private theorem settles_tryCatch {p : VmProcess α} {h : Failure → VmProcess α}
    (hp : Settles P noticed (p.exec (observe a k) s))
    (hh : ∀ e t, P t → Settles Q again ((h e).exec (observe a k) t)) :
    Settles Q (noticed ∨ again) ((tryCatch p h).exec (observe a k) s) := by
  rw [exec_tryCatch]
  by_cases hnoticed : noticed
  · have hheard := hp.heard hnoticed
    refine ⟨fun _ => ?_, fun hno => absurd (.inl hnoticed) hno⟩
    generalize p.exec (observe a k) s = out at hheard
    obtain ⟨out, t⟩ := out
    cases out with
    | ok _ => exact hheard
    | error e => exact heard_exec a k (h e) hheard
  · obtain ⟨⟨e, herror⟩, hfailed⟩ := hp.fails hnoticed
    generalize p.exec (observe a k) s = out at herror hfailed
    obtain ⟨out, t⟩ := out
    obtain rfl := herror
    obtain ⟨hheard, hfails⟩ := hh e t hfailed
    exact ⟨fun hor => hheard (hor.resolve_left hnoticed),
      fun hno => hfails fun hagain => hno (.inr hagain)⟩

private theorem settles_bind {p : VmProcess α} {f : α → VmProcess β}
    (hp : Settles P noticed (p.exec (observe a k) s)) :
    Settles P noticed ((p >>= f).exec (observe a k) s) := by
  rw [exec_bind]
  by_cases hnoticed : noticed
  · have hheard := hp.heard hnoticed
    refine ⟨fun _ => ?_, fun hno => absurd hnoticed hno⟩
    generalize p.exec (observe a k) s = out at hheard
    obtain ⟨out, t⟩ := out
    cases out with
    | ok x => exact heard_exec a k (f x) hheard
    | error e => exact hheard
  · obtain ⟨⟨e, herror⟩, hfailed⟩ := hp.fails hnoticed
    generalize p.exec (observe a k) s = out at herror hfailed
    obtain ⟨out, t⟩ := out
    obtain rfl := herror
    exact ⟨fun h => absurd h hnoticed, fun _ => ⟨⟨e, rfl⟩, hfailed⟩⟩

private theorem settles_after {p : VmProcess α} {f : α → VmProcess β} {x : α}
    (hp : (p.exec (observe a k) s).1 = .ok x)
    (hf : Settles P noticed ((f x).exec (observe a k) (p.exec (observe a k) s).2)) :
    Settles P noticed ((p >>= f).exec (observe a k) s) := by
  rw [exec_bind]
  generalize p.exec (observe a k) s = out at hp hf
  obtain ⟨out, t⟩ := out
  obtain rfl := hp
  exact hf

end Parts

private theorem settles_report {u : StatusWrite} {m : StatusUpdate} (hm : m.status = .row u.status)
    (hvm : m.vmId = k.vmId) (hother : u.status ≠ k.outcome) (hs : Waiting i w s) :
    Settles (Waiting i (w + 1)) ((a.write w).isOk = true) ((report u m).exec (observe a k) s) := by
  obtain ⟨hheard, hi, hw⟩ := hs
  have hanswer : a.answer (s.made.count (operation (.updateVmStatus u))) (.updateVmStatus u) =
      a.write w := by
    rw [← hw]
    rfl
  cases hwrite : a.write w with
  | error e =>
    rw [hwrite] at hanswer
    refine ⟨fun h => (by cases h), fun _ => ?_⟩
    simp only [report, updateVmStatus, call_bind, exec_call, observe, hanswer, ofExcept_error,
      raise_bind, exec_raise]
    refine ⟨⟨e, rfl⟩, ?_, ?_, ?_⟩
    · simp [Trail.after, hheard, Command.accepted, Command.found, Command.marked, Command.told,
        Except.isOk, Except.toBool]
    · simpa [Trail.after, operation, List.count_append] using hi
    · simpa [Trail.after, operation, List.count_append] using hw
  | ok _ =>
    rw [hwrite] at hanswer
    refine ⟨fun _ => ?_, fun hno => absurd rfl hno⟩
    simp only [report, updateVmStatus, publishStatus, call_bind, exec_call, observe, hanswer,
      ofExcept_ok, ret_bind, exec_ofExcept]
    simp [Trail.after, Command.told, hm, hvm, hother]

end Calls

section Action

variable (a : Answers) (d : VmActionData)

def actionCommand : Command := ⟨d.vmId, some (actionMap d.action).1, (actionMap d.action).2, false⟩

private theorem error_ne_outcome : VmStatus.error ≠ (actionCommand d).outcome := by
  cases h : d.action <;> simp [actionCommand, actionMap, h]

private theorem error_report (error : Option String) :
    ∀ i w t, Waiting i w t → Settles (Waiting i (w + 1)) ((a.write w).isOk = true)
      ((report { vmId := d.vmId, status := .error }
        { vmId := d.vmId, status := .row .error, oneVmId := some d.oneVmId, error }).exec
          (observe a (actionCommand d)) t) :=
  fun _ _ _ ht => settles_report a _ rfl rfl (error_ne_outcome d) ht

private theorem waiting_info {s : Trail} (hs : Waiting 0 0 s)
    (h : ∀ vm, a.info = .ok vm → correctStatus vm ≠ (actionMap d.action).2) :
    Waiting 0 0 (observe a (actionCommand d) (.oneVmInfo d.oneVmId) s).2 := by
  obtain ⟨hheard, hi, hw⟩ := hs
  refine ⟨?_, ?_, ?_⟩
  · cases hinfo : a.info with
    | error e =>
      simp [observe, Trail.after, hheard, Answers.answer, hinfo, Command.accepted, Command.found,
        Command.marked, Command.told]
    | ok vm =>
      simp [observe, Trail.after, hheard, Answers.answer, hinfo, Command.accepted, Command.found,
        Command.marked, Command.told, actionCommand, h vm hinfo]
  · simpa [observe, Trail.after, operation, List.count_append] using hi
  · simpa [observe, Trail.after, operation, List.count_append] using hw

private theorem syncRefused_heard {s : Trail} (hs : Waiting 0 0 s) :
    ((syncRefused d).exec (observe a (actionCommand d)) s).2.heard = true ↔
      (a.write 0).isOk = true ∨ ∃ vm, a.info = .ok vm ∧
        (correctStatus vm = (actionMap d.action).2 ∨ (a.write 1).isOk = true) := by
  have hcall : (syncRefused d).exec (observe a (actionCommand d)) s =
      (tryCatch (Process.ofExcept a.info >>= fun vm =>
          report { vmId := d.vmId, status := correctStatus vm }
            { vmId := d.vmId, status := .row (correctStatus vm), oneVmId := some d.oneVmId })
        fun _ => report { vmId := d.vmId, status := .error }
          { vmId := d.vmId, status := .row .error, oneVmId := some d.oneVmId }).exec
        (observe a (actionCommand d)) (observe a (actionCommand d) (.oneVmInfo d.oneVmId) s).2 := rfl
  rw [hcall]
  cases hinfo : a.info with
  | error e =>
    have hwaiting := waiting_info a d hs (by simp [hinfo])
    have hsettles := error_report a d none 0 0 _ hwaiting
    simpa using hsettles.heard_iff fun _ ht => ht.unheard
  | ok vm =>
    by_cases hsame : correctStatus vm = (actionMap d.action).2
    · have hfound : (observe a (actionCommand d) (.oneVmInfo d.oneVmId) s).2.heard = true := by
        simp [observe, Trail.after, Answers.answer, hinfo, Command.found, actionCommand, hsame]
      exact iff_of_true (heard_exec a _ _ hfound) (.inr ⟨vm, rfl, .inl hsame⟩)
    · have hwaiting := waiting_info a d hs (by simpa [hinfo] using hsame)
      have hfirst : Settles (Waiting 0 1) ((a.write 0).isOk = true)
          ((report { vmId := d.vmId, status := correctStatus vm }
            { vmId := d.vmId, status := .row (correctStatus vm), oneVmId := some d.oneVmId }).exec
              (observe a (actionCommand d)) _) := settles_report a _ rfl rfl hsame hwaiting
      have hboth := settles_tryCatch a _ hfirst fun _ t ht => error_report a d none 0 1 t ht
      simpa [hsame] using hboth.heard_iff fun _ ht => ht.unheard

private theorem vmAction_heard :
    (served a (actionCommand d) (vmAction d)).heard = true ↔ ActionHeeded a d := by
  have hcall : served a (actionCommand d) (vmAction d) =
      ((tryCatch (Process.ofExcept a.action >>= fun _ =>
          report { vmId := d.vmId, status := (actionMap d.action).2 }
            { vmId := d.vmId, status := .row (actionMap d.action).2, oneVmId := some d.oneVmId,
              action := some d.action.name })
        (actionFailed d)).exec (observe a (actionCommand d))
          (observe a (actionCommand d) (.oneVmAction (actionMap d.action).1 d.oneVmId)
            ⟨[], false, false⟩).2).2 := rfl
  rw [hcall, ActionHeeded]
  cases haction : a.action with
  | ok _ =>
    have haccepted : (observe a (actionCommand d)
        (.oneVmAction (actionMap d.action).1 d.oneVmId) ⟨[], false, false⟩).2.heard = true := by
      simp [observe, Trail.after, Answers.answer, haction, Command.accepted, actionCommand,
        Except.isOk, Except.toBool]
    exact iff_of_true (heard_exec a _ _ haccepted) trivial
  | error e =>
    have hwaiting : Waiting 0 0 (observe a (actionCommand d)
        (.oneVmAction (actionMap d.action).1 d.oneVmId) ⟨[], false, false⟩).2 := by
      refine ⟨?_, rfl, rfl⟩
      simp [observe, Trail.after, Answers.answer, haction, Command.accepted, Command.found,
        Command.marked, Command.told, Except.isOk, Except.toBool]
    simp only [ofExcept_error, raise_bind, raise_tryCatch, actionFailed]
    by_cases hlost : e.kind = .connection
    · simp [hlost, hwaiting.unheard]
    · by_cases hstate : contains e.message "not available for state" = true
      · simpa [hlost, hstate] using syncRefused_heard a d hwaiting
      · have hsettles := error_report a d (some "VM action failed. Please retry.") 0 0 _ hwaiting
        simpa [hlost, hstate] using hsettles.heard_iff fun _ ht => ht.unheard

end Action

section Delete

variable (cfg : WorkerConfig) (a : Answers) (d : VmDeleteData)

def deleteCommand : Command := ⟨d.vmId, some "terminate", .deleted, d.oneVmId.isNone⟩

private theorem correctStatus_ne_deleted (vm : OneVmInfo) : correctStatus vm ≠ .deleted := by
  unfold correctStatus
  split
  · decide
  split
  · decide
  · decide

private theorem settles_terminate (n : Int) {s : Trail}
    (hs : Waiting 0 0 s) (rest : VmProcess Unit) :
    Settles (Waiting 0 0) (a.action.isOk = true)
      ((oneVmAction "terminate" n >>= fun _ => rest).exec (observe a (deleteCommand d)) s) := by
  apply settles_bind
  obtain ⟨hheard, hi, hw⟩ := hs
  cases haction : a.action with
  | ok _ =>
    refine ⟨fun _ => ?_, fun hno => absurd rfl hno⟩
    simp [oneVmAction, observe, Trail.after, Answers.answer, haction, Command.accepted,
      deleteCommand, Except.isOk, Except.toBool]
  | error e =>
    refine ⟨fun h => (by cases h), fun _ => ?_⟩
    simp only [oneVmAction, exec_call, observe, Answers.answer, haction, ofExcept_error, exec_raise]
    refine ⟨⟨e, rfl⟩, ?_, ?_, ?_⟩
    · simp [Trail.after, hheard, Command.accepted, Command.found, Command.marked, Command.told,
        Except.isOk, Except.toBool]
    · simpa [Trail.after, operation, List.count_append] using hi
    · simpa [Trail.after, operation, List.count_append] using hw

private theorem deleteVm_heard :
    (served a (deleteCommand d) (deleteVm cfg d)).heard = true ↔ DeleteHeeded a d := by
  obtain ⟨vmId, oneVmId, userId⟩ := d
  cases oneVmId with
  | none =>
    have hcall : served a (deleteCommand ⟨vmId, none, userId⟩) (deleteVm cfg ⟨vmId, none, userId⟩) =
        ((Process.ofExcept a.deleteRecord >>= fun _ => publishStatus
          { vmId, status := .row .deleted, oneVmId := none, userId := some userId }).exec
          (observe a (deleteCommand ⟨vmId, none, userId⟩))
          (observe a (deleteCommand ⟨vmId, none, userId⟩) (.deleteVmRecord vmId)
            ⟨[], false, false⟩).2).2 := rfl
    rw [hcall, DeleteHeeded]
    cases hrow : a.deleteRecord with
    | error e =>
      simp [observe, Trail.after, Answers.answer, hrow, Command.accepted, Command.found,
        Command.marked, Command.told, Except.isOk, Except.toBool]
    | ok _ =>
      have hfound : (observe a (deleteCommand ⟨vmId, none, userId⟩) (.deleteVmRecord vmId)
          ⟨[], false, false⟩).2.heard = true := by
        simp [observe, Trail.after, Answers.answer, hrow, Command.found, deleteCommand,
          Except.isOk, Except.toBool]
      exact iff_of_true (heard_exec a _ _ hfound) rfl
  | some n =>
    have hinfo : Waiting 0 0 (observe a (deleteCommand ⟨vmId, some n, userId⟩) (.oneVmInfo n)
        ⟨[], false, false⟩).2 := by
      refine ⟨?_, rfl, rfl⟩
      cases hlook : a.info with
      | error e =>
        simp [observe, Trail.after, Answers.answer, hlook, Command.accepted, Command.found,
          Command.marked, Command.told]
      | ok vm =>
        simp [observe, Trail.after, Answers.answer, hlook, Command.accepted, Command.found,
          Command.marked, Command.told, deleteCommand, correctStatus_ne_deleted]
    have hbody : Settles (Waiting 0 0) (a.action.isOk = true) ((readClone n >>= fun clone =>
        oneVmAction "terminate" n >>= fun _ => removeClone cfg clone.1 clone.2 >>= fun _ =>
        reportDeleted ⟨vmId, some n, userId⟩).exec (observe a (deleteCommand ⟨vmId, some n, userId⟩))
          ⟨[], false, false⟩) := by
      have hclone : ∃ clone, ((readClone n).exec (observe a (deleteCommand ⟨vmId, some n, userId⟩))
          ⟨[], false, false⟩) = (.ok clone, (observe a (deleteCommand ⟨vmId, some n, userId⟩)
            (.oneVmInfo n) ⟨[], false, false⟩).2) := by
        cases hlook : a.info with
        | error e => exact ⟨(none, none), by simp [readClone, VmCall.perform, observe, Answers.answer, hlook]⟩
        | ok vm => exact ⟨_, by simp [readClone, VmCall.perform, observe, Answers.answer, hlook]; rfl⟩
      obtain ⟨clone, hclone⟩ := hclone
      apply settles_after a _ (x := clone) (by rw [hclone])
      rw [hclone]
      exact settles_terminate a _ n hinfo _
    have hcatch : ∀ t, Waiting 0 0 t → Settles (Waiting 0 1) ((a.write 0).isOk = true)
        ((report { vmId, status := .error }
          { vmId, status := .row .error, oneVmId := some n,
            error := some "VM deletion failed. Please retry." }).exec
              (observe a (deleteCommand ⟨vmId, some n, userId⟩)) t) :=
      fun t ht => settles_report a _ rfl rfl (by simp [deleteCommand]) ht
    have hboth := settles_tryCatch a _ hbody fun _ => hcatch
    exact hboth.heard_iff fun _ ht => ht.unheard

end Delete

section Create

variable (cfg : WorkerConfig) (a : Answers) (d : VmCreateData) {s : Trail} {i w : ℕ}

def createCommand : Command := ⟨d.vmId, none, .pending, false⟩

private theorem unnoticed_of_templates {α : Type} {p : VmProcess α} (h : p.Only Templates) :
    p.Only Unnoticed :=
  h.mono fun c hc => by cases c <;> first | exact hc.elim | trivial

private theorem ignoring_returns {I : Trail} (k : Command) (p : VmProcess Unit) :
    ((ignoring p).exec (observe a k) I).1 = .ok () := by
  rw [ignoring, exec_tryCatch]
  generalize p.exec (observe a k) I = out
  obtain ⟨out, t⟩ := out
  cases out <;> rfl

private theorem loadTemplates_exec (k : Command) :
    (loadTemplates.exec (observe a k) s).1 = .ok () ∧
      (loadTemplates.exec (observe a k) s).2.made.count .cache = s.made.count .cache := by
  simp only [loadTemplates, templatePoolInfo, exec_tryCatch, call_bind, exec_call]
  generalize hpool : (observe a k .templatePoolInfo s).1 = pool
  cases pool with
  | error e => simp [observe, Trail.after, operation, List.count_append]
  | ok pool => simp [observe, Trail.after, operation, List.count_append]

private theorem findTemplate_exec (k : Command) (hs : s.made.count .cache = 0) (name : String) :
    ((findTemplate cfg name).exec (observe a k) s).1 =
      .ok ((a.cache 1).bind fun templates => findTemplateIn cfg templates name) := by
  have hsearch : ∀ t : Trail, t.made.count .cache = 1 →
      ((searchCache cfg name).exec (observe a k) t).1 =
        .ok ((a.cache 1).bind fun templates => findTemplateIn cfg templates name) := by
    intro t ht
    simp [searchCache, readTemplateCache, observe, Answers.answer, operation, ht]
  have hread : (observe a k .readTemplateCache s).2.made.count .cache = 1 := by
    simp [observe, Trail.after, operation, hs]
  simp only [findTemplate, readTemplateCache, call_bind, ret_bind, exec_call]
  split
  · obtain ⟨hloaded, hcount⟩ := loadTemplates_exec a (s := (observe a k .readTemplateCache s).2) k
    rw [exec_bind]
    generalize loadTemplates.exec (observe a k) (observe a k .readTemplateCache s).2 = out at hloaded hcount
    obtain ⟨out, t⟩ := out
    obtain rfl := hloaded
    exact hsearch t (hcount.trans hread)
  · exact hsearch _ hread

private theorem collectSshKeys_unnoticed : (collectSshKeys cfg d).Only Unnoticed :=
  collectSshKeys_only cfg (fun _ => trivial) d

private theorem collectSshKeys_exec (k : Command) :
    ∃ keys, ((collectSshKeys cfg d).exec (observe a k) s).1 = .ok keys := by
  unfold collectSshKeys
  simp only
  split
  · exact ⟨_, rfl⟩
  · simp only [getUserSshKeys, call_bind, exec_call]
    split
    · exact ⟨_, rfl⟩
    · exact ⟨_, rfl⟩

private theorem settles_templateInstantiate (templateId : Int) (name text : String)
    (hs : Waiting i 0 s) :
    Settles (Waiting (i + 1) 0) ((a.instantiate i).isOk = true)
      ((templateInstantiate templateId name text).exec (observe a (createCommand d)) s) := by
  obtain ⟨hheard, hi, hw⟩ := hs
  have hanswer : a.answer (s.made.count (operation (.templateInstantiate templateId name text)))
      (.templateInstantiate templateId name text) = a.instantiate i := by
    rw [← hi]
    rfl
  simp only [templateInstantiate, exec_call, exec_ofExcept, observe, hanswer]
  cases hmade : a.instantiate i with
  | ok oneVmId =>
    refine ⟨fun _ => ?_, fun hno => absurd rfl hno⟩
    simp [Trail.after, Command.accepted, Except.isOk, Except.toBool]
  | error e =>
    refine ⟨fun h => (by cases h), fun _ => ⟨⟨e, rfl⟩, ?_, ?_, ?_⟩⟩
    · simp [Trail.after, hheard, Command.accepted, Command.found, Command.marked, Command.told,
        Except.isOk, Except.toBool]
    · simpa [Trail.after, operation, List.count_append] using hi
    · simpa [Trail.after, operation, List.count_append] using hw

private theorem settles_cleanupStale {P : Trail → Prop} {noticed : Prop} {n : ℕ} {t : Trail}
    (templateId : Int) {f : Unit → VmProcess Int} (ht : Waiting n 0 t)
    (hf : ∀ u, Waiting n 0 u → Settles P noticed ((f ()).exec (observe a (createCommand d)) u)) :
    Settles P noticed ((cleanupStale d.name templateId >>= f).exec (observe a (createCommand d)) t) := by
  have hreturns : ((cleanupStale d.name templateId).exec (observe a (createCommand d)) t).1 = .ok () :=
    ignoring_returns a _ _
  exact settles_after a _ hreturns
    (hf _ (waiting_exec a _ (unnoticed_of_templates (cleanupStale_templates _ _)) ht))

private theorem settles_instantiate (templateId : Int) (keys : List String) (hs : Waiting 0 0 s) :
    Settles (Waiting 2 0) ((a.instantiate 0).isOk = true ∨ (a.instantiate 1).isOk = true)
      ((instantiate d templateId keys).exec (observe a (createCommand d)) s) := by
  simp only [instantiate]
  apply settles_cleanupStale a d templateId hs
  intro t ht
  apply settles_tryCatch a _ (settles_templateInstantiate a d _ _ _ ht)
  intro e u hu
  apply settles_cleanupStale a d templateId hu
  intro v hv
  exact settles_templateInstantiate a d _ _ _ hv

private theorem settles_launchFrom (templateId : Int) (hs : Waiting 0 0 s) :
    Settles (Waiting 2 0) ((a.instantiate 0).isOk = true ∨ (a.instantiate 1).isOk = true)
      ((launchFrom cfg d templateId).exec (observe a (createCommand d)) s) := by
  obtain ⟨keys, hkeys⟩ := collectSshKeys_exec cfg a d (createCommand d) (s := s)
  have hwaiting : Waiting 0 0 ((collectSshKeys cfg d).exec (observe a (createCommand d)) s).2 :=
    waiting_exec a _ (collectSshKeys_unnoticed cfg d) hs
  simp only [launchFrom]
  apply settles_after a _ hkeys
  exact settles_bind a _ (settles_instantiate a d templateId keys hwaiting)

/-- What is left of a creation that failed before its first status write. -/
def Unwritten (t : Trail) : Prop := ∃ i, Waiting i 0 t

private theorem settles_launch (hs : Waiting 0 0 s) (hcache : s.made.count .cache = 0) :
    Settles Unwritten (((a.cache 1).bind fun templates =>
        findTemplateIn cfg templates d.osTemplate).isSome = true ∧
          ((a.instantiate 0).isOk = true ∨ (a.instantiate 1).isOk = true))
      ((launch cfg d).exec (observe a (createCommand d)) s) := by
  have hfind := findTemplate_exec cfg a (createCommand d) hcache d.osTemplate
  have hwaiting : Waiting 0 0 ((findTemplate cfg d.osTemplate).exec (observe a (createCommand d)) s).2 :=
    waiting_exec a _ (unnoticed_of_templates (findTemplate_templates cfg d.osTemplate)) hs
  unfold launch
  apply settles_after a _ hfind
  cases hfound : (a.cache 1).bind fun templates => findTemplateIn cfg templates d.osTemplate with
  | none =>
    refine ⟨fun h => ?_, fun _ => ⟨⟨_, rfl⟩, 0, hwaiting⟩⟩
    cases h.1
  | some templateId =>
    have hlaunched := settles_launchFrom cfg a d templateId hwaiting
    have hunwritten : ∀ t, Waiting 2 0 t → Unwritten t := fun t ht => ⟨2, ht⟩
    simpa using hlaunched.mono hunwritten

private theorem settles_provision (hname : vmNameOk d.name = true) (hs : Waiting 0 0 s)
    (hcache : s.made.count .cache = 0) :
    Settles Unwritten ((∃ oneVmId, a.oneVmId = .ok (some oneVmId)) ∨
        ((a.cache 1).bind fun templates => findTemplateIn cfg templates d.osTemplate).isSome = true ∧
          ((a.instantiate 0).isOk = true ∨ (a.instantiate 1).isOk = true))
      ((provision cfg d).exec (observe a (createCommand d)) s) := by
  have hunknown : a.oneVmId.toOption.join = none →
      Waiting 0 0 (observe a (createCommand d) (.selectOneVmId d.vmId) s).2 := by
    intro hnone
    obtain ⟨hheard, hi, hw⟩ := hs
    refine ⟨?_, ?_, ?_⟩
    · cases hid : a.oneVmId with
      | error e =>
        simp [observe, Trail.after, hheard, Answers.answer, hid, Command.accepted, Command.found,
          Command.marked, Command.told]
      | ok oneVmId =>
        rw [hid] at hnone
        obtain rfl : oneVmId = none := hnone
        simp [observe, Trail.after, hheard, Answers.answer, hid, Command.accepted, Command.found,
          Command.marked, Command.told]
    · simpa [observe, Trail.after, operation, List.count_append] using hi
    · simpa [observe, Trail.after, operation, List.count_append] using hw
  have hread : (observe a (createCommand d) (.selectOneVmId d.vmId) s).2.made.count .cache = 0 := by
    simpa [observe, Trail.after, operation, List.count_append] using hcache
  have hlaunch : a.oneVmId.toOption.join = none →
      (provision cfg d).exec (observe a (createCommand d)) s = (launch cfg d).exec
        (observe a (createCommand d)) (observe a (createCommand d) (.selectOneVmId d.vmId) s).2 := by
    intro hnone
    cases hid : a.oneVmId with
    | error e => simp [provision, getVmOneId, observe, Answers.answer, hid, hname]
    | ok oneVmId =>
      rw [hid] at hnone
      obtain rfl : oneVmId = none := hnone
      simp [provision, getVmOneId, observe, Answers.answer, hid, hname]
  cases hid : a.oneVmId.toOption.join with
  | none =>
    have hno : ¬ ∃ oneVmId, a.oneVmId = .ok (some oneVmId) := by
      intro ⟨oneVmId, hok⟩
      rw [hok] at hid
      cases hid
    rw [hlaunch hid]
    simpa [hno] using settles_launch cfg a d (hunknown hid) hread
  | some oneVmId =>
    have hok : a.oneVmId = .ok (some oneVmId) := by
      cases h : a.oneVmId with
      | error e => simp [h, Except.toOption] at hid
      | ok found => simpa [h, Except.toOption] using hid
    have hfound : (observe a (createCommand d) (.selectOneVmId d.vmId) s).2.heard = true := by
      simp [observe, Trail.after, Answers.answer, hok, Command.found]
    exact ⟨fun _ => heard_call a _ hfound, fun hno => absurd (.inl ⟨oneVmId, hok⟩) hno⟩

private theorem settles_provisionFailed {t : Trail} (ht : Unwritten t) :
    Settles (fun u => u.heard = false) ((a.write 0).isOk = true)
      ((provisionFailed d.vmId).exec (observe a (createCommand d)) t) := by
  obtain ⟨i, hwaiting⟩ := ht
  have hsettles : Settles (Waiting i 1) ((a.write 0).isOk = true)
      ((provisionFailed d.vmId).exec (observe a (createCommand d)) t) :=
    settles_report a _ rfl rfl (by simp [createCommand]) hwaiting
  exact hsettles.mono fun _ hu => hu.unheard

private theorem andFinally_heard (p : VmProcess Unit) (s : Trail) :
    ((p.andFinally (releaseCreateLock d.vmId)).exec (observe a (createCommand d)) s).2.heard =
      (p.exec (observe a (createCommand d)) s).2.heard := by
  have hrelease : (releaseCreateLock d.vmId).Only Unnoticed := only_ignoring (only_request trivial)
  have hreturns : ∀ t, ((releaseCreateLock d.vmId).exec (observe a (createCommand d)) t).1 = .ok () :=
    fun t => ignoring_returns a _ _
  simp only [andFinally, exec_bind, exec_attempt]
  generalize p.exec (observe a (createCommand d)) s = out
  obtain ⟨out, t⟩ := out
  have hok := hreturns t
  have hheard := heard_unnoticed a (createCommand d) hrelease t
  generalize (releaseCreateLock d.vmId).exec (observe a (createCommand d)) t = released at hok hheard
  obtain ⟨released, u⟩ := released
  obtain rfl := hok
  simpa using hheard

private theorem createVm_heard (hname : vmNameOk d.name = true) :
    (served a (createCommand d) (createVm cfg d)).heard = true ↔ CreateHeeded cfg a d := by
  rw [served, createVm, CreateHeeded, Made]
  cases hlock : a.lock with
  | error e =>
    have hwaiting : Unwritten (observe a (createCommand d) (.acquireCreateLock d.vmId)
        ⟨[], false, false⟩).2 := by
      refine ⟨0, ?_, rfl, rfl⟩
      simp [observe, Trail.after, Answers.answer, hlock, Command.accepted, Command.found,
        Command.marked, Command.told]
    have hlocked : (observe a (createCommand d) (.acquireCreateLock d.vmId)
        ⟨[], false, false⟩).1 = .error e := hlock
    simp only [VmCall.perform, call_bind, ret_bind, exec_call, hlocked]
    simpa using (settles_provisionFailed a d hwaiting).heard_iff fun _ hu => hu
  | ok acquired =>
    have hlocked : (observe a (createCommand d) (.acquireCreateLock d.vmId)
        ⟨[], false, false⟩).1 = .ok acquired := hlock
    simp only [VmCall.perform, call_bind, ret_bind, exec_call, hlocked]
    cases acquired with
    | false =>
      have hfound : (observe a (createCommand d) (.acquireCreateLock d.vmId)
          ⟨[], false, false⟩).2.heard = true := by
        simp [observe, Trail.after, Answers.answer, hlock, Command.found]
      simpa using hfound
    | true =>
      have hwaiting : Waiting 0 0 (observe a (createCommand d) (.acquireCreateLock d.vmId)
          ⟨[], false, false⟩).2 := by
        refine ⟨?_, rfl, rfl⟩
        simp [observe, Trail.after, Answers.answer, hlock, Command.accepted, Command.found,
          Command.marked, Command.told]
      have hbody := settles_provision cfg a d hname hwaiting rfl
      have hboth := settles_tryCatch a (createCommand d) hbody fun _ t ht =>
        settles_provisionFailed a d ht
      rw [andFinally_heard]
      exact hboth.heard_iff fun _ hu => hu

end Create

section Messages

variable (cfg : WorkerConfig) (a : Answers)

/-- The message is acknowledged at the end, and the subscriber changes nothing about what can be
noticed. -/
private theorem subscriber_served {δ : Type} (k : Command) {accepted : Except String Unit}
    {data : Option δ} {d : δ} (handle : δ → VmProcess Unit) (ha : accepted = .ok ())
    (hd : data = some d) :
    (served a k (subscriber accepted data handle)).acked = true ∧
      (served a k (subscriber accepted data handle)).heard = (served a k (handle d)).heard := by
  have hack : ∀ t : Trail, (Worker.ack.exec (observe a k) t).2.acked = true ∧
      (Worker.ack.exec (observe a k) t).2.heard = t.heard := by
    intro t
    simp [Worker.ack, observe, Trail.after, Command.accepted, Command.found, Command.marked,
      Command.told]
  subst ha hd
  simp only [served, subscriber, exec_tryCatch, exec_bind]
  generalize (handle d).exec (observe a k) ⟨[], false, false⟩ = out
  obtain ⟨out, t⟩ := out
  cases out with
  | ok _ => exact hack t
  | error e => exact hack t

/-- For every answer of OpenNebula, of the database and of Redis, and every accepted message, the
user can notice the command once it is acknowledged exactly under the condition for its handler. -/
theorem command_noticed_iff :
    (∀ data, validateVmCreate data = .ok () → ∃ d, VmCreateData.ofDict? data = some d ∧
      (((served a (createCommand d) (handleVmCreate cfg data)).acked = true →
        (served a (createCommand d) (handleVmCreate cfg data)).heard = true) ↔
          CreateHeeded cfg a d)) ∧
    (∀ data, validateVmAction data = .ok () → ∃ d, VmActionData.ofDict? data = some d ∧
      (((served a (actionCommand d) (handleVmAction data)).acked = true →
        (served a (actionCommand d) (handleVmAction data)).heard = true) ↔ ActionHeeded a d)) ∧
    (∀ data, validateVmDelete data = .ok () → ∃ d, VmDeleteData.ofDict? data = some d ∧
      (((served a (deleteCommand d) (handleVmDelete cfg data)).acked = true →
        (served a (deleteCommand d) (handleVmDelete cfg data)).heard = true) ↔ DeleteHeeded a d)) := by
  refine ⟨fun data ha => ?_, fun data ha => ?_, fun data ha => ?_⟩
  · obtain ⟨d, hd, hname⟩ := createData_of_accepted ha
    obtain ⟨hacked, hheard⟩ := subscriber_served a (createCommand d) (createVm cfg) ha hd
    refine ⟨d, hd, ?_⟩
    rw [handleVmCreate, hacked, hheard, createVm_heard cfg a d hname]
    simp
  · obtain ⟨d, hd⟩ := actionData_of_accepted ha
    obtain ⟨hacked, hheard⟩ := subscriber_served a (actionCommand d) vmAction ha hd
    refine ⟨d, hd, ?_⟩
    rw [handleVmAction, hacked, hheard, vmAction_heard]
    simp
  · obtain ⟨d, hd⟩ := deleteData_of_accepted ha
    obtain ⟨hacked, hheard⟩ := subscriber_served a (deleteCommand d) (deleteVm cfg) ha hd
    refine ⟨d, hd, ?_⟩
    rw [handleVmDelete, hacked, hheard, deleteVm_heard]
    simp

private def plainWorker : WorkerConfig := ⟨0, false, [], id, id⟩

private def rowLocked : Answers where
  lock := .ok true
  oneVmId := .ok none
  action := .ok ()
  info := .ok {}
  deleteRecord := .error ⟨.database, "could not obtain lock on row"⟩
  cache := fun _ => some []
  instantiate := fun _ => .ok 1
  write := fun _ => .ok ()
  rest := fun _ => noAnswer

private def deleteUnmade : Dict :=
  [("vmId", .str "7f1d6c1e-3a52-4c8b-9d07-5b1f0e2a6c34"),
    ("userId", .str "0b6f3f0e-6c1a-4d6e-8f53-2f1d9a7c4e10")]

private def deleteMade : Dict := deleteUnmade ++ [("oneVmId", .int 42)]

private def machineOf (oneVmId : Option Int) : VmDeleteData :=
  ⟨"7f1d6c1e-3a52-4c8b-9d07-5b1f0e2a6c34", oneVmId, "0b6f3f0e-6c1a-4d6e-8f53-2f1d9a7c4e10"⟩

/-- The deletion of a VM without a machine is acknowledged, its row stays as it was, and nobody is
told. -/
theorem deletion_disappears :
    validateVmDelete deleteUnmade = .ok () ∧
      VmDeleteData.ofDict? deleteUnmade = some (machineOf none) ∧
      ¬ ((served rowLocked (deleteCommand (machineOf none))
          (handleVmDelete plainWorker deleteUnmade)).acked = true →
        (served rowLocked (deleteCommand (machineOf none))
          (handleVmDelete plainWorker deleteUnmade)).heard = true) := by
  have hd : VmDeleteData.ofDict? deleteUnmade = some (machineOf none) := by rfl
  have ha : validateVmDelete deleteUnmade = .ok () := by rfl
  refine ⟨ha, hd, fun h => ?_⟩
  obtain ⟨hacked, hheard⟩ := subscriber_served rowLocked (deleteCommand (machineOf none))
    (deleteVm plainWorker) ha hd
  have hnoticed := (deleteVm_heard plainWorker rowLocked (machineOf none)).mp (hheard ▸ h hacked)
  cases hnoticed

/-- With a machine the same failure of the database is noticed. -/
theorem command_noticed_iff_machine :
    validateVmDelete deleteMade = .ok () ∧ ∃ d, VmDeleteData.ofDict? deleteMade = some d ∧
      (((served rowLocked (deleteCommand d) (handleVmDelete plainWorker deleteMade)).acked = true →
        (served rowLocked (deleteCommand d) (handleVmDelete plainWorker deleteMade)).heard = true) ↔
          DeleteHeeded rowLocked d) :=
  ⟨by rfl, (command_noticed_iff plainWorker rowLocked).2.2 deleteMade (by rfl)⟩

end Messages

end CloudVM.Worker
