import CloudVM.Framework.Requests
import CloudVM.Plane.World

/-!
# What the plane is asked

The same programs over the same world, as a server that knows what each task was asked and keeps
its calls with their answers. A task first takes what it works on (a message, a status update, a
machine to wait for); what is gone by then is not worked on.
-/

namespace CloudVM.Plane

open VmService Worker Process

section Calls

inductive PlaneCall where
  | take
  | vm (c : VmCall)

@[reducible] def PlaneCall.Answer : PlaneCall → Type
  | .take => Bool
  | .vm c => c.Answer

@[reducible] def planeInterface : Interface where
  Call := PlaneCall
  Answer := PlaneCall.Answer

abbrev VmEvent := Event vmInterface

abbrev PlaneEvent := Event planeInterface

def PlaneEvent.ofProgram? : PlaneEvent → Option VmEvent
  | ⟨.take, _⟩ => none
  | ⟨.vm c, r⟩ => some ⟨c, r⟩

def vmLog (log : List PlaneEvent) : List VmEvent := log.filterMap PlaneEvent.ofProgram?

@[simp] theorem vmLog_take (log : List PlaneEvent) (r : Bool) :
    vmLog (log ++ [⟨.take, r⟩]) = vmLog log := by
  simp [vmLog, PlaneEvent.ofProgram?]

@[simp] theorem vmLog_vm (log : List PlaneEvent) (c : VmCall) (r : c.Answer) :
    vmLog (log ++ [⟨.vm c, r⟩]) = vmLog log ++ [⟨c, r⟩] := by
  simp [vmLog, PlaneEvent.ofProgram?]

end Calls

section Requests

/-- A request of a user, a delivery (`last` if the message leaves the stream), a status update, or
work that the worker gives itself. -/
inductive PlaneRequest where
  | createVm (dto : CreateVmDto) (userId : String) (role : Role)
  | vmAction (vmId : String) (action : VmAction) (userId : String) (role : Role)
  | deleteVm (vmId userId : String) (role : Role)
  | message (subject : Subject) (data : Dict) (last : Bool)
  | statusUpdate (m : StatusUpdate)
  | poll (t : PollTask)
  | startWorker
  | reconnect
  | syncAllVmStates

namespace PlaneRequest

def program (cfg : WorkerConfig) : PlaneRequest → VmProcess Unit
  | .createVm dto userId role => request (VmService.createVm dto userId role)
  | .vmAction vmId action userId role => request (VmService.vmAction vmId action userId role)
  | .deleteVm vmId userId role => request (VmService.deleteVm vmId userId role)
  | .message subject data _ => handleMessage cfg subject data
  | .statusUpdate m => onStatusUpdate m
  | .poll t => waitForIpAndUpdate cfg t
  | .startWorker => Worker.startWorker
  | .reconnect => Worker.reconnect
  | .syncAllVmStates => Worker.syncAllVmStates

/-- The request is there to be worked on, and what working on it takes away. -/
def Taken (env : Env) (w w' : World) : PlaneRequest → Prop
  | .createVm dto userId _ => dto.valid = true ∧ env.uuid userId ∧ w' = w
  | .vmAction _ _ userId _ => env.uuid userId ∧ w' = w
  | .deleteVm _ userId _ => env.uuid userId ∧ w' = w
  | .message subject data last =>
      (subject, data) ∈ w.stream ∧
        w' = if last then { w with stream := w.stream.erase (subject, data) } else w
  | .statusUpdate m => m ∈ w.updates ∧ w' = { w with updates := w.updates.erase m }
  | .poll t => t ∈ w.tasks ∧ w' = { w with tasks := w.tasks.erase t }
  | .startWorker => w' = w
  | .reconnect => w' = w
  | .syncAllVmStates => w' = w

end PlaneRequest

/-- What starts in the plane is the program of a request that was there to be taken. -/
theorem starts_iff {env : Env} {w w' : World} {p : VmProcess Unit} :
    Starts env w p w' ↔ ∃ q : PlaneRequest, p = q.program env.cfg ∧ q.Taken env w w' := by
  constructor
  · intro h
    cases h with
    | createVm dto userId role hv hu => exact ⟨.createVm dto userId role, rfl, hv, hu, rfl⟩
    | vmAction vmId action userId role hu =>
      exact ⟨.vmAction vmId action userId role, rfl, hu, rfl⟩
    | deleteVm vmId userId role hu => exact ⟨.deleteVm vmId userId role, rfl, hu, rfl⟩
    | redeliver hm => exact ⟨.message _ _ false, rfl, hm, rfl⟩
    | deliver hm => exact ⟨.message _ _ true, rfl, hm, rfl⟩
    | update hm => exact ⟨.statusUpdate _, rfl, hm, rfl⟩
    | poll ht => exact ⟨.poll _, rfl, ht, rfl⟩
    | startWorker => exact ⟨.startWorker, rfl, rfl⟩
    | reconnect => exact ⟨.reconnect, rfl, rfl⟩
    | syncAllVmStates => exact ⟨.syncAllVmStates, rfl, rfl⟩
  · rintro ⟨q, rfl, h⟩
    cases q with
    | createVm dto userId role =>
      obtain ⟨hv, hu, rfl⟩ := h
      exact .createVm dto userId role hv hu
    | vmAction vmId action userId role =>
      obtain ⟨hu, rfl⟩ := h
      exact .vmAction vmId action userId role hu
    | deleteVm vmId userId role =>
      obtain ⟨hu, rfl⟩ := h
      exact .deleteVm vmId userId role hu
    | message subject data last =>
      obtain ⟨hm, rfl⟩ := h
      cases last with
      | false => exact .redeliver hm
      | true => exact .deliver hm
    | statusUpdate m =>
      obtain ⟨hm, rfl⟩ := h
      exact .update hm
    | poll t =>
      obtain ⟨ht, rfl⟩ := h
      exact .poll ht
    | startWorker =>
      obtain rfl := h
      exact .startWorker
    | reconnect =>
      obtain rfl := h
      exact .reconnect
    | syncAllVmStates =>
      obtain rfl := h
      exact .syncAllVmStates

end Requests

section Server

abbrev PlaneProcess := Process planeInterface Failure Unit

def ofVm (p : VmProcess Unit) : PlaneProcess := p.lift .vm fun _ r => r

/-- The program runs once its request has been taken. -/
def PlaneRequest.handle (cfg : WorkerConfig) (q : PlaneRequest) : PlaneProcess :=
  .call .take fun taken => if taken then ofVm (q.program cfg) else .ret ()

variable (env : Env)

def planeEffect (q : PlaneRequest) : (c : PlaneCall) → World → c.Answer → World → Prop
  | .take, w, r, w' => (r = true ∧ q.Taken env w w') ∨ (r = false ∧ w' = w)
  | .vm c, w, r, w' => worldEffect env c w r w'

def planeServer : Server planeInterface Failure Unit PlaneRequest World where
  handler := PlaneRequest.handle env.cfg
  effect q _ := planeEffect env q
  change := Loses

abbrev PlaneStage := Stage planeInterface Failure Unit PlaneRequest World

end Server

section Simulation

variable {env : Env} {x y : PlanePool} {z : PlaneStage}

/-- The worlds are the same, and every program of the pool is what is left to do of a task. -/
def Simulates (z : PlaneStage) (x : PlanePool) : Prop :=
  z.state = x.state ∧ (x.procs.map ofVm).Sublist (z.tasks.map Task.rest)

private theorem sublist_set {τ : Type} {xs ys : List τ} (h : xs.Sublist ys) {i : Nat} {a : τ}
    (hi : xs[i]? = some a) (b : τ) :
    ∃ j : Nat, ys[j]? = some a ∧ (xs.set i b).Sublist (ys.set j b) := by
  induction h generalizing i with
  | slnil => simp at hi
  | cons y h ih =>
    obtain ⟨j, hj, hset⟩ := ih hi
    exact ⟨j + 1, hj, hset.cons y⟩
  | cons_cons y h ih =>
    cases i with
    | zero => exact ⟨0, hi, h.cons_cons b⟩
    | succ i =>
      obtain ⟨j, hj, hset⟩ := ih hi
      exact ⟨j + 1, hj, hset.cons_cons y⟩

/-- The server does what the plane does in one step, and its tasks are those of the plane. -/
theorem Simulates.step {l : PoolLabel vmInterface} (hz : Simulates z x)
    (h : Pool.Step (plane env) x l y) :
    ∃ trace z', Run (planeServer env).Step z trace z' ∧ Simulates z' y := by
  obtain ⟨w, tasks⟩ := z
  obtain ⟨hstate, hprocs⟩ := hz
  cases h with
  | @act s s' procs i c k r hp he =>
    obtain rfl : w = s := hstate
    have hcall : (procs.map ofVm)[i]? = some (ofVm (.call c k)) := by simp [hp]
    obtain ⟨j, hj, hset⟩ := sublist_set hprocs hcall (ofVm (k r))
    rw [List.getElem?_map, Option.map_eq_some_iff] at hj
    obtain ⟨⟨q, log, rest⟩, htask, rfl⟩ := hj
    have hstep : (planeServer env).Step ⟨w, tasks⟩ (.act j (PlaneCall.vm c) r)
        ⟨s', tasks.set j ⟨q, log ++ [⟨PlaneCall.vm c, r⟩], ofVm (k r)⟩⟩ := .act htask he
    refine ⟨_, _, .single hstep, rfl, ?_⟩
    simpa using hset
  | @start s s' procs p hs =>
    obtain rfl : w = s := hstate
    obtain ⟨q, rfl, htaken⟩ := starts_iff.mp hs
    have htake : (planeServer env).Step ⟨w, tasks ++ [⟨q, [], q.handle env.cfg⟩]⟩
        (.act tasks.length PlaneCall.take true)
        ⟨s', tasks ++ [⟨q, [⟨PlaneCall.take, true⟩], ofVm (q.program env.cfg)⟩]⟩ :=
      Server.Step.act_last rfl (.inl ⟨rfl, htaken⟩)
    refine ⟨_, _, .head (.begin q) (.single htake), rfl, ?_⟩
    simpa using hprocs.append (List.Sublist.refl [ofVm (q.program env.cfg)])
  | @crash s procs i =>
    refine ⟨[], _, .nil, hstate, ?_⟩
    apply List.Sublist.trans _ hprocs
    exact (List.eraseIdx_sublist procs i).map ofVm
  | @surroundings s s' procs hc =>
    obtain rfl : w = s := hstate
    exact ⟨_, _, .single (.change hc), rfl, hprocs⟩

/-- Whatever the plane comes to, the server comes to as well. -/
theorem plane_simulated {db : VmDb} {trace : List (PoolLabel vmInterface × PlanePool)}
    (h : Run (Pool.Step (plane env)) ⟨World.initial db, []⟩ trace x) :
    ∃ trace' z, Run (planeServer env).Step ⟨World.initial db, []⟩ trace' z ∧ Simulates z x := by
  induction h with
  | nil => exact ⟨[], _, .nil, rfl, List.Sublist.refl _⟩
  | snoc h hs ih =>
    obtain ⟨before, z, hrun, hz⟩ := ih
    obtain ⟨after, z', hrun', hz'⟩ := hz.step hs
    exact ⟨before ++ after, z', hrun.append hrun', hz'⟩

end Simulation

end CloudVM.Plane
