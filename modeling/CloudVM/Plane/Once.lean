import CloudVM.Plane.Phase
import Mathlib.Algebra.Ring.Nat

/-!
# One machine for each record

Any number of deliveries of `vm.create` messages are handled beside each other, their calls in
any order, while everything else on the plane goes on. Two of the steps of a delivery can fail
without anybody noticing: a failed lookup reads as "not assigned yet", and a failed write leaves
a machine that nothing points to.
-/

namespace CloudVM.Plane.Once

open Worker Process

section Deliveries

/-- Calls about the lock of a creation; only `create_vm` makes them. -/
def AboutLock : VmCall → Prop
  | .acquireCreateLock _ | .releaseCreateLock _ => True
  | _ => False

/-- Deliveries of `vm.create` messages. Beside them any other call of the two programs may be
answered, a lock may run out, and messages and background tasks come and go. -/
def deliveries (env : Env) : Server vmInterface Failure Unit Dict World where
  handler := handleVmCreate env.cfg
  effect := fun _ _ c => worldEffect env c
  change w w' :=
    (∃ (c : VmCall) (r : c.Answer), ¬ AboutLock c ∧ worldEffect env c w r w') ∨
    (∃ vmId, w' = { w with locks := w.locks.erase vmId }) ∨
    (w'.db = w.db ∧ w'.locks = w.locks)

abbrev Delivery := Task vmInterface Failure Unit Dict

abbrev Deliveries := Stage vmInterface Failure Unit Dict World

def Of (v : String) (task : Delivery) : Prop := vmIdOf task.request = some v

instance (v : String) (task : Delivery) : Decidable (Of v task) :=
  inferInstanceAs (Decidable (vmIdOf task.request = some v))

def machines (v : String) (x : Deliveries) : Nat :=
  (x.tasks.map fun task => if Of v task then madeIn task.log else 0).sum

def Holds (task : Delivery) : Prop := task.Live ∧ (phase task.log).holding = true

def Assigned (v : String) (w : World) : Prop :=
  ∃ row, w.db.vms.find? v = some row ∧ row.oneVmId ≠ none

/-- No lock runs out while the delivery that took it is under way. -/
def Timely (v : String) (x : Deliveries) (l : StageLabel vmInterface Dict) (y : Deliveries) : Prop :=
  l = .change → (∃ task ∈ x.tasks, Of v task ∧ Holds task) → v ∈ x.state.locks → v ∈ y.state.locks

/-- What keeps the count at one: no lookup fails once there is a machine, the write that names a
machine finds the row and is carried out, and no delivery is cut off before that write. -/
structure Orderly (v : String) (x : Deliveries) (l : StageLabel vmInterface Dict) (y : Deliveries) :
    Prop where
  timely : Timely v x l y
  looks : ∀ i e, l = .act i (VmCall.selectOneVmId v) (.error e) →
    ∀ task ∈ x.tasks, Of v task → madeIn task.log = 0
  saves : ∀ i w r, l = .act i (VmCall.updateVmStatus w) r → w.vmId = v → w.oneVmId.isSome →
    (x.state.db.vms.find? v).isSome ∧ ∃ now, y.state = x.state.written (.updateVmStatus w) now
  crashes : l = .crash → ∀ (i : Nat) (task : Delivery), x.tasks[i]? = some task → Of v task →
    phase task.log = .made → y.tasks[i]? = some task

end Deliveries

section Effects

variable {env : Env} {v : String} {w w' : World} {c : VmCall} {r : c.Answer}

private theorem rowUpdate_assigned (now : Nat) (c : VmCall) {row : VmRow} (h : row.oneVmId ≠ none) :
    (rowUpdate now c row).oneVmId ≠ none := by
  obtain ⟨n, hn⟩ := Option.ne_none_iff_exists'.mp h
  cases c
  case updateVmStatus u =>
    simp only [rowUpdate]
    split
    · cases hu : u.oneVmId <;> simp [StatusWrite.apply, hu, hn]
    · exact h
  case patchStatus vmId p =>
    simp only [rowUpdate]
    split
    · cases hp : p.oneVmId <;> simp [StatusPatch.apply, hp, hn]
    · exact h
  case deleteVmRecord | markDeleted | stampStopped =>
    simp only [rowUpdate]
    split
    · exact h
    · exact h
  all_goals exact h

theorem assigned_effect (he : worldEffect env c w r w') (h : Assigned v w) : Assigned v w' := by
  obtain ⟨row, hrow, hn⟩ := h
  rcases worldEffect_vms he with hvms | ⟨now, rfl⟩ | ⟨tx, newId, now, -, -, hfresh, hrows⟩
  · exact ⟨row, by rw [hvms]; exact hrow, hn⟩
  · refine ⟨rowUpdate now c row, ?_, rowUpdate_assigned now c hn⟩
    simp only [World.written, Table.find?_modify, hrow, Option.map_some, if_true]
  · obtain ⟨hmem, hkey⟩ := w.db.vms.find?_eq_some.mp hrow
    refine ⟨row, w'.db.vms.find?_eq_some.mpr ⟨?_, hkey⟩, hn⟩
    rw [hrows]
    exact List.mem_append_left _ hmem

theorem locks_effect (hc : ¬ AboutLock c) (he : worldEffect env c w r w') : w'.locks = w.locks := by
  cases c
  case acquireCreateLock | releaseCreateLock => exact absurd trivial hc
  case createVmTransaction tx =>
    rcases he with ⟨newId, now, vm, db, -, -, rfl, -⟩ | ⟨e, -, rfl⟩ <;> rfl
  case publish | publishStatus =>
    rcases he with rfl | rfl <;> rfl
  case markDeleted | stampStopped | patchStatus | updateVmStatus | deleteVmRecord =>
    rcases he with ⟨now, ⟨a, -, -, rfl⟩ | ⟨e, -, rfl | rfl⟩⟩ <;> rfl
  case findVm | selectOneVmId | selectPendingVms | selectActiveVms =>
    obtain ⟨rfl, -⟩ := he
    rfl
  case readTemplateCache =>
    obtain ⟨-, rfl⟩ := he
    rfl
  all_goals
    obtain rfl := he
    rfl

end Effects

section Invariant

/-- The delivery will go on in order, or it was cut off with no machine of the record unwritten. -/
def Kept (v : String) (task : Delivery) : Prop :=
  Does task.request task.rest (fun _ log => Ended log) task.log ∨
    ∃ e, task.rest = .raise e ∧ (Of v task → phase task.log ≠ .made)

/-- One delivery at a time has the lock; while it may instantiate there is no machine yet, and
a machine is named by the row or is about to be. -/
structure Single (v : String) (x : Deliveries) : Prop where
  kept : ∀ task ∈ x.tasks, Kept v task
  lock : ∀ task ∈ x.tasks, Of v task → Holds task → v ∈ x.state.locks
  alone : ∀ (i j : Nat) (p q : Delivery), x.tasks[i]? = some p → x.tasks[j]? = some q →
    Of v p → Of v q → Holds p → Holds q → i = j
  cleared : ∀ task ∈ x.tasks, Of v task → task.Live → phase task.log = .cleared →
    ∀ p ∈ x.tasks, Of v p → madeIn p.log = 0
  named : ∀ task ∈ x.tasks, Of v task → madeIn task.log ≠ 0 →
    phase task.log = .made ∨ Assigned v x.state
  once : ∀ task ∈ x.tasks, Of v task → madeIn task.log ≤ 1
  pair : ∀ (i j : Nat) (p q : Delivery), x.tasks[i]? = some p → x.tasks[j]? = some q →
    Of v p → Of v q → madeIn p.log ≠ 0 → madeIn q.log ≠ 0 → i = j

variable {v : String} {s s' : World} {tasks : List Delivery} {i : Nat} {old new : Delivery}

theorem Kept.live {task : Delivery} (h : Kept v task) (hv : Of v task)
    (hmade : phase task.log = .made) : task.Live := by
  obtain ⟨data, log, rest⟩ := task
  have hnot : ¬ Ended log := by
    intro hended
    rcases hended with he | he <;> simp [he] at hmade
  cases rest with
  | call c k => exact ⟨c, k, rfl⟩
  | ret a =>
    rcases h with h | ⟨e, he, -⟩
    · exact absurd h hnot
    · cases he
  | raise e =>
    rcases h with h | ⟨e', -, hne⟩
    · exact absurd h hnot
    · exact absurd hmade (hne hv)

/-- What one delivery has to show after its step, the others being as before. -/
structure Fits (v : String) (s' : World) (i : Nat) (tasks : List Delivery) (new : Delivery) :
    Prop where
  kept : Kept v new
  lock : Of v new → Holds new → v ∈ s'.locks
  others : ∀ (j : Nat) (p : Delivery), j ≠ i → tasks[j]? = some p → Of v p → Holds p → v ∈ s'.locks
  alone : Of v new → Holds new →
    ∀ (j : Nat) (p : Delivery), j ≠ i → tasks[j]? = some p → Of v p → ¬ Holds p
  cleared : Of v new → new.Live → phase new.log = .cleared →
    madeIn new.log = 0 ∧ ∀ (j : Nat) (p : Delivery), j ≠ i → tasks[j]? = some p → Of v p →
      madeIn p.log = 0
  clear : Of v new → (∃ (j : Nat) (p : Delivery), j ≠ i ∧ tasks[j]? = some p ∧ Of v p ∧ p.Live ∧
    phase p.log = .cleared) → madeIn new.log = 0
  named : Of v new → madeIn new.log ≠ 0 → phase new.log = .made ∨ Assigned v s'
  once : Of v new → madeIn new.log ≤ 1
  pair : Of v new → madeIn new.log ≠ 0 →
    ∀ (j : Nat) (p : Delivery), j ≠ i → tasks[j]? = some p → Of v p → madeIn p.log = 0

theorem Single.set (hx : Single v ⟨s, tasks⟩) (hn : Fits v s' i tasks new)
    (ha : Assigned v s → Assigned v s') : Single v ⟨s', tasks.set i new⟩ := by
  constructor
  · intro task hm
    rcases mem_set_cases hm with rfl | ⟨j, -, hj⟩
    · exact hn.kept
    · exact hx.kept task (List.mem_of_getElem? hj)
  · intro task hm hv hh
    rcases mem_set_cases hm with rfl | ⟨j, hne, hj⟩
    · exact hn.lock hv hh
    · exact hn.others j task hne hj hv hh
  · intro j k p q hj hk hp hq hhp hhq
    rcases getElem?_set_cases hj with ⟨rfl, rfl⟩ | ⟨hnj, hoj⟩
    · rcases getElem?_set_cases hk with ⟨rfl, rfl⟩ | ⟨hnk, hok⟩
      · rfl
      · exact absurd hhq (hn.alone hp hhp k q hnk hok hq)
    · rcases getElem?_set_cases hk with ⟨rfl, rfl⟩ | ⟨hnk, hok⟩
      · exact absurd hhp (hn.alone hq hhq j p hnj hoj hp)
      · exact hx.alone j k p q hoj hok hp hq hhp hhq
  · intro task hm hv hlive hcl p hp hpv
    rcases mem_set_cases hm with rfl | ⟨j, hne, hj⟩
    · rcases mem_set_cases hp with rfl | ⟨k, hnk, hk⟩
      · exact (hn.cleared hv hlive hcl).1
      · exact (hn.cleared hv hlive hcl).2 k p hnk hk hpv
    · rcases mem_set_cases hp with rfl | ⟨k, hnk, hk⟩
      · exact hn.clear hpv ⟨j, task, hne, hj, hv, hlive, hcl⟩
      · exact hx.cleared task (List.mem_of_getElem? hj) hv hlive hcl p (List.mem_of_getElem? hk) hpv
  · intro task hm hv hmade
    rcases mem_set_cases hm with rfl | ⟨j, -, hj⟩
    · exact hn.named hv hmade
    · exact (hx.named task (List.mem_of_getElem? hj) hv hmade).imp_right ha
  · intro task hm hv
    rcases mem_set_cases hm with rfl | ⟨j, -, hj⟩
    · exact hn.once hv
    · exact hx.once task (List.mem_of_getElem? hj) hv
  · intro j k p q hj hk hp hq hmp hmq
    rcases getElem?_set_cases hj with ⟨rfl, rfl⟩ | ⟨hnj, hoj⟩
    · rcases getElem?_set_cases hk with ⟨rfl, rfl⟩ | ⟨hnk, hok⟩
      · rfl
      · exact absurd (hn.pair hp hmp k q hnk hok hq) hmq
    · rcases getElem?_set_cases hk with ⟨rfl, rfl⟩ | ⟨hnk, hok⟩
      · exact absurd (hn.pair hq hmq j p hnj hoj hp) hmp
      · exact hx.pair j k p q hoj hok hp hq hmp hmq

theorem Single.fits_same (hx : Single v ⟨s, tasks⟩) (hi : tasks[i]? = some old)
    (hkept : Kept v new) (hreq : new.request = old.request) (hlive : new.Live → old.Live)
    (hlog : Of v old → phase new.log = phase old.log ∧ madeIn new.log = madeIn old.log)
    (hlocks : v ∈ s.locks → v ∈ s'.locks) (ha : Assigned v s → Assigned v s') :
    Fits v s' i tasks new := by
  have hm := List.mem_of_getElem? hi
  have hof : Of v new → Of v old := by
    intro h
    rwa [Of, hreq] at h
  have hholds : Of v new → Holds new → Holds old := by
    intro hv h
    exact ⟨hlive h.1, (hlog (hof hv)).1 ▸ h.2⟩
  constructor
  · exact hkept
  · intro hv hh
    exact hlocks (hx.lock old hm (hof hv) (hholds hv hh))
  · intro j p _ hj hv hh
    exact hlocks (hx.lock p (List.mem_of_getElem? hj) hv hh)
  · intro hv hh j p hne hj hp hhp
    exact hne (hx.alone j i p old hj hi hp (hof hv) hhp (hholds hv hh))
  · intro hv hl hcl
    rw [(hlog (hof hv)).1] at hcl
    have hzero := hx.cleared old hm (hof hv) (hlive hl) hcl
    constructor
    · rw [(hlog (hof hv)).2]
      exact hzero old hm (hof hv)
    · intro j p _ hj hp
      exact hzero p (List.mem_of_getElem? hj) hp
  · rintro hv ⟨j, p, -, hj, hp, hl, hcl⟩
    rw [(hlog (hof hv)).2]
    exact hx.cleared p (List.mem_of_getElem? hj) hp hl hcl old hm (hof hv)
  · intro hv hne
    rw [(hlog (hof hv)).2] at hne
    rw [(hlog (hof hv)).1]
    exact (hx.named old hm (hof hv) hne).imp_right ha
  · intro hv
    rw [(hlog (hof hv)).2]
    exact hx.once old hm (hof hv)
  · intro hv hne j p hnj hj hp
    rw [(hlog (hof hv)).2] at hne
    by_contra hpz
    exact hnj (hx.pair j i p old hj hi hp (hof hv) hpz hne)

variable {env : Env} {data : Dict} {log : VmLog} {c : VmCall}
  {k : c.Answer → Process vmInterface Failure Unit} {r : c.Answer}

private theorem locks_of_other (hv : vmIdOf data ≠ some v) (hp : Permitted data log c)
    (he : worldEffect env c s r s') (hm : v ∈ s.locks) : v ∈ s'.locks := by
  by_cases hc : AboutLock c
  · cases c
    case acquireCreateLock u =>
      rcases he with ⟨-, -, rfl⟩ | ⟨-, -, rfl⟩ | ⟨e, -, rfl | rfl⟩
      · exact List.mem_cons_of_mem _ hm
      · exact hm
      · exact hm
      · exact List.mem_cons_of_mem _ hm
    case releaseCreateLock u =>
      have hu : u ≠ v := by
        intro h
        subst h
        exact hv (hp.releases u rfl).1
      rcases he with rfl | rfl
      · exact hm
      · exact (List.mem_erase_of_ne hu.symm).mpr hm
    all_goals exact hc.elim
  · rw [locks_effect hc he]
    exact hm

private theorem fits_acquired (hx : Single v ⟨s, tasks⟩)
    (hi : tasks[i]? = some ⟨data, log, .call c k⟩) (hkept : Kept v new) (hfree : v ∉ s.locks)
    (hmem : v ∈ s'.locks) (hdb : Assigned v s → Assigned v s') (hreq : new.request = data)
    (hold : phase log = .outside) (hphase : phase new.log = .locked)
    (hmade : madeIn new.log = madeIn log) : Fits v s' i tasks new := by
  have hm := List.mem_of_getElem? hi
  have hof : Of v new → Of v ⟨data, log, .call c k⟩ := by
    intro h
    rwa [Of, hreq] at h
  have hnone : ∀ (j : Nat) (p : Delivery), tasks[j]? = some p → Of v p → ¬ Holds p := by
    intro j p hj hp hh
    exact hfree (hx.lock p (List.mem_of_getElem? hj) hp hh)
  constructor
  · exact hkept
  · exact fun _ _ => hmem
  · exact fun _ _ _ _ _ _ => hmem
  · exact fun _ _ j p _ hj hp => hnone j p hj hp
  · intro _ _ hcl
    simp [hphase] at hcl
  · rintro _ ⟨j, p, -, hj, hp, hl, hcl⟩
    exact absurd ⟨hl, by rw [hcl]; rfl⟩ (hnone j p hj hp)
  · intro hv hne
    rw [hmade] at hne
    rcases hx.named _ hm (hof hv) hne with h | h
    · simp [hold] at h
    · exact .inr (hdb h)
  · intro hv
    rw [hmade]
    exact hx.once _ hm (hof hv)
  · intro hv hne j p hnj hj hp
    rw [hmade] at hne
    by_contra hpz
    exact hnj (hx.pair j i p _ hj hi hp (hof hv) hpz hne)

/-- A step of the delivery that has the lock, on to a phase in which nothing of its own is
unwritten; nobody else can be about to instantiate. -/
private theorem fits_holder (hx : Single v ⟨s, tasks⟩)
    (hi : tasks[i]? = some ⟨data, log, .call c k⟩) (hkept : Kept v new)
    (hold : (phase log).holding = true) (hv : vmIdOf data = some v)
    (hmem : Holds new → v ∈ s'.locks)
    (hcleared : phase new.log = .cleared →
      madeIn new.log = 0 ∧ ∀ (j : Nat) (p : Delivery), j ≠ i → tasks[j]? = some p → Of v p →
        madeIn p.log = 0)
    (hnamed : madeIn new.log ≠ 0 → phase new.log = .made ∨ Assigned v s')
    (honce : madeIn new.log ≤ 1)
    (hpair : madeIn new.log ≠ 0 →
      ∀ (j : Nat) (p : Delivery), j ≠ i → tasks[j]? = some p → Of v p → madeIn p.log = 0) :
    Fits v s' i tasks new := by
  have hself : Holds ⟨data, log, .call c k⟩ := ⟨⟨c, k, rfl⟩, hold⟩
  have hnone : ∀ (j : Nat) (p : Delivery), j ≠ i → tasks[j]? = some p → Of v p → ¬ Holds p := by
    intro j p hne hj hp hh
    exact hne (hx.alone j i p _ hj hi hp hv hh hself)
  constructor
  · exact hkept
  · exact fun _ hh => hmem hh
  · intro j p hne hj hp hh
    exact absurd hh (hnone j p hne hj hp)
  · exact fun _ _ j p hne hj hp => hnone j p hne hj hp
  · exact fun _ _ hcl => hcleared hcl
  · rintro _ ⟨j, p, hne, hj, hp, hl, hcl⟩
    exact absurd ⟨hl, by rw [hcl]; rfl⟩ (hnone j p hne hj hp)
  · exact fun _ hne => hnamed hne
  · exact fun _ => honce
  · exact fun _ hne => hpair hne

private theorem isMade_neutral (h : Neutral c) : isMade ⟨c, r⟩ = false := by
  cases c <;> first | rfl | exact h.elim

private theorem none_made (hx : Single v ⟨s, tasks⟩)
    (hi : tasks[i]? = some ⟨data, log, .call c k⟩) (hv : vmIdOf data = some v)
    (hlocked : phase log = .locked)
    (hfree : Assigned v s → ∀ task ∈ tasks, Of v task → madeIn task.log = 0) :
    ∀ task ∈ tasks, Of v task → madeIn task.log = 0 := by
  intro task hm htask
  by_contra hne
  rcases hx.named task hm htask hne with hmade | ha
  · obtain ⟨j, hj⟩ := List.mem_iff_getElem?.mp hm
    have hholds : Holds task := ⟨(hx.kept task hm).live htask hmade, by rw [hmade]; rfl⟩
    have hself : Holds ⟨data, log, .call c k⟩ := ⟨⟨c, k, rfl⟩, by simp only [hlocked]; rfl⟩
    obtain rfl := hx.alone j i task _ hj hi htask hv hholds hself
    rw [hi] at hj
    cases hj
    simp [hlocked] at hmade
  · exact hne (hfree ha task hm htask)

private theorem fits_cleared {r : Except Failure (Option Int)}
    {k : Except Failure (Option Int) → VmProcess Unit} (hx : Single v ⟨s, tasks⟩)
    (hi : tasks[i]? = some ⟨data, log, .call (VmCall.selectOneVmId v) k⟩)
    (hkept : Kept v ⟨data, log ++ [⟨VmCall.selectOneVmId v, r⟩], k r⟩) (hv : vmIdOf data = some v)
    (hlocked : phase log = .locked)
    (hfree : Assigned v s → ∀ task ∈ tasks, Of v task → madeIn task.log = 0) :
    Fits v s i tasks ⟨data, log ++ [⟨VmCall.selectOneVmId v, r⟩], k r⟩ := by
  have hm := List.mem_of_getElem? hi
  have hzero := none_made hx hi hv hlocked hfree
  have hmade : madeIn (log ++ [⟨VmCall.selectOneVmId v, r⟩]) = 0 := by
    rw [madeIn_snoc, hzero _ hm hv]
    rfl
  have hself : (phase log).holding = true := by
    rw [hlocked]
    rfl
  apply fits_holder hx hi hkept hself hv
  · intro _
    exact hx.lock _ hm hv ⟨⟨_, _, rfl⟩, hself⟩
  · intro _
    exact ⟨hmade, fun j p _ hj hp => hzero p (List.mem_of_getElem? hj) hp⟩
  · exact fun hne => absurd hmade hne
  · simp only [hmade]
    omega
  · exact fun hne => absurd hmade hne

private theorem fits_made {templateId oneVmId : Int} {name extra : String}
    {k : Except Failure Int → VmProcess Unit} (hx : Single v ⟨s, tasks⟩)
    (hi : tasks[i]? = some ⟨data, log, .call (VmCall.templateInstantiate templateId name extra) k⟩)
    (hkept : Kept v ⟨data, log ++ [⟨VmCall.templateInstantiate templateId name extra, .ok oneVmId⟩],
      k (.ok oneVmId)⟩) (hv : vmIdOf data = some v) (hcleared : phase log = .cleared)
    (hlocks : s'.locks = s.locks) :
    Fits v s' i tasks ⟨data, log ++ [⟨VmCall.templateInstantiate templateId name extra, .ok oneVmId⟩],
      k (.ok oneVmId)⟩ := by
  have hm := List.mem_of_getElem? hi
  have hself : (phase log).holding = true := by
    rw [hcleared]
    rfl
  have hzero := hx.cleared _ hm hv ⟨_, _, rfl⟩ hcleared
  have hmade : phase (log ++ [⟨VmCall.templateInstantiate templateId name extra, .ok oneVmId⟩]) =
      .made := by
    rw [phase_snoc]
    rfl
  have hone : madeIn (log ++ [⟨VmCall.templateInstantiate templateId name extra, .ok oneVmId⟩]) =
      1 := by
    rw [madeIn_snoc, hzero _ hm hv]
    rfl
  apply fits_holder hx hi hkept hself hv
  · intro _
    rw [hlocks]
    exact hx.lock _ hm hv ⟨⟨_, _, rfl⟩, hself⟩
  · intro hcl
    rw [hmade] at hcl
    cases hcl
  · exact fun _ => .inl hmade
  · exact hone.le
  · exact fun _ j p _ hj hp => hzero p (List.mem_of_getElem? hj) hp

private theorem fits_saved {w : StatusWrite} {r : Except Failure Unit}
    {k : Except Failure Unit → VmProcess Unit} (hx : Single v ⟨s, tasks⟩)
    (hi : tasks[i]? = some ⟨data, log, .call (VmCall.updateVmStatus w) k⟩)
    (hkept : Kept v ⟨data, log ++ [⟨VmCall.updateVmStatus w, r⟩], k r⟩) (hv : vmIdOf data = some v)
    (hmade : phase log = .made) (hsome : w.oneVmId.isSome = true) (hlocks : s'.locks = s.locks)
    (hassigned : Assigned v s') :
    Fits v s' i tasks ⟨data, log ++ [⟨VmCall.updateVmStatus w, r⟩], k r⟩ := by
  have hm := List.mem_of_getElem? hi
  have hself : (phase log).holding = true := by
    rw [hmade]
    rfl
  have hcount : madeIn (log ++ [⟨VmCall.updateVmStatus w, r⟩]) = madeIn log := by simp [isMade]
  apply fits_holder hx hi hkept hself hv
  · intro _
    rw [hlocks]
    exact hx.lock _ hm hv ⟨⟨_, _, rfl⟩, hself⟩
  · intro hcl
    simp [Phase.next, hsome] at hcl
  · exact fun _ => .inr hassigned
  · rw [hcount]
    exact hx.once _ hm hv
  · intro hne j p hnj hj hp
    rw [hcount] at hne
    by_contra hpz
    exact hnj (hx.pair j i p _ hj hi hp hv hpz hne)

private theorem fits_released {u : String} {r : Except Failure Unit}
    {k : Except Failure Unit → VmProcess Unit} (hx : Single v ⟨s, tasks⟩)
    (hi : tasks[i]? = some ⟨data, log, .call (VmCall.releaseCreateLock u) k⟩)
    (hkept : Kept v ⟨data, log ++ [⟨VmCall.releaseCreateLock u, r⟩], k r⟩)
    (hv : vmIdOf data = some v) (hsettled : (phase log).settled = true)
    (ha : Assigned v s → Assigned v s') :
    Fits v s' i tasks ⟨data, log ++ [⟨VmCall.releaseCreateLock u, r⟩], k r⟩ := by
  have hm := List.mem_of_getElem? hi
  have hself : (phase log).holding = true := by
    cases hph : phase log <;> rw [hph] at hsettled <;> first | rfl | cases hsettled
  have hcount : madeIn (log ++ [⟨VmCall.releaseCreateLock u, r⟩]) = madeIn log := by simp [isMade]
  apply fits_holder hx hi hkept hself hv
  · intro hh
    have hph : (phase (log ++ [⟨VmCall.releaseCreateLock u, r⟩])).holding = true := hh.2
    simp [Phase.next, Phase.holding] at hph
  · intro hcl
    simp [Phase.next] at hcl
  · intro hne
    rw [hcount] at hne
    rcases hx.named _ hm hv hne with h | h
    · rw [h] at hsettled
      cases hsettled
    · exact .inr (ha h)
  · rw [hcount]
    exact hx.once _ hm hv
  · intro hne j p hnj hj hp
    rw [hcount] at hne
    by_contra hpz
    exact hnj (hx.pair j i p _ hj hi hp hv hpz hne)

theorem single_act (hx : Single v ⟨s, tasks⟩) (hi : tasks[i]? = some ⟨data, log, .call c k⟩)
    (he : worldEffect env c s r s')
    (ho : Orderly v ⟨s, tasks⟩ (.act i c r) ⟨s', tasks.set i ⟨data, log ++ [⟨c, r⟩], k r⟩⟩) :
    Single v ⟨s', tasks.set i ⟨data, log ++ [⟨c, r⟩], k r⟩⟩ := by
  have hm := List.mem_of_getElem? hi
  have hdoes : Does data (.call c k) (fun _ log => Ended log) log := by
    rcases hx.kept _ hm with h | ⟨e, h, -⟩
    · exact h
    · cases h
  have hp : Permitted data log c := hdoes.1
  have hkept : Kept v ⟨data, log ++ [⟨c, r⟩], k r⟩ := .inl (hdoes.2 r _ ⟨trivial, rfl⟩)
  have ha : Assigned v s → Assigned v s' := assigned_effect he
  apply hx.set _ ha
  by_cases hv : vmIdOf data = some v
  case neg =>
    apply hx.fits_same hi hkept rfl (fun _ => ⟨c, k, rfl⟩) _ (locks_of_other hv hp he) ha
    intro h
    exact absurd h hv
  -- a call that moves neither the phase nor the count
  have hsame : (v ∈ s.locks → v ∈ s'.locks) → (phase log).next ⟨c, r⟩ = phase log →
      isMade ⟨c, r⟩ = false → Fits v s' i tasks ⟨data, log ++ [⟨c, r⟩], k r⟩ := by
    intro hlocks hphase hmade
    apply hx.fits_same hi hkept rfl (fun _ => ⟨c, k, rfl⟩) _ hlocks ha
    intro _
    simp only [phase_snoc, madeIn_snoc, hphase, hmade]
    simp
  have hneutral : Neutral c → ¬ AboutLock c → Fits v s' i tasks ⟨data, log ++ [⟨c, r⟩], k r⟩ := by
    intro hc hl
    apply hsame _ (next_neutral hc _ _) (isMade_neutral hc)
    rw [locks_effect hl he]
    exact id
  cases c
  case acquireCreateLock u =>
    obtain ⟨hu, houtside⟩ := hp.acquires u rfl
    obtain rfl : u = v := by simpa [hv] using hu.symm
    rcases he with ⟨rfl, hfree, rfl⟩ | ⟨rfl, -, rfl⟩ | ⟨e, rfl, hs'⟩
    · exact fits_acquired hx hi hkept hfree (by simp) ha rfl houtside
        (by simp [Phase.next]) (by simp [isMade])
    · exact hsame id rfl rfl
    · apply hsame _ rfl rfl
      rcases hs' with rfl | rfl
      · exact id
      · exact List.mem_cons_of_mem _
  case selectOneVmId u =>
    obtain ⟨hu, hlocked⟩ := hp.looks u rfl
    obtain rfl : u = v := by simpa [hv] using hu.symm
    obtain ⟨rfl, hr⟩ := he
    by_cases hfound : ∃ n, r = .ok (some n)
    · obtain ⟨n, rfl⟩ := hfound
      exact hsame id rfl rfl
    apply fits_cleared hx hi hkept hv hlocked
    rintro ⟨row, hrow, hn⟩
    rcases hr with rfl | ⟨e, rfl⟩
    · obtain ⟨n, hn⟩ := Option.ne_none_iff_exists'.mp hn
      exact absurd ⟨n, by simp [hrow, hn]⟩ hfound
    · exact ho.looks i e rfl
  case templateInstantiate t n e =>
    have hcleared := hp.makes t n e rfl
    obtain rfl := he
    rcases r with e' | oneVmId
    · exact hsame id rfl rfl
    exact fits_made hx hi hkept hv hcleared rfl
  case updateVmStatus w =>
    obtain ⟨hw, hsaves⟩ := hp.saves w rfl
    have hl : s'.locks = s.locks := locks_effect (by simp [AboutLock]) he
    by_cases hsome : w.oneVmId.isSome = true
    case neg =>
      apply hsame _ _ rfl
      · rw [hl]
        exact id
      · simp [Phase.next, hsome]
    have hmade := hsaves.mp hsome
    have hwv : w.vmId = v := by simpa [hv] using hw.symm
    have hassigned : Assigned v s' := by
      obtain ⟨hrow, now, hs'⟩ := ho.saves i w r rfl hwv hsome
      obtain ⟨row, hrow⟩ := Option.isSome_iff_exists.mp hrow
      refine ⟨rowUpdate now (.updateVmStatus w) row, ?_, ?_⟩
      · simp only at hs'
        simp only [hs', World.written, Table.find?_modify, hrow, Option.map_some, if_true]
      · obtain ⟨-, hid⟩ := s.db.vms.find?_eq_some.mp hrow
        obtain ⟨n, hn⟩ := Option.isSome_iff_exists.mp hsome
        simp [rowUpdate, hid, hwv, StatusWrite.apply, hn]
    exact fits_saved hx hi hkept hv hmade hsome hl hassigned
  case releaseCreateLock u =>
    exact fits_released hx hi hkept hv (hp.releases u rfl).2 ha
  all_goals exact hneutral trivial id

private theorem single_begin (hx : Single v ⟨s, tasks⟩) (data : Dict) (cfg : WorkerConfig) :
    Single v ⟨s, tasks ++ [⟨data, [], handleVmCreate cfg data⟩]⟩ := by
  have hcases : ∀ task ∈ tasks ++ [⟨data, [], handleVmCreate cfg data⟩],
      task ∈ tasks ∨ task = ⟨data, [], handleVmCreate cfg data⟩ := by
    intro task hm
    simpa using hm
  have hnew : ¬ Holds ⟨data, [], handleVmCreate cfg data⟩ := by
    intro h
    have hph := h.2
    simp [Phase.holding] at hph
  constructor
  · intro task hm
    rcases hcases task hm with hm | rfl
    · exact hx.kept task hm
    · exact .inl (handleVmCreate_does cfg data)
  · intro task hm hv hh
    rcases hcases task hm with hm | rfl
    · exact hx.lock task hm hv hh
    · exact absurd hh hnew
  · intro j k p q hj hk hp hq hhp hhq
    rcases getElem?_append_cases hj with ⟨-, rfl⟩ | hj
    · exact absurd hhp hnew
    rcases getElem?_append_cases hk with ⟨-, rfl⟩ | hk
    · exact absurd hhq hnew
    exact hx.alone j k p q hj hk hp hq hhp hhq
  · intro task hm hv hlive hcl p hp hpv
    rcases hcases task hm with hm | rfl
    · rcases hcases p hp with hp | rfl
      · exact hx.cleared task hm hv hlive hcl p hp hpv
      · rfl
    · cases hcl
  · intro task hm hv hmade
    rcases hcases task hm with hm | rfl
    · exact hx.named task hm hv hmade
    · exact absurd rfl hmade
  · intro task hm hv
    rcases hcases task hm with hm | rfl
    · exact hx.once task hm hv
    · exact Nat.zero_le 1
  · intro j k p q hj hk hp hq hmp hmq
    rcases getElem?_append_cases hj with ⟨-, rfl⟩ | hj
    · exact absurd rfl hmp
    rcases getElem?_append_cases hk with ⟨-, rfl⟩ | hk
    · exact absurd rfl hmq
    exact hx.pair j k p q hj hk hp hq hmp hmq

private theorem single_crash (hx : Single v ⟨s, tasks⟩) {task : Delivery} (e : Failure)
    (hi : tasks[i]? = some task) (hl : task.Live)
    (ho : Orderly v ⟨s, tasks⟩ .crash ⟨s, tasks.set i { task with rest := .raise e }⟩) :
    Single v ⟨s, tasks.set i { task with rest := .raise e }⟩ := by
  have hlt : i < tasks.length := (List.getElem?_eq_some_iff.mp hi).1
  have hkept : Kept v { task with rest := .raise e } := by
    refine .inr ⟨e, rfl, fun hv hmade => ?_⟩
    have hstays := ho.crashes rfl i task hi hv hmade
    rw [List.getElem?_set_self hlt] at hstays
    obtain ⟨c, k, hrest⟩ := hl
    have heq := congrArg Task.rest (Option.some.inj hstays)
    rw [hrest] at heq
    cases heq
  exact hx.set (hx.fits_same hi hkept rfl (fun _ => hl) (fun _ => ⟨rfl, rfl⟩) id id) id

private theorem single_change (hx : Single v ⟨s, tasks⟩) (hc : (deliveries env).change s s')
    (ho : Orderly v ⟨s, tasks⟩ .change ⟨s', tasks⟩) : Single v ⟨s', tasks⟩ := by
  have ha : Assigned v s → Assigned v s' := by
    rcases hc with ⟨c, r, -, he⟩ | ⟨vmId, rfl⟩ | ⟨hdb, -⟩
    · exact assigned_effect he
    · exact id
    · rintro ⟨row, hrow, hn⟩
      exact ⟨row, by rw [hdb]; exact hrow, hn⟩
  constructor
  · exact hx.kept
  · intro task hm hv hh
    exact ho.timely rfl ⟨task, hm, hv, hh⟩ (hx.lock task hm hv hh)
  · exact hx.alone
  · exact hx.cleared
  · intro task hm hv hmade
    exact (hx.named task hm hv hmade).imp_right ha
  · exact hx.once
  · exact hx.pair

private theorem single_step (x : Deliveries) (l : StageLabel vmInterface Dict) (y : Deliveries)
    (hx : Single v x) (h : (deliveries env).Step x l y ∧ Orderly v x l y) : Single v y := by
  obtain ⟨h, ho⟩ := h
  cases h with
  | begin data => exact single_begin hx data env.cfg
  | act ht he => exact single_act hx ht he ho
  | crash e ht hl => exact single_crash hx e ht hl ho
  | change hc => exact single_change hx hc ho

private theorem sum_le_one {τ : Type} (f : τ → Nat) (xs : List τ) (hle : ∀ x ∈ xs, f x ≤ 1)
    (hpair : ∀ (i j : Nat) (p q : τ), xs[i]? = some p → xs[j]? = some q → f p ≠ 0 → f q ≠ 0 → i = j) :
    (xs.map f).sum ≤ 1 := by
  induction xs with
  | nil => simp
  | cons x xs ih =>
    have htail : (xs.map f).sum ≤ 1 := by
      apply ih
      · intro y hy
        exact hle y (List.mem_cons_of_mem x hy)
      · intro i j p q hi hj hp hq
        have h := hpair (i + 1) (j + 1) p q hi hj hp hq
        omega
    by_cases hx : f x = 0
    · rw [List.map_cons, List.sum_cons, hx]
      omega
    · have hzero : (xs.map f).sum = 0 := by
        apply List.sum_eq_zero_iff_forall_eq_nat.mpr
        intro n hn
        obtain ⟨y, hy, rfl⟩ := List.mem_map.mp hn
        obtain ⟨j, hj⟩ := List.mem_iff_getElem?.mp hy
        by_contra hne
        have h := hpair 0 (j + 1) x y rfl hj hx hne
        omega
      have hone := hle x List.mem_cons_self
      rw [List.map_cons, List.sum_cons, hzero]
      omega

private theorem Single.machines_le {x : Deliveries} (hx : Single v x) : machines v x ≤ 1 := by
  apply sum_le_one
  · intro task hm
    by_cases hv : Of v task
    · rw [if_pos hv]
      exact hx.once task hm hv
    · rw [if_neg hv]
      omega
  · intro i j p q hi hj hp hq
    have hpv : Of v p := by
      by_contra h
      simp [h] at hp
    have hqv : Of v q := by
      by_contra h
      simp [h] at hq
    rw [if_pos hpv] at hp
    rw [if_pos hqv] at hq
    exact hx.pair i j p q hi hj hpv hqv hp hq

end Invariant

/-- In every interleaving of any number of deliveries, on any tables, in which every step is
orderly, `template.instantiate` succeeds at most once for each record. -/
theorem at_most_one_machine (env : Env) (v : String) (w : World)
    {trace : List (StageLabel vmInterface Dict × Deliveries)} {y : Deliveries}
    (h : Run (fun x l y => (deliveries env).Step x l y ∧ Orderly v x l y) ⟨w, []⟩ trace y) :
    machines v y ≤ 1 := by
  have hinit : Single v ⟨w, []⟩ := by
    constructor <;> simp
  exact (h.invariant hinit single_step).machines_le

section Sample

private def onceEnv : Env where
  cfg := { lower := id, asciiFold := id }
  uuid s := isUuidText s = true

private def onceId : String := "0b0e3c1a-5d2f-4f6a-9c3e-1a2b3c4d5e6f"

private def onceUser : String := "7f1d6c1e-3a52-4c8b-9d07-5b1f0e2a6c34"

private def onceVm : VmRow := .sample onceId onceUser

private def onceMessage : Dict :=
  [("vmId", .str onceId), ("name", .str "web-1"), ("cpu", .int 2), ("ramMb", .int 2048),
    ("diskGb", .int 20), ("osTemplate", .str "Ubuntu 24.04"), ("userId", .str onceUser)]

private def onceTemplate : OneTemplate := ⟨3, "Ubuntu 24.04", some "YES"⟩

private def onceWorld : World :=
  { World.initial ⟨Table.empty.insert onceVm (by simp), .empty⟩ with
    cache := some [onceTemplate] }

private def onceText : String :=
  extraTemplateBase 2 2048 [] ++ credsSnippet "cloudvm" none

private def onceWrite : StatusWrite := { vmId := onceId, status := .pending, oneVmId := some 7 }

/-- Steps in which only the database may fail: no lock runs out under its holder and no delivery
is cut off. -/
def FaultyStep (env : Env) (v : String) (x : Deliveries) (l : StageLabel vmInterface Dict)
    (y : Deliveries) : Prop :=
  (deliveries env).Step x l y ∧ Timely v x l y ∧ l ≠ .crash

private theorem faulty_begin (q : Dict) {s : World} {tasks : List Delivery} :
    FaultyStep onceEnv onceId ⟨s, tasks⟩ (.begin q)
      ⟨s, tasks ++ [⟨q, [], handleVmCreate onceEnv.cfg q⟩]⟩ :=
  ⟨.begin q, by simp [Timely], by simp⟩

private theorem faulty_act (i : Nat) (c : VmCall) (r : c.Answer) {s s' : World}
    {tasks : List Delivery} {q : Dict} {log : VmLog} {k : c.Answer → VmProcess Unit}
    (ht : tasks[i]? = some ⟨q, log, .call c k⟩) (he : worldEffect onceEnv c s r s') :
    FaultyStep onceEnv onceId ⟨s, tasks⟩ (.act i c r)
      ⟨s', tasks.set i ⟨q, log ++ [⟨c, r⟩], k r⟩⟩ :=
  ⟨.act ht he, by simp [Timely], by simp⟩

private theorem failed_lookup_run :
    Reaches (FaultyStep onceEnv onceId) ⟨onceWorld, []⟩ fun y => machines onceId y = 2 := by
  apply Reaches.next (faulty_begin onceMessage)
  apply Reaches.next (faulty_act 0 (.acquireCreateLock onceId) (.ok true) rfl
    (.inl ⟨rfl, by decide, rfl⟩))
  apply Reaches.next (faulty_act 0 (.selectOneVmId onceId) (.ok none) rfl ⟨rfl, .inl rfl⟩)
  apply Reaches.next (faulty_act 0 .readTemplateCache (some [onceTemplate]) rfl ⟨rfl, rfl⟩)
  apply Reaches.next (faulty_act 0 .readTemplateCache (some [onceTemplate]) rfl ⟨rfl, rfl⟩)
  apply Reaches.next (faulty_act 0 (.selectUserSshKeys onceUser) (.ok []) rfl rfl)
  apply Reaches.next (faulty_act 0 .templatePoolInfo (.ok []) rfl rfl)
  apply Reaches.next (faulty_act 0 (.templateInstantiate 3 "web-1" onceText) (.ok 7) rfl rfl)
  apply Reaches.next (faulty_act 0 (.oneVmInfo 7) (.ok {}) rfl rfl)
  apply Reaches.next (faulty_act 0 (.updateVmStatus onceWrite) (.ok ()) rfl
    ⟨1, .inl ⟨(), trivial, rfl, rfl⟩⟩)
  apply Reaches.next (faulty_act 0
    (.publishStatus { vmId := onceId, status := .row .pending, oneVmId := some 7 }) (.ok ()) rfl
    (.inr rfl))
  apply Reaches.next (faulty_act 0 (.createTask
    { vmId := onceId, oneVmId := 7, sshUsername := some "cloudvm", diskGb := some 20 }) () rfl rfl)
  apply Reaches.next (faulty_act 0 (.releaseCreateLock onceId) (.ok ()) rfl (.inr rfl))
  apply Reaches.next (faulty_begin onceMessage)
  apply Reaches.next (faulty_act 1 (.acquireCreateLock onceId) (.ok true) rfl
    (.inl ⟨rfl, by decide, rfl⟩))
  apply Reaches.next (faulty_act 1 (.selectOneVmId onceId) (.error ⟨.database, "connection lost"⟩)
    rfl ⟨rfl, .inr ⟨_, rfl⟩⟩)
  apply Reaches.next (faulty_act 1 .readTemplateCache (some [onceTemplate]) rfl ⟨rfl, rfl⟩)
  apply Reaches.next (faulty_act 1 .readTemplateCache (some [onceTemplate]) rfl ⟨rfl, rfl⟩)
  apply Reaches.next (faulty_act 1 (.selectUserSshKeys onceUser) (.ok []) rfl rfl)
  apply Reaches.next (faulty_act 1 .templatePoolInfo (.ok []) rfl rfl)
  apply Reaches.next (faulty_act 1 (.templateInstantiate 3 "web-1" onceText) (.ok 8) rfl rfl)
  exact .here rfl

/-- With the lock in order and nothing cut off, one failing read is enough for two machines. -/
theorem failed_lookup_makes_two :
    ¬ ∀ (env : Env) (v : String) (w : World)
        (trace : List (StageLabel vmInterface Dict × Deliveries)) (y : Deliveries),
        Run (FaultyStep env v) ⟨w, []⟩ trace y → machines v y ≤ 1 := by
  intro h
  obtain ⟨trace, y, hrun, hy⟩ := failed_lookup_run
  have hle := h onceEnv onceId onceWorld trace y hrun
  omega

private theorem orderly_act (i : Nat) (c : VmCall) (r : c.Answer) {s s' : World}
    {tasks : List Delivery} {q : Dict} {log : VmLog} {k : c.Answer → VmProcess Unit}
    (ht : tasks[i]? = some ⟨q, log, .call c k⟩) (he : worldEffect onceEnv c s r s')
    (hr : ∀ e, (⟨c, r⟩ : Event vmInterface) ≠ ⟨VmCall.selectOneVmId onceId, .error e⟩)
    (hc : ∀ w, c ≠ .updateVmStatus w) :
    (deliveries onceEnv).Step ⟨s, tasks⟩ (.act i c r) ⟨s', tasks.set i ⟨q, log ++ [⟨c, r⟩], k r⟩⟩ ∧
      Orderly onceId ⟨s, tasks⟩ (.act i c r) ⟨s', tasks.set i ⟨q, log ++ [⟨c, r⟩], k r⟩⟩ := by
  refine ⟨.act ht he, by simp [Timely], ?_, ?_, by simp⟩
  · intro j e h
    simp only [StageLabel.act.injEq] at h
    exact absurd (Sigma.ext h.2.1 h.2.2) (hr e)
  · intro j w r' h
    simp only [StageLabel.act.injEq] at h
    exact absurd h.2.1 (hc w)

private theorem orderly_saved {s : World} {tasks : List Delivery} {q : Dict} {log : VmLog}
    {k : Except Failure Unit → VmProcess Unit}
    (ht : tasks[0]? = some ⟨q, log, .call (.updateVmStatus onceWrite) k⟩)
    (hrow : (s.db.vms.find? onceId).isSome) :
    (deliveries onceEnv).Step ⟨s, tasks⟩ (.act 0 (VmCall.updateVmStatus onceWrite) (.ok ()))
        ⟨s.written (.updateVmStatus onceWrite) 1,
          tasks.set 0 ⟨q, log ++ [⟨VmCall.updateVmStatus onceWrite, .ok ()⟩], k (.ok ())⟩⟩ ∧
      Orderly onceId ⟨s, tasks⟩ (.act 0 (VmCall.updateVmStatus onceWrite) (.ok ()))
        ⟨s.written (.updateVmStatus onceWrite) 1,
          tasks.set 0 ⟨q, log ++ [⟨VmCall.updateVmStatus onceWrite, .ok ()⟩], k (.ok ())⟩⟩ := by
  refine ⟨.act ht ⟨1, .inl ⟨(), trivial, rfl, rfl⟩⟩, by simp [Timely], by simp, ?_, by simp⟩
  intro j w r h _ _
  simp only [StageLabel.act.injEq] at h
  obtain rfl := VmCall.updateVmStatus.inj h.2.1
  exact ⟨hrow, 1, rfl⟩

private theorem redelivered_run :
    Reaches (fun x l y => (deliveries onceEnv).Step x l y ∧ Orderly onceId x l y)
      ⟨onceWorld, []⟩ fun y => machines onceId y = 1 ∧ y.tasks.length = 3 ∧
        ∀ task ∈ y.tasks, task.rest = .ret () := by
  apply Reaches.next ⟨.begin onceMessage, by simp [Timely], by simp, by simp, by simp⟩
  apply Reaches.next (orderly_act 0 (.acquireCreateLock onceId) (.ok true) rfl
    (.inl ⟨rfl, by decide, rfl⟩) (by simp) (by simp))
  apply Reaches.next ⟨.begin onceMessage, by simp [Timely], by simp, by simp, by simp⟩
  apply Reaches.next (orderly_act 1 (.acquireCreateLock onceId) (.ok false) rfl
    (.inr (.inl ⟨rfl, by decide, rfl⟩)) (by simp) (by simp))
  apply Reaches.next (orderly_act 1 .ack () rfl rfl (by simp) (by simp))
  apply Reaches.next (orderly_act 0 (.selectOneVmId onceId) (.ok none) rfl ⟨rfl, .inl rfl⟩
    (by simp) (by simp))
  apply Reaches.next (orderly_act 0 .readTemplateCache (some [onceTemplate]) rfl ⟨rfl, rfl⟩
    (by simp) (by simp))
  apply Reaches.next (orderly_act 0 .readTemplateCache (some [onceTemplate]) rfl ⟨rfl, rfl⟩
    (by simp) (by simp))
  apply Reaches.next (orderly_act 0 (.selectUserSshKeys onceUser) (.ok []) rfl rfl
    (by simp) (by simp))
  apply Reaches.next (orderly_act 0 .templatePoolInfo (.ok []) rfl rfl (by simp) (by simp))
  apply Reaches.next (orderly_act 0 (.templateInstantiate 3 "web-1" onceText) (.ok 7) rfl rfl
    (by simp) (by simp))
  apply Reaches.next (orderly_act 0 (.oneVmInfo 7) (.ok {}) rfl rfl (by simp) (by simp))
  apply Reaches.next (orderly_saved rfl (by decide))
  apply Reaches.next (orderly_act 0
    (.publishStatus { vmId := onceId, status := .row .pending, oneVmId := some 7 }) (.ok ()) rfl
    (.inr rfl) (by simp) (by simp))
  apply Reaches.next (orderly_act 0 (.createTask
    { vmId := onceId, oneVmId := 7, sshUsername := some "cloudvm", diskGb := some 20 }) () rfl rfl
    (by simp) (by simp))
  apply Reaches.next (orderly_act 0 (.releaseCreateLock onceId) (.ok ()) rfl (.inr rfl)
    (by simp) (by simp))
  apply Reaches.next (orderly_act 0 .ack () rfl rfl (by simp) (by simp))
  apply Reaches.next ⟨.begin onceMessage, by simp [Timely], by simp, by simp, by simp⟩
  apply Reaches.next (orderly_act 2 (.acquireCreateLock onceId) (.ok true) rfl
    (.inl ⟨rfl, by decide, rfl⟩) (by simp) (by simp))
  apply Reaches.next (orderly_act 2 (.selectOneVmId onceId) (.ok (some 7)) rfl ⟨rfl, .inl rfl⟩
    (by simp) (by simp))
  apply Reaches.next (orderly_act 2
    (.createTask { vmId := onceId, oneVmId := 7, sshUsername := some "cloudvm" }) () rfl rfl
    (by simp) (by simp))
  apply Reaches.next (orderly_act 2 (.releaseCreateLock onceId) (.ok ()) rfl (.inr rfl)
    (by simp) (by simp))
  apply Reaches.next (orderly_act 2 .ack () rfl rfl (by simp) (by simp))
  exact .here ⟨rfl, rfl, List.forall_mem_cons.mpr ⟨rfl, List.forall_mem_cons.mpr
    ⟨rfl, List.forall_mem_singleton.mpr rfl⟩⟩⟩

/-- Three deliveries that all end well, and one machine. -/
theorem at_most_one_machine_delivered : ∃ trace y,
    Run (fun x l y => (deliveries onceEnv).Step x l y ∧ Orderly onceId x l y) ⟨onceWorld, []⟩ trace y ∧
      (machines onceId y = 1 ∧ y.tasks.length = 3 ∧ ∀ task ∈ y.tasks, task.rest = .ret ()) ∧
      machines onceId y ≤ 1 := by
  obtain ⟨trace, y, hrun, hy⟩ := redelivered_run
  exact ⟨trace, y, hrun, hy, at_most_one_machine onceEnv onceId onceWorld hrun⟩

end Sample

end CloudVM.Plane.Once
