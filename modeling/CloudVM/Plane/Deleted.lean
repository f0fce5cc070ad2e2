import CloudVM.Plane.Sound

/-!
# When a deleted VM stays deleted

The writers of `virtual_machines` update by id, whatever status the row has. A row that a step
marks `DELETED` keeps that status if nothing else is at work on the VM at that moment and the
news of the deletion gets through.
-/

namespace CloudVM.Plane

open VmService Worker Process

section Rows

def Deleted (w : World) (v : String) : Prop :=
  ∃ r ∈ w.db.vms.rows, r.id = v ∧ r.status = .deleted

instance (w : World) (v : String) : Decidable (Deleted w v) :=
  inferInstanceAs (Decidable (∃ r ∈ w.db.vms.rows, r.id = v ∧ r.status = .deleted))

private theorem rowUpdate_keeps_deleted {now : Nat} {c : VmCall} {r : VmRow}
    (ht : ¬ Touches r.id c) (hr : r.status = .deleted) : (rowUpdate now c r).status = .deleted := by
  cases c <;> simp only [rowUpdate]
  case updateVmStatus u =>
    split
    · rename_i hid
      by_contra hs
      exact ht ⟨hid.symm, hs⟩
    · exact hr
  case patchStatus vmId p =>
    split
    · rename_i hid
      by_contra hs
      exact ht ⟨hid.symm, hs⟩
    · exact hr
  case deleteVmRecord | markDeleted =>
    split
    · rfl
    · exact hr
  case stampStopped => split <;> exact hr
  all_goals exact hr

private theorem marks_of_rowUpdate {now : Nat} {c : VmCall} {r : VmRow} (hr : r.status ≠ .deleted)
    (hu : (rowUpdate now c r).status = .deleted) : MarksDeleted r.id c := by
  cases c <;> simp only [rowUpdate] at hu
  case updateVmStatus u =>
    split at hu
    · rename_i hid
      exact ⟨hid.symm, hu⟩
    · exact absurd hu hr
  case patchStatus vmId p =>
    split at hu
    · rename_i hid
      exact ⟨hid.symm, hu⟩
    · exact absurd hu hr
  case deleteVmRecord vmId =>
    split at hu
    · rename_i hid
      exact hid.symm
    · exact absurd hu hr
  case markDeleted vmId =>
    split at hu
    · rename_i hid
      exact hid.symm
    · exact absurd hu hr
  case stampStopped =>
    split at hu
    · exact absurd hu hr
    · exact absurd hu hr
  all_goals exact absurd hu hr

variable {env : Env} {c : VmCall} {w w' : World} {r : VmCall.Answer c} {v : String}

private theorem deleted_stays (he : worldEffect env c w r w') (ht : ¬ Touches v c)
    (hd : Deleted w v) : Deleted w' v := by
  obtain ⟨row, hrow, hid, hs⟩ := hd
  rcases worldEffect_vms he with heq | ⟨now, rfl⟩ | ⟨tx, newId, now, -, -, -, hrows⟩
  · exact ⟨row, heq ▸ hrow, hid, hs⟩
  · refine ⟨rowUpdate now c row, ?_, ?_, rowUpdate_keeps_deleted (hid ▸ ht) hs⟩
    · simp only [World.written, Table.rows_modify, if_true]
      exact List.mem_map_of_mem hrow
    · rw [rowUpdate_id, hid]
  · exact ⟨row, by rw [hrows]; exact List.mem_append_left _ hrow, hid, hs⟩

private theorem marks_of_deleted (he : worldEffect env c w r w') (hd : ¬ Deleted w v)
    (hd' : Deleted w' v) : MarksDeleted v c := by
  obtain ⟨row, hrow, hid, hs⟩ := hd'
  rcases worldEffect_vms he with heq | ⟨now, rfl⟩ | ⟨tx, newId, now, -, -, -, hrows⟩
  · exact absurd ⟨row, heq ▸ hrow, hid, hs⟩ hd
  · simp only [World.written, Table.rows_modify, if_true, List.mem_map] at hrow
    obtain ⟨old, hold, rfl⟩ := hrow
    rw [rowUpdate_id] at hid
    subst hid
    exact marks_of_rowUpdate (fun h => hd ⟨old, hold, rfl, h⟩) hs
  · rw [hrows] at hrow
    rcases List.mem_append.mp hrow with hrow | hrow
    · exact absurd ⟨row, hrow, hid, hs⟩ hd
    · rw [List.mem_singleton] at hrow
      subst hrow
      cases hs

end Rows

section Answers

variable {env : Env} {w w' : World} {v : String}

private theorem status_of_deleted (hd : Deleted w v) {row : VmRow} (hr : row ∈ w.db.vms.rows)
    (hid : row.id = v) : row.status = .deleted := by
  obtain ⟨row', hr', hid', hs⟩ := hd
  rw [w.db.vms.eq_of_key_eq hr hr' (hid.trans hid'.symm)]
  exact hs

private theorem activeRows_nodup (vms : VmTable) : ((activeRows vms).map ActiveVm.vmId).Nodup := by
  have hsub : ((activeRows vms).map ActiveVm.vmId).Sublist (vms.rows.map VmRow.id) := by
    unfold activeRows
    induction vms.rows with
    | nil => exact List.Sublist.refl _
    | cons row rows ih =>
      rw [List.filterMap_cons]
      split
      · exact ih.cons _
      · rename_i a ha
        split at ha
        · cases ha
        · obtain ⟨n, -, rfl⟩ := Option.map_eq_some_iff.mp ha
          exact ih.cons_cons _
  exact vms.nodup.sublist hsub

private theorem mem_activeRows {vms : VmTable} {a : ActiveVm} (ha : a ∈ activeRows vms) :
    ∃ row ∈ vms.rows, row.id = a.vmId ∧ row.status ≠ .deleted := by
  simp only [activeRows, List.mem_filterMap] at ha
  obtain ⟨row, hrow, hmap⟩ := ha
  split at hmap
  · cases hmap
  · rename_i hs
    obtain ⟨n, -, rfl⟩ := Option.map_eq_some_iff.mp hmap
    exact ⟨row, hrow, rfl, hs⟩

private theorem mem_pendingVms {vms : VmTable} {t : PollTask} (ht : t ∈ pendingVms vms) :
    ∃ row ∈ vms.rows, row.id = t.vmId ∧ row.status ≠ .deleted := by
  simp only [pendingVms, List.mem_filterMap] at ht
  obtain ⟨row, hrow, hmap⟩ := ht
  split at hmap
  · rename_i hs
    obtain ⟨n, -, rfl⟩ := Option.map_eq_some_iff.mp hmap
    refine ⟨row, hrow, rfl, ?_⟩
    rcases hs with hs | hs <;> simp [hs]
  · cases hmap

private theorem consistent_of_effect (c : VmCall) {r : VmCall.Answer c}
    (he : worldEffect env c w r w')
    (hnews : ∀ m, c = .publishStatus m → Deleted w v → m.vmId = v → m.status = .row .deleted →
      Confirmed c r) : Consistent v (decide (Deleted w v)) c r := by
  cases c
  case findVm vmId =>
    obtain ⟨-, rfl | ⟨e, rfl⟩⟩ := he
    · intro vm hvm
      obtain ⟨hrow, hid⟩ := (Table.find?_eq_some _).mp (Except.ok.inj hvm)
      exact ⟨hid, fun hd hv => status_of_deleted (of_decide_eq_true hd) hrow (hid.trans hv)⟩
    · intro vm hvm
      cases hvm
  case createVmTransaction tx =>
    intro vm hvm hd hv
    obtain ⟨row, hrow, hid, -⟩ := of_decide_eq_true hd
    rcases he with ⟨newId, now, vm', db, -, hbody, -, rfl | ⟨message, rfl⟩⟩ | ⟨e, rfl, -⟩
    · cases hvm
      obtain ⟨rfl, hfresh, -⟩ := createVmBody_ok hbody
      exact hfresh (List.mem_map.mpr ⟨row, hrow, hid.trans hv.symm⟩)
    · cases hvm
    · cases hvm
  case selectActiveVms =>
    obtain ⟨-, rfl | ⟨e, rfl⟩⟩ := he
    · intro vms hvms
      cases hvms
      refine ⟨activeRows_nodup _, fun hd a ha hv => ?_⟩
      obtain ⟨row, hrow, hid, hs⟩ := mem_activeRows ha
      exact hs (status_of_deleted (of_decide_eq_true hd) hrow (hid.trans hv))
    · intro vms hvms
      cases hvms
  case selectPendingVms =>
    obtain ⟨-, rfl | ⟨e, rfl⟩⟩ := he
    · intro tasks htasks hd t ht hv
      cases htasks
      obtain ⟨row, hrow, hid, hs⟩ := mem_pendingVms ht
      exact hs (status_of_deleted (of_decide_eq_true hd) hrow (hid.trans hv))
    · intro tasks htasks
      cases htasks
  case publishStatus m =>
    intro hd hv hs
    exact hnews m rfl (of_decide_eq_true hd) hv hs
  all_goals exact trivial

end Answers

section Runs

variable (v : String)

/-- Nothing but process `i` is still at work on `v`: no other process, no message in the stream,
no update on its way and no waiting task can give it another status than `DELETED`. -/
structure Quiet (i : Nat) (x : PlanePool) : Prop where
  procs : ∀ j p, j ≠ i → x.procs[j]? = some p → Sound v true p
  stream : ∀ m ∈ x.state.stream, ¬ Reviving v m.1 m.2
  updates : ∀ m ∈ x.state.updates, ¬ LiveUpdate v m
  tasks : ∀ t ∈ x.state.tasks, t.vmId ≠ v

variable {v}

/-- A step that makes a VM `DELETED` finds it quiet and is not reported as failed, and no news of
a deletion fails. -/
structure Careful (x : PlanePool) (l : PoolLabel vmInterface) (y : PlanePool) : Prop where
  deletes : ∀ i (c : VmCall) r v, l = .act i c r → ¬ Deleted x.state v → Deleted y.state v →
    Confirmed c r ∧ Quiet v i x
  informs : ∀ i (c : VmCall) r m, l = .act i c r → c = .publishStatus m → m.status = .row .deleted →
    Deleted x.state m.vmId → Confirmed c r

def CarefulStep (env : Env) (x : PlanePool) (l : PoolLabel vmInterface) (y : PlanePool) : Prop :=
  Pool.Step (plane env) x l y ∧ Careful x l y

/-- Everything that is under way is sound for `v`. -/
structure Guarded (v : String) (x : PlanePool) : Prop where
  procs : ∀ p ∈ x.procs, Sound v (decide (Deleted x.state v)) p
  stream : Deleted x.state v → ∀ m ∈ x.state.stream, ¬ Reviving v m.1 m.2
  updates : Deleted x.state v → ∀ m ∈ x.state.updates, ¬ LiveUpdate v m
  tasks : Deleted x.state v → ∀ t ∈ x.state.tasks, t.vmId ≠ v

private theorem guarded_initial (db : VmDb) : Guarded v ⟨World.initial db, []⟩ where
  procs := by simp
  stream _ := by simp [World.initial]
  updates _ := by simp [World.initial]
  tasks _ := by simp [World.initial]

variable {env : Env}

private theorem sound_of_start {w w' : World} {p : VmProcess Unit} {b : Bool}
    (hs : Starts env w p w') (hstream : b = true → ∀ m ∈ w.stream, ¬ Reviving v m.1 m.2)
    (hupdates : b = true → ∀ m ∈ w.updates, ¬ LiveUpdate v m)
    (htasks : b = true → ∀ t ∈ w.tasks, t.vmId ≠ v) : Sound v b p := by
  cases hs with
  | createVm dto userId role => exact (calm_createVm_request dto userId role).sound
  | vmAction vmId action userId role => exact (calm_vmAction_request vmId action userId role).sound
  | deleteVm vmId userId role => exact (calm_deleteVm_request vmId userId role).sound
  | redeliver hm => exact sound_handleMessage env.cfg fun hb => hstream hb _ hm
  | deliver hm => exact sound_handleMessage env.cfg fun hb => hstream hb _ hm
  | update hm => exact sound_onStatusUpdate fun hb => hupdates hb _ hm
  | poll ht => exact (calm_waitForIpAndUpdate env.cfg fun hb => htasks hb _ ht).sound
  | startWorker => exact calm_startWorker.sound
  | reconnect => exact calm_reconnect.sound
  | syncAllVmStates => exact sound_syncAllVmStates

private theorem ghost_of_effect {x : PlanePool} {i : Nat} {c : VmCall} {r : VmCall.Answer c}
    {y : PlanePool} (he : worldEffect env c x.state r y.state) (hc : Careful x (.act i c r) y)
    (hp : Permitted v (decide (Deleted x.state v)) c) :
    Ghost v c (decide (Deleted x.state v)) r (decide (Deleted y.state v)) := by
  refine ⟨?_, ?_, ?_⟩
  · apply consistent_of_effect c he
    intro m hm hd hv hs
    exact hc.informs i c r m rfl hm hs (hv ▸ hd)
  · intro hd
    exact decide_eq_true (deleted_stays he (hp hd) (of_decide_eq_true hd))
  · intro hd hd'
    have hx : ¬ Deleted x.state v := of_decide_eq_false hd
    have hy : Deleted y.state v := of_decide_eq_true hd'
    exact ⟨marks_of_deleted he hx hy, (hc.deletes i c r v rfl hx hy).1⟩

private theorem guarded_act {x y : PlanePool} {i : Nat} {c : VmCall} {r : VmCall.Answer c}
    {k : VmCall.Answer c → VmProcess Unit} (h : Guarded v x)
    (hp : x.procs[i]? = some (.call c k)) (he : worldEffect env c x.state r y.state)
    (hprocs : y.procs = x.procs.set i (k r)) (hc : Careful x (.act i c r) y) :
    Guarded v y ∧ (Deleted x.state v → Deleted y.state v) := by
  obtain ⟨hperm, hnext⟩ := h.procs _ (List.mem_of_getElem? hp)
  have hghost := ghost_of_effect he hc hperm
  have hsound := hnext r _ hghost
  obtain ⟨hstream, hupdates, htasks⟩ := worldEffect_queues he
  have hkeep : Deleted x.state v → Deleted y.state v :=
    fun hd => of_decide_eq_true (hghost.2.1 (decide_eq_true hd))
  refine ⟨?_, hkeep⟩
  by_cases hx : Deleted x.state v
  · have hy := hkeep hx
    have ht : ¬ Touches v c := hperm (decide_eq_true hx)
    refine ⟨?_, fun _ m hm => ?_, fun _ m hm => ?_, fun _ t hm => ?_⟩
    · rw [hprocs]
      refine forall_mem_set (fun j p _ hj => ?_) hsound
      rw [decide_eq_true hy, ← decide_eq_true hx]
      exact h.procs p (List.mem_of_getElem? hj)
    · rcases hstream m hm with hm | rfl
      · exact h.stream hx m hm
      · exact ht
    · rcases hupdates m hm with hm | rfl
      · exact h.updates hx m hm
      · exact ht
    · rcases htasks t hm with hm | rfl
      · exact h.tasks hx t hm
      · exact ht
  · by_cases hy : Deleted y.state v
    · obtain ⟨-, hq⟩ := hc.deletes i c r v rfl hx hy
      have hm := marks_of_deleted he hx hy
      refine ⟨?_, fun _ m h' => ?_, fun _ m h' => ?_, fun _ t h' => ?_⟩
      · rw [hprocs]
        refine forall_mem_set (fun j p hj hget => ?_) hsound
        rw [decide_eq_true hy]
        exact hq.procs j p hj hget
      · rcases hstream m h' with h' | rfl
        · exact hq.stream m h'
        · exact absurd hm id
      · rcases hupdates m h' with h' | rfl
        · exact hq.updates m h'
        · exact absurd hm id
      · rcases htasks t h' with h' | rfl
        · exact hq.tasks t h'
        · exact absurd hm id
    · refine ⟨?_, fun hd => absurd hd hy, fun hd => absurd hd hy, fun hd => absurd hd hy⟩
      rw [hprocs]
      refine forall_mem_set (fun j p _ hj => ?_) hsound
      rw [decide_eq_false hy, ← decide_eq_false hx]
      exact h.procs p (List.mem_of_getElem? hj)

private theorem guarded_shrink {x y : PlanePool} (h : Guarded v x) (hdb : y.state.db = x.state.db)
    (hprocs : ∀ p ∈ y.procs, Sound v (decide (Deleted x.state v)) p)
    (hstream : ∀ m ∈ y.state.stream, m ∈ x.state.stream)
    (hupdates : ∀ m ∈ y.state.updates, m ∈ x.state.updates)
    (htasks : ∀ t ∈ y.state.tasks, t ∈ x.state.tasks) :
    Guarded v y ∧ (Deleted x.state v → Deleted y.state v) := by
  have hd : Deleted y.state v ↔ Deleted x.state v := by
    unfold Deleted
    rw [hdb]
  refine ⟨⟨?_, ?_, ?_, ?_⟩, hd.mpr⟩
  · simp only [hd]
    exact hprocs
  · exact fun hy m hm => h.stream (hd.mp hy) m (hstream m hm)
  · exact fun hy m hm => h.updates (hd.mp hy) m (hupdates m hm)
  · exact fun hy t ht => h.tasks (hd.mp hy) t (htasks t ht)

theorem guarded_step {x y : PlanePool} {l : PoolLabel vmInterface} (h : Guarded v x)
    (hs : CarefulStep env x l y) : Guarded v y ∧ (Deleted x.state v → Deleted y.state v) := by
  obtain ⟨hstep, hc⟩ := hs
  cases hstep with
  | act hp he => exact guarded_act h hp he rfl hc
  | start hst =>
    rename_i w w' procs p
    have hp : Sound v (decide (Deleted w v)) p :=
      sound_of_start hst (fun hb => h.stream (of_decide_eq_true hb))
        (fun hb => h.updates (of_decide_eq_true hb)) fun hb => h.tasks (of_decide_eq_true hb)
    have hprocs : ∀ q ∈ procs ++ [p], Sound v (decide (Deleted w v)) q := by
      intro q hq
      rcases List.mem_append.mp hq with hq | hq
      · exact h.procs q hq
      · rw [List.mem_singleton] at hq
        exact hq ▸ hp
    cases hst <;>
      first
      | exact guarded_shrink h rfl hprocs (fun _ => id) (fun _ => id) fun _ => id
      | exact guarded_shrink h rfl hprocs (fun _ => List.mem_of_mem_erase) (fun _ => id) fun _ => id
      | exact guarded_shrink h rfl hprocs (fun _ => id) (fun _ => List.mem_of_mem_erase) fun _ => id
      | exact guarded_shrink h rfl hprocs (fun _ => id) (fun _ => id) fun _ => List.mem_of_mem_erase
  | crash i =>
    exact guarded_shrink h rfl (fun p hp => h.procs p (List.mem_of_mem_eraseIdx hp)) (fun _ => id)
      (fun _ => id) fun _ => id
  | surroundings hl =>
    cases hl with
    | lock vmId => exact guarded_shrink h rfl h.procs (fun _ => id) (fun _ => id) fun _ => id
    | message m =>
      exact guarded_shrink h rfl h.procs (fun _ => List.mem_of_mem_erase) (fun _ => id) fun _ => id
    | update m =>
      exact guarded_shrink h rfl h.procs (fun _ => id) (fun _ => List.mem_of_mem_erase) fun _ => id
    | restart =>
      exact guarded_shrink h rfl h.procs (fun _ => id) (fun _ => id) fun t ht => absurd ht (by simp)

/-- In every run of careful steps, a VM that is `DELETED` at some point stays so. -/
theorem deleted_absorbing (env : Env) (db : VmDb)
    {trace trace' : List (PoolLabel vmInterface × PlanePool)} {x y : PlanePool}
    (h : Run (CarefulStep env) ⟨World.initial db, []⟩ trace x) (h' : Run (CarefulStep env) x trace' y)
    {v : String} (hv : Deleted x.state v) : Deleted y.state v := by
  have hx : Guarded v x := h.invariant (guarded_initial db) fun t l u ht hs => (guarded_step ht hs).1
  have hy : Guarded v y ∧ Deleted y.state v := by
    refine h'.invariant (J := fun z => Guarded v z ∧ Deleted z.state v) ⟨hx, hv⟩ ?_
    intro t l u ht hs
    obtain ⟨hg, hd⟩ := guarded_step ht.1 hs
    exact ⟨hg, hd ht.2⟩
  exact hy.2

end Runs

section Sample

private def demoEnv : Env where
  cfg := { lower := id, asciiFold := id }
  uuid s := isUuidText s = true

private def demoUser : String := "7f1d6c1e-3a52-4c8b-9d07-5b1f0e2a6c34"

private def demoId : String := "0b0e3c1a-5d2f-4f6a-9c3e-1a2b3c4d5e6f"

private def demoVm (oneVmId : Option Int) (status : VmStatus) : VmRow :=
  { VmRow.sample demoId demoUser with oneVmId := oneVmId, status := status }

private def demoDb (vm : VmRow) : VmDb := ⟨Table.empty.insert vm (by simp), .empty⟩

private def running : VmRow := demoVm (some 7) .running

/-- A user stops and deletes a VM. The worker deletes it first; the stop then fails on the
terminated machine and writes `ERROR` over `DELETED`. -/
theorem stop_after_delete_revives : ∃ trace x trace' y,
    Run (Pool.Step (plane demoEnv)) ⟨World.initial (demoDb running), []⟩ trace x ∧
    Run (Pool.Step (plane demoEnv)) x trace' y ∧
    Deleted x.state demoId ∧ ¬ Deleted y.state demoId := by
  have hu : demoEnv.uuid demoUser := by
    unfold demoEnv
    decide
  refine ⟨_, _, _, _, Run.head (.start (.vmAction demoId .stop demoUser .user hu))
    (Run.head (.act (I := vmInterface) (i := 0) (c := .findVm demoId) (r := .ok (some running)) rfl
        ⟨rfl, .inl rfl⟩)
    (Run.head (.act (I := vmInterface) (i := 0)
        (c := .publish .vmAction (actionMessage running .stop demoUser)) (r := .ok ()) rfl (.inr rfl))
    (Run.head (.start (.deleteVm demoId demoUser .user hu))
    (Run.head (.act (I := vmInterface) (i := 1) (c := .findVm demoId) (r := .ok (some running)) rfl
        ⟨rfl, .inl rfl⟩)
    (Run.head (.act (I := vmInterface) (i := 1)
        (c := .publish .vmDelete (deleteMessage running demoUser)) (r := .ok ()) rfl (.inr rfl))
    (Run.head (.start (.deliver (.tail _ (.head _))))
    (Run.head (.act (I := vmInterface) (i := 2) (c := .oneVmInfo 7) (r := .error ⟨.other, ""⟩) rfl rfl)
    (Run.head (.act (I := vmInterface) (i := 2) (c := .oneVmAction "terminate" 7) (r := .ok ()) rfl rfl)
    (Run.single (.act (I := vmInterface) (i := 2) (c := .deleteVmRecord demoId) (r := .ok ()) rfl
        ⟨0, .inl ⟨(), trivial, rfl, rfl⟩⟩)))))))))),
    Run.head (.start (.deliver (.head _)))
    (Run.head (.act (I := vmInterface) (i := 3) (c := .oneVmAction "poweroff" 7)
        (r := .error ⟨.other, "wrong state"⟩) rfl rfl)
    (Run.single (.act (I := vmInterface) (i := 3)
        (c := .updateVmStatus { vmId := demoId, status := .error }) (r := .ok ()) rfl
        ⟨1, .inl ⟨(), trivial, rfl, rfl⟩⟩))), ?_, ?_⟩
  · decide
  · decide

private theorem careful_of_db_eq {x y : PlanePool} {l : PoolLabel vmInterface}
    (hdb : y.state.db = x.state.db) (hl : ∀ i m r, l ≠ .act i (.publishStatus m) r) :
    Careful x l y where
  deletes i c r v _ hx hy := by
    unfold Deleted at hx hy
    rw [hdb] at hy
    exact absurd hy hx
  informs i c r m hl' hm := by
    subst hm
    exact absurd hl' (hl i m r)

private def waiting : VmRow := demoVm none .pending

private def deletedNews : StatusUpdate :=
  { vmId := demoId, status := .row .deleted, userId := some demoUser }

private theorem waiting_run : ∃ trace x l y,
    Run (CarefulStep demoEnv) ⟨World.initial (demoDb waiting), []⟩ trace x ∧
    CarefulStep demoEnv x l y ∧ Deleted x.state demoId := by
  have hu : demoEnv.uuid demoUser := by
    unfold demoEnv
    decide
  refine ⟨_, _, _, _,
    Run.head ⟨.start (.deleteVm demoId demoUser .user hu), careful_of_db_eq rfl (by simp)⟩
    (Run.head ⟨.act (I := vmInterface) (i := 0) (c := .findVm demoId) (r := .ok (some waiting)) rfl
        ⟨rfl, .inl rfl⟩, careful_of_db_eq rfl (by simp)⟩
    (Run.head ⟨.act (I := vmInterface) (i := 0)
        (c := .publish .vmDelete (deleteMessage waiting demoUser)) (r := .ok ()) rfl (.inr rfl),
        careful_of_db_eq rfl (by simp)⟩
    (Run.head ⟨.start (.deliver (.head _)), careful_of_db_eq rfl (by simp)⟩
    (Run.single ⟨.act (I := vmInterface) (i := 1) (c := .deleteVmRecord demoId) (r := .ok ()) rfl
        ⟨0, .inl ⟨(), trivial, rfl, rfl⟩⟩, ?_⟩)))),
    ⟨.act (I := vmInterface) (i := 1) (c := .publishStatus deletedNews) (r := .ok ()) rfl (.inr rfl),
      ?_⟩, ?_⟩
  · refine ⟨fun i c r v hl _ _ => ?_, fun i c r m hl hm => ?_⟩
    · simp only [PoolLabel.act.injEq] at hl
      obtain ⟨rfl, rfl, hr⟩ := hl
      refine ⟨(eq_of_heq hr).symm, ⟨fun j p hj hp => ?_, by simp [World.initial],
        by simp [World.initial], by simp [World.initial]⟩⟩
      rcases j with _ | _ | j
      · cases hp
        exact trivial
      · exact absurd rfl hj
      · cases hp
    · simp only [PoolLabel.act.injEq] at hl
      obtain ⟨-, rfl, -⟩ := hl
      cases hm
  · refine ⟨fun i c r v _ hx hy => absurd hy hx, fun i c r m hl _ _ _ => ?_⟩
    simp only [PoolLabel.act.injEq] at hl
    obtain ⟨-, rfl, hr⟩ := hl
    exact (eq_of_heq hr).symm
  · decide

/-- A VM that was never instantiated is deleted while nothing else goes on. -/
theorem deleted_absorbing_waiting : ∃ trace x l y,
    Run (CarefulStep demoEnv) ⟨World.initial (demoDb waiting), []⟩ trace x ∧
    Run (CarefulStep demoEnv) x [(l, y)] y ∧ Deleted x.state demoId ∧ Deleted y.state demoId := by
  obtain ⟨trace, x, l, y, hx, hy, hd⟩ := waiting_run
  exact ⟨trace, x, l, y, hx, .single hy, hd, deleted_absorbing demoEnv _ hx (.single hy) hd⟩

end Sample

end CloudVM.Plane
