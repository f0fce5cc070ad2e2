import CloudVM.Metering.Running
import CloudVM.Split.News

/-!
# Two copies of a machine's row

With one database per service the worker writes a `virtual_machines` table of its own, and the
VM service follows it by `vm.status.update` messages. The two writers agree on the status. They
disagree on `stoppedAt` and on the machine's id for some writes, and a write that is not told
leaves the copies apart.
-/

namespace CloudVM.Split

open VmService Worker Plane Metering Process

section Rows

/-- The copies agree. -/
structure SameCopy (a b : VmRow) : Prop where
  status : a.status = b.status
  oneVmId : a.oneVmId = b.oneVmId
  ipAddress : a.ipAddress = b.ipAddress
  sshHost : a.sshHost = b.sshHost
  stoppedAt : a.stoppedAt = none ↔ b.stoppedAt = none

def RowWrite.call : RowWrite → VmCall
  | .status u => .updateVmStatus u
  | .record vmId => .deleteVmRecord vmId

/-- The id in the message is taken for the same as the one in the row. Zero counts as absent. -/
def SameMachine (written told row : Option Int) : Prop :=
  match written, told with
  | some n, _ => n ≠ 0 ∨ row = some 0
  | none, some n => n = 0 ∨ row = some n
  | none, none => True

def Fits : RowWrite → StatusUpdate → VmRow → Prop
  | .record _, _, _ => True
  | .status u, m, r =>
      (u.status = .error ∨ u.status = .suspended ∨ u.status = .deleted → r.stoppedAt ≠ none) ∧
      (u.status = .running → r.stoppedAt = none) ∧
      (u.status ≠ .deleted → SameMachine u.oneVmId m.oneVmId r.oneVmId)

/-- The write says nothing that the row does not say. -/
def Repeats : RowWrite → VmRow → Prop
  | .record _, r => r.status = .deleted ∧ r.stoppedAt ≠ none
  | .status u, r =>
      r.status = u.status ∧ (∀ n, u.oneVmId = some n → r.oneVmId = some n) ∧
      (∀ ip, u.ipAddress = some ip → r.ipAddress = some ip) ∧
      (∀ host, u.sshHost = some host → r.sshHost = some host) ∧
      (u.status = .stopped → r.stoppedAt ≠ none)

variable {a b : VmRow} {u : RowWrite} {m : StatusUpdate} {now t : Nat}

theorem SameCopy.refl (a : VmRow) : SameCopy a a := ⟨rfl, rfl, rfl, rfl, Iff.rfl⟩

theorem SameCopy.symm (h : SameCopy a b) : SameCopy b a :=
  ⟨h.status.symm, h.oneVmId.symm, h.ipAddress.symm, h.sshHost.symm, h.stoppedAt.symm⟩

theorem SameCopy.trans {c : VmRow} (h : SameCopy a b) (h' : SameCopy b c) : SameCopy a c :=
  ⟨h.status.trans h'.status, h.oneVmId.trans h'.oneVmId, h.ipAddress.trans h'.ipAddress,
    h.sshHost.trans h'.sshHost, h.stoppedAt.trans h'.stoppedAt⟩

theorem rowUpdate_other (h : a.id ≠ u.vmId) : rowUpdate now u.call a = a := by
  cases u <;> exact if_neg h

private theorem told_deleted (h : m.status = .row .deleted) (hid : b.id = m.vmId) :
    (received t m b).status = .deleted ∧ (received t m b).oneVmId = b.oneVmId ∧
      (received t m b).ipAddress = b.ipAddress ∧ (received t m b).sshHost = b.sshHost ∧
      (received t m b).stoppedAt ≠ none := by
  rw [received_deleted h, rowUpdate, if_pos hid]
  simp

end Rows

section Writers

variable {a b : VmRow} {u : StatusWrite} {m : StatusUpdate} {now t : Nat}

private theorem truthyText_of_ne {s : Option String} (h : s ≠ some "") : truthyText s = s := by
  cases s with
  | none => rfl
  | some s =>
    have hs : s ≠ "" := fun hs => h (congrArg some hs)
    simp [truthyText, Option.filter, hs]

private theorem oneVmId_iff (written told row : Option Int) (h : written ≠ none → told = written) :
    (written <|> row) = (truthyInt told <|> row) ↔ SameMachine written told row := by
  cases written with
  | some n =>
    rw [h (by simp)]
    by_cases hn : n = 0
    · subst hn
      simp [truthyInt, SameMachine, Option.filter, eq_comm]
    · simp [truthyInt, SameMachine, Option.filter, hn]
  | none =>
    cases told with
    | none => simp [truthyInt, SameMachine, Option.filter]
    | some n =>
      by_cases hn : n = 0
      · simp [truthyInt, SameMachine, Option.filter, hn]
      · simp [truthyInt, SameMachine, Option.filter, hn]

private theorem stoppedAt_iff (h : a.stoppedAt = none ↔ b.stoppedAt = none) (hd : u.status ≠ .deleted) :
    ((StatusWrite.apply u now a).stoppedAt = none ↔
        (StatusPatch.apply (statusPatch m u.status t) t b).stoppedAt = none) ↔
      (u.status = .error ∨ u.status = .suspended ∨ u.status = .deleted → a.stoppedAt ≠ none) ∧
        (u.status = .running → a.stoppedAt = none) := by
  cases hs : u.status with
  | deleted => exact absurd hs hd
  | pending => simpa [StatusWrite.apply, StatusPatch.apply, statusPatch, hs] using h
  | running => simp [StatusWrite.apply, StatusPatch.apply, statusPatch, hs]
  | stopped =>
    cases a.stoppedAt <;> simp [StatusWrite.apply, StatusPatch.apply, statusPatch, hs]
  | suspended => simp [StatusWrite.apply, StatusPatch.apply, statusPatch, hs]
  | error => simp [StatusWrite.apply, StatusPatch.apply, statusPatch, hs]

private theorem told_status_iff (h : SameCopy a b) (hn : StatusNews u m) (hd : u.status ≠ .deleted) :
    SameCopy (StatusWrite.apply u now a) (StatusPatch.apply (statusPatch m u.status t) t b) ↔
      Fits (.status u) m a := by
  have hone : (StatusWrite.apply u now a).oneVmId =
      (StatusPatch.apply (statusPatch m u.status t) t b).oneVmId ↔
        SameMachine u.oneVmId m.oneVmId a.oneVmId := by
    simp only [StatusWrite.apply, StatusPatch.apply, statusPatch]
    rw [← h.oneVmId]
    exact oneVmId_iff _ _ _ hn.oneVmId
  constructor
  · intro hs
    have hstops := (stoppedAt_iff h.stoppedAt hd).mp hs.stoppedAt
    exact ⟨hstops.1, hstops.2, fun _ => hone.mp hs.oneVmId⟩
  · rintro ⟨hset, hclear, hid⟩
    constructor
    · rfl
    · exact hone.mpr (hid hd)
    · simp only [StatusWrite.apply, StatusPatch.apply, statusPatch]
      rw [hn.ipAddress, truthyText_of_ne hn.ipAddress_ne, h.ipAddress]
    · simp only [StatusWrite.apply, StatusPatch.apply, statusPatch]
      rw [hn.sshHost, truthyText_of_ne hn.sshHost_ne, h.sshHost]
    · exact (stoppedAt_iff h.stoppedAt hd).mpr ⟨hset, hclear⟩

private theorem told_deleted_iff (h : SameCopy a b) (hn : StatusNews u m) (hd : u.status = .deleted)
    (hid : b.id = m.vmId) :
    SameCopy (StatusWrite.apply u now a) (received t m b) ↔ Fits (.status u) m a := by
  obtain ⟨hone, hip, hhost⟩ := hn.bare hd
  obtain ⟨hs, hone', hip', hhost', hstop⟩ := told_deleted (t := t) (hd ▸ hn.status) hid
  constructor
  · intro hsame
    refine ⟨fun _ hnone => hstop (hsame.stoppedAt.mp ?_), ?_, ?_⟩
    · simp [StatusWrite.apply, hd, hnone]
    · simp [hd]
    · simp [hd]
  · intro hfits
    have hset : a.stoppedAt ≠ none := hfits.1 (.inr (.inr hd))
    constructor
    · simp [StatusWrite.apply, hd, hs]
    · simp [StatusWrite.apply, hone, hone', h.oneVmId]
    · simp [StatusWrite.apply, hip, hip', h.ipAddress]
    · simp [StatusWrite.apply, hhost, hhost', h.sshHost]
    · simp [StatusWrite.apply, hd, hset, hstop]

end Writers

section Writes

variable {a b : VmRow} {u : RowWrite} {m : StatusUpdate} {now t : Nat}

/-- A write and its news leave equal copies equal exactly if the write fits. -/
theorem told_iff (h : SameCopy a b) (hn : News u m) (ha : a.id = u.vmId) (hb : b.id = u.vmId) :
    SameCopy (rowUpdate now u.call a) (received t m b) ↔ Fits u m a := by
  cases u with
  | record vmId =>
    obtain ⟨hid, hs⟩ := hn
    obtain ⟨hs', hone, hip, hhost, hstop⟩ := told_deleted (t := t) hs (hb.trans hid.symm)
    have hrow : rowUpdate now (RowWrite.call (.record vmId)) a =
        { a with status := .deleted, stoppedAt := a.stoppedAt <|> some now, updatedAt := now } :=
      if_pos ha
    rw [hrow]
    refine iff_of_true ⟨hs'.symm, ?_, ?_, ?_, ?_⟩ trivial
    · exact h.oneVmId.trans hone.symm
    · exact h.ipAddress.trans hip.symm
    · exact h.sshHost.trans hhost.symm
    · cases a.stoppedAt <;> simp [hstop]
  | status u =>
    have hid : b.id = m.vmId := hb.trans hn.vmId.symm
    have hrow : rowUpdate now (RowWrite.call (.status u)) a = StatusWrite.apply u now a := if_pos ha
    rw [hrow]
    by_cases hd : u.status = .deleted
    · exact told_deleted_iff h hn hd hid
    · rw [received_row hn.status hd]
      have hpatch : rowUpdate t (.patchStatus m.vmId (statusPatch m u.status t)) b =
          StatusPatch.apply (statusPatch m u.status t) t b := if_pos hid
      rw [hpatch]
      exact told_status_iff h hn hd

theorem told_other (h : SameCopy a b) (hn : News u m) (ha : a.id ≠ u.vmId) (hb : b.id ≠ u.vmId) :
    SameCopy (rowUpdate now u.call a) (received t m b) := by
  have hid : m.vmId = u.vmId := by
    cases u with
    | record vmId => exact hn.1
    | status u => exact hn.vmId
  rw [rowUpdate_other ha, received_other (hid ▸ hb)]
  exact h

private theorem orElse_eq_right {α : Type} (x y : Option α) :
    (x <|> y) = y ↔ ∀ n, x = some n → y = some n := by
  cases x with
  | none => simp
  | some n => simp [eq_comm]

/-- A write that is not told leaves equal copies equal exactly if it repeats the row. -/
theorem untold_iff (h : SameCopy a b) (ha : a.id = u.vmId) :
    SameCopy (rowUpdate now u.call a) b ↔ Repeats u a := by
  have hself : SameCopy (rowUpdate now u.call a) b ↔ SameCopy (rowUpdate now u.call a) a :=
    ⟨fun hs => hs.trans h.symm, fun hs => hs.trans h⟩
  rw [hself]
  cases u with
  | record vmId =>
    have hrow : rowUpdate now (RowWrite.call (.record vmId)) a =
        { a with status := .deleted, stoppedAt := a.stoppedAt <|> some now, updatedAt := now } :=
      if_pos ha
    rw [hrow]
    constructor
    · intro hs
      refine ⟨hs.status.symm, fun hnone => ?_⟩
      have := hs.stoppedAt.mpr hnone
      simp [hnone] at this
    · rintro ⟨hs, hstop⟩
      exact ⟨hs.symm, rfl, rfl, rfl, by simp [hstop]⟩
  | status u =>
    have hrow : rowUpdate now (RowWrite.call (.status u)) a = StatusWrite.apply u now a := if_pos ha
    rw [hrow]
    constructor
    · intro hs
      refine ⟨hs.status.symm, (orElse_eq_right _ _).mp hs.oneVmId,
        (orElse_eq_right _ _).mp hs.ipAddress, (orElse_eq_right _ _).mp hs.sshHost, ?_⟩
      intro hstopped hnone
      have := hs.stoppedAt.mpr hnone
      simp [StatusWrite.apply, hstopped, hnone] at this
    · rintro ⟨hs, hone, hip, hhost, hstop⟩
      refine ⟨hs.symm, (orElse_eq_right _ _).mpr hone, (orElse_eq_right _ _).mpr hip,
        (orElse_eq_right _ _).mpr hhost, ?_⟩
      by_cases hstopped : u.status = .stopped
      · simp [StatusWrite.apply, hstopped, hstop hstopped]
      · simp [StatusWrite.apply, hstopped]

end Writes

section System

/-- What the worker may start: any message it is sent, a poller, and its own loops. -/
inductive Operation (cfg : WorkerConfig) : World → VmProcess Unit → World → Prop
  | message {w : World} (subject : Subject) (data : Dict) :
      Operation cfg w (handleMessage cfg subject data) w
  | poll {w : World} {t : PollTask} (ht : t ∈ w.tasks) :
      Operation cfg w (waitForIpAndUpdate cfg t) { w with tasks := w.tasks.erase t }
  | startWorker {w : World} : Operation cfg w startWorker w
  | reconnect {w : World} : Operation cfg w reconnect w
  | syncAllVmStates {w : World} : Operation cfg w syncAllVmStates w

/-- The next call of a process is a write of the worker. -/
inductive WritesNext : VmProcess Unit → RowWrite → (Except Failure Unit → VmProcess Unit) → Prop
  | status (u : StatusWrite) (k : Except Failure Unit → VmProcess Unit) :
      WritesNext (.call (.updateVmStatus u) k) (.status u) k
  | record (vmId : String) (k : Except Failure Unit → VmProcess Unit) :
      WritesNext (.call (.deleteVmRecord vmId) k) (.record vmId) k

/-- A write that was published, a write that was not, or anything else. -/
inductive TurnLabel where
  | told (u : RowWrite) (m : StatusUpdate)
  | untold (u : RowWrite)
  | other

/-- One turn of the worker over its own tables; `updates` are the messages it has published.

`update_vm_status` and `delete_vm_record` do not await, and the bus has the message in its buffer
before `publish` awaits. No other operation comes between a write and its news. -/
inductive Turn (env : Env) : PlanePool → TurnLabel → PlanePool → Prop
  | start {w w' : World} {procs : List (VmProcess Unit)} {p : VmProcess Unit}
      (ho : Operation env.cfg w p w') : Turn env ⟨w, procs⟩ .other ⟨w', procs ++ [p]⟩
  | crash {w : World} {procs : List (VmProcess Unit)} (i : Nat) :
      Turn env ⟨w, procs⟩ .other ⟨w, procs.eraseIdx i⟩
  | expire {w : World} {procs : List (VmProcess Unit)} (vmId : String) :
      Turn env ⟨w, procs⟩ .other ⟨{ w with locks := w.locks.erase vmId }, procs⟩
  | restart {w : World} {procs : List (VmProcess Unit)} :
      Turn env ⟨w, procs⟩ .other ⟨{ w with tasks := [], cache := none }, []⟩
  | act {w w' : World} {procs : List (VmProcess Unit)} {i : Nat} {c : VmCall}
      {k : c.Answer → VmProcess Unit} {r : c.Answer} (hp : procs[i]? = some (.call c k))
      (hw : ∀ u, c ≠ RowWrite.call u) (he : worldEffect env c w r w') :
      Turn env ⟨w, procs⟩ .other ⟨w', procs.set i (k r)⟩
  | told {w : World} {procs : List (VmProcess Unit)} {i : Nat} {p : VmProcess Unit} {u : RowWrite}
      {k k' : Except Failure Unit → VmProcess Unit} {m : StatusUpdate} (now : Nat)
      (r : Except Failure Unit) (hp : procs[i]? = some p) (hw : WritesNext p u k)
      (hk : k (.ok ()) = .call (.publishStatus m) k') :
      Turn env ⟨w, procs⟩ (.told u m)
        ⟨{ w.written u.call now with updates := w.updates ++ [m] }, procs.set i (k' r)⟩
  | unpublished {w : World} {procs : List (VmProcess Unit)} {i : Nat} {p : VmProcess Unit}
      {u : RowWrite} {k k' : Except Failure Unit → VmProcess Unit} {m : StatusUpdate} (now : Nat)
      (e : Failure) (hp : procs[i]? = some p) (hw : WritesNext p u k)
      (hk : k (.ok ()) = .call (.publishStatus m) k') :
      Turn env ⟨w, procs⟩ (.untold u) ⟨w.written u.call now, procs.set i (k' (.error e))⟩
  | unconfirmed {w : World} {procs : List (VmProcess Unit)} {i : Nat} {p : VmProcess Unit}
      {u : RowWrite} {k : Except Failure Unit → VmProcess Unit} (now : Nat) (e : Failure)
      (hp : procs[i]? = some p) (hw : WritesNext p u k) :
      Turn env ⟨w, procs⟩ (.untold u) ⟨w.written u.call now, procs.set i (k (.error e))⟩
  | refused {w : World} {procs : List (VmProcess Unit)} {i : Nat} {p : VmProcess Unit}
      {u : RowWrite} {k : Except Failure Unit → VmProcess Unit} (e : Failure)
      (hp : procs[i]? = some p) (hw : WritesNext p u k) :
      Turn env ⟨w, procs⟩ .other ⟨w, procs.set i (k (.error e))⟩

/-- The service started from the same table and has processed every message, in order and at any
times: each row has two equal copies. -/
def Follows (vms : VmTable) (x : PlanePool) : Prop :=
  ∀ (v : String) (history : History), history.map Prod.snd = x.state.updates →
    Option.Rel SameCopy (x.state.db.vms.find? v) ((vms.find? v).map fun r => rowAfter r history)

/-- A published write fits the row it meets, and any other write repeats its row. -/
def Harmless (x : PlanePool) : TurnLabel → Prop
  | .told u m => ∀ r, x.state.db.vms.find? u.vmId = some r → Fits u m r
  | .untold u => ∀ r, x.state.db.vms.find? u.vmId = some r → Repeats u r
  | .other => True

def Clear (x : PlanePool) : Prop :=
  ∀ p ∈ x.procs, p.Wp Tells Owes (fun _ owed => owed = none) none

end System

section Turns

variable {env : Env} {vms : VmTable} {w w' : World} {procs : List (VmProcess Unit)} {i : Nat}
  {p : VmProcess Unit} {u : RowWrite} {k k' : Except Failure Unit → VmProcess Unit}
  {m : StatusUpdate}

private theorem operation_telling (h : Operation env.cfg w p w') : Telling p := by
  cases h with
  | message subject data => exact telling_handleMessage _ subject data
  | poll ht => exact telling_waitForIpAndUpdate _ _
  | startWorker => exact telling_startWorker
  | reconnect => exact telling_reconnect
  | syncAllVmStates => exact telling_syncAllVmStates

private theorem operation_keeps (h : Operation env.cfg w p w') :
    w'.db.vms = w.db.vms ∧ w'.updates = w.updates := by
  cases h <;> exact ⟨rfl, rfl⟩

private theorem owed_after (hw : WritesNext p u k)
    (h : p.Wp Tells Owes (fun _ owed => owed = none) none) :
    (k (.ok ())).Wp Tells Owes (fun _ owed => owed = none) (some u) ∧
      ∀ e, (k (.error e)).Wp Tells Owes (fun _ owed => owed = none) none := by
  cases hw with
  | status u k => exact ⟨h.2 (.ok ()) _ rfl, fun e => h.2 (.error e) _ rfl⟩
  | record vmId k => exact ⟨h.2 (.ok ()) _ rfl, fun e => h.2 (.error e) _ rfl⟩

private theorem news_after (hw : WritesNext p u k)
    (h : p.Wp Tells Owes (fun _ owed => owed = none) none)
    (hk : k (.ok ()) = .call (.publishStatus m) k') :
    News u m ∧ ∀ r, (k' r).Wp Tells Owes (fun _ owed => owed = none) none := by
  have hnext := (owed_after hw h).1
  rw [hk] at hnext
  exact ⟨hnext.1, fun r => hnext.2 r none rfl⟩

private theorem clear_at (h : Clear ⟨w, procs⟩) (hp : procs[i]? = some p) :
    p.Wp Tells Owes (fun _ owed => owed = none) none := h p (List.mem_of_getElem? hp)

private theorem clear_set (h : Clear ⟨w, procs⟩)
    (hp : p.Wp Tells Owes (fun _ owed => owed = none) none) : Clear ⟨w', procs.set i p⟩ := by
  intro q hq
  rcases List.mem_or_eq_of_mem_set hq with hq | rfl
  · exact h q hq
  · exact hp

private theorem plain_or_lcm {c : VmCall} (hw : ∀ u, c ≠ RowWrite.call u) (h : Tells none c) :
    Plain c ∨ ∃ m s, c = .publishStatus m ∧ m.status = .lcm s := by
  cases c
  case updateVmStatus u => exact absurd rfl (hw (.status u))
  case deleteVmRecord vmId => exact absurd rfl (hw (.record vmId))
  case publishStatus m =>
    obtain ⟨s, hs⟩ := h
    exact .inr ⟨m, s, rfl, hs⟩
  all_goals exact .inl h.2

private theorem clear_turn {x y : PlanePool} {l : TurnLabel} (h : Clear x) (hs : Turn env x l y) :
    Clear y := by
  cases hs with
  | start ho =>
    intro q hq
    rcases List.mem_append.mp hq with hq | hq
    · exact h q hq
    · rw [List.mem_singleton] at hq
      subst hq
      exact operation_telling ho none rfl
  | crash i =>
    intro q hq
    exact h q (List.mem_of_mem_eraseIdx hq)
  | expire vmId => exact h
  | restart => simp [Clear]
  | act hp hw he =>
    have hcall := clear_at h hp
    apply clear_set h
    rcases plain_or_lcm hw hcall.1 with hplain | ⟨m, s, rfl, -⟩
    · apply hcall.2 _ none
      rename_i c _ _
      cases c <;> first | exact hplain.elim | rfl
    · exact hcall.2 _ none rfl
  | told now r hp hw hk => exact clear_set h ((news_after hw (clear_at h hp) hk).2 r)
  | unpublished now e hp hw hk => exact clear_set h ((news_after hw (clear_at h hp) hk).2 _)
  | unconfirmed now e hp hw => exact clear_set h ((owed_after hw (clear_at h hp)).2 e)
  | refused e hp hw => exact clear_set h ((owed_after hw (clear_at h hp)).2 e)

private theorem plain_effect {c : VmCall} {r : c.Answer} (h : Plain c)
    (he : worldEffect env c w r w') : w'.db.vms = w.db.vms ∧ w'.updates = w.updates := by
  cases c
  case updateVmStatus | deleteVmRecord | publishStatus | createVmTransaction | markDeleted |
      stampStopped | patchStatus => exact h.elim
  case acquireCreateLock vmId =>
    rcases he with ⟨-, -, rfl⟩ | ⟨-, -, rfl⟩ | ⟨e, -, rfl | rfl⟩ <;> exact ⟨rfl, rfl⟩
  case publish | releaseCreateLock =>
    rcases he with rfl | rfl <;> exact ⟨rfl, rfl⟩
  case findVm | selectOneVmId | selectPendingVms | selectActiveVms =>
    obtain ⟨rfl, -⟩ := he
    exact ⟨rfl, rfl⟩
  case readTemplateCache =>
    obtain ⟨-, rfl⟩ := he
    exact ⟨rfl, rfl⟩
  all_goals
    obtain rfl := he
    exact ⟨rfl, rfl⟩

end Turns

section Follow

variable {env : Env} {vms : VmTable} {x y : PlanePool} {u : RowWrite} {m : StatusUpdate} {now : Nat}

private theorem rowAfter_concat (r : VmRow) (history : History) (e : Nat × StatusUpdate) :
    rowAfter r (history ++ [e]) = received e.1 e.2 (rowAfter r history) := by
  simp [rowAfter]

private theorem rowAfter_id (r : VmRow) (history : History) : (rowAfter r history).id = r.id := by
  induction history using List.reverseRecOn with
  | nil => rfl
  | append_singleton history e ih => rw [rowAfter_concat, received_id, ih]

private theorem exists_history (updates : List StatusUpdate) :
    ∃ history : History, history.map Prod.snd = updates :=
  ⟨updates.map fun m => (0, m), by simp [Function.comp_def]⟩

private theorem history_concat {history : History} {updates : List StatusUpdate}
    (h : history.map Prod.snd = updates ++ [m]) :
    ∃ before t, history = before ++ [(t, m)] ∧ before.map Prod.snd = updates := by
  obtain ⟨before, last, rfl, hbefore, hlast⟩ := List.map_eq_append_iff.mp h
  obtain ⟨⟨t, m'⟩, rest, rfl, hm, hrest⟩ := List.map_eq_cons_iff.mp hlast
  obtain rfl : m' = m := hm
  obtain rfl : rest = [] := List.map_eq_nil_iff.mp hrest
  exact ⟨before, t, rfl, hbefore⟩

private theorem follows_same (h : Follows vms x) (hv : y.state.db.vms = x.state.db.vms)
    (hu : y.state.updates = x.state.updates) : Follows vms y := by
  intro v history hh
  rw [hv]
  exact h v history (hh.trans hu)

private theorem follows_lcm {s : LcmStatus} (h : Follows vms x) (hm : m.status = .lcm s)
    (hv : y.state.db.vms = x.state.db.vms) (hu : y.state.updates = x.state.updates ++ [m]) :
    Follows vms y := by
  intro v history hh
  obtain ⟨before, t, rfl, hbefore⟩ := history_concat (hh.trans hu)
  have hrow : (fun r => rowAfter r (before ++ [(t, m)])) = fun r => rowAfter r before := by
    funext r
    rw [rowAfter_concat, received_lcm hm]
  rw [hv, hrow]
  exact h v before hbefore

private theorem find?_written (w : World) (v : String) :
    (w.written u.call now).db.vms.find? v = (w.db.vms.find? v).map (rowUpdate now u.call) := by
  simp [World.written, Table.find?_modify]

private theorem copies (h : Follows vms x) {v : String} {history : History}
    (hh : history.map Prod.snd = x.state.updates) {r : VmRow}
    (hr : x.state.db.vms.find? v = some r) :
    ∃ r₀, vms.find? v = some r₀ ∧ SameCopy r (rowAfter r₀ history) ∧ r.id = v ∧ r₀.id = v := by
  have hrel := h v history hh
  rw [hr] at hrel
  cases hr₀ : vms.find? v with
  | none => simp [hr₀] at hrel
  | some r₀ =>
    rw [hr₀] at hrel
    exact ⟨r₀, rfl, by simpa using hrel, ((Table.find?_eq_some _).mp hr).2,
      ((Table.find?_eq_some _).mp hr₀).2⟩

private theorem no_copies (h : Follows vms x) {v : String} {history : History}
    (hh : history.map Prod.snd = x.state.updates) (hr : x.state.db.vms.find? v = none) :
    vms.find? v = none := by
  have hrel := h v history hh
  rw [hr] at hrel
  cases hr₀ : vms.find? v with
  | none => rfl
  | some r₀ => simp [hr₀] at hrel

private theorem follows_told (h : Follows vms x) (hn : News u m)
    (hv : ∀ v, y.state.db.vms.find? v = (x.state.db.vms.find? v).map (rowUpdate now u.call))
    (hu : y.state.updates = x.state.updates ++ [m]) :
    Follows vms y ↔ ∀ r, x.state.db.vms.find? u.vmId = some r → Fits u m r := by
  constructor
  · intro hy r hr
    obtain ⟨history, hh⟩ := exists_history x.state.updates
    obtain ⟨r₀, hr₀, hsame, hid, hid₀⟩ := copies h hh hr
    have hrel := hy u.vmId (history ++ [(0, m)]) (by simp [hh, hu])
    rw [hv, hr, hr₀] at hrel
    simp only [Option.map_some, Option.rel_some_some, rowAfter_concat] at hrel
    exact (told_iff hsame hn hid (by rw [rowAfter_id, hid₀])).mp hrel
  · intro hfits v history hh
    obtain ⟨before, t, rfl, hbefore⟩ := history_concat (hh.trans hu)
    rw [hv]
    cases hr : x.state.db.vms.find? v with
    | none => simp [no_copies h hbefore hr]
    | some r =>
      obtain ⟨r₀, hr₀, hsame, hid, hid₀⟩ := copies h hbefore hr
      have hid' : (rowAfter r₀ before).id = v := by rw [rowAfter_id, hid₀]
      simp only [hr₀, Option.map_some, Option.rel_some_some, rowAfter_concat]
      by_cases hvu : v = u.vmId
      · subst hvu
        exact (told_iff hsame hn hid hid').mpr (hfits r hr)
      · exact told_other hsame hn (hid ▸ hvu) (hid' ▸ hvu)

private theorem follows_untold (h : Follows vms x)
    (hv : ∀ v, y.state.db.vms.find? v = (x.state.db.vms.find? v).map (rowUpdate now u.call))
    (hu : y.state.updates = x.state.updates) :
    Follows vms y ↔ ∀ r, x.state.db.vms.find? u.vmId = some r → Repeats u r := by
  constructor
  · intro hy r hr
    obtain ⟨history, hh⟩ := exists_history x.state.updates
    obtain ⟨r₀, hr₀, hsame, hid, -⟩ := copies h hh hr
    have hrel := hy u.vmId history (hh.trans hu.symm)
    rw [hv, hr, hr₀] at hrel
    simp only [Option.map_some, Option.rel_some_some] at hrel
    exact (untold_iff hsame hid).mp hrel
  · intro hrep v history hh
    rw [hu] at hh
    rw [hv]
    cases hr : x.state.db.vms.find? v with
    | none => simp [no_copies h hh hr]
    | some r =>
      obtain ⟨r₀, hr₀, hsame, hid, -⟩ := copies h hh hr
      simp only [hr₀, Option.map_some, Option.rel_some_some]
      by_cases hvu : v = u.vmId
      · subst hvu
        exact (untold_iff hsame hid).mpr (hrep r hr)
      · rw [rowUpdate_other (hid ▸ hvu)]
        exact hsame

/-- From equal copies a turn leads to equal copies exactly if it is harmless. -/
private theorem turn_iff {l : TurnLabel} (hc : Clear x) (h : Follows vms x) (hs : Turn env x l y) :
    Follows vms y ↔ Harmless x l := by
  cases hs with
  | start ho =>
    obtain ⟨hv, hu⟩ := operation_keeps ho
    exact iff_of_true (follows_same h hv hu) trivial
  | crash i => exact iff_of_true h trivial
  | expire vmId => exact iff_of_true h trivial
  | restart => exact iff_of_true h trivial
  | refused e hp hw => exact iff_of_true h trivial
  | act hp hw he =>
    refine iff_of_true ?_ trivial
    rcases plain_or_lcm hw (clear_at hc hp).1 with hplain | ⟨m, s, rfl, hm⟩
    · obtain ⟨hv, hu⟩ := plain_effect hplain he
      exact follows_same h hv hu
    · rcases he with rfl | rfl
      · exact h
      · exact follows_lcm h hm rfl rfl
  | told now r hp hw hk =>
    exact follows_told h (news_after hw (clear_at hc hp) hk).1 (find?_written _) rfl
  | unpublished now e hp hw hk => exact follows_untold h (find?_written _) rfl
  | unconfirmed now e hp hw => exact follows_untold h (find?_written _) rfl

/-- The copy of the VM service follows the worker's all along a run exactly if every published
write fits the row it meets and every other write repeats what the row says. -/
theorem copies_agree_iff (env : Env) (w : World) (hnew : w.updates = [])
    {trace : List (TurnLabel × PlanePool)} {z : PlanePool} (h : Run (Turn env) ⟨w, []⟩ trace z) :
    (∀ e ∈ trace, Follows w.db.vms e.2) ↔ Along Harmless ⟨w, []⟩ trace := by
  have hclear : Clear ⟨w, []⟩ := by simp [Clear]
  have hstart : Follows w.db.vms ⟨w, []⟩ := by
    intro v history hh
    obtain rfl : history = [] := List.map_eq_nil_iff.mp (hh.trans hnew)
    cases w.db.vms.find? v with
    | none => simp
    | some r => simpa [rowAfter] using SameCopy.refl r
  exact h.forall_iff (J := Clear) (fun _ _ _ hc hs => clear_turn hc hs)
    (fun _ _ _ hc hf hs => turn_iff hc hf hs) hclear hstart

end Follow

section Sample

private def copyEnv : Env where
  cfg := { lower := id, asciiFold := id }
  uuid s := isUuidText s = true

private def copyId : String := "0b0e3c1a-5d2f-4f6a-9c3e-1a2b3c4d5e6f"

private def copyUser : String := "7f1d6c1e-3a52-4c8b-9d07-5b1f0e2a6c34"

private def copyVm (status : VmStatus) (stoppedAt : Option Nat) : VmRow :=
  { VmRow.sample copyId copyUser with status := status, oneVmId := some 7, stoppedAt := stoppedAt }

private def copyWorld (status : VmStatus) (stoppedAt : Option Nat) : World :=
  World.initial ⟨Table.empty.insert (copyVm status stoppedAt) (by simp), .empty⟩

private def copyMessage (action : String) : Dict :=
  [("vmId", .str copyId), ("oneVmId", .int 7), ("action", .str action), ("userId", .str copyUser)]

private def copyNews (status : VmStatus) (action : String) : StatusUpdate :=
  { vmId := copyId, status := .row status, oneVmId := some 7, action := some action }

/-- Turns in which the bus takes every message and no write is lost from sight. -/
def ToldTurn (env : Env) (x : PlanePool) (l : TurnLabel) (y : PlanePool) : Prop :=
  Turn env x l y ∧ ∀ u, l ≠ .untold u

private theorem started_run : Reaches (ToldTurn copyEnv) ⟨copyWorld .stopped (some 5), []⟩
    fun y => ¬ Follows (copyWorld .stopped (some 5)).db.vms y := by
  apply Reaches.next ⟨.start (.message .vmAction (copyMessage "start")), by simp⟩
  apply Reaches.next ⟨.act (i := 0) (c := .oneVmAction "resume" 7) (r := .ok ()) rfl
    (by intro u; cases u <;> simp [RowWrite.call]) rfl, by simp⟩
  apply Reaches.next ⟨.told (i := 0) (u := .status { vmId := copyId, status := .running })
    (m := copyNews .running "start") 9 (.ok ()) rfl (.status _ _) rfl, by simp⟩
  apply Reaches.here
  intro h
  have hrel : Option.Rel SameCopy
      (some (StatusWrite.apply { vmId := copyId, status := .running } 9 (copyVm .stopped (some 5))))
      (some (received 9 (copyNews .running "start") (copyVm .stopped (some 5)))) :=
    h copyId [(9, copyNews .running "start")] rfl
  have hsame := Option.rel_some_some.mp hrel
  have hcleared : (received 9 (copyNews .running "start") (copyVm .stopped (some 5))).stoppedAt =
    none := rfl
  exact absurd (hsame.stoppedAt.mpr hcleared) (by simp [StatusWrite.apply, copyVm])

/-- The copies part although every write is published: a machine that was stopped is started. -/
theorem started_machine_copies_differ :
    ¬ ∀ (env : Env) (w : World), w.updates = [] →
      ∀ (trace : List (TurnLabel × PlanePool)) (z : PlanePool),
        Run (ToldTurn env) ⟨w, []⟩ trace z → Follows w.db.vms z := by
  intro h
  obtain ⟨trace, z, hrun, hz⟩ := started_run
  exact hz (h copyEnv (copyWorld .stopped (some 5)) rfl trace z hrun)

private theorem stopped_run :
    ∃ trace z, Run (Turn copyEnv) ⟨copyWorld .running none, []⟩ trace z ∧
      (∃ r, z.state.db.vms.find? copyId = some r ∧ r.status = .stopped) ∧
      Along Harmless ⟨copyWorld .running none, []⟩ trace := by
  refine ⟨_, _, .head (.start (.message .vmAction (copyMessage "stop"))) (.head
    (.act (i := 0) (c := .oneVmAction "poweroff" 7) (r := .ok ()) rfl
      (by intro u; cases u <;> simp [RowWrite.call]) rfl)
    (.single (.told (i := 0) (u := .status { vmId := copyId, status := .stopped })
      (m := copyNews .stopped "stop") 9 (.ok ()) rfl (.status _ _) rfl))), ?_, ?_⟩
  · exact ⟨_, rfl, rfl⟩
  · refine ⟨trivial, trivial, ?_, trivial⟩
    intro r hr
    obtain rfl : copyVm .running none = r := Option.some.inj hr
    refine ⟨by simp, by simp, fun _ => .inr rfl⟩

theorem copies_agree_iff_first_stop :
    ∃ trace z, Run (Turn copyEnv) ⟨copyWorld .running none, []⟩ trace z ∧
      (∃ r, z.state.db.vms.find? copyId = some r ∧ r.status = .stopped) ∧
      ∀ e ∈ trace, Follows (copyWorld .running none).db.vms e.2 := by
  obtain ⟨trace, z, hrun, hstopped, hharmless⟩ := stopped_run
  exact ⟨trace, z, hrun, hstopped, (copies_agree_iff copyEnv _ rfl hrun).mpr hharmless⟩

end Sample

end CloudVM.Split
