import CloudVM.Framework.Logic
import CloudVM.Plane.World
import CloudVM.Vm.Handover

/-!
# A status message that comes again

The worker tells the same status many times: from its handlers, from its poller and from its sync.
The subscriber of the VM service sets `stoppedAt` with every message of `STOPPED`, `SUSPENDED` or
`ERROR`, while the worker's own writer keeps the first value.
-/

namespace CloudVM.Plane

open Process VmService Worker

section Table

def writtenRows (c : VmCall) (now : Nat) (vms : VmTable) : VmTable :=
  vms.modify (fun _ => true) (rowUpdate now c) (rowUpdate_id now c)

def tableAnswer (now : Nat) : (c : VmCall) → VmTable → c.Answer × VmTable
  | .now, vms => (now, vms)
  | .markDeleted vmId, vms =>
      (.ok (vms.find? vmId).toList.length, writtenRows (.markDeleted vmId) now vms)
  | .stampStopped vmId, vms =>
      (.ok ((vms.find? vmId).filter fun r => r.stoppedAt.isNone).toList.length,
        writtenRows (.stampStopped vmId) now vms)
  | .patchStatus vmId p, vms =>
      (.ok (vms.find? vmId).toList.length, writtenRows (.patchStatus vmId p) now vms)
  | .updateVmStatus u, vms => (.ok (), writtenRows (.updateVmStatus u) now vms)
  | .deleteVmRecord vmId, vms => (.ok (), writtenRows (.deleteVmRecord vmId) now vms)
  | c, vms => (noAnswer c, vms)

/-- The table after a process of the VM service or of the worker. -/
def settle {α : Type} (p : VmProcess α) (now : Nat) (vms : VmTable) : VmTable :=
  (p.exec (tableAnswer now) vms).2

@[simp] theorem writtenRows_rows (c : VmCall) (now : Nat) (vms : VmTable) :
    (writtenRows c now vms).rows = vms.rows.map (rowUpdate now c) := by
  simp [writtenRows]

def content (r : VmRow) : VmRow := { r with updatedAt := 0 }

/-- Once and twice leave the same rows, `updatedAt` aside. -/
def Repeatable {α : Type} (p : VmProcess α) (t₁ t₂ : Nat) (vms : VmTable) : Prop :=
  (settle p t₂ (settle p t₁ vms)).rows.map content = (settle p t₁ vms).rows.map content

end Table

section Rows

variable {m : StatusUpdate} {now : Nat} {vms : VmTable}

def handled (m : StatusUpdate) (now : Nat) (r : VmRow) : VmRow :=
  match m.status with
  | .lcm _ => r
  | .row .deleted => rowUpdate now (.deleteVmRecord m.vmId) r
  | .row status => rowUpdate now (.patchStatus m.vmId (statusPatch m status now)) r

private theorem stamp_mark (vmId : String) (now : Nat) (r : VmRow) :
    rowUpdate now (.stampStopped vmId) (rowUpdate now (.markDeleted vmId) r) =
      rowUpdate now (.deleteVmRecord vmId) r := by
  by_cases hid : r.id = vmId
  · cases hstopped : r.stoppedAt <;> simp [rowUpdate, hid, hstopped]
  · simp [rowUpdate, hid]

theorem onStatusUpdate_settle (m : StatusUpdate) (now : Nat) (vms : VmTable) :
    (settle (onStatusUpdate m) now vms).rows = vms.rows.map (handled m now) := by
  unfold settle onStatusUpdate
  cases hs : m.status with
  | lcm s =>
    have hrow : handled m now = id := by
      funext r
      simp [handled, hs]
    rw [hrow, List.map_id]
    rfl
  | row s =>
    by_cases hdeleted : s = .deleted
    · subst hdeleted
      have hrow : handled m now = rowUpdate now (.deleteVmRecord m.vmId) := by
        funext r
        simp [handled, hs]
      rw [hrow]
      simp only [exec_tryCatch, exec_bind, exec_call, tableAnswer, exec_ofExcept]
      cases hfind : vms.find? m.vmId with
      | none =>
        have hnone := vms.find?_eq_none.mp hfind
        show (writtenRows (.markDeleted m.vmId) now vms).rows = _
        rw [writtenRows_rows]
        apply List.map_congr_left
        intro r hr
        simp [rowUpdate, hnone r hr]
      | some r =>
        show (writtenRows (.stampStopped m.vmId) now (writtenRows (.markDeleted m.vmId) now vms)).rows = _
        rw [writtenRows_rows, writtenRows_rows, List.map_map]
        apply List.map_congr_left
        intro r _
        exact stamp_mark m.vmId now r
    · have hrow : handled m now = rowUpdate now (.patchStatus m.vmId (statusPatch m s now)) := by
        funext r
        cases s <;> simp [handled, hs] at hdeleted ⊢
      rw [hrow, ← writtenRows_rows]
      cases s <;> first | exact absurd rfl hdeleted | rfl

theorem updateVmStatus_settle (u : StatusWrite) (now : Nat) (vms : VmTable) :
    (settle (updateVmStatus u) now vms).rows = vms.rows.map (rowUpdate now (.updateVmStatus u)) := by
  rw [← writtenRows_rows]
  rfl

theorem deleteVmRecord_settle (vmId : String) (now : Nat) (vms : VmTable) :
    (settle (deleteVmRecord vmId) now vms).rows =
      vms.rows.map (rowUpdate now (.deleteVmRecord vmId)) := by
  rw [← writtenRows_rows]
  rfl

end Rows

section Repetition

variable {t₁ t₂ : Nat} {vms : VmTable}

private theorem or_again {β : Type} (a b : Option β) : a.or (a.or b) = a.or b := by
  rw [← Option.or_assoc, Option.or_self]

private theorem repeatable_iff {α : Type} {p : VmProcess α} {f : Nat → VmRow → VmRow}
    (hp : ∀ now vms, (settle p now vms).rows = vms.rows.map (f now)) :
    Repeatable p t₁ t₂ vms ↔
      ∀ r ∈ vms.rows, content (f t₂ (f t₁ r)) = content (f t₁ r) := by
  rw [Repeatable, hp, hp, List.map_map, List.map_map, List.map_map, List.map_inj_left]
  rfl

theorem updateVmStatus_repeatable (u : StatusWrite) :
    Repeatable (updateVmStatus u) t₁ t₂ vms := by
  rw [repeatable_iff (updateVmStatus_settle u)]
  intro r _
  by_cases hid : r.id = u.vmId
  · by_cases hstopped : u.status = .stopped
    · cases hs : r.stoppedAt <;>
        simp [rowUpdate, StatusWrite.apply, content, hid, hstopped, hs, or_again]
    · simp [rowUpdate, StatusWrite.apply, content, hid, hstopped, or_again]
  · simp [rowUpdate, hid]

private theorem deleteVmRecord_row (vmId : String) (r : VmRow) :
    content (rowUpdate t₂ (.deleteVmRecord vmId) (rowUpdate t₁ (.deleteVmRecord vmId) r)) =
      content (rowUpdate t₁ (.deleteVmRecord vmId) r) := by
  by_cases hid : r.id = vmId
  · cases hs : r.stoppedAt <;> simp [rowUpdate, content, hid, hs]
  · simp [rowUpdate, hid]

theorem deleteVmRecord_repeatable (vmId : String) :
    Repeatable (deleteVmRecord vmId) t₁ t₂ vms := by
  rw [repeatable_iff (deleteVmRecord_settle vmId)]
  intro r _
  exact deleteVmRecord_row vmId r

/-- The statuses with which the subscriber sets `stoppedAt` anew. -/
def Stamps (status : UpdateStatus) : Prop :=
  status = .row .stopped ∨ status = .row .suspended ∨ status = .row .error

private theorem patch_repeats_iff (m : StatusUpdate) {status : VmStatus} (hs : m.status = .row status)
    (hdeleted : status ≠ .deleted) (ht : t₁ < t₂) {r : VmRow} (hid : r.id = m.vmId) :
    content (handled m t₂ (handled m t₁ r)) = content (handled m t₁ r) ↔ ¬ Stamps m.status := by
  have hne : t₂ ≠ t₁ := by omega
  cases status <;>
    simp [handled, hs, rowUpdate, hid, StatusPatch.apply, statusPatch, content, Stamps,
      or_again, hne] at hdeleted ⊢

private theorem handled_repeats_iff (m : StatusUpdate) (ht : t₁ < t₂) (r : VmRow) :
    content (handled m t₂ (handled m t₁ r)) = content (handled m t₁ r) ↔
      (Stamps m.status → r.id ≠ m.vmId) := by
  by_cases hid : r.id = m.vmId
  · cases hs : m.status with
    | lcm s => simp [handled, hs, Stamps]
    | row status =>
      by_cases hdeleted : status = .deleted
      · subst hdeleted
        have hrepeats := @deleteVmRecord_row t₁ t₂ m.vmId r
        simpa [handled, hs, Stamps] using hrepeats
      · have hpatch := patch_repeats_iff m hs hdeleted ht hid
        rw [hs] at hpatch
        rw [hpatch]
        constructor
        · intro hnot hstamps
          exact absurd hstamps hnot
        · intro h hstamps
          exact h hstamps hid
  · have hsame : ∀ now, handled m now r = r := by
      intro now
      simp only [handled]
      split <;> simp [rowUpdate, hid]
    rw [hsame, hsame]
    exact iff_of_true rfl fun _ => hid

/-- A message may come twice exactly if it does not set `stoppedAt`, or is about no row. -/
theorem repeated_update_iff (m : StatusUpdate) (ht : t₁ < t₂) (vms : VmTable) :
    Repeatable (onStatusUpdate m) t₁ t₂ vms ↔
      (Stamps m.status → ∀ r ∈ vms.rows, r.id ≠ m.vmId) := by
  rw [repeatable_iff (onStatusUpdate_settle m)]
  simp only [handled_repeats_iff m ht]
  constructor
  · intro h hstamps r hr
    exact h r hr hstamps
  · intro h r hr hstamps
    exact h hstamps r hr

/-- A table with one VM, and a message about it. -/
def toldTable : VmTable :=
  ⟨[{ id := "vm1", name := "web-1", status := .running, cpu := 1, ramMb := 1024, diskGb := 10,
      osTemplate := "Ubuntu 24.04", userId := "u1", createdAt := 0, updatedAt := 0 }],
    List.nodup_singleton _⟩

def toldStatus (status : VmStatus) : StatusUpdate where
  vmId := "vm1"
  status := .row status

theorem repeated_update_iff_running :
    Repeatable (onStatusUpdate (toldStatus .running)) 1000 2000 toldTable :=
  (repeated_update_iff (toldStatus .running) (by decide) toldTable).mpr (by simp [Stamps, toldStatus])

/-- The second message of a stop moves the time of the stop. -/
theorem repeated_stop_stamps_again :
    ¬ ∀ (m : StatusUpdate) (t₁ t₂ : Nat) (vms : VmTable), t₁ < t₂ →
      Repeatable (onStatusUpdate m) t₁ t₂ vms := by
  intro h
  have hsame := h (toldStatus .stopped) 1000 2000 toldTable (by decide)
  revert hsame
  unfold Repeatable
  decide

end Repetition

end CloudVM.Plane
